import HubRelay.Proofs.Json.Grammar

/-!
The reader accepts what the grammar derives.

The reader is followed through a text along the rules that derive it (`run_writes`). Behind a value
it is `Settled`: the value is closed, or it is a number, which could still go on. From there,
whatever ends the value is taken as if it were closed.
-/

namespace HubRelay.Json.State

variable {s t : State} {frames : List Frame} {closable isKey : Bool} {c : Char} {text : List Char}
  {value : Value} {digits : Option Nat}

/-! ### Characters that change nothing -/

/-- Characters that leave the state alone can be read in any number. -/
theorem run_of_keeps {p : Char → Prop} (keeps : ∀ c, p c → s.step c = some s)
    (all : ∀ c ∈ text, p c) : s.run text = some s := by
  induction text with
  | nil => rfl
  | cons c rest ih =>
      rw [run_cons, keeps c (all c List.mem_cons_self), Option.bind_some]
      exact ih fun d mem => all d (List.mem_cons_of_mem _ mem)

/-- Blanks before a value are skipped. -/
theorem run_blank_value (blank : Blank text) :
    run ⟨.value closable, frames⟩ text = some ⟨.value closable, frames⟩ := by
  refine run_of_keeps (fun c here => ?_) blank
  simp [step, here]

/-- Blanks before a key are skipped. -/
theorem run_blank_key (blank : Blank text) :
    run ⟨.key closable, frames⟩ text = some ⟨.key closable, frames⟩ := by
  refine run_of_keeps (fun c here => ?_) blank
  simp [step, here]

/-- Blanks before a colon are skipped. -/
theorem run_blank_colon (blank : Blank text) :
    run ⟨.colon, frames⟩ text = some ⟨.colon, frames⟩ := by
  refine run_of_keeps (fun c here => ?_) blank
  simp [step, here]

/-- After a value is closed, the next character is looked at as one that follows a value. -/
theorem step_close (frames : List Frame) (value : Value) (c : Char) :
    (close frames value).step c = (close frames value).afterValue c := by
  cases frames with
  | nil => rfl
  | cons frame rest => cases frame <;> rfl

/-- A blank after a closed value changes nothing. -/
theorem step_blank_close (blank : isBlank c = true) :
    (close frames value).step c = some (close frames value) := by
  rw [step_close]
  cases frames with
  | nil => simp [close, afterValue, blank]
  | cons frame rest => cases frame <;> simp [close, afterValue, continueAfter, blank]

/-! ### Behind a value -/

/-- The reader behind a value: the value is closed, or it is a number that may end here. A number is
closed by what follows it, and this is the one kind of value that has to be waited for. -/
inductive Settled (frames : List Frame) : Value → State → Prop
  | closed (value : Value) : Settled frames value (close frames value)
  | number {part : NumberPart} (digits : Option Nat) : part.isWhole = true →
      Settled frames (.number digits) ⟨.number part digits, frames⟩

/-- What ends a number. -/
def Ends (c : Char) : Prop := isBlank c = true ∨ c = ',' ∨ c = ']' ∨ c = '\x7d'

/-- JSON knows four blanks. -/
theorem isBlank_iff : isBlank c = true ↔ c = ' ' ∨ c = '\n' ∨ c = '\t' ∨ c = '\r' := by
  simp [isBlank, or_assoc]

/-- No number goes on with a character that ends it. -/
theorem extendNumber_of_ends (ends : Ends c) (part : NumberPart) :
    extendNumber part digits c = none := by
  rw [Ends, isBlank_iff] at ends
  rcases ends with (rfl | rfl | rfl | rfl) | rfl | rfl | rfl <;> cases part <;> rfl

/-- A settled value reads an ending character as if it had been closed before. Only numbers are
settled without being closed. -/
theorem Settled.step_eq (settled : Settled frames value s) (ends : Ends c) :
    s.step c = (close frames value).step c := by
  cases settled with
  | closed => rfl
  | number digits whole =>
      rw [step_close]
      simp [step, extendNumber_of_ends ends, whole]

/-- A value stays settled under the blanks that follow it. -/
theorem Settled.run_blank (settled : Settled frames value s) (blank : Blank text) :
    ∃ t, s.run text = some t ∧ Settled frames value t := by
  cases text with
  | nil => exact ⟨s, rfl, settled⟩
  | cons c rest =>
      have here := blank c List.mem_cons_self
      refine ⟨close frames value, ?_, .closed value⟩
      rw [run_cons, settled.step_eq (.inl here), step_blank_close here, Option.bind_some]
      exact run_of_keeps (fun d => step_blank_close) fun d mem =>
        blank d (List.mem_cons_of_mem _ mem)

/-- Behind blanks the end of the surroundings, or of the member, is taken. -/
theorem Settled.run_end (settled : Settled frames value s) (blank : Blank text) (ends : Ends c) :
    s.run (text ++ [c]) = (close frames value).step c := by
  obtain ⟨t, reached, settled⟩ := settled.run_blank blank
  rw [run_append, reached, Option.bind_some, run_cons, settled.step_eq ends]
  cases (close frames value).step c <;> rfl

/-! ### Opening a value -/

/-- Neither a blank nor the end of an array opens a value. -/
theorem step_value (opened : openValue ⟨.value closable, frames⟩ c = some t) :
    step ⟨.value closable, frames⟩ c = some t := by
  have no_blank : isBlank c = false := by
    rw [Bool.eq_false_iff, ne_eq, isBlank_iff]
    rintro (rfl | rfl | rfl | rfl) <;> cases opened
  have no_end : (c == ']') = false := by
    rw [beq_eq_false_iff_ne]
    rintro rfl
    cases opened
  simpa [step, no_blank, no_end] using opened

/-- A digit other than zero opens a number that goes on. -/
theorem openValue_digit (digit : IsDigit c) (not_zero : c ≠ '0') :
    s.openValue c = some ⟨.number .digits (some (c.toNat - 48)), s.frames⟩ := by
  have value := decimalDigit?_eq_some_iff.mpr ⟨digit, rfl⟩
  unfold IsDigit at digit
  unfold openValue
  split
  all_goals first | exact absurd digit (by decide) | exact absurd rfl not_zero | rw [value]; rfl

/-! ### Numbers -/

/-- Digits are gathered from the left in base ten, as long as the number has no fraction or
exponent. -/
theorem run_digits (all : ∀ c ∈ text, IsDigit c) :
    run ⟨.number .digits digits, frames⟩ text =
      some ⟨.number .digits (digits.map fun n => text.foldl (fun n c => 10 * n + (c.toNat - 48)) n),
        frames⟩ := by
  induction text generalizing digits with
  | nil => simp [run]
  | cons c rest ih =>
      have value := decimalDigit?_eq_some_iff.mpr ⟨all c List.mem_cons_self, rfl⟩
      have taken : step ⟨.number .digits digits, frames⟩ c =
          some ⟨.number .digits (digits.map (10 * · + (c.toNat - 48))), frames⟩ := by
        simp [step, extendNumber, value]
      rw [run_cons, taken, Option.bind_some, ih fun d mem => all d (List.mem_cons_of_mem _ mem)]
      simp [Function.comp_def]

/-- Where only digits can come, the first one leads to a part that the others do not leave. -/
theorem run_more {part later : NumberPart} (more : Digits text)
    (first : ∀ c d, decimalDigit? c = some d → extendNumber part none c = some (later, none))
    (again : ∀ c d, decimalDigit? c = some d → extendNumber later none c = some (later, none)) :
    run ⟨.number part none, frames⟩ text = some ⟨.number later none, frames⟩ := by
  obtain ⟨nonempty, all⟩ := more
  have value {c : Char} (digit : IsDigit c) := decimalDigit?_eq_some_iff.mpr ⟨digit, rfl⟩
  cases text with
  | nil => exact absurd rfl nonempty
  | cons c text =>
      have start : step ⟨.number part none, frames⟩ c = some ⟨.number later none, frames⟩ := by
        simp [step, first c _ (value (all c List.mem_cons_self))]
      rw [run_cons, start, Option.bind_some]
      refine run_of_keeps (fun d digit => ?_) fun d mem => all d (List.mem_cons_of_mem _ mem)
      simp [step, again d _ (value digit)]

/-- A point has to be followed by a digit, and the number is no integer from then on. -/
theorem run_fraction (more : Digits text) :
    run ⟨.number .point none, frames⟩ text = some ⟨.number .fraction none, frames⟩ :=
  run_more more (fun c d digit => by simp [extendNumber, digit])
    fun c d digit => by simp [extendNumber, digit]

/-- The digits of an exponent may follow its mark at once. -/
theorem run_exponent (more : Digits text) :
    run ⟨.number .mark none, frames⟩ text = some ⟨.number .exponent none, frames⟩ :=
  run_more more (fun c d digit => by simp [extendNumber, digit])
    fun c d digit => by simp [extendNumber, digit]

/-- They may also follow a sign. -/
theorem run_signedExponent (more : Digits text) :
    run ⟨.number .markSign none, frames⟩ text = some ⟨.number .exponent none, frames⟩ :=
  run_more more (fun c d digit => by simp [extendNumber, digit])
    fun c d digit => by simp [extendNumber, digit]

/-- The first digit behind a sign, if it is no zero. -/
theorem step_sign (digit : IsDigit c) (not_zero : c ≠ '0') :
    step ⟨.number .sign none, frames⟩ c = some ⟨.number .digits none, frames⟩ := by
  obtain ⟨d, value⟩ : ∃ d, decimalDigit? c = some (d + 1) := by
    have above : '0'.toNat < c.toNat :=
      Nat.lt_of_le_of_ne digit.1 fun same => not_zero (Char.toNat_inj.mp same.symm)
    have zero : '0'.toNat = 48 := rfl
    exact ⟨c.toNat - 49, decimalDigit?_eq_some_iff.mpr ⟨digit, by omega⟩⟩
  simp [step, extendNumber, value]

/-- The reader takes every integer of the grammar and knows its value. -/
theorem run_integer (integer : Integer text digits) :
    ∃ part, (part = .zero ∨ part = .digits) ∧
      run ⟨.value closable, frames⟩ text = some ⟨.number part digits, frames⟩ := by
  cases integer with
  | plain whole =>
      rcases whole with rfl | ⟨⟨nonempty, all⟩, no_zero⟩
      · exact ⟨.zero, .inl rfl, by cases closable <;> rfl⟩
      · refine ⟨.digits, .inr rfl, ?_⟩
        obtain ⟨c, rest, rfl⟩ := List.exists_cons_of_ne_nil nonempty
        have opened : openValue ⟨.value closable, frames⟩ c = _ :=
          openValue_digit (all c List.mem_cons_self) (by simpa using no_zero)
        rw [run_cons, step_value opened, Option.bind_some,
          run_digits fun d mem => all d (List.mem_cons_of_mem _ mem)]
        simp [decimal]
  | negative whole =>
      rw [run_cons, step_value rfl, Option.bind_some]
      rcases whole with rfl | ⟨⟨nonempty, all⟩, no_zero⟩
      · exact ⟨.zero, .inl rfl, rfl⟩
      · refine ⟨.digits, .inr rfl, ?_⟩
        obtain ⟨c, rest, rfl⟩ := List.exists_cons_of_ne_nil nonempty
        rw [run_cons, step_sign (all c List.mem_cons_self) (by simpa using no_zero),
          Option.bind_some, run_digits fun d mem => all d (List.mem_cons_of_mem _ mem)]
        rfl

/-- A fraction is taken too. What is read then is no integer any more. -/
theorem run_fractional (fractional : Fractional text digits) :
    ∃ part, (part = .zero ∨ part = .digits ∨ part = .fraction) ∧
      run ⟨.value closable, frames⟩ text = some ⟨.number part digits, frames⟩ := by
  cases fractional with
  | integer integer =>
      obtain ⟨part, part_eq, reached⟩ := run_integer integer
      exact ⟨part, part_eq.imp_right .inl, reached⟩
  | fraction integer more =>
      obtain ⟨part, part_eq, reached⟩ := run_integer integer
      refine ⟨.fraction, .inr (.inr rfl), ?_⟩
      have point (digits : Option Nat) :
          step ⟨.number part digits, frames⟩ '.' = some ⟨.number .point none, frames⟩ := by
        rcases part_eq with rfl | rfl <;> rfl
      rw [run_append, reached, Option.bind_some, run_cons, point, Option.bind_some,
        run_fraction more]

/-- Every number of the grammar is taken, with sign, fraction and exponent. -/
theorem run_number (number : Number text digits) :
    ∃ part, part.isWhole = true ∧
      run ⟨.value closable, frames⟩ text = some ⟨.number part digits, frames⟩ := by
  have mark {part : NumberPart} {digits : Option Nat} {c : Char}
      (part_eq : part = .zero ∨ part = .digits ∨ part = .fraction) (marks : IsMark c) :
      step ⟨.number part digits, frames⟩ c = some ⟨.number .mark none, frames⟩ := by
    rcases marks with rfl | rfl <;> rcases part_eq with rfl | rfl | rfl <;> rfl
  cases number with
  | fractional fractional =>
      obtain ⟨part, part_eq, reached⟩ := run_fractional fractional
      exact ⟨part, by rcases part_eq with rfl | rfl | rfl <;> rfl, reached⟩
  | exponent fractional marks more =>
      obtain ⟨part, part_eq, reached⟩ := run_fractional fractional
      refine ⟨.exponent, rfl, ?_⟩
      rw [run_append, reached, Option.bind_some, run_cons, mark part_eq marks, Option.bind_some,
        run_exponent more]
  | @signed text more digits mark' sign fractional marks signs more =>
      obtain ⟨part, part_eq, reached⟩ := run_fractional fractional
      have signed : step ⟨.number .mark none, frames⟩ sign =
          some ⟨.number .markSign none, frames⟩ := by
        rcases signs with rfl | rfl <;> rfl
      refine ⟨.exponent, rfl, ?_⟩
      rw [run_append, reached, Option.bind_some, run_cons, mark part_eq marks, Option.bind_some,
        run_cons, signed, Option.bind_some, run_signedExponent more]

/-! ### Strings -/

/-- The digits of a unit that are still to come. -/
theorem run_unit {pieces : List Piece} {left code unit : Nat} (length : text.length = left + 1)
    (denotes : Text.Hex.ofDigitsFrom? code text = some unit) :
    run ⟨.unit isKey pieces (left + 1) code, frames⟩ text =
      some ⟨.text isKey (.unit unit :: pieces), frames⟩ := by
  induction text generalizing left code with
  | nil => cases length
  | cons c rest ih =>
      rw [Text.Hex.ofDigitsFrom?] at denotes
      cases digit : Text.Hex.value? c with
      | none => simp [digit] at denotes
      | some d =>
          simp only [digit] at denotes
          rw [run_cons]
          cases left with
          | zero =>
              obtain rfl := List.eq_nil_of_length_eq_zero (Nat.succ.inj length)
              obtain rfl := Option.some.inj denotes
              simp [step, digit, run]
          | succ left =>
              have taken : step ⟨.unit isKey pieces (left + 1 + 1) code, frames⟩ c =
                  some ⟨.unit isKey pieces (left + 1) (16 * code + d), frames⟩ := by
                simp [step, digit]
              rw [taken, Option.bind_some]
              exact ih (Nat.succ.inj length) denotes

/-- Each way to spell a character inside quotes adds this character. -/
theorem run_spells {piece : Piece} (spells : Spells text piece) (pieces : List Piece) :
    run ⟨.text isKey pieces, frames⟩ text = some ⟨.text isKey (piece :: pieces), frames⟩ := by
  cases spells with
  | plain plain =>
      obtain ⟨no_quote, no_escape, no_control⟩ := plain
      simp [run, step, no_quote, no_escape, Nat.not_lt.mpr no_control]
  | @letter c piece letter =>
      have no_unit : c ≠ 'u' := by
        rintro rfl
        cases letter
      simp [run, step, no_unit, letter]
  | unit length denotes =>
      have escape : step ⟨.text isKey pieces, frames⟩ '\\' =
          some ⟨.escape isKey pieces, frames⟩ := rfl
      have unit : step ⟨.escape isKey pieces, frames⟩ 'u' =
          some ⟨.unit isKey pieces 4 0, frames⟩ := rfl
      rw [run_cons, escape, Option.bind_some, run_cons, unit, Option.bind_some]
      exact run_unit length denotes

/-- The reader keeps the pieces of a text in the reverse order. -/
theorem run_quoted {pieces : List Piece} (quoted : Quoted text pieces) :
    run ⟨.text isKey [], frames⟩ text = some ⟨.text isKey pieces.reverse, frames⟩ := by
  induction quoted with
  | empty => rfl
  | more _ spells ih =>
      rw [run_append, ih, Option.bind_some, run_spells spells, List.reverse_concat]

/-- A key is taken together with its colon, after which a value must follow. -/
theorem run_named {fields : List (Option (List Char) × Value)} {key : Option (List Char)}
    (named : Named text key) :
    run ⟨.key closable, .object fields none :: frames⟩ text =
      some ⟨.value false, .object fields key :: frames⟩ := by
  cases named with
  | name front quoted back =>
      have opened : step ⟨.key closable, .object fields none :: frames⟩ '"' =
          some ⟨.text true [], .object fields none :: frames⟩ := rfl
      have closed (pieces : List Piece) :
          step ⟨.text true pieces, .object fields none :: frames⟩ '"' =
            some ⟨.colon, .object fields (spell? pieces.reverse) :: frames⟩ := rfl
      rw [run_append, run_append, run_append, run_blank_key front, Option.bind_some, run_cons,
        opened, Option.bind_some, run_quoted quoted, Option.bind_some, run_cons, closed,
        Option.bind_some, run_blank_colon back, Option.bind_some, List.reverse_reverse]
      rfl

/-! ### Values -/

/-- The three words of JSON are closed by their last letter. -/
theorem run_word {rest : List Char} (opened : openValue ⟨.value closable, frames⟩ c =
      some ⟨.word rest value, frames⟩) (some_left : rest ≠ []) :
    run ⟨.value closable, frames⟩ (c :: rest) = some (close frames value) := by
  have taken (rest : List Char) (some_left : rest ≠ []) :
      run ⟨.word rest value, frames⟩ rest = some (close frames value) := by
    induction rest with
    | nil => exact absurd rfl some_left
    | cons c rest ih =>
        cases rest with
        | nil => simp [run, step]
        | cons d rest =>
            have next : step ⟨.word (c :: d :: rest) value, frames⟩ c =
                some ⟨.word (d :: rest) value, frames⟩ := by simp [step]
            rw [run_cons, next, Option.bind_some]
            exact ih (List.cons_ne_nil d rest)
  rw [run_cons, step_value opened, Option.bind_some]
  exact taken rest some_left

/-- A value with blanks around it, and what ends it. -/
theorem run_member {front body back : List Char}
    (reached : s.run text = some ⟨.value closable, frames⟩) (before : Blank front)
    (whole : ∃ t, run ⟨.value closable, frames⟩ body = some t ∧ Settled frames value t)
    (behind : Blank back) (ends : Ends c) :
    s.run (text ++ front ++ body ++ back ++ [c]) = (close frames value).step c := by
  obtain ⟨t, taken, settled⟩ := whole
  rw [List.append_assoc, run_append, run_append, run_append, reached, Option.bind_some,
    run_blank_value before, Option.bind_some, taken, Option.bind_some, settled.run_end behind ends]

mutual

/-- Behind the text of a value the reader is settled. The induction is mutual, over the rules for
values, items and members, and one case stands for each rule. -/
theorem run_writes {body : List Char} {value : Value} (closable : Bool) (frames : List Frame) :
    Writes body value →
      ∃ t, run ⟨.value closable, frames⟩ body = some t ∧ Settled frames value t
  | .null => ⟨_, run_word rfl (by decide), .closed _⟩
  | .false => ⟨_, run_word rfl (by decide), .closed _⟩
  | .true => ⟨_, run_word rfl (by decide), .closed _⟩
  | .number number => by
      obtain ⟨part, whole, reached⟩ := run_number number
      exact ⟨_, reached, .number _ whole⟩
  | @Writes.string text pieces quoted => by
      have closed : step ⟨.text false pieces.reverse, frames⟩ '"' =
          some (close frames (.string (spell? pieces.reverse.reverse))) := rfl
      refine ⟨close frames (.string (spell? pieces)), ?_, .closed _⟩
      rw [run_append, run_cons, step_value rfl, Option.bind_some, run_quoted quoted,
        Option.bind_some, run_cons, closed, List.reverse_reverse]
      rfl
  | .noItems blank => by
      refine ⟨close frames (.array []), ?_, .closed _⟩
      rw [run_append, run_cons, step_value rfl, Option.bind_some, run_blank_value blank,
        Option.bind_some]
      rfl
  | @Writes.array text _ _ _ items value listed front writes back => by
      refine ⟨close frames (.array (items ++ [value])), ?_, .closed _⟩
      have opened : run ⟨.value closable, frames⟩ ('[' :: text) =
          some ⟨.value items.isEmpty, .array items.reverse :: frames⟩ := by
        rw [run_cons, step_value rfl, Option.bind_some, run_items frames listed]
      have closed : (close (.array items.reverse :: frames) value).step ']' =
          some (close frames (.array (value :: items.reverse).reverse)) := rfl
      rw [run_member opened front (run_writes _ _ writes) back (.inr (.inr (.inl rfl))), closed,
        List.reverse_cons, List.reverse_reverse]
  | .noFields blank => by
      refine ⟨close frames (.object []), ?_, .closed _⟩
      rw [run_append, run_cons, step_value rfl, Option.bind_some, run_blank_key blank,
        Option.bind_some]
      rfl
  | @Writes.object text name _ _ _ fields key value listed named front writes back => by
      refine ⟨close frames (.object (fields ++ [(key, value)])), ?_, .closed _⟩
      have opened : run ⟨.value closable, frames⟩ ('\x7b' :: text ++ name) =
          some ⟨.value false, .object fields.reverse key :: frames⟩ := by
        rw [run_append, run_cons, step_value rfl, Option.bind_some, run_fields frames listed,
          Option.bind_some, run_named named]
      have closed : (close (.object fields.reverse key :: frames) value).step '\x7d' =
          some (close frames (.object ((key, value) :: fields.reverse).reverse)) := rfl
      rw [run_member opened front (run_writes _ _ writes) back (.inr (.inr (.inr rfl))), closed,
        List.reverse_cons, List.reverse_reverse]

/-- Items are gathered in reverse. After a comma another item has to follow. -/
theorem run_items {text : List Char} {items : List Value} (frames : List Frame) :
    Items text items →
      run ⟨.value true, .array [] :: frames⟩ text =
        some ⟨.value items.isEmpty, .array items.reverse :: frames⟩
  | .none => rfl
  | @Items.more _ _ _ _ items value listed front writes back => by
      have next : (close (.array items.reverse :: frames) value).step ',' =
          some ⟨.value false, .array (value :: items.reverse) :: frames⟩ := rfl
      rw [run_member (run_items frames listed) front (run_writes _ _ writes) back (.inr (.inl rfl)),
        next, ← List.reverse_concat]
      simp

/-- Fields of an object are gathered in reverse. After a comma another key has to follow. -/
theorem run_fields {text : List Char} {fields : List (Option (List Char) × Value)}
    (frames : List Frame) :
    Fields text fields →
      run ⟨.key true, .object [] none :: frames⟩ text =
        some ⟨.key fields.isEmpty, .object fields.reverse none :: frames⟩
  | .none => rfl
  | @Fields.more text name _ _ _ fields key value listed named front writes back => by
      have opened : run ⟨.key true, .object [] none :: frames⟩ (text ++ name) =
          some ⟨.value false, .object fields.reverse key :: frames⟩ := by
        rw [run_append, run_fields frames listed, Option.bind_some, run_named named]
      have next : (close (.object fields.reverse key :: frames) value).step ',' =
          some ⟨.key false, .object ((key, value) :: fields.reverse) none :: frames⟩ := rfl
      rw [run_member opened front (run_writes _ _ writes) back (.inr (.inl rfl)), next,
        ← List.reverse_concat]
      simp

end

/-- The text may end wherever the outermost value is settled. -/
theorem Settled.finish? (settled : Settled [] value s) : s.finish? = some value := by
  cases settled with
  | closed => rfl
  | number digits whole => simp [State.finish?, whole]

end HubRelay.Json.State

namespace HubRelay.Json

/-- The reader accepts a text that denotes a value, and reads this value. Blanks may stand on both
sides of it. -/
theorem Denotes.read? {text : List Char} {value : Value} (denotes : Denotes text value) :
    read? text = some value := by
  cases denotes with
  | @text front body back value before writes behind =>
      obtain ⟨t, taken, settled⟩ := State.run_writes false [] writes
      obtain ⟨u, ended, settled⟩ := settled.run_blank behind
      rw [Json.read?, State.run_append, State.run_append, State.initial,
        State.run_blank_value before, Option.bind_some, taken, Option.bind_some, ended,
        Option.bind_some, settled.finish?]

end HubRelay.Json
