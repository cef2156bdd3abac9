import HubRelay.Proofs.Json.Accepting

/-!
The grammar derives what the reader accepts.

`Reached` says what the reader has read when it is in a state: which part of which rules, inside the
arrays and objects that are open. Every character that is taken keeps it (`Reached.step`), so that a
text at whose end a value stands is derived (`read?_eq_some_iff`).
-/

namespace HubRelay.Json

/-! ### Numbers -/

/-- What of a number was read before each of its parts. The constructors follow the parts that a
number may go on with, and each of them holds a beginning of one of the rules. -/
inductive Begun : NumberPart → Option Nat → List Char → Prop
  | sign : Begun .sign none ['-']
  | zero : Begun .zero (some 0) ['0']
  | minusZero : Begun .zero none ['-', '0']
  | digits {text : List Char} : Digits text → text.head? ≠ some '0' →
      Begun .digits (some (decimal text)) text
  | minusDigits {text : List Char} : Digits text → text.head? ≠ some '0' →
      Begun .digits none ('-' :: text)
  | point {text : List Char} {digits : Option Nat} : Integer text digits →
      Begun .point none (text ++ ['.'])
  | fraction {text more : List Char} {digits : Option Nat} : Integer text digits → Digits more →
      Begun .fraction none (text ++ '.' :: more)
  | mark {text : List Char} {digits : Option Nat} {mark : Char} : Fractional text digits →
      IsMark mark → Begun .mark none (text ++ [mark])
  | markSign {text : List Char} {digits : Option Nat} {mark sign : Char} : Fractional text digits →
      IsMark mark → IsSign sign → Begun .markSign none (text ++ [mark, sign])
  | exponent {text more : List Char} {digits : Option Nat} {mark : Char} : Fractional text digits →
      IsMark mark → Digits more → Begun .exponent none (text ++ mark :: more)
  | signedExponent {text more : List Char} {digits : Option Nat} {mark sign : Char} :
      Fractional text digits → IsMark mark → IsSign sign → Digits more →
      Begun .exponent none (text ++ mark :: sign :: more)

variable {part later : NumberPart} {digits digits' : Option Nat} {text : List Char} {c : Char}

theorem Begun.integer (begun : Begun part digits text) (whole : part = .zero ∨ part = .digits) :
    Integer text digits := by
  cases begun with
  | zero => exact .plain (.inl rfl)
  | minusZero => exact .negative (.inl rfl)
  | digits all no_zero => exact .plain (.inr ⟨all, no_zero⟩)
  | minusDigits all no_zero => exact .negative (.inr ⟨all, no_zero⟩)
  | _ => simp at whole

theorem Begun.fractional (begun : Begun part digits text)
    (whole : part = .zero ∨ part = .digits ∨ part = .fraction) : Fractional text digits := by
  rcases whole with rfl | rfl | rfl
  · exact .integer (begun.integer (.inl rfl))
  · exact .integer (begun.integer (.inr rfl))
  · cases begun with
    | fraction integer more => exact .fraction integer more

theorem Begun.number (begun : Begun part digits text) (whole : part.isWhole = true) :
    Number text digits := by
  cases part with
  | zero => exact .fractional (begun.fractional (.inl rfl))
  | digits => exact .fractional (begun.fractional (.inr (.inl rfl)))
  | fraction => exact .fractional (begun.fractional (.inr (.inr rfl)))
  | exponent =>
      cases begun with
      | exponent fractional marks more => exact .exponent fractional marks more
      | signedExponent fractional marks signs more => exact .signed fractional marks signs more
  | sign | point | mark | markSign => cases whole

/-- A number goes on with a point, a letter or a sign. -/
theorem Begun.extend_other (begun : Begun part digits text) (no_digit : decimalDigit? c = none)
    (taken : State.extendNumber part digits c = some (later, digits')) :
    Begun later digits' (text ++ [c]) := by
  have integer_goes_on (integer : Integer text digits)
      (taken : (if c = '.' then some (NumberPart.point, none)
        else if c = 'e' ∨ c = 'E' then some (NumberPart.mark, none) else none) =
          some (later, digits')) : Begun later digits' (text ++ [c]) := by
    split at taken
    · next point =>
      obtain ⟨rfl, rfl⟩ := Prod.mk.inj (Option.some.inj taken)
      subst point
      exact .point integer
    · split at taken
      · next marks =>
        obtain ⟨rfl, rfl⟩ := Prod.mk.inj (Option.some.inj taken)
        exact .mark (.integer integer) marks
      · cases taken
  unfold State.extendNumber at taken
  rw [no_digit] at taken
  cases part with
  | zero => exact integer_goes_on (begun.integer (.inl rfl)) taken
  | digits => exact integer_goes_on (begun.integer (.inr rfl)) taken
  | fraction =>
      simp only at taken
      split at taken
      · next marks =>
        obtain ⟨rfl, rfl⟩ := Prod.mk.inj (Option.some.inj taken)
        exact .mark (begun.fractional (.inr (.inr rfl))) marks
      · cases taken
  | mark =>
      simp only at taken
      split at taken
      · next signs =>
        obtain ⟨rfl, rfl⟩ := Prod.mk.inj (Option.some.inj taken)
        cases begun with
        | mark fractional marks =>
            rw [List.append_assoc]
            exact .markSign fractional marks signs
      · cases taken
  | sign | point | markSign | exponent => cases taken

theorem head?_concat_ne (all : Digits text) (no_zero : text.head? ≠ some '0') :
    (text ++ [c]).head? ≠ some '0' := by
  obtain ⟨d, rest, rfl⟩ := List.exists_cons_of_ne_nil all.1
  exact no_zero

/-- A number goes on with a digit. -/
theorem Begun.extend_digit (begun : Begun part digits text) (digit : IsDigit c)
    (taken : State.extendNumber part digits c = some (later, digits')) :
    Begun later digits' (text ++ [c]) := by
  have value := decimalDigit?_eq_some_iff.mpr ⟨digit, rfl⟩
  unfold State.extendNumber at taken
  rw [value] at taken
  cases begun with
  | sign =>
      have zero : '0'.toNat = 48 := rfl
      cases number : c.toNat - 48 with
      | zero =>
          rw [number] at taken
          obtain ⟨rfl, rfl⟩ := Prod.mk.inj (Option.some.inj taken)
          obtain rfl : c = '0' := Char.toNat_inj.mp (Nat.le_antisymm (by omega) digit.1)
          exact .minusZero
      | succ d =>
          rw [number] at taken
          obtain ⟨rfl, rfl⟩ := Prod.mk.inj (Option.some.inj taken)
          have no_zero : [c].head? ≠ some '0' := by
            rw [List.head?_cons, ne_eq, Option.some.injEq]
            rintro rfl
            omega
          exact .minusDigits (digits_singleton digit) no_zero
  | zero | minusZero => cases taken
  | digits all no_zero =>
      obtain ⟨rfl, rfl⟩ := Prod.mk.inj (Option.some.inj taken)
      rw [Option.map_some, ← decimal_concat]
      exact .digits (all.concat digit) (head?_concat_ne all no_zero)
  | minusDigits all no_zero =>
      obtain ⟨rfl, rfl⟩ := Prod.mk.inj (Option.some.inj taken)
      exact .minusDigits (all.concat digit) (head?_concat_ne all no_zero)
  | point integer =>
      obtain ⟨rfl, rfl⟩ := Prod.mk.inj (Option.some.inj taken)
      rw [List.append_assoc]
      exact .fraction integer (digits_singleton digit)
  | fraction integer more =>
      obtain ⟨rfl, rfl⟩ := Prod.mk.inj (Option.some.inj taken)
      rw [List.append_assoc]
      exact .fraction integer (more.concat digit)
  | mark fractional marks =>
      obtain ⟨rfl, rfl⟩ := Prod.mk.inj (Option.some.inj taken)
      rw [List.append_assoc]
      exact .exponent fractional marks (digits_singleton digit)
  | markSign fractional marks signs =>
      obtain ⟨rfl, rfl⟩ := Prod.mk.inj (Option.some.inj taken)
      rw [List.append_assoc]
      exact .signedExponent fractional marks signs (digits_singleton digit)
  | exponent fractional marks more =>
      obtain ⟨rfl, rfl⟩ := Prod.mk.inj (Option.some.inj taken)
      rw [List.append_assoc]
      exact .exponent fractional marks (more.concat digit)
  | signedExponent fractional marks signs more =>
      obtain ⟨rfl, rfl⟩ := Prod.mk.inj (Option.some.inj taken)
      rw [List.append_assoc]
      exact .signedExponent fractional marks signs (more.concat digit)

theorem Begun.extend (begun : Begun part digits text)
    (taken : State.extendNumber part digits c = some (later, digits')) :
    Begun later digits' (text ++ [c]) := by
  cases value : decimalDigit? c with
  | none => exact begun.extend_other value taken
  | some d => exact begun.extend_digit (decimalDigit?_eq_some_iff.mp value).1 taken

/-! ### Places in a text -/

/-- Where a value can come, inside the arrays and objects that are open. -/
inductive Place : List Frame → List Char → Prop
  | start {front : List Char} : Blank front → Place [] front
  | item {frames : List Frame} {before text front : List Char} {items : List Value} :
      Place frames before → Items text items → Blank front →
      Place (.array items.reverse :: frames) (before ++ '[' :: text ++ front)
  | field {frames : List Frame} {before text name front : List Char}
      {fields : List (Option (List Char) × Value)} {key : Option (List Char)} :
      Place frames before → Fields text fields → Named name key → Blank front →
      Place (.object fields.reverse key :: frames) (before ++ '\x7b' :: text ++ name ++ front)

/-- Where a name, or a string as a value, can come. -/
inductive TextPlace : Bool → List Frame → List Char → Prop
  | value {frames : List Frame} {before : List Char} : Place frames before →
      TextPlace false frames before
  | name {frames : List Frame} {before text front : List Char}
      {fields : List (Option (List Char) × Value)} :
      Place frames before → Fields text fields → Blank front →
      TextPlace true (.object fields.reverse none :: frames) (before ++ '\x7b' :: text ++ front)

/-- What was read when the reader is in a state. -/
inductive Reached : State → List Char → Prop
  | value {frames : List Frame} {text : List Char} : Place frames text →
      Reached ⟨.value false, frames⟩ text
  | firstItem {frames : List Frame} {before front : List Char} : Place frames before →
      Blank front → Reached ⟨.value true, .array [] :: frames⟩ (before ++ '[' :: front)
  | key {frames : List Frame} {text : List Char} : TextPlace true frames text →
      Reached ⟨.key false, frames⟩ text
  | firstKey {frames : List Frame} {before front : List Char} : Place frames before →
      Blank front → Reached ⟨.key true, .object [] none :: frames⟩ (before ++ '\x7b' :: front)
  | colon {frames : List Frame} {before text front quoted back : List Char}
      {fields : List (Option (List Char) × Value)} {pieces : List Piece} :
      Place frames before → Fields text fields → Blank front → Quoted quoted pieces → Blank back →
      Reached ⟨.colon, .object fields.reverse (spell? pieces) :: frames⟩
        (before ++ '\x7b' :: text ++ (front ++ '"' :: quoted ++ '"' :: back))
  | whole {frames : List Frame} {before body back : List Char} {value : Value} :
      Place frames before → Writes body value → Blank back →
      Reached (State.close frames value) (before ++ body ++ back)
  | text {isKey : Bool} {frames : List Frame} {before quoted : List Char} {pieces : List Piece} :
      TextPlace isKey frames before → Quoted quoted pieces →
      Reached ⟨.text isKey pieces.reverse, frames⟩ (before ++ '"' :: quoted)
  | escape {isKey : Bool} {frames : List Frame} {before quoted : List Char}
      {pieces : List Piece} : TextPlace isKey frames before → Quoted quoted pieces →
      Reached ⟨.escape isKey pieces.reverse, frames⟩ (before ++ '"' :: quoted ++ ['\\'])
  | unit {isKey : Bool} {frames : List Frame} {before quoted digits : List Char}
      {pieces : List Piece} {left code : Nat} : TextPlace isKey frames before →
      Quoted quoted pieces → digits.length + left = 4 → 0 < left →
      Text.Hex.ofDigits? digits = some code →
      Reached ⟨.unit isKey pieces.reverse left code, frames⟩
        (before ++ '"' :: quoted ++ '\\' :: 'u' :: digits)
  | number {frames : List Frame} {before text : List Char} {part : NumberPart}
      {digits : Option Nat} : Place frames before → Begun part digits text →
      Reached ⟨.number part digits, frames⟩ (before ++ text)
  | word {frames : List Frame} {before done rest : List Char} {value : Value} :
      Place frames before → Writes (done ++ rest) value → rest ≠ [] →
      Reached ⟨.word rest value, frames⟩ (before ++ done)

variable {s t : State} {frames : List Frame} {before : List Char} {value : Value} {isKey : Bool}

theorem Place.concat (place : Place frames before) (blank : isBlank c = true) :
    Place frames (before ++ [c]) := by
  cases place with
  | start front => exact .start (front.concat blank)
  | item place items front =>
      rw [List.append_assoc]
      exact .item place items (front.concat blank)
  | field place fields named front =>
      rw [List.append_assoc]
      exact .field place fields named (front.concat blank)

theorem TextPlace.concat (place : TextPlace isKey frames before) (blank : isBlank c = true) :
    TextPlace isKey frames (before ++ [c]) := by
  cases place with
  | value place => exact .value (place.concat blank)
  | name place fields front =>
      rw [List.append_assoc]
      exact .name place fields (front.concat blank)

/-- The first place in an array. -/
theorem Place.firstItem (place : Place frames before) {front : List Char} (blank : Blank front) :
    Place (.array [] :: frames) (before ++ '[' :: front) := by
  have first := Place.item place .none blank
  rwa [List.append_assoc] at first

/-- The first place in an object. -/
theorem Place.firstKey (place : Place frames before) {front : List Char} (blank : Blank front) :
    TextPlace true (.object [] none :: frames) (before ++ '\x7b' :: front) := by
  have first := TextPlace.name place .none blank
  rwa [List.append_assoc] at first

/-! ### One character -/

/-- A character that opens a value. -/
theorem Place.openValue {closable : Bool} (place : Place frames before)
    (opened : State.openValue ⟨.value closable, frames⟩ c = some t) :
    Reached t (before ++ [c]) := by
  unfold State.openValue at opened
  split at opened
  all_goals try obtain rfl := Option.some.inj opened
  · exact .firstItem place blank_nil
  · exact .firstKey place blank_nil
  · exact .text (.value place) .empty
  · exact .number place .sign
  · exact .number place .zero
  · have word : Writes (['t'] ++ ['r', 'u', 'e']) (.bool true) := .true
    exact .word place word (by decide)
  · have word : Writes (['f'] ++ ['a', 'l', 's', 'e']) (.bool false) := .false
    exact .word place word (by decide)
  · have word : Writes (['n'] ++ ['u', 'l', 'l']) .null := .null
    exact .word place word (by decide)
  · next no_zero _ _ _ =>
    obtain ⟨d, value, rfl⟩ := Option.map_eq_some_iff.mp opened
    obtain ⟨digit, rfl⟩ := decimalDigit?_eq_some_iff.mp value
    have begun : Begun .digits (some (decimal [c])) [c] :=
      .digits (digits_singleton digit) (by simpa using no_zero)
    have number : decimal [c] = c.toNat - 48 := by simp [decimal]
    rw [number] at begun
    exact .number place begun

/-- Behind an item comes a comma or the end of the array. -/
theorem step_item {items : List Value} (no_blank : ¬ isBlank c = true)
    (taken : (State.close (.array items :: frames) value).step c = some t) :
    c = ',' ∧ t = ⟨.value false, .array (value :: items) :: frames⟩ ∨
      c = ']' ∧ t = State.close frames (.array (items.reverse ++ [value])) := by
  change State.continueAfter ⟨.after, .array (value :: items) :: frames⟩ c = some t at taken
  simp only [State.continueAfter, if_neg no_blank] at taken
  split at taken
  · exact .inl ⟨rfl, (Option.some.inj taken).symm⟩
  · next same =>
    obtain ⟨held, rfl⟩ := List.cons.inj same
    obtain rfl := Frame.array.inj held
    rw [← List.reverse_cons]
    exact .inr ⟨rfl, (Option.some.inj taken).symm⟩
  · next same => cases (List.cons.inj same).1
  · next same => cases (List.cons.inj same).1
  · cases taken

/-- Behind a member comes a comma or the end of the object. -/
theorem step_field {fields : List (Option (List Char) × Value)} {key : Option (List Char)}
    (no_blank : ¬ isBlank c = true)
    (taken : (State.close (.object fields key :: frames) value).step c = some t) :
    c = ',' ∧ t = ⟨.key false, .object ((key, value) :: fields) none :: frames⟩ ∨
      c = '\x7d' ∧ t = State.close frames (.object (fields.reverse ++ [(key, value)])) := by
  change State.continueAfter ⟨.after, .object ((key, value) :: fields) none :: frames⟩ c = some t
    at taken
  simp only [State.continueAfter, if_neg no_blank] at taken
  split at taken
  · next same => cases (List.cons.inj same).1
  · next same => cases (List.cons.inj same).1
  · exact .inl ⟨rfl, (Option.some.inj taken).symm⟩
  · next same =>
    obtain ⟨held, rfl⟩ := List.cons.inj same
    obtain ⟨rfl, -⟩ := Frame.object.inj held
    rw [← List.reverse_cons]
    exact .inr ⟨rfl, (Option.some.inj taken).symm⟩
  · cases taken

/-- A character behind a value. -/
theorem Place.step_whole {body back : List Char} (place : Place frames before)
    (writes : Writes body value) (blank : Blank back)
    (taken : (State.close frames value).step c = some t) :
    Reached t (before ++ body ++ back ++ [c]) := by
  by_cases blank' : isBlank c = true
  · obtain rfl := Option.some.inj ((State.step_blank_close blank').symm.trans taken)
    rw [List.append_assoc]
    exact .whole place writes (blank.concat blank')
  · cases place with
    | start front =>
        rw [State.step_close] at taken
        simp [State.close, State.afterValue, blank'] at taken
    | @item frames before text front items place listed front' =>
        rcases step_item blank' taken with ⟨rfl, rfl⟩ | ⟨rfl, rfl⟩
        · have more := Place.item place (listed.more front' writes blank) blank_nil
          rw [List.reverse_concat] at more
          simpa using Reached.value more
        · rw [List.reverse_reverse]
          simpa using Reached.whole place (.array listed front' writes blank) blank_nil
    | @field frames before text name front fields key place listed named front' =>
        rcases step_field blank' taken with ⟨rfl, rfl⟩ | ⟨rfl, rfl⟩
        · have more := TextPlace.name place (listed.more named front' writes blank) blank_nil
          rw [List.reverse_concat] at more
          simpa using Reached.key more
        · rw [List.reverse_reverse]
          simpa using Reached.whole place (.object listed named front' writes blank) blank_nil

/-- A quote behind a string. -/
theorem TextPlace.closeText {quoted : List Char} {pieces : List Piece}
    (place : TextPlace isKey frames before) (whole : Quoted quoted pieces)
    (closed : State.closeText ⟨.text isKey pieces.reverse, frames⟩ isKey pieces.reverse = some t) :
    Reached t (before ++ '"' :: quoted ++ ['"']) := by
  cases place with
  | value place =>
      obtain rfl := Option.some.inj closed
      rw [List.reverse_reverse, List.append_assoc, ← List.append_nil (before ++ _)]
      exact .whole place (.string whole) blank_nil
  | name place fields front =>
      obtain rfl := Option.some.inj closed
      rw [List.reverse_reverse]
      simpa using Reached.colon place fields front whole blank_nil

/-- A character of a string. -/
theorem TextPlace.step_text {quoted : List Char} {pieces : List Piece}
    (place : TextPlace isKey frames before) (quotes : Quoted quoted pieces)
    (taken : State.step ⟨.text isKey pieces.reverse, frames⟩ c = some t) :
    Reached t (before ++ '"' :: quoted ++ [c]) := by
  unfold State.step at taken
  simp only at taken
  split at taken
  · next quote =>
    subst quote
    exact place.closeText quotes taken
  · next no_quote =>
    split at taken
    · next backslash =>
      subst backslash
      obtain rfl := Option.some.inj taken
      exact .escape place quotes
    · next no_escape =>
      split at taken
      · cases taken
      · next no_control =>
        obtain rfl := Option.some.inj taken
        have plain : IsPlain c := ⟨no_quote, no_escape, Nat.not_lt.mp no_control⟩
        have more := Reached.text place (quotes.more (.plain plain))
        rw [List.reverse_concat] at more
        simpa using more

/-- The character behind a backslash. -/
theorem TextPlace.step_escape {quoted : List Char} {pieces : List Piece}
    (place : TextPlace isKey frames before) (quotes : Quoted quoted pieces)
    (taken : State.step ⟨.escape isKey pieces.reverse, frames⟩ c = some t) :
    Reached t (before ++ '"' :: quoted ++ ['\\'] ++ [c]) := by
  unfold State.step at taken
  simp only at taken
  split at taken
  · next unit =>
    subst unit
    obtain rfl := Option.some.inj taken
    have begun : Reached ⟨.unit isKey pieces.reverse 4 0, frames⟩
        (before ++ '"' :: quoted ++ '\\' :: 'u' :: []) := .unit place quotes rfl (by decide) rfl
    simpa using begun
  · obtain ⟨piece, letter, rfl⟩ := Option.map_eq_some_iff.mp taken
    have more := Reached.text place (quotes.more (.letter letter))
    rw [List.reverse_concat] at more
    simpa using more

/-- A digit of a unit. -/
theorem TextPlace.step_unit {quoted digits : List Char} {pieces : List Piece} {left code : Nat}
    (place : TextPlace isKey frames before) (quotes : Quoted quoted pieces)
    (length : digits.length + left = 4) (some_left : 0 < left)
    (denotes : Text.Hex.ofDigits? digits = some code)
    (taken : State.step ⟨.unit isKey pieces.reverse left code, frames⟩ c = some t) :
    Reached t (before ++ '"' :: quoted ++ '\\' :: 'u' :: digits ++ [c]) := by
  unfold State.step at taken
  simp only at taken
  split at taken
  · cases taken
  · next digit value =>
    have goes_on : Text.Hex.ofDigits? (digits ++ [c]) = some (16 * code + digit) := by
      rw [Text.Hex.ofDigits?, Text.Hex.ofDigitsFrom?_append, ← Text.Hex.ofDigits?, denotes,
        Option.bind_some, Text.Hex.ofDigitsFrom?, value]
      rfl
    have longer : (digits ++ [c]).length = digits.length + 1 := by simp
    split at taken
    · obtain rfl := Option.some.inj taken
      have more := Reached.text place (quotes.more (.unit (by omega) goes_on))
      rw [List.reverse_concat] at more
      simpa using more
    · obtain rfl := Option.some.inj taken
      have more : Reached ⟨.unit isKey pieces.reverse (left - 1) (16 * code + digit), frames⟩
          (before ++ '"' :: quoted ++ '\\' :: 'u' :: (digits ++ [c])) :=
        .unit place quotes (by omega) (by omega) goes_on
      simpa using more

/-- Every character that is taken keeps what the reader has reached. There is one lemma for each
mode of the reader above; here they are put together. -/
theorem Reached.step (reached : Reached s text) (taken : s.step c = some t) :
    Reached t (text ++ [c]) := by
  cases reached with
  | @value frames text place =>
      by_cases blank : isBlank c = true
      · obtain rfl : _ = t := by simpa [State.step, blank] using taken
        exact .value (place.concat blank)
      · have opened : State.openValue ⟨.value false, frames⟩ c = some t := by
          simpa [State.step, blank] using taken
        exact place.openValue opened
  | @firstItem frames before front place blanks =>
      by_cases blank : isBlank c = true
      · obtain rfl : _ = t := by simpa [State.step, blank] using taken
        rw [List.append_assoc]
        exact .firstItem place (blanks.concat blank)
      · by_cases ends : c = ']'
        · subst ends
          obtain rfl := Option.some.inj taken
          simpa using Reached.whole place (.noItems blanks) blank_nil
        · have opened : State.openValue ⟨.value true, .array [] :: frames⟩ c = some t := by
            simpa [State.step, blank, ends] using taken
          exact (place.firstItem blanks).openValue opened
  | key place =>
      by_cases blank : isBlank c = true
      · obtain rfl : _ = t := by simpa [State.step, blank] using taken
        exact .key (place.concat blank)
      · by_cases quote : c = '"'
        · subst quote
          obtain rfl := Option.some.inj taken
          exact .text place .empty
        · simp [State.step, blank, quote] at taken
  | firstKey place front =>
      by_cases blank : isBlank c = true
      · obtain rfl : _ = t := by simpa [State.step, blank] using taken
        rw [List.append_assoc]
        exact .firstKey place (front.concat blank)
      · by_cases quote : c = '"'
        · subst quote
          obtain rfl := Option.some.inj taken
          exact .text (place.firstKey front) .empty
        · by_cases ends : c = '\x7d'
          · subst ends
            obtain rfl := Option.some.inj taken
            simpa using Reached.whole place (.noFields front) blank_nil
          · simp [State.step, blank, quote, ends] at taken
  | colon place fields front quotes back =>
      by_cases blank : isBlank c = true
      · obtain rfl : _ = t := by simpa [State.step, blank] using taken
        simpa using Reached.colon place fields front quotes (back.concat blank)
      · by_cases colon : c = ':'
        · subst colon
          obtain rfl := Option.some.inj taken
          simpa using Reached.value (.field place fields (.name front quotes back) blank_nil)
        · simp [State.step, blank, colon] at taken
  | whole place writes back => exact place.step_whole writes back taken
  | text place quotes => exact place.step_text quotes taken
  | escape place quotes => exact place.step_escape quotes taken
  | unit place quotes length some_left denotes =>
      exact place.step_unit quotes length some_left denotes taken
  -- A character that does not go on with the number ends it, and is then read behind the whole
  -- value.
  | @number frames before text part digits place begun =>
      rw [List.append_assoc]
      unfold State.step at taken
      simp only at taken
      split at taken
      · next part' digits' extended =>
        obtain rfl := Option.some.inj taken
        exact .number place (begun.extend extended)
      · split at taken
        · next whole =>
          have closed := place.step_whole (.number (begun.number whole)) blank_nil
            ((State.step_close frames _ c).trans taken)
          simpa using closed
        · cases taken
  -- Of a word some letters are left, and the last one makes it whole.
  | @word frames before done rest value place writes some_left =>
      cases rest with
      | nil => exact absurd rfl some_left
      | cons expected rest =>
          unfold State.step at taken
          simp only at taken
          split at taken
          · cases taken
          · next same =>
            obtain rfl : c = expected := Decidable.of_not_not same
            split at taken
            · next complete =>
              subst complete
              obtain rfl := Option.some.inj taken
              simpa using Reached.whole place writes blank_nil
            · next more =>
              obtain rfl := Option.some.inj taken
              rw [List.append_assoc]
              refine .word place ?_ more
              rwa [List.append_assoc]

theorem Reached.run {more : List Char} (reached : Reached s text) (taken : s.run more = some t) :
    Reached t (text ++ more) := by
  induction more generalizing s text with
  | nil =>
      obtain rfl := Option.some.inj taken
      rwa [List.append_nil]
  | cons c rest ih =>
      rw [State.run_cons] at taken
      obtain ⟨u, first, taken⟩ := Option.bind_eq_some_iff.mp taken
      have later := ih (reached.step first) taken
      rwa [List.append_assoc] at later

/-- Where the reader can end, a text is over. -/
theorem Reached.denotes (reached : Reached s text) (ended : s.finish? = some value) :
    Denotes text value := by
  cases reached with
  | @whole frames before body back value' place writes behind =>
      cases place with
      | start front =>
          obtain rfl := Option.some.inj ended
          exact .text front writes behind
      | item | field => cases ended
  | number place begun =>
      cases place with
      | start front =>
          unfold State.finish? at ended
          simp only at ended
          split at ended
          · next whole =>
            obtain rfl := Option.some.inj ended
            rw [← List.append_nil (_ ++ _)]
            exact .text front (.number (begun.number whole)) blank_nil
          · cases ended
      | item | field => cases ended
  | _ => cases ended

/-- The reader reads a value from exactly the texts that denote it. So the grammar may be used in
place of the reader from here on. -/
theorem read?_eq_some_iff : read? text = some value ↔ Denotes text value := by
  constructor
  · intro read
    obtain ⟨s, taken, ended⟩ := Option.bind_eq_some_iff.mp read
    have reached : Reached s text := Reached.run (.value (.start blank_nil)) taken
    exact reached.denotes ended
  · exact Denotes.read?

end HubRelay.Json
