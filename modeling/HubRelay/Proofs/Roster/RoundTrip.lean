import HubRelay.Proofs.Roster.Records

/-!
A roster that is written down reads back as it was.

What is written is derived from part to part: the digits of a number, the characters of an
identifier, one record, all records (`lists_text`). Of the records of a valid roster all are kept
(`Valid.kept`); it has to be valid for that, since reading leaves out numbers that no client may
have and those that were there before.
-/

namespace HubRelay

/-! ### Written parts -/

namespace Json

theorem digits_toDigits (n : Nat) : Digits (Nat.toDigits 10 n) := by
  refine ⟨Nat.toDigits_ne_nil, fun c mem => ?_⟩
  have digit : c.isDigit = true := Nat.isDigit_of_mem_toDigits (by decide) (by decide) mem
  obtain ⟨above, below⟩ := Bool.and_eq_true_iff.mp digit
  exact ⟨of_decide_eq_true above, of_decide_eq_true below⟩

theorem head?_toDigits {n : Nat} (positive : 0 < n) : (Nat.toDigits 10 n).head? ≠ some '0' := by
  induction n using Nat.strongRecOn with
  | ind n ih =>
      rw [Nat.toDigits_eq_if (by decide)]
      split
      · next small =>
        have no_zero : ∀ d : Fin 10, 0 < d.val → d.val.digitChar ≠ '0' := by decide
        simpa using no_zero ⟨n, small⟩ positive
      · next large =>
        rw [List.head?_append_of_ne_nil _ Nat.toDigits_ne_nil]
        exact ih (n / 10) (by omega) (by omega)

/-- A number is written with its digits, zero with one. -/
theorem number_toDigits (n : Nat) : Number (Nat.toDigits 10 n) (some n) := by
  have whole : Whole (Nat.toDigits 10 n) := by
    rcases Nat.eq_zero_or_pos n with rfl | positive
    · exact .inl (Nat.toDigits_zero 10)
    · exact .inr ⟨digits_toDigits n, head?_toDigits positive⟩
  have written := Integer.plain whole
  have denoted : decimal (Nat.toDigits 10 n) = n := Nat.ofDigitChars_ten_toDigits
  rw [denoted] at written
  exact .fractional (.integer written)

theorem quoted_of_plain {text : List Char} (plain : ∀ c ∈ text, IsPlain c) :
    Quoted text (text.map .char) := by
  induction text using List.reverseRecOn with
  | nil => exact .empty
  | append_singleton text c ih =>
      rw [List.map_append]
      refine (ih fun d mem => plain d (List.mem_append_left _ mem)).more (.plain ?_)
      exact plain c (List.mem_append_right _ List.mem_cons_self)

theorem named_of_plain {front name : List Char} (blank : Blank front)
    (plain : ∀ c ∈ name, IsPlain c) : Named (front ++ '"' :: name ++ ['"', ':']) (some name) := by
  have named := Named.name blank (quoted_of_plain plain) blank_nil
  rwa [spell?_chars, List.append_assoc] at named

theorem writes_of_plain {text : List Char} (plain : ∀ c ∈ text, IsPlain c) :
    Writes ('"' :: text ++ ['"']) (.string (some text)) := by
  rw [← spell?_chars]
  exact .string (quoted_of_plain plain)

end Json

namespace Roster

open Json (IsPlain)

theorem isPlain_digit : ∀ v : Fin 16, IsPlain (Text.Hex.digit v) := by
  unfold IsPlain
  decide

theorem isPlain_fixed (width n : Nat) : ∀ c ∈ Text.Hex.fixed width n, IsPlain c := by
  induction width generalizing n with
  | zero => exact fun c mem => (List.not_mem_nil mem).elim
  | succ width ih =>
      intro c mem
      rcases List.mem_append.mp mem with mem | mem
      · exact ih _ c mem
      · rw [List.mem_singleton.mp mem]
        exact isPlain_digit ⟨n % 16, Nat.mod_lt n (by decide)⟩

/-- The names of the fields are written as they are. -/
theorem isPlain_field {name : List Char} (field : name = clientIdField ∨ name = uuidField) :
    ∀ c ∈ name, IsPlain c := by
  have plain : name.all (fun c => c != '"' && c != '\\' && decide (0x20 ≤ c.toNat)) = true := by
    rcases field with rfl | rfl <;> rfl
  intro c mem
  simpa [IsPlain, and_assoc] using List.all_eq_true.mp plain c mem

/-- A pair as the object that is written for it. -/
def recordValue (pair : Uuid × ClientId) : Json.Value :=
  .object [(some clientIdField, .number (some pair.2.toNat)),
    (some uuidField, .string (some pair.1.simple))]

/-- Behind its indentation the text of a record is an object. -/
theorem writes_recordText (pair : Uuid × ClientId) :
    ∃ body, recordText pair = [' ', ' '] ++ body ∧ Json.Writes body (recordValue pair) := by
  obtain ⟨uuid, id⟩ := pair
  have indent : Json.Blank ['\n', ' ', ' ', ' ', ' '] := List.all_eq_true.mp rfl
  have outdent : Json.Blank ['\n', ' ', ' '] := List.all_eq_true.mp rfl
  have space : Json.Blank [' '] := List.all_eq_true.mp rfl
  have number := Json.number_toDigits id.toNat
  have plain : ∀ c ∈ uuid.simple, IsPlain c := isPlain_fixed 32 uuid.bits.toNat
  have first := Json.Fields.more .none (Json.named_of_plain indent (isPlain_field (.inl rfl))) space
    (.number number) Json.blank_nil
  refine ⟨_, ?_, .object first (Json.named_of_plain indent (isPlain_field (.inr rfl))) space
    (Json.writes_of_plain plain) outdent⟩
  have digits : (toString id.toNat).toList = Nat.toDigits 10 id.toNat := by
    rw [Nat.toString_eq_ofList_toDigits, String.toList_ofList]
  have opening : "  \x7b\n    \"ClientId\": ".toList = [' ', ' '] ++
      '\x7b' :: (['\n', ' ', ' ', ' ', ' '] ++ '"' :: clientIdField ++ ['"', ':', ' ']) := rfl
  have middle : ",\n    \"uuid\": \"".toList =
      ',' :: (['\n', ' ', ' ', ' ', ' '] ++ '"' :: uuidField ++ ['"', ':', ' ', '"']) := rfl
  have closing : "\"\n  \x7d".toList = ['"', '\n', ' ', ' ', '\x7d'] := rfl
  unfold recordText
  rw [digits, opening, middle, closing]
  simp only [List.append_assoc, List.cons_append, List.nil_append, List.append_nil]

/-- The records that are written behind some items of an array, up to its end. -/
theorem writes_recordTexts {pairs : List (Uuid × ClientId)} (some_pair : pairs ≠ [])
    {before front : List Char} {items : List Json.Value} (listed : Json.Items before items)
    (blank : Json.Blank front) :
    Json.Writes ('[' :: before ++ front ++ recordTexts pairs ++ ['\n', ']'])
      (.array (items ++ pairs.map recordValue)) := by
  induction pairs generalizing before front items with
  | nil => exact absurd rfl some_pair
  | cons pair rest ih =>
      obtain ⟨body, split, writes⟩ := writes_recordText pair
      have line : Json.Blank ['\n'] := List.all_eq_true.mp rfl
      have indented : Json.Blank (front ++ [' ', ' ']) := by
        simpa using (blank.concat (c := ' ') rfl).concat (c := ' ') rfl
      cases rest with
      | nil =>
          have written := Json.Writes.array listed indented writes line
          simpa [recordTexts, split] using written
      | cons next rest =>
          have comma : ",\n".toList = [',', '\n'] := rfl
          have written := ih (List.cons_ne_nil next rest)
            (listed.more indented writes Json.blank_nil) line
          simpa [recordTexts, split, comma] using written

/-- The text of a roster denotes its records in order. -/
theorem denotes_text (r : Roster) :
    Json.Denotes r.text (.array (r.pairs.map recordValue)) := by
  have line : Json.Blank ['\n'] := List.all_eq_true.mp rfl
  unfold text
  split
  · next none_left =>
    rw [List.isEmpty_iff.mp none_left]
    exact .text Json.blank_nil (.noItems Json.blank_nil) line
  · next some_left =>
    have opening : "[\n".toList = ['[', '\n'] := rfl
    have closing : "\n]\n".toList = ['\n', ']'] ++ ['\n'] := rfl
    have written := writes_recordTexts (fun empty => some_left (List.isEmpty_iff.mpr empty))
      .none line
    rw [opening, closing]
    simpa using Json.Denotes.text Json.blank_nil written line

/-! ### From the records to the roster -/

def recordOf (pair : Uuid × ClientId) : Record := { clientId := pair.2, uuid := pair.1.simple }

theorem isRecord_recordValue (pair : Uuid × ClientId) :
    IsRecord (recordValue pair) (recordOf pair) := by
  have apart : uuidField ≠ clientIdField := by decide
  refine .object ?_ ?_ ?_
  · simp
  · rw [valuesOf_cons_self, valuesOf_cons_of_ne apart]
    rfl
  · rw [valuesOf_cons_of_ne apart.symm, valuesOf_cons_self]
    rfl

theorem lists_text (r : Roster) : Lists r.text (r.pairs.map recordOf) := by
  refine ⟨_, denotes_text r, ?_⟩
  rw [List.forall₂_map_left_iff, List.forall₂_map_right_iff, List.forall₂_same]
  exact fun pair _ => isRecord_recordValue pair

/-- Nothing speaks against any record of a valid roster. Its identifiers are distinct as keys, and
its numbers because it is valid. -/
theorem Valid.kept {r : Roster} (valid : r.Valid) : Kept (r.pairs.map recordOf) r.pairs := by
  have front {pairs more : List (Uuid × ClientId)} (split : r.pairs = pairs ++ more) :
      Kept (pairs.map recordOf) pairs := by
    induction pairs using List.reverseRecOn generalizing more with
    | nil => exact .none
    | append_singleton pairs pair ih =>
        rw [List.append_assoc] at split
        have mem : pair ∈ r.pairs := by simp [split]
        obtain ⟨first, last⟩ := ClientId.isAssignable_iff.mp (valid.assignable pair mem)
        have fresh := r.table.nodup_keys
        have free := valid.distinct
        change (r.pairs.map Prod.fst).Nodup at fresh
        rw [split, List.map_append, List.nodup_append] at fresh free
        rw [List.map_append]
        refine (ih split).keep ⟨?_, first, last, ?_, ?_⟩
        · exact Uuid.ofText?_eq_some_iff.mp (Uuid.ofText?_simple pair.1)
        · exact fun held => fresh.2.2 _ held _ List.mem_cons_self rfl
        · exact fun held => free.2.2 _ held _ List.mem_cons_self rfl
  exact front (List.append_nil _).symm

/-- A file that holds a text is read as that text. -/
theorem ofContents_toByteArray (text : String) :
    ofContents (some text.toByteArray) = ofText text.toList := by
  have decoded : String.fromUTF8? text.toByteArray = some text := by
    rw [String.fromUTF8?, dif_pos text.isValidUTF8]
    rfl
  rw [ofContents, Option.bind_some, decoded]

/-- A roster is known by its pairs, in whatever order. -/
theorem eq_of_perm {r s : Roster} (perm : r.pairs.Perm s.pairs) : r = s := by
  have entries : r.table.entries = s.table.entries :=
    perm.eq_of_pairwise (fun a b _ _ below above => absurd above (Nat.lt_asymm below))
      r.table.ascending s.table.ascending
  exact congrArg Roster.mk (Table.eq_of_entries entries)

/-- What is written for a valid roster reads back as that roster. The text is derived in the grammar
first, and then read by `records?_eq_some_iff`. -/
theorem ofContents_contents {r : Roster} (valid : r.Valid) :
    ofContents (some r.contents) = r := by
  rw [contents, ofContents_toByteArray, String.toList_ofList, ofText,
    records?_eq_some_iff.mpr (lists_text r)]
  exact eq_of_perm valid.kept.perm

end Roster

end HubRelay
