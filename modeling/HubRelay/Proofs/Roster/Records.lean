import HubRelay.Proofs.Json.Deriving
import HubRelay.Proofs.Roster.Spelling
import HubRelay.Proofs.Roster.Valid
import Mathlib.Data.List.Forall2
import Mathlib.Data.List.Induction

/-!
What the records of a file come to.

`Lists` says of which texts a roster file consists and which records stand in it, and `Kept` which
pairs are kept of some records, taken in their order. Reading finds exactly the records that the
text lists (`records?_eq_some_iff`), and the roster that it makes of them holds exactly the pairs
that are kept (`Kept.perm`).
-/

namespace HubRelay.Roster

open Json (Value)

/-! ### Records -/

def valuesOf (name : List Char) (fields : List (Option (List Char) × Value)) : List Value :=
  (fields.filter fun field => field.1 == some name).map Prod.snd

/-- A value that is a record: an object whose names are all texts, in which each of the two fields
stands exactly once, or the two values in a row. -/
inductive IsRecord : Value → Record → Prop
  | object {fields : List (Option (List Char) × Value)} {clientId : ClientId} {uuid : List Char} :
      (∀ field ∈ fields, field.1.isSome = true) →
      valuesOf clientIdField fields = [.number (some clientId.toNat)] →
      valuesOf uuidField fields = [.string (some uuid)] →
      IsRecord (.object fields) { clientId, uuid }
  | row (clientId : ClientId) (uuid : List Char) :
      IsRecord (.array [.number (some clientId.toNat), .string (some uuid)]) { clientId, uuid }

variable {value : Value} {clientId : ClientId} {uuid : List Char} {record : Record}

theorem clientId?_eq_some_iff :
    clientId? value = some clientId ↔ value = .number (some clientId.toNat) := by
  constructor
  · intro denotes
    unfold clientId? at denotes
    split at denotes
    · next n =>
      split at denotes
      · next small =>
        obtain rfl := Option.some.inj denotes
        rw [UInt16.toNat_ofNat_of_lt' small]
      · cases denotes
    · cases denotes
  · rintro rfl
    rw [clientId?, if_pos clientId.toNat_lt, UInt16.ofNat_toNat]

theorem text?_eq_some_iff : text? value = some uuid ↔ value = .string (some uuid) := by
  constructor
  · intro denotes
    unfold text? at denotes
    split at denotes
    · rw [denotes]
    · cases denotes
  · rintro rfl
    rfl

theorem valuesOf_cons_self (name : List Char) (value : Value)
    (fields : List (Option (List Char) × Value)) :
    valuesOf name ((some name, value) :: fields) = value :: valuesOf name fields := by
  simp [valuesOf]

theorem valuesOf_cons_of_ne {name other : List Char} (apart : other ≠ name) (value : Value)
    (fields : List (Option (List Char) × Value)) :
    valuesOf name ((some other, value) :: fields) = valuesOf name fields := by
  simp [valuesOf, apart]

/-- With what was found of the two fields before, the rest of the fields makes the record. -/
theorem fields?_eq_some_iff {known : Option ClientId} {named : Option (List Char)}
    {fields : List (Option (List Char) × Value)} :
    fields? known named fields = some { clientId, uuid } ↔
      (∀ field ∈ fields, field.1.isSome = true) ∧
        (known.toList.map fun id => .number (some id.toNat)) ++ valuesOf clientIdField fields =
          [.number (some clientId.toNat)] ∧
        (named.toList.map fun text => .string (some text)) ++ valuesOf uuidField fields =
          [.string (some uuid)] := by
  have apart : uuidField ≠ clientIdField := by decide
  -- What was found before is generalized, since a field may be found by any member.
  induction fields generalizing known named with
  | nil =>
      cases known <;> cases named <;> simp [fields?, valuesOf, ← UInt16.toNat_inj]
  | cons field rest ih =>
      obtain ⟨name, value⟩ := field
      cases name with
      | none => simp [fields?]
      | some name =>
          simp only [List.forall_mem_cons, Option.isSome_some, true_and]
          unfold fields?
          by_cases numbers : name = clientIdField
          · subst numbers
            rw [if_pos rfl, valuesOf_cons_self, valuesOf_cons_of_ne apart.symm]
            cases known with
            | some id => simp
            | none =>
                cases denoted : clientId? value with
                | none =>
                    have other : value ≠ .number (some clientId.toNat) := by
                      intro same
                      rw [clientId?_eq_some_iff.mpr same] at denoted
                      cases denoted
                    simp [other]
                | some id =>
                    obtain rfl := clientId?_eq_some_iff.mp denoted
                    exact ih
          · rw [if_neg numbers, valuesOf_cons_of_ne numbers]
            by_cases names : name = uuidField
            · subst names
              rw [if_pos rfl, valuesOf_cons_self]
              cases named with
              | some text => simp
              | none =>
                  cases denoted : text? value with
                  | none =>
                      have other : value ≠ .string (some uuid) := by
                        intro same
                        rw [text?_eq_some_iff.mpr same] at denoted
                        cases denoted
                      simp [other]
                  | some text =>
                      obtain rfl := text?_eq_some_iff.mp denoted
                      exact ih
            · rw [if_neg names, valuesOf_cons_of_ne names]
              exact ih

theorem record?_eq_some_iff : record? value = some record ↔ IsRecord value record := by
  constructor
  · intro denotes
    unfold record? at denotes
    split at denotes
    · next fields =>
      obtain ⟨clientId, uuid⟩ := record
      obtain ⟨texts, numbers, names⟩ := fields?_eq_some_iff.mp denotes
      exact .object texts numbers names
    · next first second =>
      split at denotes
      · next clientId uuid number name =>
        obtain rfl := Option.some.inj denotes
        rw [clientId?_eq_some_iff.mp number, text?_eq_some_iff.mp name]
        exact .row clientId uuid
      · cases denotes
    · cases denotes
  · intro record
    cases record with
    | object texts numbers names => exact fields?_eq_some_iff.mpr ⟨texts, numbers, names⟩
    | row clientId uuid =>
        simp only [record?, clientId?_eq_some_iff.mpr rfl, text?_eq_some_iff.mpr rfl]

theorem mapM_record?_eq_some_iff {items : List Value} {records : List Record} :
    items.mapM record? = some records ↔ List.Forall₂ IsRecord items records := by
  induction items generalizing records with
  | nil => simp [eq_comm]
  | cons value items ih =>
      rw [List.mapM_cons, List.forall₂_cons_left_iff]
      simp only [Option.bind_eq_bind, Option.bind_eq_some_iff, Option.pure_def,
        Option.some.injEq, record?_eq_some_iff, ih]
      constructor
      · rintro ⟨record, isRecord, rest, areRecords, rfl⟩
        exact ⟨record, rest, isRecord, areRecords, rfl⟩
      · rintro ⟨record, rest, isRecord, areRecords, rfl⟩
        exact ⟨record, isRecord, rest, areRecords, rfl⟩

/-- A text that denotes an array of records. -/
def Lists (text : List Char) (records : List Record) : Prop :=
  ∃ items, Json.Denotes text (.array items) ∧ List.Forall₂ IsRecord items records

theorem records?_eq_some_iff {text : List Char} {records : List Record} :
    records? text = some records ↔ Lists text records := by
  constructor
  · intro denotes
    unfold records? at denotes
    split at denotes
    · next items array =>
      exact ⟨items, Json.read?_eq_some_iff.mp array, mapM_record?_eq_some_iff.mp denotes⟩
    · cases denotes
  · rintro ⟨items, array, areRecords⟩
    rw [records?, Json.read?_eq_some_iff.mpr array]
    exact mapM_record?_eq_some_iff.mpr areRecords

/-- An array has brackets. -/
theorem Lists.bracket {text : List Char} {records : List Record} (lists : Lists text records) :
    '[' ∈ text := by
  obtain ⟨items, ⟨front, written, back⟩, -⟩ := lists
  cases written <;> simp

/-! ### Keeping -/

/-- Nothing speaks against keeping a record for the client `uuid` when `kept` was kept before. -/
structure Keeps (kept : List (Uuid × ClientId)) (record : Record) (uuid : Uuid) : Prop where
  /-- The record spells this identifier, in any case. -/
  spelled : record.uuid.map Char.toLower ∈ uuid.spellings
  /-- Its number is one that clients may have. -/
  first : 1 ≤ record.clientId.toNat
  last : record.clientId.toNat ≤ 0x1fe
  /-- Neither the identifier nor the number stood in the file before. -/
  fresh : uuid ∉ kept.map Prod.fst
  free : record.clientId ∉ kept.map Prod.snd

/-- What is kept of records that are taken in their order. A record is left out if its number is
none that clients may have, or if its identifier or its number was there before. -/
inductive Kept : List Record → List (Uuid × ClientId) → Prop
  | none : Kept [] []
  | keep {records : List Record} {kept : List (Uuid × ClientId)} {record : Record} {uuid : Uuid} :
      Kept records kept → Keeps kept record uuid →
      Kept (records ++ [record]) (kept ++ [(uuid, record.clientId)])
  | skip {records : List Record} {kept : List (Uuid × ClientId)} {record : Record} :
      Kept records kept → (∀ uuid, ¬ Keeps kept record uuid) → Kept (records ++ [record]) kept

/-- Of all records something is kept. -/
theorem exists_kept (records : List Record) : ∃ kept, Kept records kept := by
  induction records using List.reverseRecOn with
  | nil => exact ⟨[], .none⟩
  | append_singleton records record ih =>
      obtain ⟨kept, before⟩ := ih
      by_cases keeps : ∃ uuid, Keeps kept record uuid
      · obtain ⟨uuid, keeps⟩ := keeps
        exact ⟨_, before.keep keeps⟩
      · exact ⟨kept, before.skip (not_exists.mp keeps)⟩

section

variable {r : Roster} {kept : List (Uuid × ClientId)} {records : List Record} {uuid : Uuid}

theorem find?_eq_none_iff : r.find? uuid = none ↔ uuid ∉ r.pairs.map Prod.fst := by
  rw [Option.eq_none_iff_forall_ne_some]
  simp [find?_eq_some_iff]

/-- A roster with the pairs kept so far can tell whether a record is to be kept. -/
theorem keeps_iff (perm : r.pairs.Perm kept) :
    Keeps kept record uuid ↔
      Uuid.ofText? record.uuid = some uuid ∧ record.clientId.isAssignable = true ∧
        r.holdsId record.clientId = false ∧ r.find? uuid = none := by
  rw [Uuid.ofText?_eq_some_iff, ClientId.isAssignable_iff, holdsId_eq_false_iff, find?_eq_none_iff,
    (perm.map Prod.snd).mem_iff, (perm.map Prod.fst).mem_iff]
  constructor
  · rintro ⟨spelled, first, last, fresh, free⟩
    exact ⟨spelled, ⟨first, last⟩, free, fresh⟩
  · rintro ⟨spelled, ⟨first, last⟩, free, fresh⟩
    exact ⟨spelled, first, last, fresh, free⟩

theorem accept_of_keeps (perm : r.pairs.Perm kept) (keeps : Keeps kept record uuid) :
    r.accept record = r.enter uuid record.clientId := by
  obtain ⟨read, assignable, free, fresh⟩ := (keeps_iff perm).mp keeps
  simp [accept, read, assignable, free, fresh]

theorem accept_of_not_keeps (perm : r.pairs.Perm kept) (skips : ∀ uuid, ¬ Keeps kept record uuid) :
    r.accept record = r := by
  unfold accept
  split
  · rfl
  · next uuid read =>
    refine if_pos ?_
    have refused := mt (keeps_iff perm).mpr (skips uuid)
    rw [and_iff_right read] at refused
    simp only [Bool.or_eq_true, Bool.not_eq_true', Option.isSome_iff_ne_none, ne_eq]
    by_contra allowed
    simp only [not_or, Bool.not_eq_false, Bool.not_eq_true, not_not] at allowed
    exact refused ⟨allowed.1.1, allowed.1.2, allowed.2⟩

/-- The roster made of records holds what is kept of them. The roster is ordered by identifiers and
the records are not, hence the permutation. -/
theorem Kept.perm (held : Kept records kept) :
    (records.foldl accept {}).pairs.Perm kept := by
  induction held with
  | none => exact .refl _
  | @keep _ kept record uuid _ keeps ih =>
      rw [List.foldl_concat, accept_of_keeps ih keeps]
      have fresh := ((keeps_iff ih).mp keeps).2.2.2
      have entered := (perm_enter fresh record.clientId).trans (ih.cons (uuid, record.clientId))
      exact entered.trans (List.perm_append_singleton (uuid, record.clientId) kept).symm
  | skip _ skips ih => rwa [List.foldl_concat, accept_of_not_keeps ih skips]

end

end HubRelay.Roster
