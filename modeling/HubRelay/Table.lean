/-!
Finite tables kept in key order.

A `Table` lists its entries by increasing key, so two tables with the same entries are equal and
a walk over one is a walk in key order. `find?_insert` and `find?_erase` say what the two updates
do to every look-up; `find?_eq_some_iff` says that looking up is the same as standing in the list.
`Ranked.find?_successive_eq_some` says which key a search through keys of successive ranks finds.
-/

namespace HubRelay

/-- Keys that are ordered by a natural number which tells them apart. -/
class Ranked (κ : Type) where
  rank : κ → Nat
  rank_injective : ∀ a b : κ, rank a = rank b → a = b

open Ranked (rank)

instance : Ranked UInt8 := ⟨UInt8.toNat, fun _ _ h => UInt8.toNat_inj.mp h⟩

/-- Entries in strictly increasing key order. -/
def Ascending {κ ν : Type} [Ranked κ] (entries : List (κ × ν)) : Prop :=
  entries.Pairwise fun a b => rank a.1 < rank b.1

/-- A finite map whose entries stand in key order. -/
structure Table (κ ν : Type) [Ranked κ] where
  entries : List (κ × ν)
  ascending : Ascending entries

namespace Table

variable {κ ν : Type} [Ranked κ]

/-! ### Updates of the entry list -/

/-- The entries with `key` bound to `value`, in place of any earlier binding. -/
def insertEntry (key : κ) (value : ν) : List (κ × ν) → List (κ × ν)
  | [] => [(key, value)]
  | (k, v) :: rest =>
      if rank key < rank k then (key, value) :: (k, v) :: rest
      else if rank key = rank k then (key, value) :: rest
      else (k, v) :: insertEntry key value rest

def eraseEntry (key : κ) (entries : List (κ × ν)) : List (κ × ν) :=
  entries.filter fun entry => rank entry.1 != rank key

theorem mem_insertEntry {key : κ} {value : ν} {entries : List (κ × ν)} {e : κ × ν}
    (h : e ∈ insertEntry key value entries) : e = (key, value) ∨ e ∈ entries := by
  induction entries with
  | nil => simp_all [insertEntry]
  | cons head rest ih =>
      obtain ⟨k, v⟩ := head
      simp only [insertEntry] at h
      split at h
      · simpa using h
      · split at h
        · rcases List.mem_cons.mp h with h | h
          · exact .inl h
          · exact .inr (List.mem_cons_of_mem _ h)
        · rcases List.mem_cons.mp h with h | h
          · exact .inr (by simp [h])
          · exact (ih h).imp id (List.mem_cons_of_mem _)

theorem ascending_insertEntry (key : κ) (value : ν) {entries : List (κ × ν)}
    (h : Ascending entries) : Ascending (insertEntry key value entries) := by
  induction entries with
  | nil => simp [insertEntry, Ascending]
  | cons head rest ih =>
      obtain ⟨k, v⟩ := head
      obtain ⟨above, sorted⟩ := List.pairwise_cons.mp h
      simp only [insertEntry]
      split
      · rename_i lt
        refine List.pairwise_cons.mpr ⟨fun e he => ?_, h⟩
        rcases List.mem_cons.mp he with rfl | he
        · exact lt
        · exact Nat.lt_trans lt (above e he)
      · split
        · rename_i eq
          exact List.pairwise_cons.mpr ⟨fun e he => by rw [eq]; exact above e he, sorted⟩
        · rename_i nlt neq
          refine List.pairwise_cons.mpr ⟨fun e he => ?_, ih sorted⟩
          rcases mem_insertEntry he with rfl | he
          · simp only
            omega
          · exact above e he

theorem ascending_eraseEntry (key : κ) {entries : List (κ × ν)} (h : Ascending entries) :
    Ascending (eraseEntry key entries) :=
  List.Pairwise.filter _ h

/-! ### The operations -/

def empty : Table κ ν := ⟨[], List.Pairwise.nil⟩

instance : Inhabited (Table κ ν) := ⟨empty⟩

def find? (t : Table κ ν) (key : κ) : Option ν :=
  (t.entries.find? fun entry => rank entry.1 == rank key).map Prod.snd

/-- Binds `key` to `value`, in place of any earlier binding. -/
def insert (t : Table κ ν) (key : κ) (value : ν) : Table κ ν :=
  ⟨insertEntry key value t.entries, ascending_insertEntry key value t.ascending⟩

def erase (t : Table κ ν) (key : κ) : Table κ ν :=
  ⟨eraseEntry key t.entries, ascending_eraseEntry key t.ascending⟩

def contains (t : Table κ ν) (key : κ) : Bool := (t.find? key).isSome

def keys (t : Table κ ν) : List κ := t.entries.map Prod.fst

def values (t : Table κ ν) : List ν := t.entries.map Prod.snd

def size (t : Table κ ν) : Nat := t.entries.length

/-! ### What the updates do to look-ups -/

theorem find?_insert [DecidableEq κ] (t : Table κ ν) (key other : κ) (value : ν) :
    (t.insert key value).find? other = if key = other then some value else t.find? other := by
  obtain ⟨entries, sorted⟩ := t
  simp only [find?, insert]
  induction entries with
  | nil =>
      by_cases h : key = other
      · subst h
        simp [insertEntry]
      · have : (rank key == rank other) = false := by
          simpa using fun e => h (Ranked.rank_injective _ _ e)
        simp [insertEntry, h, this]
  | cons head rest ih =>
      obtain ⟨k, v⟩ := head
      have ih := ih (List.pairwise_cons.mp sorted).2
      simp only [insertEntry]
      by_cases h : key = other
      · subst h
        simp only [if_true] at ih ⊢
        split
        · simp
        · split
          · simp
          · rename_i _ neq
            have : (rank k == rank key) = false := by simpa using fun e => neq e.symm
            rw [List.find?_cons_of_neg (by simp [this])]
            exact ih
      · have ne : (rank key == rank other) = false := by
          simpa using fun e => h (Ranked.rank_injective _ _ e)
        simp only [h, if_false] at ih ⊢
        split
        · rw [List.find?_cons_of_neg (by simp [ne])]
        · split
          · rename_i eq
            rw [List.find?_cons_of_neg (by simp [ne]),
              List.find?_cons_of_neg (by simp [← eq, ne])]
          · cases hk : rank k == rank other
            · simpa only [List.find?_cons, hk] using ih
            · simp only [List.find?_cons, hk]

theorem find?_erase [DecidableEq κ] (t : Table κ ν) (key other : κ) :
    (t.erase key).find? other = if key = other then none else t.find? other := by
  obtain ⟨entries, sorted⟩ := t
  simp only [find?, erase, eraseEntry]
  by_cases h : key = other
  · subst h
    simp only [if_true, Option.map_eq_none_iff, List.find?_eq_none, List.mem_filter]
    rintro e ⟨_, he⟩
    simpa using he
  · simp only [h, if_false]
    congr 1
    induction entries with
    | nil => rfl
    | cons head rest ih =>
        have ih := ih (List.pairwise_cons.mp sorted).2
        by_cases hk : rank head.1 = rank key
        · have : (rank key == rank other) = false := by
            simpa using fun e => h (Ranked.rank_injective _ _ e)
          simpa only [List.filter_cons, List.find?_cons, this, hk, bne_self_eq_false,
            Bool.false_eq_true, if_false] using ih
        · have : (rank head.1 != rank key) = true := by simpa using hk
          simp only [List.filter_cons, this, if_true, List.find?_cons, ih]

theorem mem_entries_of_find? {t : Table κ ν} {key : κ} {value : ν}
    (h : t.find? key = some value) : (key, value) ∈ t.entries := by
  obtain ⟨e, found, rfl⟩ := Option.map_eq_some_iff.mp h
  have eq : e.1 = key := by
    have := List.find?_some found
    exact Ranked.rank_injective _ _ (by simpa using this)
  rw [← eq]
  exact List.mem_of_find?_eq_some found

/-- Entries at one key bind it to one value. -/
theorem eq_of_mem_entries {t : Table κ ν} {key : κ} {value other : ν}
    (mem : (key, value) ∈ t.entries) (mem' : (key, other) ∈ t.entries) : value = other := by
  have sorted := t.ascending
  revert mem mem' sorted
  induction t.entries with
  | nil => intro mem; cases mem
  | cons head rest ih =>
      intro mem mem' sorted
      obtain ⟨above, sorted⟩ := List.pairwise_cons.mp sorted
      rcases List.mem_cons.mp mem with rfl | later
      · rcases List.mem_cons.mp mem' with same | later'
        · exact (Prod.mk.inj same).2.symm
        · exact absurd (above _ later') (Nat.lt_irrefl _)
      · rcases List.mem_cons.mp mem' with rfl | later'
        · exact absurd (above _ later) (Nat.lt_irrefl _)
        · exact ih later later' sorted

theorem find?_eq_some_iff {t : Table κ ν} {key : κ} {value : ν} :
    t.find? key = some value ↔ (key, value) ∈ t.entries := by
  refine ⟨mem_entries_of_find?, fun mem => ?_⟩
  cases found : t.find? key with
  | none =>
      simp only [find?, Option.map_eq_none_iff, List.find?_eq_none] at found
      exact absurd (beq_self_eq_true (rank key)) (found _ mem)
  | some other => rw [eq_of_mem_entries mem (mem_entries_of_find? found)]

theorem nodup_keys (t : Table κ ν) : t.keys.Nodup := by
  refine List.pairwise_map.mpr (t.ascending.imp fun less same => ?_)
  rw [same] at less
  exact Nat.lt_irrefl _ less

/-- Tables with the same entries are equal. -/
theorem eq_of_entries {t u : Table κ ν} (same : t.entries = u.entries) : t = u := by
  cases t
  cases u
  subst same
  rfl

/-- A new key adds one entry. -/
theorem perm_insert {t : Table κ ν} {key : κ} (fresh : t.find? key = none) (value : ν) :
    (t.insert key value).entries.Perm ((key, value) :: t.entries) := by
  have absent : ∀ entry ∈ t.entries, rank key ≠ rank entry.1 := by
    simp only [find?, Option.map_eq_none_iff, List.find?_eq_none, beq_iff_eq] at fresh
    exact fun entry mem same => fresh entry mem same.symm
  show (insertEntry key value t.entries).Perm _
  revert absent
  induction t.entries with
  | nil => exact fun _ => .refl _
  | cons head rest ih =>
      intro absent
      rw [insertEntry]
      split
      · exact .refl _
      · rw [if_neg (absent head List.mem_cons_self)]
        have tail := ih fun entry mem => absent entry (List.mem_cons_of_mem _ mem)
        exact (tail.cons head).trans (.swap _ _ _)

end Table

/-! ### Searching keys of successive ranks -/

namespace Ranked

variable {κ : Type} [Ranked κ] {keyAt : Nat → κ} {first count : Nat} {test : κ → Bool} {key : κ}

theorem keyAt_rank (ranked : ∀ offset < count, rank (keyAt offset) = first + offset)
    (above : first ≤ rank key) (below : rank key < first + count) :
    keyAt (rank key - first) = key := by
  apply rank_injective
  rw [ranked _ (by omega)]
  omega

/-- The search finds the key of least rank that passes. -/
theorem find?_successive_eq_some (ranked : ∀ offset < count, rank (keyAt offset) = first + offset) :
    ((List.range count).map keyAt).find? test = some key ↔
      (first ≤ rank key ∧ rank key < first + count) ∧ test key = true ∧
        ∀ lower, first ≤ rank lower → rank lower < rank key → test lower = false := by
  rw [List.find?_map, Option.map_eq_some_iff]
  constructor
  · rintro ⟨offset, found, rfl⟩
    obtain ⟨passes, mem, least⟩ := List.find?_range_eq_some.mp found
    have inside := List.mem_range.mp mem
    rw [ranked offset inside]
    refine ⟨by omega, passes, fun lower above below => ?_⟩
    have fails := least (rank lower - first) (by omega)
    rwa [Function.comp_apply, keyAt_rank ranked above (by omega), Bool.not_eq_true'] at fails
  · rintro ⟨⟨above, below⟩, passes, least⟩
    have same := keyAt_rank ranked above below
    refine ⟨rank key - first, List.find?_range_eq_some.mpr ⟨?_, ?_, ?_⟩, same⟩
    · rwa [Function.comp_apply, same]
    · rw [List.mem_range]
      omega
    · intro offset before
      have number := ranked offset (by omega)
      rw [Function.comp_apply, least _ (by omega) (by omega), Bool.not_false]

theorem find?_successive_eq_none (ranked : ∀ offset < count, rank (keyAt offset) = first + offset) :
    ((List.range count).map keyAt).find? test = none ↔
      ∀ key, first ≤ rank key → rank key < first + count → test key = false := by
  rw [List.find?_map, Option.map_eq_none_iff, List.find?_range_eq_none]
  constructor
  · intro fails key above below
    have fails := fails (rank key - first) (by omega)
    rwa [Function.comp_apply, keyAt_rank ranked above below, Bool.not_eq_true'] at fails
  · intro fails offset before
    have number := ranked offset before
    rw [Function.comp_apply, fails _ (by omega) (by omega), Bool.not_false]

end Ranked

end HubRelay
