import HubRelay.Host.Roster
import Mathlib.Data.List.Nodup

/-!
Rosters in which every number is one that a client may have and no two clients share one.

Whatever a file holds, the roster read from it is valid, and entering a new client under a number
that is assignable and free keeps it so.
-/

namespace HubRelay

namespace ClientId

theorem isAssignable_iff {id : ClientId} :
    id.isAssignable = true ↔ 1 ≤ id.toNat ∧ id.toNat ≤ 0x1fe := by
  have first : unassigned.toNat = 0 := rfl
  have last : layer.toNat = 0x1ff := rfl
  simp only [isAssignable, Bool.and_eq_true, bne_iff_ne, ne_eq, decide_eq_true_eq,
    UInt16.lt_iff_toNat_lt, ← UInt16.toNat_inj, first, last]
  omega

theorem isAssignable_of_mem_vendorIds {id : ClientId} (mem : id ∈ vendorIds) :
    id.isAssignable = true := by
  obtain ⟨offset, below, rfl⟩ := List.mem_map.mp mem
  have bound : offset < 0x1fd := List.mem_range.mp below
  have number : (UInt16.ofNat (vendorFirst.toNat + offset)).toNat = 2 + offset :=
    Nat.mod_eq_of_lt (by change 2 + offset < 65536; omega)
  rw [isAssignable_iff, number]
  omega

end ClientId

namespace Roster

/-- Every number is one that a client may have, and no two clients share one. -/
structure Valid (r : Roster) : Prop where
  assignable : ∀ pair ∈ r.pairs, pair.2.isAssignable = true
  distinct : (r.pairs.map Prod.snd).Nodup

variable {r : Roster} {uuid other : Uuid} {id : ClientId}

/-! ### Looking up -/

theorem find?_eq_some_iff : r.find? uuid = some id ↔ (uuid, id) ∈ r.pairs :=
  Table.find?_eq_some_iff

theorem find?_enter (r : Roster) (uuid other : Uuid) (id : ClientId) :
    (r.enter uuid id).find? other = if uuid = other then some id else r.find? other :=
  Table.find?_insert r.table uuid other id

theorem perm_enter (fresh : r.find? uuid = none) (id : ClientId) :
    (r.enter uuid id).pairs.Perm ((uuid, id) :: r.pairs) :=
  Table.perm_insert fresh id

theorem holdsId_eq_false_iff : r.holdsId id = false ↔ id ∉ r.pairs.map Prod.snd := by
  rw [holdsId, List.contains_eq_mem, decide_eq_false_iff_not]
  rfl

/-- Clients of a valid roster that have one number are one client. -/
theorem Valid.eq_of_find? (valid : r.Valid) (found : r.find? uuid = some id)
    (found' : r.find? other = some id) : uuid = other :=
  congrArg Prod.fst (List.inj_on_of_nodup_map valid.distinct (find?_eq_some_iff.mp found)
    (find?_eq_some_iff.mp found') rfl)

/-! ### Where valid rosters come from -/

theorem valid_empty : Valid {} := ⟨fun _ mem => (List.not_mem_nil mem).elim, List.nodup_nil⟩

theorem Valid.enter (valid : r.Valid) (fresh : r.find? uuid = none)
    (assignable : id.isAssignable = true) (free : r.holdsId id = false) :
    (r.enter uuid id).Valid := by
  have perm := perm_enter fresh id
  refine ⟨fun pair mem => ?_, ?_⟩
  · rcases List.mem_cons.mp (perm.mem_iff.mp mem) with rfl | mem
    · exact assignable
    · exact valid.assignable pair mem
  · rw [(perm.map Prod.snd).nodup_iff]
    exact List.nodup_cons.mpr ⟨holdsId_eq_false_iff.mp free, valid.distinct⟩

theorem Valid.accept (valid : r.Valid) (record : Record) : (r.accept record).Valid := by
  unfold Roster.accept
  split
  · exact valid
  · split
    · exact valid
    · rename_i kept
      simp only [Bool.or_eq_true, Bool.not_eq_true', not_or, Bool.not_eq_false, Bool.not_eq_true,
        Option.isSome_eq_false_iff, Option.isNone_iff_eq_none] at kept
      exact valid.enter kept.2 kept.1.1 kept.1.2

theorem valid_ofContents (contents : Option ByteArray) : (ofContents contents).Valid := by
  have folds (records : List Record) {r : Roster} (valid : r.Valid) :
      (records.foldl Roster.accept r).Valid := by
    induction records generalizing r with
    | nil => exact valid
    | cons record rest ih => exact ih (valid.accept record)
  unfold ofContents
  split
  · exact valid_empty
  · exact folds _ valid_empty

end Roster

end HubRelay
