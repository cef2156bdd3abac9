import HubRelay.Proofs.Identity
import HubRelay.Proofs.Refusals

/-!
Which number a new client gets.

The system's own client gets the number that is kept for it, unless somebody else has it, and
everyone else the least free one (`Switchboard.Assigns`). A number is given whenever there is one
and the roster has room; there are 510 of them. A client that has a number gets it again, however
full the roster is.
-/

namespace HubRelay

/-- Nobody has the number. -/
def Roster.Free (r : Roster) (id : ClientId) : Prop := ∀ uuid, r.find? uuid ≠ some id

theorem Roster.free_iff {r : Roster} {id : ClientId} : r.Free id ↔ r.holdsId id = false := by
  simp only [Roster.Free, ne_eq, Roster.find?_eq_some_iff, Roster.holdsId_eq_false_iff,
    List.mem_map, Prod.exists, exists_eq_right, not_exists]

/-- The number is in the range of ordinary clients. -/
def ClientId.Vendor (id : ClientId) : Prop := 2 ≤ id.toNat ∧ id.toNat ≤ 0x1fe

theorem ClientId.rank_vendorId : ∀ offset < vendorLast.toNat + 1 - vendorFirst.toNat,
    Ranked.rank (UInt16.ofNat (vendorFirst.toNat + offset)) = 2 + offset := by
  intro offset below
  have count : offset < 0x1fd := below
  show (UInt16.ofNat (2 + offset)).toNat = 2 + offset
  rw [UInt16.toNat_ofNat', Nat.mod_eq_of_lt (by omega)]

namespace Switchboard

variable {s : Switchboard} {uuid : Uuid} {id : ClientId} {pid : Pid} {callback : Callback}

/-- The client is the system's own, and the number that is kept for it is free. -/
def Reserved (s : Switchboard) (uuid : Uuid) : Prop :=
  uuid = s.settings.systemUuid ∧ s.roster.Free ClientId.system

/-- The number that a new client can get. The reserved one comes first for the system's own client;
if somebody else has it, that client is given one as everyone else. -/
inductive Assigns (s : Switchboard) (uuid : Uuid) : ClientId → Prop where
  | reserved : s.Reserved uuid → Assigns s uuid ClientId.system
  | least {id : ClientId} : ¬ s.Reserved uuid → id.Vendor → s.roster.Free id →
      (∀ lower : ClientId, lower.Vendor → s.roster.Free lower → id.toNat ≤ lower.toNat) →
      Assigns s uuid id

theorem find?_vendorIds_eq_some_iff :
    (ClientId.vendorIds.find? fun id => !s.roster.holdsId id) = some id ↔
      id.Vendor ∧ s.roster.Free id ∧
        ∀ lower : ClientId, lower.Vendor → s.roster.Free lower → id.toNat ≤ lower.toNat := by
  simp only [ClientId.vendorIds, Ranked.find?_successive_eq_some ClientId.rank_vendorId,
    Bool.not_eq_true', Bool.not_eq_false', Roster.free_iff]
  have last : ClientId.vendorLast.toNat + 1 - ClientId.vendorFirst.toNat = 0x1fd := rfl
  have rank (id : ClientId) : Ranked.rank id = id.toNat := rfl
  simp only [last, rank, ClientId.Vendor]
  constructor
  · rintro ⟨⟨above, below⟩, free, taken⟩
    refine ⟨⟨above, by omega⟩, free, fun lower vendor spare => ?_⟩
    by_contra before
    rw [taken lower vendor.1 (by omega)] at spare
    cases spare
  · rintro ⟨⟨above, below⟩, free, least⟩
    refine ⟨⟨above, by omega⟩, free, fun lower more before => ?_⟩
    rw [← Bool.not_eq_false]
    intro spare
    have after := least lower ⟨more, by omega⟩ spare
    omega

theorem find?_vendorIds_eq_none_iff :
    (ClientId.vendorIds.find? fun id => !s.roster.holdsId id) = none ↔
      ∀ id : ClientId, id.Vendor → ¬ s.roster.Free id := by
  simp only [ClientId.vendorIds, Ranked.find?_successive_eq_none ClientId.rank_vendorId,
    Bool.not_eq_false', Roster.free_iff, Bool.not_eq_false]
  have last : ClientId.vendorLast.toNat + 1 - ClientId.vendorFirst.toNat = 0x1fd := rfl
  have rank (id : ClientId) : Ranked.rank id = id.toNat := rfl
  simp only [last, rank, ClientId.Vendor]
  constructor
  · rintro taken id ⟨above, below⟩
    exact taken id above (by omega)
  · intro taken id above below
    exact taken id ⟨above, by omega⟩

theorem reserved_iff :
    s.Reserved uuid ↔
      uuid = s.settings.systemUuid ∧ (!s.roster.holdsId ClientId.system) = true := by
  rw [Reserved, Roster.free_iff, Bool.not_eq_true']

theorem allocate_eq_ok_iff :
    s.allocate uuid = .ok id ↔ s.roster.size < s.settings.maxClients ∧ s.Assigns uuid id := by
  unfold allocate
  by_cases full : s.settings.maxClients ≤ s.roster.size
  · rw [if_pos full]
    refine ⟨nofun, fun assigned => ?_⟩
    exact absurd assigned.1 (Nat.not_lt.mpr full)
  · rw [if_neg full, and_iff_right (Nat.lt_of_not_le full)]
    by_cases reserved : s.Reserved uuid
    · rw [if_pos (reserved_iff.mp reserved)]
      constructor
      · rintro ⟨⟩
        exact .reserved reserved
      · rintro (_ | ⟨other, -, -, -⟩)
        · rfl
        · exact absurd reserved other
    · rw [if_neg (mt reserved_iff.mpr reserved)]
      have assigns : s.Assigns uuid id ↔
          (ClientId.vendorIds.find? fun id => !s.roster.holdsId id) = some id := by
        rw [find?_vendorIds_eq_some_iff]
        constructor
        · rintro (own | ⟨-, vendor, free, least⟩)
          · exact absurd own reserved
          · exact ⟨vendor, free, least⟩
        · rintro ⟨vendor, free, least⟩
          exact .least reserved vendor free least
      rw [assigns]
      split <;> simp [*]

theorem exists_assigns_iff :
    (∃ id, s.Assigns uuid id) ↔
      s.Reserved uuid ∨ ∃ id : ClientId, id.Vendor ∧ s.roster.Free id := by
  constructor
  · rintro ⟨id, reserved | ⟨-, vendor, free, -⟩⟩
    · exact .inl reserved
    · exact .inr ⟨id, vendor, free⟩
  · intro spare
    by_cases reserved : s.Reserved uuid
    · exact ⟨_, .reserved reserved⟩
    · obtain ⟨id, vendor, free⟩ := spare.resolve_left reserved
      cases found : ClientId.vendorIds.find? fun id => !s.roster.holdsId id with
      | none => exact absurd free (find?_vendorIds_eq_none_iff.mp found id vendor)
      | some least =>
          obtain ⟨vendor, free, lowest⟩ := find?_vendorIds_eq_some_iff.mp found
          exact ⟨least, .least reserved vendor free lowest⟩

/-- A number that is given is a client's, and nobody has it. -/
theorem Assigns.free (assigns : s.Assigns uuid id) :
    s.roster.Free id ∧ 1 ≤ id.toNat ∧ id.toNat ≤ 0x1fe := by
  cases assigns with
  | reserved reserved => exact ⟨reserved.2, by decide⟩
  | least _ vendor free =>
      obtain ⟨above, below⟩ := vendor
      exact ⟨free, by omega, below⟩

/-! ### Registering -/

theorem register_of_new (new : s.roster.find? uuid = none) (pid : Pid) (callback : Callback) :
    (s.register pid callback uuid ⟨true, true⟩).1 = s.allocate uuid := by
  unfold register idFor rosterWith
  rw [new]
  cases s.allocate uuid with
  | error error => rfl
  | ok id =>
      simp only [Roster.insert, Roster.store, new]
      rfl

theorem register_of_known (known : s.roster.find? uuid = some id) (pid : Pid)
    (callback : Callback) (writable : Bool) :
    (s.register pid callback uuid ⟨true, writable⟩).1 = .ok id := by
  unfold register idFor rosterWith
  rw [known]
  rfl

theorem Sound.free (sound : s.Sound) (free : s.roster.Free id) : ∀ c ∈ s.clients, c.id ≠ id := by
  rintro c mem rfl
  have listed := sound.listed.mem_iff.mp (List.mem_map_of_mem mem)
  exact free c.uuid (Roster.find?_eq_some_iff.mpr listed)

end Switchboard

theorem Office.sound_run {o : Office} (sound : o.board.Sound) (events : List OfficeEvent) :
    (o.run events).board.Sound := by
  induction events generalizing o with
  | nil => exact sound
  | cons event rest ih =>
      refine ih ?_
      cases event with
      | operation operation =>
          rw [Office.board_after]
          exact sound.change (o.board.change_after operation)
      | reopen settings => exact Switchboard.sound_ofContents settings o.file

/-- In an office a new client is given a number exactly if the roster has room and a number is left
for it: the reserved one if it is the system's own client and nobody has it, the least free one of
the others otherwise. A client that has a number always gets it.

The office may start from any file, so the roster may list more clients than there is room for, and
numbers that were never given out here. -/
theorem new_clients_get_least_free (settings : HostSettings) (file : Option ByteArray)
    (events : List OfficeEvent) :
    let o := (Office.ofFile settings file).run events
    let s := o.board
    let reserved := fun uuid : Uuid => uuid = s.settings.systemUuid ∧ s.roster.Free 1
    Roster.ofContents o.file = s.roster ∧
      (∀ uuid, s.roster.find? uuid = none → ∀ pid callback,
        let answer := (s.register pid callback uuid ⟨true, true⟩).1
        ((∃ id, answer = .ok id) ↔
          s.roster.size < s.settings.maxClients ∧
            (reserved uuid ∨ ∃ id : ClientId, (2 ≤ id.toNat ∧ id.toNat ≤ 0x1fe) ∧
              s.roster.Free id)) ∧
        (∀ id, answer = .ok id →
          (reserved uuid → id = 1) ∧
            (¬ reserved uuid → (2 ≤ id.toNat ∧ id.toNat ≤ 0x1fe) ∧
              ∀ lower : ClientId, 2 ≤ lower.toNat ∧ lower.toNat ≤ 0x1fe → s.roster.Free lower →
                id.toNat ≤ lower.toNat) ∧
            id ≠ 0 ∧ id ≠ 0x1ff ∧ s.roster.Free id ∧ ∀ c ∈ s.clients, c.id ≠ id) ∧
        ((∀ id, answer ≠ .ok id) → answer = .error (.idsExhausted s.settings.maxClients))) ∧
      ∀ uuid id, s.roster.find? uuid = some id → ∀ pid callback writable,
        (s.register pid callback uuid ⟨true, writable⟩).1 = .ok id := by
  intro o s reserved
  have kept : o.Kept := (Office.kept_ofFile settings file).run events
  have sound : s.Sound := Office.sound_run (Switchboard.sound_ofContents settings file) events
  refine ⟨kept.loaded, fun uuid new pid callback => ?_, fun uuid id known pid callback writable =>
    Switchboard.register_of_known known pid callback writable⟩
  intro answer
  -- Where linking and writing go well, registering a new client is allocating its number.
  have allocated : answer = s.allocate uuid := Switchboard.register_of_new new pid callback
  refine ⟨?given, ?which, ?refused⟩
  case given =>
    simp only [allocated, Switchboard.allocate_eq_ok_iff, exists_and_left,
      Switchboard.exists_assigns_iff]
    rfl
  case which =>
    intro id given
    rw [allocated, Switchboard.allocate_eq_ok_iff] at given
    obtain ⟨-, assigns⟩ := given
    obtain ⟨free, above, below⟩ := assigns.free
    refine ⟨fun own => ?_, fun other => ?_, ?_, ?_, free, sound.free free⟩
    · cases assigns with
      | reserved => rfl
      | least other => exact absurd own other
    · cases assigns with
      | reserved own => exact absurd own other
      | least _ vendor _ lowest => exact ⟨vendor, lowest⟩
    · rintro rfl
      cases above
    · rintro rfl
      exact absurd below (by decide)
  case refused =>
    intro none
    cases result : s.allocate uuid with
    | ok id => exact absurd (allocated.trans result) (none id)
    | error error =>
        rw [allocated, result]
        exact congrArg Except.error (Switchboard.allocate_eq_error_iff.mp result).2.symm

/-- The system's own client and another one have numbers when the office is opened again with room
for three clients and a new system client. -/
def OfficeEvent.succession : List OfficeEvent :=
  [.operation (.register 7 ⟨0⟩ (HostSettings.systemUuid {}) ⟨true, true⟩),
    .operation (.register 8 ⟨1⟩ (.ofNat 1) ⟨true, true⟩),
    .reopen { systemUuid := .ofNat 3, maxClients := 3 }]

/-- The number kept for the system's own client is taken, and so is the first of the others. -/
theorem new_clients_get_least_free_succession :
    let s := ((Office.ofFile {} none).run OfficeEvent.succession).board
    let answer := (s.register 9 ⟨2⟩ (.ofNat 3) ⟨true, true⟩).1
    answer = .ok 3 ∧
      (∀ lower : ClientId, 2 ≤ lower.toNat ∧ lower.toNat ≤ 0x1fe → s.roster.Free lower →
        3 ≤ lower.toNat) ∧
      ∀ pid callback writable, (s.register pid callback (.ofNat 1) ⟨true, writable⟩).1 = .ok 2 := by
  intro s answer
  have roster : answer = .ok 3 ∧ s.roster.find? (.ofNat 3) = none ∧
      s.roster.find? (HostSettings.systemUuid {}) = some 1 ∧
      s.roster.find? (.ofNat 1) = some 2 := by
    decide +kernel
  obtain ⟨given, absent, taken, found⟩ := roster
  obtain ⟨-, new, known⟩ := new_clients_get_least_free {} none OfficeEvent.succession
  obtain ⟨-, which, -⟩ := new (.ofNat 3) absent 9 ⟨2⟩
  obtain ⟨-, other, -⟩ := which 3 given
  refine ⟨given, ?_, known (.ofNat 1) 2 found⟩
  exact (other fun own => own.2 _ taken).2

end HubRelay
