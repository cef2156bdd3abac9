import HubRelay.Proofs.Ledger.Accounts
import HubRelay.Proofs.Ledger.Received

/-!
A ledger is a finite map.

`Represents` reads arena and index as the map that they store. Every operation answers as the map
does and keeps this reading, and so does every run; what the arena may do with places and indices
beyond this is of no consequence.
-/

namespace HubRelay

def Slot.account (s : Slot) : Account where
  nextTransaction := s.nextTransaction
  outgoing := s.outgoing
  incoming := s.incoming

def Slot.entry (s : Slot) : (Handle × Command) × Account := ((s.handle, s.command), s.account)

namespace Ledger

/-- Arena and index agree, and the arena holds the entries of the map, in their order. Which place
of the arena a slot has is left open, since no operation depends on it. -/
structure Represents (l : Ledger) (a : Accounts) : Prop where
  wellFormed : l.WellFormed
  entries : a.entries = l.slots.toList.map Slot.entry

variable {l : Ledger} {a : Accounts} {handle : Handle} {command : Command} {s : Slot}

/-- An empty ledger represents an empty map. -/
theorem represents_empty : empty.Represents .empty := ⟨wellFormed_empty, rfl⟩

/-! ### Looking up -/

/-- A slot found in the ledger is the account found in the map. -/
theorem Represents.find?_eq (rep : l.Represents a) (handle : Handle) (command : Command) :
    a.find? (handle, command) = (l.slot? handle command).map Slot.account := by
  ext account
  rw [Roll.find?_eq_some_iff, rep.entries, List.mem_map, Option.map_eq_some_iff]
  constructor
  · rintro ⟨s, mem, same⟩
    obtain ⟨pair, rfl⟩ := Prod.mk.inj same
    obtain ⟨rfl, rfl⟩ := Prod.mk.inj pair
    exact ⟨s, slot?_of_mem rep.wellFormed (Array.mem_toList_iff.mp mem), rfl⟩
  · rintro ⟨s, found, rfl⟩
    obtain ⟨mem, rfl, rfl⟩ := (slot?_eq_some_iff rep.wellFormed).mp found
    exact ⟨s, Array.mem_toList_iff.mpr mem, rfl⟩

/-- This includes slots that were never used, whose account is blank. -/
theorem Represents.account_eq (rep : l.Represents a) (handle : Handle) (command : Command) :
    a.account handle command = (l.slotAt handle command).account := by
  rw [Accounts.account, rep.find?_eq, slotAt]
  cases l.slot? handle command <;> rfl

/-! ### Changing -/

/-- Changing the slot that stands at a place changes the entry of its pair. -/
theorem map_entry_modify {f : Slot → Slot} (keeps : Keeps f) {slots : List Slot} {place : Nat}
    (found : slots[place]? = some s) (distinct : ((slots.map Slot.entry).map Prod.fst).Nodup) :
    (slots.modify place f).map Slot.entry =
      Roll.enterEntry (s.handle, s.command) (f s).account (slots.map Slot.entry) := by
  induction slots generalizing place with
  | nil => cases found
  | cons head rest ih =>
      obtain ⟨absent, distinct⟩ := List.nodup_cons.mp distinct
      cases place with
      | zero =>
          obtain rfl := Option.some.inj found
          have pair : (f head).entry = ((head.handle, head.command), (f head).account) := by
            rw [Slot.entry, (keeps head).1, (keeps head).2]
          rw [List.modify_zero_cons, List.map_cons, List.map_cons, Roll.enterEntry, pair]
          exact (if_pos rfl).symm
      | succ place =>
          have mem : s ∈ rest := List.mem_of_getElem? found
          have other : ¬ head.entry.1 = (s.handle, s.command) := fun same =>
            absent (List.mem_map.mpr ⟨s.entry, List.mem_map_of_mem mem, same.symm⟩)
          rw [List.modify_succ_cons, List.map_cons, List.map_cons, Roll.enterEntry, if_neg other,
            ih found distinct]

/-- A change to a slot in the ledger is an entry in the map. -/
theorem Represents.modify (rep : l.Represents a) {f : Slot → Slot} (keeps : Keeps f)
    (found : l.slot? handle command = some s) :
    (l.modify handle command f).Represents (a.enter (handle, command) (f s).account) := by
  refine ⟨wellFormed_modify rep.wellFormed handle command keeps, ?_⟩
  obtain ⟨place, indexed, stands⟩ := Option.bind_eq_some_iff.mp found
  obtain ⟨-, rfl, rfl⟩ := (slot?_eq_some_iff rep.wellFormed).mp found
  have distinct := a.distinct
  rw [rep.entries] at distinct
  unfold Ledger.modify Roll.enter
  rw [indexed]
  simp only [Array.toList_modify, rep.entries]
  refine (map_entry_modify keeps ?_ distinct).symm
  rw [Array.getElem?_toList, stands]

/-- A slot in use need not be allocated. -/
theorem allocate_of_used (found : l.slot? handle command = some s) :
    l.allocate handle command = l := by
  obtain ⟨place, indexed, -⟩ := Option.bind_eq_some_iff.mp found
  rw [allocate, indexed]

/-- A slot that is allocated enters the map with a blank account. -/
theorem Represents.allocate (rep : l.Represents a) (unused : l.slot? handle command = none) :
    (l.allocate handle command).Represents (a.enter (handle, command) {}) := by
  refine ⟨wellFormed_allocate rep.wellFormed handle command, ?_⟩
  have absent : (handle, command) ∉ a.entries.map Prod.fst := by
    rintro mem
    obtain ⟨entry, mem, same⟩ := List.mem_map.mp mem
    have found : a.find? (handle, command) = some entry.2 :=
      Roll.find?_eq_some_iff.mpr (same ▸ mem)
    rw [rep.find?_eq, unused] at found
    cases found
  have free : l.index[(handle, command)]? = none := by
    cases indexed : l.index[(handle, command)]? with
    | none => rfl
    | some place =>
        obtain ⟨s, stands, -⟩ := (rep.wellFormed _ _ _).mp indexed
        rw [slot?, indexed, Option.bind_some, stands] at unused
        cases unused
  show Roll.enterEntry (handle, command) {} a.entries = _
  rw [Roll.enterEntry_of_absent _ absent, Ledger.allocate, free, rep.entries]
  simp only [Array.toList_push, List.map_append, List.map_singleton]
  rfl

/-- A change of the slot of a pair, which may come into use for it. An unused pair is allocated
first and found by the index then, so that both cases end in an entry of the map. -/
theorem Represents.enter (rep : l.Represents a) {f : Slot → Slot} (keeps : Keeps f) :
    ((l.allocate handle command).modify handle command f).Represents
      (a.enter (handle, command) (f (l.slotAt handle command)).account) := by
  cases found : l.slot? handle command with
  | some s =>
      rw [allocate_of_used found, slotAt, found]
      exact rep.modify keeps found
  | none =>
      have fresh : (l.allocate handle command).slot? handle command =
          some { handle, command } := by
        rw [slot?_allocate rep.wellFormed, if_pos ⟨rfl, rfl⟩, found]
        rfl
      have changed := (rep.allocate found).modify keeps fresh
      rw [Roll.enter_enter] at changed
      rw [slotAt, found]
      exact changed

/-- A change of a slot that would leave a new one as it is. -/
theorem Represents.enter_of_used (rep : l.Represents a) {f : Slot → Slot} (keeps : Keeps f)
    (used : l.slotAt handle command ≠ { handle, command }) :
    (l.modify handle command f).Represents
      (a.enter (handle, command) (f (l.slotAt handle command)).account) := by
  unfold slotAt at used ⊢
  cases found : l.slot? handle command with
  | some s => exact rep.modify keeps found
  | none =>
      rw [found] at used
      exact absurd rfl used

/-! ### One operation -/

/-- The two answer alike, and the one ledger then is the other map. -/
def Agrees (answered : LedgerAnswer × Ledger) (told : LedgerAnswer × Accounts) : Prop :=
  answered.1 = told.1 ∧ answered.2.Represents told.2

/-- Beginning a request agrees with the map, also if it uses a slot for the first time. -/
theorem Represents.begin (rep : l.Represents a) (handle : Handle) (command : Command)
    (timeout : Option Span) (now : Instant) :
    Agrees (l.perform (.begin handle command timeout now))
      (a.perform (.begin handle command timeout now)) := by
  simp only [perform, Accounts.perform, rep.account_eq, begin_eq]
  cases pending : (l.slotAt handle command).outgoing.pending with
  | true =>
      simp only [Slot.account, pending, if_true]
      exact ⟨rfl, rep⟩
  | false =>
      simp only [Slot.account, pending, Bool.false_eq_true, if_false]
      exact ⟨rfl, rep.enter (keeps_begin timeout now)⟩

/-- A slot that awaits something has been used. -/
theorem used_of_awaits {transaction : TransactionId}
    (awaited : (l.slotAt handle command).awaits transaction = true) :
    l.slotAt handle command ≠ { handle, command } := by
  intro fresh
  rw [fresh] at awaited
  cases awaited

/-- A request that is pending is ended in both. -/
theorem Represents.finish (rep : l.Represents a) {transaction : TransactionId}
    (awaited : (l.slotAt handle command).awaits transaction = true) :
    (l.withoutRequest handle command).Represents
      (a.enter (handle, command) (l.slotAt handle command).account.ended) :=
  rep.enter_of_used keeps_finish (used_of_awaits awaited)

/-- Aborting agrees with the map. Only a slot that is pending is changed. -/
theorem Represents.abort (rep : l.Represents a) (key : RequestKey) :
    Agrees (l.perform (.abort key.handle key.command key.transaction))
      (a.perform (.abort key.handle key.command key.transaction)) := by
  simp only [perform, Accounts.perform, rep.account_eq, abort_eq]
  show Agrees _ (if l.awaits key then _ else _)
  cases awaited : l.awaits key with
  | true => exact ⟨rfl, rep.finish awaited⟩
  | false => exact ⟨rfl, rep⟩

/-- A slot knows its own pair, and a request that is pending is known by its number. -/
theorem lapsed_slotAt (wf : l.WellFormed) {key : RequestKey} (awaited : l.awaits key = true) :
    (l.slotAt key.handle key.command).lapsed =
      { handle := key.handle, command := key.command, transaction := key.transaction
        sentAt := (l.slotAt key.handle key.command).outgoing.sentAt } := by
  obtain ⟨handle, command⟩ := slotAt_pair wf key.handle key.command
  rw [Slot.lapsed, handle, command, (awaits_of_slotAt.mp awaited).2]

/-- Giving up agrees with the map in the same way. -/
theorem Represents.expire (rep : l.Represents a) (key : RequestKey) :
    Agrees (l.perform (.expire key.handle key.command key.transaction))
      (a.perform (.expire key.handle key.command key.transaction)) := by
  simp only [perform, Accounts.perform, rep.account_eq, expire_eq]
  show Agrees _ (if l.awaits key then _ else _)
  cases awaited : l.awaits key with
  | true =>
      rw [lapsed_slotAt rep.wellFormed awaited]
      exact ⟨rfl, rep.finish awaited⟩
  | false => exact ⟨rfl, rep⟩

/-- A response agrees with the map in each of its three answers. -/
theorem Represents.complete (rep : l.Represents a) (key : RequestKey) (now : Instant) :
    Agrees (l.perform (.complete key.handle key.command key.transaction now))
      (a.perform (.complete key.handle key.command key.transaction now)) := by
  simp only [perform, Accounts.perform, rep.account_eq, complete_eq]
  show Agrees _ (if l.awaits key then _ else if _ then _ else _)
  cases awaited : l.awaits key with
  | true => exact ⟨rfl, rep.finish awaited⟩
  | false =>
      cases pending : (l.slotAt key.handle key.command).outgoing.pending with
      | true =>
          simp only [Slot.account, pending, if_true]
          exact ⟨rfl, rep⟩
      | false =>
          simp only [Slot.account, pending]
          exact ⟨rfl, rep⟩

/-- A scan goes through the slots in the order in which they were first used, which is that of the
map. -/
theorem Represents.takeLapsed (rep : l.Represents a) (now : Instant) :
    Agrees (l.perform (.takeLapsed now)) (a.perform (.takeLapsed now)) := by
  refine ⟨?_, wellFormed_takeLapsed rep.wellFormed now, ?_⟩
  · show LedgerAnswer.allLapsed _ = LedgerAnswer.allLapsed _
    rw [rep.entries, List.filter_map, List.map_map, Array.toList_filter]
    rfl
  · show List.map _ a.entries = List.map _ (Array.toList (Array.map _ _))
    rw [rep.entries, List.map_map, Array.toList_map, List.map_map]
    refine List.map_congr_left fun s _ => ?_
    show (s.entry.1, if s.isDue now then s.account.ended else s.account) =
      Slot.entry (if s.isDue now then s.finish else s)
    split <;> rfl

/-- A request that arrives agrees with the map. -/
theorem Represents.openIncoming (rep : l.Represents a) (handle : Handle) (command : Command)
    (transaction : TransactionId) (now : Instant) :
    Agrees (l.perform (.openIncoming handle command transaction now))
      (a.perform (.openIncoming handle command transaction now)) := by
  simp only [perform, Accounts.perform, rep.account_eq]
  exact ⟨rfl, rep.enter (keeps_receive transaction now)⟩

/-- Closing a received request agrees with the map. -/
theorem Represents.closeIncoming (rep : l.Represents a) (key : RequestKey) (now : Instant) :
    Agrees (l.perform (.closeIncoming key.handle key.command key.transaction now))
      (a.perform (.closeIncoming key.handle key.command key.transaction now)) := by
  simp only [perform, Accounts.perform, rep.account_eq, closeIncoming_eq]
  show Agrees _ (if l.owes key then _ else _)
  cases owed : l.owes key with
  | true =>
      rw [closed, if_pos owed]
      refine ⟨rfl, rep.enter_of_used keeps_answer fun fresh => ?_⟩
      rw [owes, fresh] at owed
      cases owed
  | false => exact ⟨rfl, rep⟩

/-- Removing an endpoint takes the same slots out of both and keeps the order of the others. -/
theorem Represents.removeEndpoint (rep : l.Represents a) (handle : Handle) :
    Agrees (l.perform (.removeEndpoint handle)) (a.perform (.removeEndpoint handle)) := by
  refine ⟨rfl, wellFormed_removeEndpoint rep.wellFormed handle, ?_⟩
  show List.filter _ a.entries = List.map _ (Array.toList (Array.filter _ _))
  rw [rep.entries, List.filter_map, Array.toList_filter]
  rfl

/-- Every operation answers as it does on the map, and leaves what it leaves there. The lemmas
before this one are its cases, one for each operation. -/
theorem Represents.perform (rep : l.Represents a) (operation : LedgerOperation) :
    Agrees (l.perform operation) (a.perform operation) := by
  cases operation with
  | begin handle command timeout now => exact rep.begin handle command timeout now
  | abort handle command transaction => exact rep.abort ⟨handle, command, transaction⟩
  | expire handle command transaction => exact rep.expire ⟨handle, command, transaction⟩
  | complete handle command transaction now =>
      exact rep.complete ⟨handle, command, transaction⟩ now
  | takeLapsed now => exact rep.takeLapsed now
  | openIncoming handle command transaction now =>
      exact rep.openIncoming handle command transaction now
  | closeIncoming handle command transaction now =>
      exact rep.closeIncoming ⟨handle, command, transaction⟩ now
  | clear => exact ⟨rfl, represents_empty⟩
  | removeEndpoint handle => exact rep.removeEndpoint handle
  | nextDeadline =>
      refine ⟨?_, rep⟩
      show LedgerAnswer.deadline _ = LedgerAnswer.deadline _
      rw [rep.entries, List.filterMap_filter, List.filterMap_map]
      rfl
  | isPending handle command =>
      refine ⟨?_, rep⟩
      show LedgerAnswer.flag _ = LedgerAnswer.flag _
      rw [isPending_eq, rep.account_eq]
      rfl
  | outgoing handle command =>
      refine ⟨?_, rep⟩
      show LedgerAnswer.outgoing _ = LedgerAnswer.outgoing _
      rw [outgoing?, rep.find?_eq, Option.map_map]
      rfl
  | incoming handle command =>
      refine ⟨?_, rep⟩
      show LedgerAnswer.incoming _ = LedgerAnswer.incoming _
      rw [incoming?, rep.find?_eq, Option.map_map]
      rfl
  | pendingCount =>
      refine ⟨?_, rep⟩
      show LedgerAnswer.count _ = LedgerAnswer.count _
      rw [pendingCount, rep.entries, List.countP_map, ← Array.countP_eq_size_filter,
        ← Array.countP_toList]
      rfl

/-! ### Runs -/

/-- By induction all answers are those of the map. -/
theorem Represents.run (rep : l.Represents a) (operations : List LedgerOperation) :
    l.answers operations = a.answers operations ∧
      (l.run operations).Represents (a.run operations) := by
  induction operations generalizing l a with
  | nil => exact ⟨rfl, rep⟩
  | cons operation rest ih =>
      obtain ⟨same, rep⟩ := rep.perform operation
      obtain ⟨others, rep⟩ := ih rep
      exact ⟨congrArg₂ List.cons same others, rep⟩

/-- The index finds the slot of every pair that it knows, it knows every slot, and no two slots
stand for one pair. This is said without `WellFormed`, in terms of what is stored. -/
structure Indexed (l : Ledger) : Prop where
  finds : ∀ key place, l.index[key]? = some place →
    ∃ s : Slot, l.slots[place]? = some s ∧ (s.handle, s.command) = key
  knows : ∀ (place : Nat) (s : Slot), l.slots[place]? = some s →
    l.index[(s.handle, s.command)]? = some place
  apart : ∀ (place other : Nat) (s s' : Slot), l.slots[place]? = some s →
    l.slots[other]? = some s' → (s.handle, s.command) = (s'.handle, s'.command) → place = other

/-- The index of a ledger in order points at each of its slots. -/
theorem WellFormed.indexed (wf : l.WellFormed) : l.Indexed := by
  have knows (place : Nat) (s : Slot) (stands : l.slots[place]? = some s) :
      l.index[(s.handle, s.command)]? = some place := (wf _ _ _).mpr ⟨s, stands, rfl, rfl⟩
  refine ⟨fun key place indexed => ?_, knows, ?_⟩
  · obtain ⟨s, stands, handle, command⟩ := (wf _ _ _).mp indexed
    exact ⟨s, stands, Prod.ext handle command⟩
  · intro place other s s' stands stands' same
    have first := knows place s stands
    rw [same, knows other s' stands'] at first
    exact (Option.some.inj first).symm

/-- The number that the next request of a pair gets, and the request last sent there. -/
def sent? (l : Ledger) (handle : Handle) (command : Command) : Option (TransactionId × Outgoing) :=
  (l.slot? handle command).map fun s => (s.nextTransaction, s.outgoing)

end Ledger

/-- A ledger answers every run of operations as a map from pairs to accounts does, in which the
pairs stand as they came into use. At every moment of the run its index and its slots agree; to
remove an endpoint leaves the slots of all others as they are and lets its own start again from
zero; and what is done about requests sent leaves those received alone, and the other way round.

The map of `Accounts` has no places, so the answers of a ledger cannot depend on the places of its
arena, which shift when an endpoint is removed. -/
theorem ledgers_are_maps (operations : List LedgerOperation) :
    let l := Ledger.empty.run operations
    Ledger.empty.answers operations = Accounts.answers .empty operations ∧
      l.slots.toList.map Slot.entry = (Accounts.run .empty operations).entries ∧
      l.Indexed ∧
      (∀ handle, let later := l.removeEndpoint handle
        (∀ other command, other ≠ handle →
          later.slot? other command = l.slot? other command) ∧
        ∀ command, later.slot? handle command = none ∧
          ∀ timeout now, ∃ begun, later.begin handle command timeout now = .ok (0, begun)) ∧
      (∀ operation, operation.Sends → ∀ handle command,
        let later := (l.perform operation).2
        later.incoming? handle command = l.incoming? handle command ∨
          l.slot? handle command = none ∧ later.incoming? handle command = some {}) ∧
      ∀ operation, operation.Receives → ∀ handle command,
        let later := (l.perform operation).2
        later.sent? handle command = l.sent? handle command ∨
          l.slot? handle command = none ∧ later.sent? handle command = some (0, {}) := by
  intro l
  obtain ⟨same, rep⟩ := Ledger.represents_empty.run operations
  have wf : l.WellFormed := rep.wellFormed
  refine ⟨same, rep.entries.symm, wf.indexed, fun handle => ⟨?_, fun command => ⟨?_, ?_⟩⟩, ?_, ?_⟩
  · intro other command apart
    rw [Ledger.slot?_removeEndpoint wf, if_neg (Ne.symm apart)]
  · rw [Ledger.slot?_removeEndpoint wf, if_pos rfl]
  · intro timeout now
    rw [Ledger.begin_eq, Ledger.slotAt_removeEndpoint wf, if_pos rfl]
    exact ⟨_, rfl⟩
  -- Kinds of operations are told apart on the map, where the two sides of an account are separate.
  · intro operation sends handle command
    have later := (rep.perform operation).2
    have alike := Accounts.alike_of_sends (Accounts.run .empty operations) sends (handle, command)
    rw [rep.find?_eq, later.find?_eq, Option.map_map, Option.map_map,
      Option.map_eq_none_iff] at alike
    exact alike
  · intro operation receives handle command
    have later := (rep.perform operation).2
    have alike := Accounts.alike_of_receives (Accounts.run .empty operations) receives
      (handle, command)
    rw [rep.find?_eq, later.find?_eq, Option.map_map, Option.map_map,
      Option.map_eq_none_iff] at alike
    exact alike

/-- A run in which an endpoint with the first slot is removed while another one has a request under
way, and comes back. -/
def LedgerOperation.shifting : List LedgerOperation :=
  [.begin 16 0 (some 5) 10, .openIncoming 17 3 9 11, .begin 17 3 none 12, .removeEndpoint 16,
    .complete 17 3 0 20, .begin 17 3 none 21, .begin 16 0 (some 4) 22, .incoming 17 3,
    .nextDeadline, .pendingCount]

theorem ledgers_are_maps_shifting :
    let l := Ledger.empty.run LedgerOperation.shifting
    Ledger.empty.answers LedgerOperation.shifting =
        [.begun 0, .nothing, .begun 0, .nothing, .correlated (.matched 8), .begun 1, .begun 0,
          .incoming (some { transaction := 9, receivedAt := some 11, unanswered := true }),
          .deadline (some 26), .count 2] ∧
      l.slots.toList.map (fun s => (s.handle, s.command)) = [(17, 3), (16, 0)] ∧
      ((l.perform (.abort 17 3 1)).2.incoming? 17 3 = l.incoming? 17 3 ∨
        l.slot? 17 3 = none ∧ (l.perform (.abort 17 3 1)).2.incoming? 17 3 = some {}) := by
  intro l
  obtain ⟨same, entries, -, -, sends, -⟩ := ledgers_are_maps LedgerOperation.shifting
  refine ⟨same.trans (by decide), ?_, sends (.abort 17 3 1) trivial 17 3⟩
  have pairs := congrArg (List.map Prod.fst) entries
  rw [List.map_map] at pairs
  exact pairs.trans (by decide)

end HubRelay
