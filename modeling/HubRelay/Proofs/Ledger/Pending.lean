import HubRelay.Exchange.Awaited
import HubRelay.Proofs.Ledger.Arena
import Mathlib.Data.List.Nodup
import Mathlib.Data.List.Perm.Basic

/-!
The pending requests of a ledger, and which of them an operation begins and ends.

`slotAt` reads a pair that was never used as a slot as good as new, so every operation has one
equation. `ended` and `begun` compare two ledgers by their pending requests alone; for each
operation they are computed here.
-/

namespace HubRelay

def Slot.key (s : Slot) : RequestKey := ⟨s.handle, s.command, s.outgoing.transaction⟩

/-- The key under which a lapsed request was pending. -/
def Lapsed.key (lapsed : Lapsed) : RequestKey :=
  ⟨lapsed.handle, lapsed.command, lapsed.transaction⟩

namespace Ledger

/-- The slot of a pair; a pair that was never used has one as good as new. -/
def slotAt (l : Ledger) (handle : Handle) (command : Command) : Slot :=
  (l.slot? handle command).getD { handle, command }

def awaits (l : Ledger) (key : RequestKey) : Bool :=
  (l.slotAt key.handle key.command).awaits key.transaction

/-- Whether this is the request received last on its slot, and still without an answer. -/
def owes (l : Ledger) (key : RequestKey) : Bool :=
  (l.slotAt key.handle key.command).owes key.transaction

/-- The keys of the pending requests, in the order of their slots. -/
def pendingKeys (l : Ledger) : List RequestKey :=
  (l.slots.toList.filter (·.outgoing.pending)).map Slot.key

/-- The requests that are pending in `l` and not any more in `later`. -/
def ended (l later : Ledger) : List RequestKey := l.pendingKeys.filter fun key => !later.awaits key

/-- The requests that are pending in `later` and not yet in `l`. -/
def begun (l later : Ledger) : List RequestKey := later.pendingKeys.filter fun key => !l.awaits key

/-- Nothing that concerns requests sent differs between the two ledgers. -/
def SendsAlike (l later : Ledger) : Prop :=
  ∀ handle command,
    (later.slotAt handle command).outgoing = (l.slotAt handle command).outgoing ∧
      (later.slotAt handle command).nextTransaction = (l.slotAt handle command).nextTransaction

theorem SendsAlike.refl (l : Ledger) : l.SendsAlike l := fun _ _ => ⟨rfl, rfl⟩

theorem SendsAlike.trans {l m n : Ledger} (first : l.SendsAlike m) (second : m.SendsAlike n) :
    l.SendsAlike n := fun handle command =>
  ⟨(second handle command).1.trans (first handle command).1,
    (second handle command).2.trans (first handle command).2⟩

/-! ### Every operation by its slots -/

section Operations

variable {l : Ledger}

/-- No slot of an empty ledger has been used. -/
theorem slotAt_empty (handle : Handle) (command : Command) :
    empty.slotAt handle command = { handle, command } := by
  simp [slotAt, slot?_empty]

/-- A change that leaves a new slot as it is can be read off without asking whether the pair was
ever used. -/
theorem slotAt_modify (wf : l.WellFormed) (handle h : Handle) (command c : Command)
    {f : Slot → Slot} (idle : f { handle, command } = { handle, command }) :
    (l.modify handle command f).slotAt h c =
      if handle = h ∧ command = c then f (l.slotAt h c) else l.slotAt h c := by
  unfold slotAt
  rw [slot?_modify wf]
  split
  · rename_i here
    obtain ⟨rfl, rfl⟩ := here
    cases l.slot? handle command with
    | none => exact idle.symm
    | some s => rfl
  · rfl

/-- Changing the slot of one pair leaves all other slots as they were. A slot that was not in use is
changed as if nothing had happened on it. -/
theorem slotAt_modify_allocate (wf : l.WellFormed) (handle h : Handle) (command c : Command)
    (f : Slot → Slot) :
    ((l.allocate handle command).modify handle command f).slotAt h c =
      if handle = h ∧ command = c then f (l.slotAt h c) else l.slotAt h c := by
  unfold slotAt
  rw [slot?_modify (wellFormed_allocate wf handle command), slot?_allocate wf]
  split
  · rename_i here
    obtain ⟨rfl, rfl⟩ := here
    rfl
  · rfl

def withRequest (l : Ledger) (handle : Handle) (command : Command) (timeout : Option Span)
    (now : Instant) : Ledger :=
  (l.allocate handle command).modify handle command (·.begin timeout now)

def withoutRequest (l : Ledger) (handle : Handle) (command : Command) : Ledger :=
  l.modify handle command Slot.finish

/-- The ledger after an attempt to mark a received request as answered. -/
def closed (l : Ledger) (key : RequestKey) : Ledger :=
  if l.owes key then l.modify key.handle key.command Slot.answer else l

/-- A request begins exactly if its slot is idle, under the number that the slot has next. -/
theorem begin_eq (l : Ledger) (handle : Handle) (command : Command) (timeout : Option Span)
    (now : Instant) :
    l.begin handle command timeout now =
      if (l.slotAt handle command).outgoing.pending then
        .error (l.slotAt handle command).outgoing.transaction
      else
        .ok ((l.slotAt handle command).nextTransaction,
          l.withRequest handle command timeout now) := rfl

/-- A slot bears the pair that it is found under, also if it was never used. -/
theorem slotAt_pair (wf : l.WellFormed) (handle : Handle) (command : Command) :
    (l.slotAt handle command).handle = handle ∧ (l.slotAt handle command).command = command := by
  unfold slotAt
  cases found : l.slot? handle command with
  | none => exact ⟨rfl, rfl⟩
  | some s => exact ((slot?_eq_some_iff wf).mp found).2

theorem isPending_eq (l : Ledger) (handle : Handle) (command : Command) :
    l.isPending handle command = (l.slotAt handle command).outgoing.pending := by
  unfold isPending outgoing? slotAt
  cases l.slot? handle command <;> rfl

/-- A request can be taken back as long as its slot awaits it. -/
theorem abort_eq (l : Ledger) (key : RequestKey) :
    l.abort key.handle key.command key.transaction =
      if l.awaits key then some (l.withoutRequest key.handle key.command) else none := by
  unfold abort awaits slotAt
  cases l.slot? key.handle key.command <;> rfl

/-- The same goes for giving it up; what its endpoint is told is read off before the slot is freed.
-/
theorem expire_eq (l : Ledger) (key : RequestKey) :
    l.expire key.handle key.command key.transaction =
      if l.awaits key then
        some ((l.slotAt key.handle key.command).lapsed, l.withoutRequest key.handle key.command)
      else none := by
  unfold expire awaits slotAt
  cases l.slot? key.handle key.command <;> rfl

theorem complete_eq (l : Ledger) (key : RequestKey) (now : Instant) :
    l.complete key.handle key.command key.transaction now =
      let slot := l.slotAt key.handle key.command
      if l.awaits key then
        (.matched (elapsedSince slot.outgoing.sentAt now),
          l.withoutRequest key.handle key.command)
      else if slot.outgoing.pending then (.mismatch slot.outgoing.transaction, l)
      else (.notPending, l) := by
  unfold complete awaits Slot.awaits slotAt
  cases l.slot? key.handle key.command with
  | none => rfl
  | some s =>
      by_cases pending : s.outgoing.pending = true
      · by_cases number : s.outgoing.transaction = key.transaction
        · simp [pending, number, withoutRequest]
        · simp [pending, number]
      · simp [pending]

/-- A response to the awaited request frees the slot, whenever it comes. -/
theorem complete_of_awaits {key : RequestKey} (awaited : l.awaits key) (now : Instant) :
    l.complete key.handle key.command key.transaction now =
      (.matched (elapsedSince (l.slotAt key.handle key.command).outgoing.sentAt now),
        l.withoutRequest key.handle key.command) := by
  rw [complete_eq]
  exact if_pos awaited

/-- A response to anything but the pending request changes nothing. -/
theorem complete_of_not_awaits {key : RequestKey} (unknown : l.awaits key = false)
    (now : Instant) :
    ∃ correlation, (∀ latency, correlation ≠ .matched latency) ∧
      l.complete key.handle key.command key.transaction now = (correlation, l) := by
  rw [complete_eq]
  simp only [unknown, Bool.false_eq_true, if_false]
  split
  · exact ⟨.mismatch _, by simp, rfl⟩
  · exact ⟨.notPending, by simp, rfl⟩

/-- A received request can be closed as long as its answer is owed. -/
theorem closeIncoming_eq (l : Ledger) (key : RequestKey) (now : Instant) :
    l.closeIncoming key.handle key.command key.transaction now =
      if l.owes key then
        some (elapsedSince (l.slotAt key.handle key.command).incoming.receivedAt now, l.closed key)
      else none := by
  unfold closeIncoming closed owes slotAt
  cases l.slot? key.handle key.command with
  | none => rfl
  | some s => cases owed : s.owes key.transaction <;> simp [owed]

/-- Closing a request that is not owed an answer changes nothing. -/
theorem closed_of_not_owes {key : RequestKey} (settled : l.owes key = false) :
    l.closed key = l := by
  simp [closed, settled]

/-- A request that begins changes its own slot and no other. -/
theorem slotAt_withRequest (wf : l.WellFormed) (handle h : Handle) (command c : Command)
    (timeout : Option Span) (now : Instant) :
    (l.withRequest handle command timeout now).slotAt h c =
      if handle = h ∧ command = c then (l.slotAt h c).begin timeout now else l.slotAt h c :=
  slotAt_modify_allocate wf handle h command c _

/-- A slot that is freed keeps its numbering and what has been received on it. -/
theorem slotAt_withoutRequest (wf : l.WellFormed) (handle h : Handle) (command c : Command) :
    (l.withoutRequest handle command).slotAt h c =
      if handle = h ∧ command = c then (l.slotAt h c).finish else l.slotAt h c :=
  slotAt_modify wf handle h command c rfl

theorem slotAt_openIncoming (wf : l.WellFormed) (handle h : Handle) (command c : Command)
    (transaction : TransactionId) (now : Instant) :
    (l.openIncoming handle command transaction now).slotAt h c =
      if handle = h ∧ command = c then (l.slotAt h c).receive transaction now
      else l.slotAt h c :=
  slotAt_modify_allocate wf handle h command c _

/-- Closing touches a slot only if the answer is owed there. -/
theorem slotAt_closed (wf : l.WellFormed) (key : RequestKey) (h : Handle) (c : Command) :
    (l.closed key).slotAt h c =
      if key.handle = h ∧ key.command = c ∧ l.owes key then (l.slotAt h c).answer
      else l.slotAt h c := by
  unfold closed
  cases l.owes key with
  | false => simp
  | true => simpa using slotAt_modify wf key.handle h key.command c (f := Slot.answer) rfl

/-- Of the slots of an endpoint that was removed nothing is left. -/
theorem slotAt_removeEndpoint (wf : l.WellFormed) (handle h : Handle) (command : Command) :
    (l.removeEndpoint handle).slotAt h command =
      if handle = h then { handle := h, command } else l.slotAt h command := by
  unfold slotAt
  rw [slot?_removeEndpoint wf]
  split <;> rfl

/-- A scan frees the slots whose time is over and touches no other. -/
theorem slotAt_takeLapsed (l : Ledger) (now : Instant) (h : Handle) (c : Command) :
    (l.takeLapsed now).2.slotAt h c =
      if (l.slotAt h c).isDue now then (l.slotAt h c).finish else l.slotAt h c := by
  unfold slotAt
  rw [slot?_takeLapsed]
  cases l.slot? h c with
  | none => rfl
  | some s => rfl

theorem wellFormed_withRequest (wf : l.WellFormed) (handle : Handle) (command : Command)
    (timeout : Option Span) (now : Instant) :
    (l.withRequest handle command timeout now).WellFormed :=
  wellFormed_modify (wellFormed_allocate wf handle command) handle command
    (keeps_begin timeout now)

theorem wellFormed_withoutRequest (wf : l.WellFormed) (handle : Handle) (command : Command) :
    (l.withoutRequest handle command).WellFormed :=
  wellFormed_modify wf handle command keeps_finish

theorem wellFormed_openIncoming (wf : l.WellFormed) (handle : Handle) (command : Command)
    (transaction : TransactionId) (now : Instant) :
    (l.openIncoming handle command transaction now).WellFormed :=
  wellFormed_modify (wellFormed_allocate wf handle command) handle command
    (keeps_receive transaction now)

theorem wellFormed_closed (wf : l.WellFormed) (key : RequestKey) : (l.closed key).WellFormed := by
  unfold closed
  split
  · exact wellFormed_modify wf key.handle key.command keeps_answer
  · exact wf

end Operations

/-! ### Who is pending -/

section Pending

variable {l later : Ledger}

/-- The pending requests are those that the slots await. -/
theorem mem_pendingKeys (wf : l.WellFormed) {key : RequestKey} :
    key ∈ l.pendingKeys ↔ l.awaits key := by
  simp only [pendingKeys, List.mem_map, List.mem_filter, Array.mem_toList_iff, awaits,
    Slot.awaits, Bool.and_eq_true, beq_iff_eq]
  constructor
  · rintro ⟨s, ⟨mem, pending⟩, rfl⟩
    have found := slot?_of_mem wf mem
    simp [slotAt, Slot.key, found, pending]
  · rintro ⟨pending, number⟩
    unfold slotAt at pending number
    cases found : l.slot? key.handle key.command with
    | none => simp [found] at pending
    | some s =>
        simp only [found, Option.getD_some] at pending number
        obtain ⟨mem, handle, command⟩ := (slot?_eq_some_iff wf).mp found
        refine ⟨s, ⟨mem, pending⟩, ?_⟩
        rw [Slot.key, handle, command, number]

/-- A slot awaits one request at a time. -/
theorem eq_of_awaits {key key' : RequestKey} (first : l.awaits key) (second : l.awaits key')
    (handle : key.handle = key'.handle) (command : key.command = key'.command) : key = key' := by
  obtain ⟨h, c, t⟩ := key
  obtain ⟨h', c', t'⟩ := key'
  obtain rfl : h = h' := handle
  obtain rfl : c = c' := command
  simp only [awaits, Slot.awaits, Bool.and_eq_true, beq_iff_eq] at first second
  rw [← first.2, ← second.2]

theorem nodup_pendingKeys (wf : l.WellFormed) : l.pendingKeys.Nodup := by
  refine List.Nodup.map_on ?_ (List.Nodup.filter _ ?_)
  · intro s hs s' hs' same
    simp only [List.mem_filter, Array.mem_toList_iff] at hs hs'
    simp only [Slot.key, RequestKey.mk.injEq] at same
    exact eq_of_mem wf hs.1 hs'.1 same.1 same.2.1
  · refine List.nodup_iff_getElem?_ne_getElem?.mpr fun i j less bound same => ?_
    have at_j : l.slots[j]? = some l.slots.toList[j] := by
      rw [← Array.getElem?_toList, List.getElem?_eq_getElem bound]
    have at_i : l.slots[i]? = some l.slots.toList[j] := by
      rw [← Array.getElem?_toList, same, Array.getElem?_toList, at_j]
    have first := (wf _ _ _).mpr ⟨_, at_i, rfl, rfl⟩
    rw [(wf _ _ _).mpr ⟨_, at_j, rfl, rfl⟩] at first
    have := Option.some.inj first
    omega

/-- A request has ended if it was awaited before and is not any more. -/
theorem mem_ended (wf : l.WellFormed) {key : RequestKey} :
    key ∈ l.ended later ↔ l.awaits key ∧ later.awaits key = false := by
  simp [ended, mem_pendingKeys wf]

/-- A request has begun if it is awaited now and was not before. -/
theorem mem_begun (wf : later.WellFormed) {key : RequestKey} :
    key ∈ l.begun later ↔ later.awaits key ∧ l.awaits key = false := by
  simp [begun, mem_pendingKeys wf]

theorem nodup_ended (wf : l.WellFormed) : (l.ended later).Nodup :=
  (nodup_pendingKeys wf).filter _

theorem nodup_begun (wf : later.WellFormed) : (l.begun later).Nodup :=
  (nodup_pendingKeys wf).filter _

/-- A slot awaits the request under its latest number, while it is pending. -/
theorem awaits_of_slotAt {key : RequestKey} :
    l.awaits key ↔ (l.slotAt key.handle key.command).outgoing.pending ∧
      (l.slotAt key.handle key.command).outgoing.transaction = key.transaction := by
  simp [awaits, Slot.awaits]

/-! ### What each operation begins and ends -/

theorem SendsAlike.awaits_eq (alike : l.SendsAlike later) (key : RequestKey) :
    later.awaits key = l.awaits key := by
  simp [awaits, Slot.awaits, (alike key.handle key.command).1]

/-- No request ends while the sending side of every slot stays as it is. -/
theorem SendsAlike.ended_eq (alike : l.SendsAlike later) (wf : l.WellFormed) :
    l.ended later = [] := by
  refine List.filter_eq_nil_iff.mpr fun key mem => ?_
  simp [alike.awaits_eq, (mem_pendingKeys wf).mp mem]

theorem SendsAlike.begun_eq (alike : l.SendsAlike later) (wf : later.WellFormed) :
    l.begun later = [] := by
  refine List.filter_eq_nil_iff.mpr fun key mem => ?_
  simp [← alike.awaits_eq, (mem_pendingKeys wf).mp mem]

/-- What is received on a slot does not concern what was sent on it. -/
theorem sendsAlike_openIncoming (wf : l.WellFormed) (handle : Handle) (command : Command)
    (transaction : TransactionId) (now : Instant) :
    l.SendsAlike (l.openIncoming handle command transaction now) := by
  intro h c
  rw [slotAt_openIncoming wf]
  split <;> exact ⟨rfl, rfl⟩

theorem sendsAlike_closed (wf : l.WellFormed) (key : RequestKey) :
    l.SendsAlike (l.closed key) := by
  intro h c
  rw [slotAt_closed wf]
  split <;> exact ⟨rfl, rfl⟩

/-- A nodup list with one kind of member has that member alone. -/
theorem eq_singleton_of_mem {α : Type} {xs : List α} {a : α} (nodup : xs.Nodup)
    (mem : ∀ b, b ∈ xs ↔ b = a) : xs = [a] := by
  have perm : List.Perm xs [a] :=
    (List.perm_ext_iff_of_nodup nodup (List.nodup_singleton a)).mpr fun b => by simp [mem]
  exact List.perm_singleton.mp perm

/-- On its slot only the request that begins is awaited from then on. -/
theorem awaits_withRequest (wf : l.WellFormed) (handle : Handle) (command : Command)
    (timeout : Option Span) (now : Instant) (key : RequestKey) :
    (l.withRequest handle command timeout now).awaits key =
      if handle = key.handle ∧ command = key.command then
        (l.slotAt handle command).nextTransaction == key.transaction
      else l.awaits key := by
  unfold awaits
  rw [slotAt_withRequest wf]
  split
  · rename_i here
    rw [here.1, here.2]
    rfl
  · rfl

/-- No request ends when one begins, since its slot was idle. -/
theorem ended_withRequest (wf : l.WellFormed) {handle : Handle} {command : Command}
    (idle : (l.slotAt handle command).outgoing.pending = false) (timeout : Option Span)
    (now : Instant) : l.ended (l.withRequest handle command timeout now) = [] := by
  refine List.filter_eq_nil_iff.mpr fun key mem => ?_
  have pending := (mem_pendingKeys wf).mp mem
  rw [awaits_withRequest wf]
  split
  · rename_i here
    rw [awaits_of_slotAt, ← here.1, ← here.2, idle] at pending
    exact absurd pending.1 (by simp)
  · simp [pending]

/-- Only the request under the slot's next number begins. -/
theorem begun_withRequest (wf : l.WellFormed) {handle : Handle} {command : Command}
    (idle : (l.slotAt handle command).outgoing.pending = false) (timeout : Option Span)
    (now : Instant) :
    l.begun (l.withRequest handle command timeout now) =
      [⟨handle, command, (l.slotAt handle command).nextTransaction⟩] := by
  have wf' := wellFormed_withRequest wf handle command timeout now
  refine eq_singleton_of_mem (nodup_begun wf') fun key => ?_
  rw [mem_begun wf', awaits_withRequest wf]
  constructor
  · rintro ⟨now, before⟩
    split at now
    · rename_i here
      rw [here.1, here.2] at now ⊢
      rw [beq_iff_eq.mp now]
    · rw [before] at now
      cases now
  · rintro rfl
    simp [awaits, Slot.awaits, idle]

theorem awaits_withoutRequest (wf : l.WellFormed) (handle : Handle) (command : Command)
    (key : RequestKey) :
    (l.withoutRequest handle command).awaits key =
      if handle = key.handle ∧ command = key.command then false else l.awaits key := by
  unfold awaits
  rw [slotAt_withoutRequest wf]
  split <;> rfl

/-- Freeing the slot of an awaited request ends this one request. -/
theorem ended_withoutRequest (wf : l.WellFormed) {key : RequestKey} (pending : l.awaits key) :
    l.ended (l.withoutRequest key.handle key.command) = [key] := by
  refine eq_singleton_of_mem (nodup_ended wf) fun other => ?_
  rw [mem_ended wf, awaits_withoutRequest wf]
  constructor
  · rintro ⟨was, gone⟩
    split at gone
    · rename_i here
      exact eq_of_awaits was pending here.1.symm here.2.symm
    · rw [was] at gone
      cases gone
  · rintro rfl
    simp [pending]

/-- Freeing a slot begins nothing. -/
theorem begun_withoutRequest (wf : l.WellFormed) (handle : Handle) (command : Command) :
    l.begun (l.withoutRequest handle command) = [] := by
  refine List.filter_eq_nil_iff.mpr fun key mem => ?_
  have pending := (mem_pendingKeys (wellFormed_withoutRequest wf handle command)).mp mem
  rw [awaits_withoutRequest wf] at pending
  split at pending
  · cases pending
  · simp [pending]

/-- Removing an endpoint ends its requests and leaves those of others pending. -/
theorem awaits_removeEndpoint (wf : l.WellFormed) (handle : Handle) (key : RequestKey) :
    (l.removeEndpoint handle).awaits key =
      if handle = key.handle then false else l.awaits key := by
  unfold awaits
  rw [slotAt_removeEndpoint wf]
  split <;> rfl

theorem begun_removeEndpoint (wf : l.WellFormed) (handle : Handle) :
    l.begun (l.removeEndpoint handle) = [] := by
  refine List.filter_eq_nil_iff.mpr fun key mem => ?_
  have pending := (mem_pendingKeys (wellFormed_removeEndpoint wf handle)).mp mem
  rw [awaits_removeEndpoint wf] at pending
  split at pending
  · cases pending
  · simp [pending]

theorem awaits_empty (key : RequestKey) : empty.awaits key = false := by
  simp [awaits, slotAt_empty, Slot.awaits]

theorem begun_empty (l : Ledger) : l.begun empty = [] := rfl

/-- After a scan a request is still awaited exactly if its time is not over. -/
theorem awaits_takeLapsed (l : Ledger) (now : Instant) (key : RequestKey) :
    (l.takeLapsed now).2.awaits key =
      (l.awaits key && !(l.slotAt key.handle key.command).isDue now) := by
  unfold awaits
  rw [slotAt_takeLapsed]
  split
  · rename_i due
    simp [due, Slot.awaits, Slot.finish]
  · rename_i early
    simp [early]

/-- The requests that a scan ends are those that it returns, in the same order. -/
theorem ended_takeLapsed (wf : l.WellFormed) (now : Instant) :
    l.ended (l.takeLapsed now).2 = (l.takeLapsed now).1.map Lapsed.key := by
  have due (s : Slot) (mem : s ∈ l.slots) :
      (s.outgoing.pending && !(l.takeLapsed now).2.awaits s.key) = s.isDue now := by
    have found : l.slotAt s.handle s.command = s := by simp [slotAt, slot?_of_mem wf mem]
    rw [awaits_takeLapsed, awaits, Slot.key]
    simp only [found, Slot.awaits, beq_self_eq_true, Bool.and_true]
    cases pending : s.outgoing.pending <;> simp [Slot.isDue, pending]
  simp only [ended, pendingKeys, takeLapsed, List.filter_map, List.filter_filter, List.map_map,
    Array.toList_filter]
  refine congrArg₂ List.map rfl (List.filter_congr fun s mem => ?_)
  rw [← due s (Array.mem_toList_iff.mp mem), Bool.and_comm]
  rfl

theorem begun_takeLapsed (wf : l.WellFormed) (now : Instant) :
    l.begun (l.takeLapsed now).2 = [] := by
  refine List.filter_eq_nil_iff.mpr fun key mem => ?_
  have pending := (mem_pendingKeys (wellFormed_takeLapsed wf now)).mp mem
  rw [awaits_takeLapsed, Bool.and_eq_true] at pending
  simp [pending.1]

end Pending

end Ledger

end HubRelay
