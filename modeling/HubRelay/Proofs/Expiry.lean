import HubRelay.Exchange.Operation
import HubRelay.Proofs.Bookkeeping
import HubRelay.Proofs.Ledger.History

/-!
Requests expire when their time is over, neither earlier nor later.

What a scan returns, and when the next deadline is, is read off the history: a scan returns exactly
the outstanding requests whose time is over, in the order in which their slots came into use, and
the next deadline is the least one of an outstanding request. So a request is returned by the first
scan that comes when its time is over, if nothing else has ended it, and by no other. A worker that
sleeps until the next deadline after a scan neither misses one nor wakes up at once.
-/

namespace HubRelay

def Lapsed.pair (request : Lapsed) : Handle × Command := (request.handle, request.command)

namespace SentRequest

/-- Whether the time of the request is over: it has a timeout, and a clock shows when that has
passed. A sum that no clock shows counts as no deadline, as it does in the ledger. -/
def IsDue (r : SentRequest) (now : Instant) : Prop :=
  ∃ timeout, r.timeout = some timeout ∧ r.sentAt + timeout ≤ Instant.latest ∧
    r.sentAt + timeout ≤ now

def lapsed (r : SentRequest) : Lapsed where
  handle := r.handle
  command := r.command
  transaction := r.transaction
  sentAt := some r.sentAt

theorem isDue_iff {r : SentRequest} {now : Instant} :
    r.IsDue now ↔ r.outgoing.deadline.any (· ≤ now) = true := by
  simp only [IsDue, outgoing, deadline?, Option.any_eq_true, Option.bind_eq_some_iff,
    Instant.after?_eq_some_iff, decide_eq_true_eq]
  constructor
  · rintro ⟨timeout, given, shown, passed⟩
    exact ⟨_, ⟨timeout, given, shown, rfl⟩, passed⟩
  · rintro ⟨_, ⟨timeout, given, shown, rfl⟩, passed⟩
    exact ⟨timeout, given, shown, passed⟩

end SentRequest

/-- Whether the event is a scan that returns the request. -/
def LedgerEvent.Returns (e : LedgerEvent) (r : SentRequest) : Prop :=
  ∃ requests, e.answer = .allLapsed requests ∧ r.lapsed ∈ requests

/-! ### The order in which slots come into use -/

/-- The pairs whose slots are in use after an operation, in the order in which they came into
use. -/
def inUseAfter (pairs : List (Handle × Command)) : LedgerOperation → List (Handle × Command)
  | .begin handle command _ _ | .openIncoming handle command _ _ =>
      pairs ++ if (handle, command) ∈ pairs then [] else [(handle, command)]
  | .clear => []
  | .removeEndpoint handle => pairs.filter fun pair => pair.1 != handle
  | _ => pairs

/-- The pairs whose slots are in use after a run, in the order in which they came into use. -/
def inUse (operations : List LedgerOperation) : List (Handle × Command) :=
  operations.foldl inUseAfter []

theorem Slot.isDue_iff {s : Slot} {now : Instant} :
    s.isDue now = true ↔
      s.outgoing.pending = true ∧ ∃ deadline, s.outgoing.deadline = some deadline ∧
        deadline ≤ now := by
  simp only [isDue, Bool.and_eq_true, Option.any_eq_true, decide_eq_true_eq]

namespace Accounts

def pairs (a : Accounts) : List (Handle × Command) := a.entries.map Prod.fst

variable {a : Accounts} {handle : Handle} {command : Command}

theorem pairs_enter (a : Accounts) (handle : Handle) (command : Command) (account : Account) :
    pairs (a.enter (handle, command) account) =
      a.pairs ++ if (handle, command) ∈ a.pairs then [] else [(handle, command)] := by
  have keys := Roll.keys_enterEntry (handle, command) account a.entries
  by_cases used : (handle, command) ∈ a.pairs
  · rw [if_pos used]
    exact keys.trans (congrArg _ (if_pos used))
  · rw [if_neg used]
    exact keys.trans (congrArg _ (if_neg used))

/-- A pair whose account is not as good as new is in use. -/
theorem mem_pairs (used : a.account handle command ≠ {}) : (handle, command) ∈ a.pairs := by
  unfold account at used
  cases found : a.find? (handle, command) with
  | none => simp [found] at used
  | some account => exact List.mem_map_of_mem (Roll.find?_eq_some_iff.mp found)

theorem pairs_enter_of_used (used : a.account handle command ≠ {}) (account : Account) :
    pairs (a.enter (handle, command) account) = a.pairs := by
  rw [pairs_enter, if_pos (mem_pairs used), List.append_nil]

theorem pairs_perform (a : Accounts) (operation : LedgerOperation) :
    pairs (a.perform operation).2 = inUseAfter a.pairs operation := by
  cases operation with
  | begin handle command timeout now =>
      simp only [perform, inUseAfter]
      split
      · next pending =>
        rw [if_pos (mem_pairs fun fresh => by simp [fresh] at pending), List.append_nil]
      · exact pairs_enter a handle command _
  | abort handle command transaction | expire handle command transaction =>
      simp only [perform, inUseAfter]
      split
      · next awaited =>
        exact pairs_enter_of_used (fun fresh => by simp [fresh, Account.awaits] at awaited) _
      · rfl
  | complete handle command transaction now =>
      simp only [perform, inUseAfter]
      split
      · next awaited =>
        exact pairs_enter_of_used (fun fresh => by simp [fresh, Account.awaits] at awaited) _
      · split <;> rfl
  | closeIncoming handle command transaction now =>
      simp only [perform, inUseAfter]
      split
      · next owed =>
        exact pairs_enter_of_used (fun fresh => by simp [fresh, Account.owes] at owed) _
      · rfl
  | openIncoming handle command transaction now => exact pairs_enter a handle command _
  | takeLapsed now => simp [perform, inUseAfter, pairs, Roll.mapValues]
  | removeEndpoint handle =>
      simp only [perform, inUseAfter, pairs, Roll.without, List.filter_map]
      rfl
  | clear | nextDeadline | isPending | outgoing | incoming | pendingCount => rfl

theorem pairs_run (a : Accounts) (operations : List LedgerOperation) :
    (Accounts.run a operations).pairs = operations.foldl inUseAfter a.pairs := by
  induction operations generalizing a with
  | nil => rfl
  | cons operation rest ih =>
      rw [List.foldl_cons, ← pairs_perform]
      exact ih _

end Accounts

namespace Ledger

variable {l : Ledger} {operations : List LedgerOperation} {past mid since : List LedgerEvent}
  {e : LedgerEvent} {r : SentRequest} {now : Instant} {handle : Handle} {command : Command}

/-- Slots stand in the order in which they came into use, each once. -/
theorem slots_inUse (operations : List LedgerOperation) :
    (empty.run operations).slots.toList.map (fun s => (s.handle, s.command)) = inUse operations ∧
      (inUse operations).Nodup := by
  obtain ⟨-, rep⟩ := represents_empty.run operations
  have entries := congrArg (List.map Prod.fst) rep.entries
  have pairs := Accounts.pairs_run .empty operations
  rw [List.map_map] at entries
  refine ⟨entries.symm.trans pairs, ?_⟩
  rw [inUse, ← show Accounts.pairs .empty = [] from rfl, ← pairs]
  exact (Accounts.run .empty operations).distinct

/-! ### Slots and outstanding requests -/

/-- What is pending on a slot is an outstanding request. -/
theorem Recalls.exists_outstanding (wf : l.WellFormed) (recalls : l.Recalls past) {s : Slot}
    (mem : s ∈ l.slots) (pending : s.outgoing.pending = true) :
    ∃ r since, OutstandingIn past r since ∧ r.handle = s.handle ∧ r.command = s.command ∧
      s.outgoing = r.outgoing := by
  have own : l.slotAt s.handle s.command = s := by
    rw [slotAt, slot?_of_mem wf mem, Option.getD_some]
  obtain ⟨r, since, outstanding, handle, command⟩ :=
    recalls.pending s.handle s.command (own.symm ▸ pending)
  have known := recalls.holds r since outstanding
  rw [handle, command, own] at known
  exact ⟨r, since, outstanding, handle, command, known⟩

/-- An outstanding request is what is pending on a slot. -/
theorem Recalls.exists_slot (wf : l.WellFormed) (recalls : l.Recalls past)
    (outstanding : OutstandingIn past r since) :
    ∃ s ∈ l.slots, s.handle = r.handle ∧ s.command = r.command ∧ s.outgoing = r.outgoing := by
  have known := recalls.holds r since outstanding
  cases found : l.slot? r.handle r.command with
  | none =>
      rw [slotAt, found] at known
      cases congrArg Outgoing.pending known
  | some s =>
      rw [slotAt, found, Option.getD_some] at known
      obtain ⟨mem, handle, command⟩ := (slot?_eq_some_iff wf).mp found
      exact ⟨s, mem, handle, command, known⟩

/-! ### What a scan returns -/

theorem mem_takeLapsed_iff (wf : l.WellFormed) (recalls : l.Recalls past) {request : Lapsed} :
    request ∈ (l.takeLapsed now).1 ↔
      ∃ r since, OutstandingIn past r since ∧ r.IsDue now ∧ r.lapsed = request := by
  simp only [takeLapsed, List.mem_map, Array.mem_toList_iff, Array.mem_filter]
  constructor
  · rintro ⟨s, ⟨mem, due⟩, rfl⟩
    obtain ⟨pending, passed⟩ := Bool.and_eq_true_iff.mp due
    obtain ⟨r, since, outstanding, handle, command, known⟩ :=
      recalls.exists_outstanding wf mem pending
    refine ⟨r, since, outstanding, SentRequest.isDue_iff.mpr (known ▸ passed), ?_⟩
    rw [Slot.lapsed, known, SentRequest.lapsed, handle, command]
    rfl
  · rintro ⟨r, since, outstanding, due, rfl⟩
    obtain ⟨s, mem, handle, command, known⟩ := recalls.exists_slot wf outstanding
    refine ⟨s, ⟨mem, ?_⟩, ?_⟩
    · rw [Slot.isDue, known]
      exact Bool.and_eq_true_iff.mpr ⟨rfl, SentRequest.isDue_iff.mp due⟩
    · rw [Slot.lapsed, known, handle, command]
      rfl

/-- A scan that comes while a request is outstanding ends and returns it exactly if its time is
over. -/
theorem Recalls.scanned (wf : l.WellFormed) (recalls : l.Recalls past)
    (outstanding : OutstandingIn past r since) (now : Instant) :
    ((l.event (.takeLapsed now)).Ends r.handle r.command ↔ r.IsDue now) ∧
      (r.lapsed ∈ (l.takeLapsed now).1 ↔ r.IsDue now) := by
  have known := recalls.holds r since outstanding
  have due_iff : (l.slotAt r.handle r.command).isDue now = true ↔ r.IsDue now := by
    rw [Slot.isDue, known, SentRequest.isDue_iff, Bool.and_eq_true_iff]
    exact and_iff_right rfl
  refine ⟨(exists_lapsed_iff wf now r.handle r.command).trans due_iff, ?_, ?_⟩
  · intro mem
    exact due_iff.mp ((exists_lapsed_iff wf now r.handle r.command).mp ⟨r.lapsed, mem, rfl, rfl⟩)
  · intro due
    exact (mem_takeLapsed_iff wf recalls).mpr ⟨r, since, outstanding, due, rfl⟩

/-- Only slots on which nothing is due are as before. -/
theorem slot?_scanned (wf : l.WellFormed) (now : Instant) (handle : Handle) (command : Command) :
    (l.takeLapsed now).2.slot? handle command =
      if (handle, command) ∈ (l.takeLapsed now).1.map Lapsed.pair then
        (l.slot? handle command).map Slot.finish
      else l.slot? handle command := by
  have due_iff : (handle, command) ∈ (l.takeLapsed now).1.map Lapsed.pair ↔
      (l.slotAt handle command).isDue now = true := by
    rw [← exists_lapsed_iff wf, List.mem_map]
    simp only [Lapsed.pair, Prod.mk.injEq]
  rw [slot?_takeLapsed]
  cases found : l.slot? handle command with
  | none => simp
  | some s =>
      rw [slotAt, found, Option.getD_some] at due_iff
      by_cases due : s.isDue now = true
      · simp [due, due_iff.mpr due]
      · simp [due, mt due_iff.mp due]

/-- A scan goes through the slots in their order. -/
theorem pairs_lapsed_sublist (l : Ledger) (now : Instant) :
    ((l.takeLapsed now).1.map Lapsed.pair).Sublist
      (l.slots.toList.map fun s => (s.handle, s.command)) := by
  simp only [takeLapsed, List.map_map, Array.toList_filter]
  exact List.filter_sublist.map _

/-! ### The next deadline -/

theorem mem_deadlines {deadline : Instant} :
    deadline ∈ l.deadlines ↔
      ∃ s ∈ l.slots, s.outgoing.pending = true ∧ s.outgoing.deadline = some deadline := by
  simp only [deadlines, List.mem_filterMap, Array.mem_toList_iff]
  refine exists_congr fun s => and_congr_right fun _ => ?_
  cases s.outgoing.pending <;> simp

theorem mem_deadlines_iff (wf : l.WellFormed) (recalls : l.Recalls past) {deadline : Instant} :
    deadline ∈ l.deadlines ↔
      ∃ r since, OutstandingIn past r since ∧ r.deadline? = some deadline := by
  rw [mem_deadlines]
  constructor
  · rintro ⟨s, mem, pending, has⟩
    obtain ⟨r, since, outstanding, -, -, known⟩ := recalls.exists_outstanding wf mem pending
    rw [known] at has
    exact ⟨r, since, outstanding, has⟩
  · rintro ⟨r, since, outstanding, has⟩
    obtain ⟨s, mem, -, -, known⟩ := recalls.exists_slot wf outstanding
    refine ⟨s, mem, ?_⟩
    rw [known]
    exact ⟨rfl, has⟩

theorem nextDeadline_eq_some_iff (wf : l.WellFormed) (recalls : l.Recalls past)
    {deadline : Instant} :
    l.nextDeadline = some deadline ↔
      (∃ r since, OutstandingIn past r since ∧ r.deadline? = some deadline) ∧
        ∀ r since other, OutstandingIn past r since → r.deadline? = some other →
          deadline ≤ other := by
  rw [nextDeadline, List.min?_eq_some_iff, mem_deadlines_iff wf recalls]
  refine and_congr_right fun _ => ⟨fun least r since other outstanding has => ?_, ?_⟩
  · exact least other ((mem_deadlines_iff wf recalls).mpr ⟨r, since, outstanding, has⟩)
  · intro least other mem
    obtain ⟨r, since, outstanding, has⟩ := (mem_deadlines_iff wf recalls).mp mem
    exact least r since other outstanding has

theorem nextDeadline_eq_none_iff (wf : l.WellFormed) (recalls : l.Recalls past) :
    l.nextDeadline = none ↔ ∀ r since, OutstandingIn past r since → r.deadline? = none := by
  rw [nextDeadline, List.min?_eq_none_iff, List.eq_nil_iff_forall_not_mem]
  simp only [mem_deadlines_iff wf recalls, Option.eq_none_iff_forall_ne_some]
  constructor
  · intro nothing r since outstanding deadline has
    exact nothing deadline ⟨r, since, outstanding, has⟩
  · rintro nothing deadline ⟨r, since, outstanding, has⟩
    exact nothing r since outstanding deadline has

/-- The time of some request is over exactly if the next deadline has come. -/
theorem takeLapsed_ne_nil_iff (l : Ledger) (now : Instant) :
    (l.takeLapsed now).1 ≠ [] ↔ ∃ deadline, l.nextDeadline = some deadline ∧ deadline ≤ now := by
  constructor
  · intro someone
    obtain ⟨request, mem⟩ := List.exists_mem_of_ne_nil _ someone
    simp only [takeLapsed, List.mem_map, Array.mem_toList_iff, Array.mem_filter] at mem
    obtain ⟨s, ⟨mem, due⟩, -⟩ := mem
    obtain ⟨pending, deadline, has, passed⟩ := Slot.isDue_iff.mp due
    have known : deadline ∈ l.deadlines := mem_deadlines.mpr ⟨s, mem, pending, has⟩
    cases next : l.nextDeadline with
    | none =>
        rw [nextDeadline, List.min?_eq_none_iff] at next
        rw [next] at known
        cases known
    | some least =>
        exact ⟨least, rfl, Nat.le_trans ((List.min?_eq_some_iff.mp next).2 deadline known) passed⟩
  · rintro ⟨deadline, next, passed⟩
    obtain ⟨s, mem, pending, has⟩ := mem_deadlines.mp (List.min?_eq_some_iff.mp next).1
    have due : s.isDue now = true := Slot.isDue_iff.mpr ⟨pending, deadline, has, passed⟩
    refine List.ne_nil_of_mem (a := s.lapsed) ?_
    simp only [takeLapsed, List.mem_map, Array.mem_toList_iff, Array.mem_filter]
    exact ⟨s, ⟨mem, due⟩, rfl⟩

/-- After a scan every deadline lies ahead. -/
theorem lt_nextDeadline_takeLapsed (l : Ledger) {deadline : Instant}
    (next : (l.takeLapsed now).2.nextDeadline = some deadline) : now < deadline := by
  obtain ⟨later, mem, pending, has⟩ := mem_deadlines.mp (List.min?_eq_some_iff.mp next).1
  obtain ⟨s, -, rfl⟩ := Array.mem_map.mp mem
  by_cases due : s.isDue now = true
  · rw [if_pos due] at pending
    cases pending
  · rw [if_neg due] at pending has
    by_contra passed
    exact due (Slot.isDue_iff.mpr ⟨pending, deadline, has, Nat.le_of_not_lt passed⟩)

/-! ### Scans over time -/

section

variable {before part mid later : List LedgerEvent} {first : LedgerEvent}

/-- A scan in a history that comes while a request is outstanding ends and returns it exactly if its
time is over. -/
theorem scanned_in_record
    (split : empty.record operations = before ++ first :: (part ++ e :: later))
    (begins : first.begun? = some r) (unended : ∀ e ∈ part, ¬ e.Ends r.handle r.command)
    (scans : e.asked = .takeLapsed now) :
    (e.Ends r.handle r.command ↔ r.IsDue now) ∧ (e.Returns r ↔ r.IsDue now) := by
  rw [← List.cons_append, ← List.append_assoc] at split
  obtain ⟨done, operation, rest, -, past, rfl⟩ := record_split split
  obtain rfl : operation = .takeLapsed now := scans
  have outstanding : OutstandingIn (empty.record done) r part :=
    past ▸ ⟨before, first, rfl, begins, unended⟩
  obtain ⟨ends, returns⟩ :=
    (recalls_record done).scanned (wellFormed_run wellFormed_empty done) outstanding now
  refine ⟨ends, Iff.trans ⟨?_, fun mem => ⟨_, rfl, mem⟩⟩ returns⟩
  rintro ⟨requests, same, mem⟩
  obtain rfl := LedgerAnswer.allLapsed.inj same
  exact mem

/-- A request outlasts every scan that comes too early, if nothing but scans can have ended it. -/
theorem unended_of_early (split : empty.record operations = before ++ first :: (mid ++ later))
    (begins : first.begun? = some r)
    (by_scan : ∀ e ∈ mid, e.Ends r.handle r.command → ∃ earlier, e.asked = .takeLapsed earlier)
    (early : ∀ e ∈ mid, ∀ earlier, e.asked = .takeLapsed earlier → ¬ r.IsDue earlier) :
    ∀ e ∈ mid, ¬ e.Ends r.handle r.command := by
  induction mid using List.reverseRecOn generalizing later with
  | nil => exact fun _ => nofun
  | append_singleton part last ih =>
      rw [List.append_assoc, List.singleton_append] at split
      have unended := ih split (fun e mem => by_scan e (List.mem_append_left _ mem))
        fun e mem => early e (List.mem_append_left _ mem)
      rintro e mem ends
      rcases List.mem_append.mp mem with earlier | latest
      · exact unended e earlier ends
      · obtain rfl := List.mem_singleton.mp latest
        obtain ⟨instant, scans⟩ := by_scan e mem ends
        exact early e mem instant scans ((scanned_in_record split begins unended scans).1.mp ends)

/-- A request is returned by the first scan that comes when its time is over, if nothing else has
ended it before, and by no other. The history is cut at the move that began the request; what came
before it does not matter. -/
theorem returned_iff (split : empty.record operations = before ++ first :: (mid ++ e :: later))
    (begins : first.begun? = some r) (scans : e.asked = .takeLapsed now) :
    (∀ e ∈ mid, ¬ e.Ends r.handle r.command) ∧ e.Returns r ↔
      r.IsDue now ∧
        (∀ e ∈ mid, e.Ends r.handle r.command → ∃ earlier, e.asked = .takeLapsed earlier) ∧
        ∀ e ∈ mid, ∀ earlier, e.asked = .takeLapsed earlier → ¬ r.IsDue earlier := by
  constructor
  · rintro ⟨unended, returned⟩
    refine ⟨(scanned_in_record split begins unended scans).2.mp returned,
      fun e mem ends => absurd ends (unended e mem), ?_⟩
    intro scan mem earlier scans' due
    obtain ⟨part, rest, rfl⟩ := List.append_of_mem mem
    rw [List.append_assoc] at split
    have unended' := fun e mem => unended e (List.mem_append_left _ mem)
    exact unended scan mem ((scanned_in_record split begins unended' scans').1.mpr due)
  · rintro ⟨due, by_scan, early⟩
    have unended := unended_of_early split begins by_scan early
    exact ⟨unended, (scanned_in_record split begins unended scans).2.mpr due⟩

end

end Ledger

/-! ### The worker -/

/-- A worker that may sleep does not sleep at once exactly if the next deadline has come. -/
theorem idleSpan_eq_zero_iff {interval : Span} (some_time : 0 < interval)
    {nextTimeout : Option Instant} {now : Instant} :
    idleSpan interval nextTimeout now = 0 ↔
      ∃ deadline, nextTimeout = some deadline ∧ deadline ≤ now := by
  cases nextTimeout with
  | none => simp [idleSpan, Nat.ne_of_gt some_time]
  | some deadline =>
      simp only [idleSpan, Nat.min_eq_zero_iff, Nat.sub_eq_zero_iff_le, Option.some.injEq,
        exists_eq_left']
      exact or_iff_left (Nat.ne_of_gt some_time)

/-- A worker does not sleep past the next deadline. -/
theorem add_idleSpan_le {interval : Span} {deadline now : Instant} (ahead : now ≤ deadline) :
    now + idleSpan interval (some deadline) now ≤ deadline :=
  calc now + min (deadline - now) interval
    _ ≤ now + (deadline - now) := Nat.add_le_add_left (Nat.min_le_left _ _) now
    _ = deadline := Nat.add_sub_of_le ahead

/-! ### Expiry is exact -/

/-- A scan returns exactly the outstanding requests whose time is over, each once, in the order in
which their slots came into use, and touches no other slot. It returns something exactly if the next
deadline has come, and leaves none that has. So the worker that asks for the next deadline
afterwards does not spin. -/
structure Ledger.ScansExactly (l : Ledger) (past : List LedgerEvent)
    (slots : List (Handle × Command)) (now : Instant) : Prop where
  /-- The scan returns the outstanding requests whose time is over, as they were begun. -/
  returned : ∀ request, request ∈ (l.takeLapsed now).1 ↔
    ∃ r since, OutstandingIn past r since ∧ r.IsDue now ∧ r.lapsed = request
  /-- It returns them in the order in which their slots came into use. -/
  in_order : ((l.takeLapsed now).1.map Lapsed.pair).Sublist slots
  /-- So no slot is returned twice. -/
  once : slots.Nodup
  /-- It frees these slots and leaves all others as they are. -/
  others : ∀ handle command, (l.takeLapsed now).2.slot? handle command =
    if (handle, command) ∈ (l.takeLapsed now).1.map Lapsed.pair then
      (l.slot? handle command).map Slot.finish
    else l.slot? handle command
  /-- It returns something exactly if the next deadline has come. -/
  called_for : (l.takeLapsed now).1 ≠ [] ↔
    ∃ deadline, l.nextDeadline = some deadline ∧ deadline ≤ now
  /-- The deadlines that it leaves are still to come. -/
  ahead : ∀ deadline, (l.takeLapsed now).2.nextDeadline = some deadline → now < deadline

theorem Ledger.scansExactly_run (operations : List LedgerOperation) (now : Instant) :
    (empty.run operations).ScansExactly (empty.record operations) (inUse operations) now where
  returned _ := mem_takeLapsed_iff (wellFormed_run wellFormed_empty _) (recalls_record operations)
  in_order := (slots_inUse operations).1 ▸ pairs_lapsed_sublist _ now
  once := (slots_inUse operations).2
  others := slot?_scanned (wellFormed_run wellFormed_empty _) now
  called_for := takeLapsed_ne_nil_iff _ now
  ahead _ := lt_nextDeadline_takeLapsed _

/-- After every run, requests expire exactly when their time is over. One that was begun is returned
by the first scan that comes when its time is over, unless something else has ended it before, and
by no scan that comes earlier; one without a deadline is returned by none. Every scan is exact, and
the next deadline is the least one of an outstanding request. So a worker that sleeps as long as it
may does not sleep past a deadline, and it goes on at once exactly if a scan returns something. -/
theorem requests_expire_exactly (operations : List LedgerOperation) :
    let l := Ledger.empty.run operations
    let past := Ledger.empty.record operations
    (∀ (before mid later : List LedgerEvent) (first scan : LedgerEvent) (r : SentRequest)
        (now : Instant), past = before ++ first :: (mid ++ scan :: later) →
        first.begun? = some r → scan.asked = .takeLapsed now →
          ((∀ e ∈ mid, ¬ e.Ends r.handle r.command) ∧ scan.Returns r ↔
            r.IsDue now ∧
              (∀ e ∈ mid, e.Ends r.handle r.command →
                ∃ earlier, e.asked = .takeLapsed earlier) ∧
              ∀ e ∈ mid, ∀ earlier, e.asked = .takeLapsed earlier → ¬ r.IsDue earlier)) ∧
      (∀ handle command, l.isPending handle command = true ↔ PendingOn past handle command) ∧
      (∀ now, l.ScansExactly past (inUse operations) now) ∧
      (∀ deadline : Instant, l.nextDeadline = some deadline ↔
        (∃ r since, OutstandingIn past r since ∧ r.deadline? = some deadline) ∧
          ∀ r since (other : Instant), OutstandingIn past r since →
            r.deadline? = some other → deadline ≤ other) ∧
      (l.nextDeadline = none ↔ ∀ r since, OutstandingIn past r since → r.deadline? = none) ∧
      ∀ (interval : Span) (now : Instant), 0 < interval →
        (idleSpan interval l.nextDeadline now = 0 ↔ (l.takeLapsed now).1 ≠ []) ∧
          ∀ deadline : Instant, l.nextDeadline = some deadline → now ≤ deadline →
            now + idleSpan interval l.nextDeadline now ≤ deadline := by
  intro l past
  have wf : l.WellFormed := Ledger.wellFormed_run Ledger.wellFormed_empty operations
  have recalls : l.Recalls past := Ledger.recalls_record operations
  refine ⟨?_, fun handle command => ?_, Ledger.scansExactly_run operations,
    fun deadline => Ledger.nextDeadline_eq_some_iff wf recalls,
    Ledger.nextDeadline_eq_none_iff wf recalls, fun interval now some_time => ⟨?_, ?_⟩⟩
  · intro before mid later first scan r now split begins scans
    exact Ledger.returned_iff split begins scans
  · rw [Ledger.isPending_eq]
    exact recalls.pending_iff handle command
  · exact (idleSpan_eq_zero_iff some_time).trans (Ledger.takeLapsed_ne_nil_iff l now).symm
  · intro deadline next ahead
    rw [next]
    exact add_idleSpan_le ahead

/-- A run in which the request of the second slot is over first, then those of the first and third
at once; the last one waits without limit. -/
def LedgerOperation.lapsing : List LedgerOperation :=
  [.begin 16 0 (some 50) 100, .begin 17 0 (some 20) 100, .begin 16 1 (some 50) 100,
    .begin 18 0 (some Span.longest) 100, .takeLapsed 119, .takeLapsed 120, .nextDeadline,
    .takeLapsed 150, .nextDeadline]

/-- The first request outlasts two scans that come too early, and the third one returns it. -/
theorem requests_expire_exactly_lapsing :
    ∃ (mid later : List LedgerEvent) (first scan : LedgerEvent) (r : SentRequest),
      Ledger.empty.record LedgerOperation.lapsing = [] ++ first :: (mid ++ scan :: later) ∧
        first.begun? = some r ∧ scan.asked = .takeLapsed 150 ∧
        (∀ e ∈ mid, ¬ e.Ends r.handle r.command) ∧ scan.Returns r := by
  have past : Ledger.empty.record LedgerOperation.lapsing =
      [] ++ ⟨.begin 16 0 (some 50) 100, .begun 0⟩ ::
        ([⟨.begin 17 0 (some 20) 100, .begun 0⟩, ⟨.begin 16 1 (some 50) 100, .begun 0⟩,
          ⟨.begin 18 0 (some Span.longest) 100, .begun 0⟩, ⟨.takeLapsed 119, .allLapsed []⟩,
          ⟨.takeLapsed 120, .allLapsed [⟨17, 0, 0, some 100⟩]⟩,
          ⟨.nextDeadline, .deadline (some 150)⟩] ++
        ⟨.takeLapsed 150, .allLapsed [⟨16, 0, 0, some 100⟩, ⟨16, 1, 0, some 100⟩]⟩ ::
        [⟨.nextDeadline, .deadline none⟩]) := by
    rw [Ledger.record_eq, (Ledger.represents_empty.run _).1]
    rfl
  let r : SentRequest := ⟨16, 0, 0, some 50, 100⟩
  have due {now : Instant} : r.IsDue now ↔ 150 ≤ now := by
    rw [SentRequest.isDue_iff]
    exact (decide_eq_true_iff : decide (150 ≤ now) = true ↔ _)
  obtain ⟨returned, -⟩ := requests_expire_exactly LedgerOperation.lapsing
  refine ⟨_, _, _, _, r, past, rfl, rfl,
    (returned [] _ _ _ _ r 150 past rfl rfl).mpr ⟨?_, ?_, ?_⟩⟩
  · exact due.mpr (Nat.le_refl 150)
  · simp [LedgerEvent.Ends]
  · simp [due]

end HubRelay
