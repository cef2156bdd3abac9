import HubRelay.Proofs.Ledger.Accounts
import HubRelay.Proofs.Ledger.Received
import Mathlib.Data.List.Induction

/-!
What a history tells of the requests of a ledger.

A history is what was asked of a ledger and what it answered, in this order. It tells which requests
were begun and which of them are outstanding: those that nothing has ended since (`OutstandingIn`).
`Ledger.Turns` is all that an operation can do to what a slot knows of requests sent. From it
follows, by induction on the operations, that a slot has a request pending exactly if one is
outstanding on its pair, and that it is that one (`Ledger.recalls_record`).
-/

namespace HubRelay

/-- What was asked of a ledger and what it answered. -/
structure LedgerEvent where
  asked : LedgerOperation
  answer : LedgerAnswer

/-- A request that was begun. -/
structure SentRequest where
  handle : Handle
  command : Command
  transaction : TransactionId
  timeout : Option Span
  sentAt : Instant

namespace SentRequest

/-- When the time of the request is over; never without a timeout, or if no clock shows it. -/
def deadline? (r : SentRequest) : Option Instant := r.timeout.bind r.sentAt.after?

/-- What the slot knows of the request while it is pending. -/
def outgoing (r : SentRequest) : Outgoing where
  transaction := r.transaction
  sentAt := some r.sentAt
  deadline := r.deadline?
  pending := true

end SentRequest

/-- Whether the operation forgets what was sent on the slots of an endpoint. -/
def LedgerOperation.Forgets (operation : LedgerOperation) (handle : Handle) : Prop :=
  operation = .clear ∨ operation = .removeEndpoint handle

namespace LedgerEvent

def begun? (e : LedgerEvent) : Option SentRequest :=
  match e.asked, e.answer with
  | .begin handle command timeout now, .begun transaction =>
      some { handle, command, transaction, timeout, sentAt := now }
  | _, _ => none

def begunOn? (e : LedgerEvent) (handle : Handle) (command : Command) : Option SentRequest :=
  e.begun?.filter fun r => r.handle = handle && r.command = command

/-- Whether a request that was pending on the slot has ended by this: it was taken back, ended ahead
of its time, answered, found to be overdue, or forgotten. -/
def Ends (e : LedgerEvent) (handle : Handle) (command : Command) : Prop :=
  match e.asked, e.answer with
  | .abort h c _, .flag true | .expire h c _, .lapsed (some _)
  | .complete h c _ _, .correlated (.matched _) => h = handle ∧ c = command
  | .takeLapsed _, .allLapsed requests =>
      ∃ request ∈ requests, request.handle = handle ∧ request.command = command
  | .clear, _ => True
  | .removeEndpoint h, _ => h = handle
  | _, _ => False

/-- An event begins a request on one slot only. -/
theorem begunOn?_eq_some_iff {e : LedgerEvent} {r : SentRequest} {handle : Handle}
    {command : Command} :
    e.begunOn? handle command = some r ↔
      e.begun? = some r ∧ r.handle = handle ∧ r.command = command := by
  simp [begunOn?, Option.filter_eq_some_iff]

/-- Where nothing begins, nothing begins on any slot. -/
theorem begunOn?_eq_none {e : LedgerEvent} (no_begin : e.begun? = none) (handle : Handle)
    (command : Command) : e.begunOn? handle command = none := by
  simp [begunOn?, no_begin]

/-- An event does not both begin a request and end one. -/
theorem not_ends_of_begun {e : LedgerEvent} {r : SentRequest} (begins : e.begun? = some r)
    (handle : Handle) (command : Command) : ¬ e.Ends handle command := by
  obtain ⟨asked, answer⟩ := e
  cases asked with
  | begin => exact id
  | _ => cases begins

/-- An event that ends a request begins none. -/
theorem begunOn?_of_ends {e : LedgerEvent} {handle : Handle} {command : Command}
    (ends : e.Ends handle command) : e.begunOn? handle command = none := by
  refine Option.eq_none_iff_forall_ne_some.mpr fun r begins => ?_
  exact not_ends_of_begun (begunOn?_eq_some_iff.mp begins).1 _ _ ends

end LedgerEvent

/-! ### Outstanding requests -/

/-- The request was begun, and nothing in `since`, which is what happened from then on, has ended
it. It is said of a history alone, so what a ledger does can be compared with it. -/
def OutstandingIn (past : List LedgerEvent) (r : SentRequest) (since : List LedgerEvent) : Prop :=
  ∃ before first, past = before ++ first :: since ∧ first.begun? = some r ∧
    ∀ e ∈ since, ¬ e.Ends r.handle r.command

/-- A request is outstanding on the slot. -/
def PendingOn (past : List LedgerEvent) (handle : Handle) (command : Command) : Prop :=
  ∃ r since, OutstandingIn past r since ∧ r.handle = handle ∧ r.command = command

/-- The requests that were begun on a slot, in this order. -/
def sentOn (past : List LedgerEvent) (handle : Handle) (command : Command) : List SentRequest :=
  past.filterMap (·.begunOn? handle command)

section

variable {past since before : List LedgerEvent} {e first : LedgerEvent} {r : SentRequest}
  {handle : Handle} {command : Command}

/-- The requests of a slot are read off a history in parts. -/
theorem sentOn_append (front back : List LedgerEvent) (handle : Handle) (command : Command) :
    sentOn (front ++ back) handle command =
      sentOn front handle command ++ sentOn back handle command :=
  List.filterMap_append

theorem sentOn_cons_of_begun (begins : first.begun? = some r) (since : List LedgerEvent) :
    sentOn (first :: since) r.handle r.command = r :: sentOn since r.handle r.command :=
  List.filterMap_cons_some (LedgerEvent.begunOn?_eq_some_iff.mpr ⟨begins, rfl, rfl⟩)

/-- The latest event comes last. -/
theorem sentOn_concat (past : List LedgerEvent) (e : LedgerEvent) (handle : Handle)
    (command : Command) :
    sentOn (past ++ [e]) handle command =
      sentOn past handle command ++ (e.begunOn? handle command).toList := by
  rw [sentOn_append]
  cases begins : e.begunOn? handle command <;> simp [sentOn, begins]

/-- Outstanding after one more event is what it begins, or what was outstanding and goes on. -/
theorem outstandingIn_concat :
    OutstandingIn (past ++ [e]) r since ↔
      since = [] ∧ e.begun? = some r ∨
        ∃ earlier, since = earlier ++ [e] ∧ OutstandingIn past r earlier ∧
          ¬ e.Ends r.handle r.command := by
  constructor
  · rintro ⟨before, first, split, begins, unended⟩
    rcases List.eq_nil_or_concat since with rfl | ⟨earlier, last, rfl⟩
    · obtain ⟨-, same⟩ := List.append_inj' split rfl
      obtain rfl := List.singleton_inj.mp same
      exact .inl ⟨rfl, begins⟩
    · rw [List.concat_eq_append] at split unended ⊢
      rw [← List.cons_append, ← List.append_assoc] at split
      obtain ⟨rfl, same⟩ := List.append_inj' split rfl
      obtain rfl := List.singleton_inj.mp same
      refine .inr ⟨earlier, rfl, ⟨before, first, rfl, begins, ?_⟩, unended e (by simp)⟩
      intro other mem
      exact unended other (List.mem_append_left _ mem)
  · rintro (⟨rfl, begins⟩ | ⟨earlier, rfl, ⟨before, first, rfl, begins, unended⟩, goes_on⟩)
    · exact ⟨past, e, rfl, begins, by simp⟩
    · refine ⟨before, first, by simp, begins, ?_⟩
      intro other mem
      rcases List.mem_append.mp mem with mem | mem
      · exact unended other mem
      · exact List.mem_singleton.mp mem ▸ goes_on

end

namespace Ledger

def after (l : Ledger) (operation : LedgerOperation) : Ledger := (l.perform operation).2

def event (l : Ledger) (operation : LedgerOperation) : LedgerEvent :=
  ⟨operation, (l.perform operation).1⟩

def record (l : Ledger) : List LedgerOperation → List LedgerEvent
  | [] => []
  | operation :: rest => l.event operation :: (l.after operation).record rest

variable {l later : Ledger} {operation : LedgerOperation} {operations : List LedgerOperation}
  {past since : List LedgerEvent} {e : LedgerEvent} {r : SentRequest} {handle : Handle}
  {command : Command}

theorem run_append (l : Ledger) (front back : List LedgerOperation) :
    l.run (front ++ back) = (l.run front).run back :=
  List.foldl_append

/-- A run goes one operation further. -/
theorem run_concat (l : Ledger) (earlier : List LedgerOperation) (operation : LedgerOperation) :
    l.run (earlier ++ [operation]) = (l.run earlier).after operation :=
  l.run_append earlier [operation]

/-- The record of a longer run continues that of the shorter. -/
theorem record_append (l : Ledger) (front back : List LedgerOperation) :
    l.record (front ++ back) = l.record front ++ (l.run front).record back := by
  induction front generalizing l with
  | nil => rfl
  | cons operation rest ih => exact congrArg (l.event operation :: ·) (ih (l.after operation))

/-- The last event of a record is read off the ledger that the earlier operations left. -/
theorem record_concat (l : Ledger) (earlier : List LedgerOperation) (operation : LedgerOperation) :
    l.record (earlier ++ [operation]) = l.record earlier ++ [(l.run earlier).event operation] :=
  l.record_append earlier [operation]

/-- A history pairs what was asked with what was answered. -/
theorem record_eq (l : Ledger) (operations : List LedgerOperation) :
    l.record operations = List.zipWith LedgerEvent.mk operations (l.answers operations) := by
  induction operations generalizing l with
  | nil => rfl
  | cons operation rest ih => exact congrArg (l.event operation :: ·) (ih (l.after operation))

/-- Where an event stands in a history, its operation stands in the run. -/
theorem record_split {front back : List LedgerEvent}
    (split : l.record operations = front ++ e :: back) :
    ∃ earlier operation later, operations = earlier ++ operation :: later ∧
      front = l.record earlier ∧ e = (l.run earlier).event operation := by
  induction operations generalizing l front with
  | nil => simp [record] at split
  | cons operation rest ih =>
      cases front with
      | nil =>
          obtain ⟨rfl, -⟩ := List.cons.inj split
          exact ⟨[], operation, rest, rfl, rfl, rfl⟩
      | cons head front =>
          obtain ⟨rfl, tail⟩ := List.cons.inj split
          obtain ⟨earlier, next, later, rfl, rfl, rfl⟩ := ih tail
          exact ⟨operation :: earlier, next, later, rfl, rfl, rfl⟩

/-! ### All that an operation can come to -/

/-- All that an operation can come to, with what it answers: it begins a request, ends the one that
is pending on a slot, ends those that are overdue, forgets, writes down what was received, or
changes nothing. Each constructor has the guard under which it applies, so answers and changes go
together. -/
inductive Performs (l : Ledger) : LedgerOperation → LedgerAnswer → Ledger → Prop where
  | began {handle : Handle} {command : Command} (timeout : Option Span) (now : Instant) :
      (l.slotAt handle command).outgoing.pending = false →
      Performs l (.begin handle command timeout now)
        (.begun (l.slotAt handle command).nextTransaction)
        (l.withRequest handle command timeout now)
  | ended {operation : LedgerOperation} {answer : LedgerAnswer} {key : RequestKey} :
      l.awaits key = true → ¬ operation.Forgets key.handle →
      LedgerEvent.begun? ⟨operation, answer⟩ = none →
      (∀ h c, LedgerEvent.Ends ⟨operation, answer⟩ h c ↔ key.handle = h ∧ key.command = c) →
      Performs l operation answer (l.withoutRequest key.handle key.command)
  | lapsed (now : Instant) :
      Performs l (.takeLapsed now) (.allLapsed (l.takeLapsed now).1) (l.takeLapsed now).2
  | cleared : Performs l .clear .nothing empty
  | removed (handle : Handle) :
      Performs l (.removeEndpoint handle) .nothing (l.removeEndpoint handle)
  | opened (handle : Handle) (command : Command) (transaction : TransactionId) (now : Instant) :
      Performs l (.openIncoming handle command transaction now) .nothing
        (l.openIncoming handle command transaction now)
  | closed (key : RequestKey) (now : Instant) (span : Option Span) :
      Performs l (.closeIncoming key.handle key.command key.transaction now) (.latency span)
        (l.closed key)
  | idle {operation : LedgerOperation} {answer : LedgerAnswer} :
      LedgerEvent.begun? ⟨operation, answer⟩ = none →
      (∀ h c, ¬ LedgerEvent.Ends ⟨operation, answer⟩ h c) → Performs l operation answer l

/-- Begin finds the slot idle or busy. -/
theorem performs_begin (l : Ledger) (handle : Handle) (command : Command) (timeout : Option Span)
    (now : Instant) :
    l.Performs (.begin handle command timeout now) (l.perform (.begin handle command timeout now)).1
      (l.after (.begin handle command timeout now)) := by
  simp only [after, perform, begin_eq]
  cases pending : (l.slotAt handle command).outgoing.pending with
  | true => exact .idle rfl fun _ _ => id
  | false => exact .began timeout now pending

/-- Aborting ends the request if it is pending. -/
theorem performs_abort (l : Ledger) (key : RequestKey) :
    let operation := LedgerOperation.abort key.handle key.command key.transaction
    l.Performs operation (l.perform operation).1 (l.after operation) := by
  simp only [after, perform, abort_eq]
  cases awaited : l.awaits key with
  | true => exact .ended awaited (by simp [LedgerOperation.Forgets]) rfl fun _ _ => Iff.rfl
  | false => exact .idle rfl fun _ _ => id

/-- Giving it up ends the request if it is pending. -/
theorem performs_expire (l : Ledger) (key : RequestKey) :
    let operation := LedgerOperation.expire key.handle key.command key.transaction
    l.Performs operation (l.perform operation).1 (l.after operation) := by
  simp only [after, perform, expire_eq]
  cases awaited : l.awaits key with
  | true => exact .ended awaited (by simp [LedgerOperation.Forgets]) rfl fun _ _ => Iff.rfl
  | false => exact .idle rfl fun _ _ => id

/-- A response is compared with what is pending on its slot, whose three answers are the three
cases. -/
theorem performs_complete (l : Ledger) (key : RequestKey) (now : Instant) :
    let operation := LedgerOperation.complete key.handle key.command key.transaction now
    l.Performs operation (l.perform operation).1 (l.after operation) := by
  simp only [after, perform, complete_eq]
  cases awaited : l.awaits key with
  | true => exact .ended awaited (by simp [LedgerOperation.Forgets]) rfl fun _ _ => Iff.rfl
  | false =>
      cases (l.slotAt key.handle key.command).outgoing.pending with
      | true => exact .idle rfl fun _ _ => id
      | false => exact .idle rfl fun _ _ => id

/-- A received request is closed once. -/
theorem performs_closeIncoming (l : Ledger) (key : RequestKey) (now : Instant) :
    let operation := LedgerOperation.closeIncoming key.handle key.command key.transaction now
    l.Performs operation (l.perform operation).1 (l.after operation) := by
  simp only [after, perform, closeIncoming_eq]
  cases owed : l.owes key with
  | true => exact .closed key now _
  | false => exact .idle rfl fun _ _ => id

/-- Each operation does one of the things listed for it, under the guard that stands there. -/
theorem performs (l : Ledger) (operation : LedgerOperation) :
    l.Performs operation (l.perform operation).1 (l.after operation) := by
  cases operation with
  | begin handle command timeout now => exact l.performs_begin handle command timeout now
  | abort handle command transaction => exact l.performs_abort ⟨handle, command, transaction⟩
  | expire handle command transaction => exact l.performs_expire ⟨handle, command, transaction⟩
  | complete handle command transaction now =>
      exact l.performs_complete ⟨handle, command, transaction⟩ now
  | takeLapsed now => exact .lapsed now
  | openIncoming handle command transaction now => exact .opened handle command transaction now
  | closeIncoming handle command transaction now =>
      exact l.performs_closeIncoming ⟨handle, command, transaction⟩ now
  | clear => exact .cleared
  | removeEndpoint handle => exact .removed handle
  | nextDeadline | isPending | outgoing | incoming | pendingCount =>
      exact .idle rfl fun _ _ => id

/-- All of them keep the ledger in order. -/
theorem Performs.wellFormed {answer : LedgerAnswer} (performs : l.Performs operation answer later)
    (wf : l.WellFormed) : later.WellFormed := by
  cases performs with
  | began timeout now => exact wellFormed_withRequest wf _ _ timeout now
  | ended => exact wellFormed_withoutRequest wf _ _
  | lapsed now => exact wellFormed_takeLapsed wf now
  | cleared => exact wellFormed_empty
  | removed handle => exact wellFormed_removeEndpoint wf handle
  | opened => exact wellFormed_openIncoming wf _ _ _ _
  | closed key => exact wellFormed_closed wf key
  | idle => exact wf

/-- A ledger in order stays so over every run. -/
theorem wellFormed_run (wf : l.WellFormed) (operations : List LedgerOperation) :
    (l.run operations).WellFormed := by
  induction operations generalizing l with
  | nil => exact wf
  | cons operation rest ih => exact ih ((l.performs operation).wellFormed wf)

/-! ### What an event does to a slot -/

/-- All that an event can do to what a slot knows of requests sent: the slot is idle and a request
with the next number begins, nothing is pending after it, or nothing changes. This is the interface
between ledgers and histories. -/
inductive Turns (e : LedgerEvent) (handle : Handle) (command : Command) (slot slot' : Slot) :
    Prop where
  | began {r : SentRequest} :
      e.begunOn? handle command = some r → slot.outgoing.pending = false →
      r.transaction = slot.nextTransaction →
      slot'.outgoing = r.outgoing → slot'.nextTransaction = slot.nextTransaction + 1 →
      Turns e handle command slot slot'
  | ended :
      e.Ends handle command → slot'.outgoing.pending = false →
      (¬ e.asked.Forgets handle → slot'.nextTransaction = slot.nextTransaction) →
      Turns e handle command slot slot'
  | kept :
      e.begunOn? handle command = none → ¬ e.Ends handle command → slot'.outgoing = slot.outgoing →
      slot'.nextTransaction = slot.nextTransaction → Turns e handle command slot slot'

/-- A scan ends what is pending on a slot exactly if its time is over. -/
theorem exists_lapsed_iff (wf : l.WellFormed) (now : Instant) (handle : Handle)
    (command : Command) :
    (∃ request ∈ (l.takeLapsed now).1, request.handle = handle ∧ request.command = command) ↔
      (l.slotAt handle command).isDue now = true := by
  simp only [takeLapsed, List.mem_map, Array.mem_toList_iff, Array.mem_filter]
  constructor
  · rintro ⟨_, ⟨s, ⟨mem, due⟩, rfl⟩, rfl, rfl⟩
    rw [slotAt, Slot.lapsed, slot?_of_mem wf mem]
    exact due
  · intro due
    cases found : l.slot? handle command with
    | none => simp [slotAt, found, Slot.isDue] at due
    | some s =>
        rw [slotAt, found, Option.getD_some] at due
        obtain ⟨mem, rfl, rfl⟩ := (slot?_eq_some_iff wf).mp found
        exact ⟨s.lapsed, ⟨s, ⟨mem, due⟩, rfl⟩, rfl, rfl⟩

/-- What concerns requests received leaves those sent alone. -/
theorem turns_of_alike (alike : l.SendsAlike later) (no_begin : e.begun? = none)
    (no_end : ∀ h c, ¬ e.Ends h c) (handle : Handle) (command : Command) :
    Turns e handle command (l.slotAt handle command) (later.slotAt handle command) := by
  obtain ⟨outgoing, number⟩ := alike handle command
  exact .kept (LedgerEvent.begunOn?_eq_none no_begin _ _) (no_end handle command) outgoing number

/-- What an operation does to a slot can be told from the event alone: it begins a request there,
ends one, or leaves the slot. -/
theorem Performs.turns {answer : LedgerAnswer} (performs : l.Performs operation answer later)
    (wf : l.WellFormed) (handle : Handle) (command : Command) :
    Turns ⟨operation, answer⟩ handle command (l.slotAt handle command)
      (later.slotAt handle command) := by
  -- Each operation is compared slot by slot: it concerns the pair that it names, or all of some
  -- kind.
  cases performs with
  | began timeout now idle =>
      next h c =>
      rw [slotAt_withRequest wf]
      split
      · next here =>
        obtain ⟨rfl, rfl⟩ := here
        exact .began (LedgerEvent.begunOn?_eq_some_iff.mpr ⟨rfl, rfl, rfl⟩) idle rfl rfl rfl
      · next elsewhere =>
        refine .kept (Option.eq_none_iff_forall_ne_some.mpr fun r begins => ?_) id rfl rfl
        obtain ⟨same, rfl, rfl⟩ := LedgerEvent.begunOn?_eq_some_iff.mp begins
        obtain rfl := Option.some.inj same
        exact elsewhere ⟨rfl, rfl⟩
  | ended awaited remembers no_begin ends =>
      next key =>
      rw [slotAt_withoutRequest wf]
      split
      · next here =>
        exact .ended ((ends _ _).mpr here) rfl fun _ => rfl
      · next elsewhere =>
        exact .kept (LedgerEvent.begunOn?_eq_none no_begin _ _)
          (fun ended => elsewhere ((ends _ _).mp ended)) rfl rfl
  | lapsed now =>
      have due := exists_lapsed_iff wf now handle command
      rw [slotAt_takeLapsed]
      split
      · next overdue => exact .ended (due.mpr overdue) rfl fun _ => rfl
      · next early => exact .kept rfl (fun ended => early (due.mp ended)) rfl rfl
  | cleared => exact .ended trivial (by rw [slotAt_empty]) fun kept => absurd (.inl rfl) kept
  | removed h =>
      rw [slotAt_removeEndpoint wf]
      split
      · next own => exact .ended own rfl fun kept => absurd (.inr (own ▸ rfl)) kept
      · next other => exact .kept rfl other rfl rfl
  | opened h c transaction now =>
      exact turns_of_alike (sendsAlike_openIncoming wf h c transaction now) rfl (fun _ _ => id) _ _
  | closed key now span =>
      exact turns_of_alike (sendsAlike_closed wf key) rfl (fun _ _ => id) _ _
  | idle no_begin no_end => exact turns_of_alike (.refl l) no_begin no_end _ _

/-! ### What the ledger recalls -/

/-- A slot has a request pending exactly if one is outstanding on its pair, and it knows that one as
it was begun; none has begun there since. -/
structure Recalls (l : Ledger) (past : List LedgerEvent) : Prop where
  holds : ∀ r since, OutstandingIn past r since →
    (l.slotAt r.handle r.command).outgoing = r.outgoing
  latest : ∀ r since, OutstandingIn past r since → sentOn since r.handle r.command = []
  pending : ∀ handle command, (l.slotAt handle command).outgoing.pending = true →
    PendingOn past handle command

/-- An empty ledger remembers nothing because nothing has happened. -/
theorem recalls_nil : empty.Recalls [] := by
  have nothing {r : SentRequest} {since : List LedgerEvent} : ¬ OutstandingIn [] r since := by
    rintro ⟨before, first, split, -⟩
    simp at split
  refine ⟨fun _ _ stood => absurd stood nothing, fun _ _ stood => absurd stood nothing, ?_⟩
  intro handle command pending
  rw [slotAt_empty] at pending
  cases pending

/-- The slot of a ledger and the history of the slot move together. -/
theorem Recalls.step (recalls : l.Recalls past)
    (turns : ∀ handle command,
      Turns e handle command (l.slotAt handle command) (later.slotAt handle command)) :
    later.Recalls (past ++ [e]) := by
  -- A request that goes on is known to its slot, so the event does not touch that slot.
  have kept {r : SentRequest} {earlier : List LedgerEvent} (stood : OutstandingIn past r earlier)
      (goes_on : ¬ e.Ends r.handle r.command) :
      (later.slotAt r.handle r.command).outgoing = r.outgoing ∧
        e.begunOn? r.handle r.command = none := by
    have known := recalls.holds r earlier stood
    cases turns r.handle r.command with
    | began _ idle =>
        rw [known] at idle
        cases idle
    | ended ends => exact absurd ends goes_on
    | kept no_begin _ same _ => exact ⟨same.trans known, no_begin⟩
  refine ⟨fun r since outstanding => ?_, fun r since outstanding => ?_, ?_⟩
  · rcases outstandingIn_concat.mp outstanding with ⟨-, begins⟩ | ⟨earlier, -, stood, goes_on⟩
    · have own := LedgerEvent.begunOn?_eq_some_iff.mpr ⟨begins, rfl, rfl⟩
      cases turns r.handle r.command with
      | began begins' _ _ known =>
          obtain rfl := Option.some.inj (own.symm.trans begins')
          exact known
      | ended ends => exact absurd ends (LedgerEvent.not_ends_of_begun begins _ _)
      | kept no_begin =>
          rw [own] at no_begin
          cases no_begin
    · exact (kept stood goes_on).1
  · rcases outstandingIn_concat.mp outstanding with ⟨rfl, -⟩ | ⟨earlier, rfl, stood, goes_on⟩
    · rfl
    · rw [sentOn_concat, recalls.latest r earlier stood, (kept stood goes_on).2]
      rfl
  · intro handle command pending
    cases turns handle command with
    | @began r begins =>
        obtain ⟨begins, own⟩ := LedgerEvent.begunOn?_eq_some_iff.mp begins
        exact ⟨r, [], outstandingIn_concat.mpr (.inl ⟨rfl, begins⟩), own⟩
    | ended _ idle =>
        rw [idle] at pending
        cases pending
    | kept no_begin no_end same _ =>
        rw [same] at pending
        obtain ⟨r, since, stood, rfl, rfl⟩ := recalls.pending handle command pending
        have goes_on := outstandingIn_concat.mpr (.inr ⟨since, rfl, stood, no_end⟩)
        exact ⟨r, since ++ [e], goes_on, rfl, rfl⟩

/-- After every run the ledger recalls its history. The induction is on the run from its end, so the
step is one operation in the ledger that the earlier ones left. -/
theorem recalls_record (operations : List LedgerOperation) :
    (empty.run operations).Recalls (empty.record operations) := by
  induction operations using List.reverseRecOn with
  | nil => exact recalls_nil
  | append_singleton earlier operation ih =>
      rw [run_concat, record_concat]
      exact ih.step ((performs _ operation).turns (wellFormed_run wellFormed_empty earlier))

/-- A slot is pending exactly if its latest request has not been ended since. -/
theorem Recalls.pending_iff (recalls : l.Recalls past) (handle : Handle) (command : Command) :
    (l.slotAt handle command).outgoing.pending = true ↔ PendingOn past handle command := by
  refine ⟨recalls.pending handle command, ?_⟩
  rintro ⟨r, since, outstanding, rfl, rfl⟩
  rw [recalls.holds r since outstanding]
  rfl

/-- The request that is outstanding on a slot is the last that was begun there. -/
theorem Recalls.getLast?_sentOn (recalls : l.Recalls past)
    (outstanding : OutstandingIn past r since) :
    (sentOn past r.handle r.command).getLast? = some r := by
  have latest := recalls.latest r since outstanding
  obtain ⟨before, first, rfl, begins, -⟩ := outstanding
  rw [sentOn_append, sentOn_cons_of_begun begins, latest, List.getLast?_concat]

end Ledger

end HubRelay
