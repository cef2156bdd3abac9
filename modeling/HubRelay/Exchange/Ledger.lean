import Std.Data.HashMap
import HubRelay.Exchange.Code
import HubRelay.Time

/-!
The bookkeeping of requests: one slot for every pair of handle and command that has been used.

A slot remembers the last request that this side sent and the last one that it received. Slots
stand in an arena in the order of their creation; an index finds the slot of a pair.
-/

namespace HubRelay

/-- A request that this side sent. A pending request without a deadline waits without limit. -/
structure Outgoing where
  transaction : TransactionId := 0
  sentAt : Option Instant := none
  deadline : Option Instant := none
  pending : Bool := false
  deriving DecidableEq, Repr

/-- A request that this side received. -/
structure Incoming where
  transaction : TransactionId := 0
  receivedAt : Option Instant := none
  unanswered : Bool := false
  deriving DecidableEq, Repr

/-- The requests of one command of one endpoint. Requests sent and requests received share the slot
and nothing else. -/
structure Slot where
  handle : Handle
  command : Command
  nextTransaction : TransactionId := 0
  outgoing : Outgoing := {}
  incoming : Incoming := {}
  deriving DecidableEq, Repr

/-- A pending request whose deadline has passed. It is what a scan takes with it when it leaves the
ledger. -/
structure Lapsed where
  handle : Handle
  command : Command
  transaction : TransactionId
  sentAt : Option Instant
  deriving DecidableEq, Repr

/-- How an inbound response relates to the request of its slot. -/
inductive Correlation
  | matched (latency : Span)
  | mismatch (expected : TransactionId)
  | notPending
  deriving DecidableEq, Repr

/-- The time since `earlier`; none when the instant is unknown or lies ahead. -/
def elapsedSince (earlier : Option Instant) (now : Instant) : Span :=
  match earlier with
  | none => 0
  | some instant => now - instant

namespace Slot

/-- Whether `now` has reached the deadline of the pending request. -/
def isDue (s : Slot) (now : Instant) : Bool :=
  s.outgoing.pending && s.outgoing.deadline.any (· ≤ now)

def begin (s : Slot) (timeout : Option Span) (now : Instant) : Slot :=
  { s with
    nextTransaction := s.nextTransaction + 1
    outgoing :=
      { transaction := s.nextTransaction, sentAt := some now
        deadline := timeout.bind now.after?, pending := true } }

def finish (s : Slot) : Slot :=
  { s with outgoing := { s.outgoing with pending := false, deadline := none } }

/-- Whether the request `transaction` is the pending one. -/
def awaits (s : Slot) (transaction : TransactionId) : Bool :=
  s.outgoing.pending && s.outgoing.transaction == transaction

/-- The pending request as one whose time is over. -/
def lapsed (s : Slot) : Lapsed :=
  { handle := s.handle, command := s.command, transaction := s.outgoing.transaction
    sentAt := s.outgoing.sentAt }

/-- Writes down a received request, in place of one that was never answered. -/
def receive (s : Slot) (transaction : TransactionId) (now : Instant) : Slot :=
  { s with incoming := { transaction, receivedAt := some now, unanswered := true } }

/-- Whether the received request `transaction` still waits for its answer. -/
def owes (s : Slot) (transaction : TransactionId) : Bool :=
  s.incoming.unanswered && s.incoming.transaction == transaction

def answer (s : Slot) : Slot := { s with incoming := { s.incoming with unanswered := false } }

end Slot

/-- The slots in use. -/
structure Ledger where
  slots : Array Slot := #[]
  index : Std.HashMap (Handle × Command) Nat := {}

namespace Ledger

def slot? (l : Ledger) (handle : Handle) (command : Command) : Option Slot :=
  l.index[(handle, command)]?.bind (l.slots[·]?)

/-- Changes the slot of a pair; an unused pair stays unused. -/
def modify (l : Ledger) (handle : Handle) (command : Command) (f : Slot → Slot) : Ledger :=
  match l.index[(handle, command)]? with
  | none => l
  | some place => { l with slots := l.slots.modify place f }

/-- Makes sure that the pair has a slot. -/
def allocate (l : Ledger) (handle : Handle) (command : Command) : Ledger :=
  match l.index[(handle, command)]? with
  | some _ => l
  | none =>
      { slots := l.slots.push { handle, command }
        index := l.index.insert (handle, command) l.slots.size }

/-! ### Requests sent -/

/-- Marks a request as sent and gives it the next number of its slot. When a request is pending
there, its number is the failure. -/
def begin (l : Ledger) (handle : Handle) (command : Command) (timeout : Option Span)
    (now : Instant) : Except TransactionId (TransactionId × Ledger) :=
  let slot := (l.slot? handle command).getD { handle, command }
  if slot.outgoing.pending then .error slot.outgoing.transaction
  else .ok (slot.nextTransaction,
    (l.allocate handle command).modify handle command (·.begin timeout now))

/-- Takes a request back; none when it is no longer pending. -/
def abort (l : Ledger) (handle : Handle) (command : Command) (transaction : TransactionId) :
    Option Ledger :=
  match l.slot? handle command with
  | none => none
  | some slot =>
      if slot.awaits transaction then some (l.modify handle command Slot.finish) else none

/-- Ends a request ahead of its deadline; none when it is no longer pending. -/
def expire (l : Ledger) (handle : Handle) (command : Command) (transaction : TransactionId) :
    Option (Lapsed × Ledger) :=
  match l.slot? handle command with
  | none => none
  | some slot =>
      if slot.awaits transaction then some (slot.lapsed, l.modify handle command Slot.finish)
      else none

/-- Relates a response to the request of its slot. Only the pending request's own number frees the
slot; under any other the sender is still waiting for its response. -/
def complete (l : Ledger) (handle : Handle) (command : Command) (transaction : TransactionId)
    (now : Instant) : Correlation × Ledger :=
  match l.slot? handle command with
  | none => (.notPending, l)
  | some slot =>
      if !slot.outgoing.pending then (.notPending, l)
      else if slot.outgoing.transaction ≠ transaction then (.mismatch slot.outgoing.transaction, l)
      else (.matched (elapsedSince slot.outgoing.sentAt now), l.modify handle command Slot.finish)

/-- Ends every request whose deadline has come, in the order of the slots. A deadline at this very
instant counts as come. -/
def takeLapsed (l : Ledger) (now : Instant) : List Lapsed × Ledger :=
  ((l.slots.filter (·.isDue now)).toList.map Slot.lapsed,
    { l with slots := l.slots.map fun s => if s.isDue now then s.finish else s })

def deadlines (l : Ledger) : List Instant :=
  l.slots.toList.filterMap fun s => if s.outgoing.pending then s.outgoing.deadline else none

def nextDeadline (l : Ledger) : Option Instant := l.deadlines.min?

def outgoing? (l : Ledger) (handle : Handle) (command : Command) : Option Outgoing :=
  (l.slot? handle command).map Slot.outgoing

def isPending (l : Ledger) (handle : Handle) (command : Command) : Bool :=
  (l.outgoing? handle command).any Outgoing.pending

def pendingCount (l : Ledger) : Nat := (l.slots.filter (·.outgoing.pending)).size

/-! ### Requests received -/

def incoming? (l : Ledger) (handle : Handle) (command : Command) : Option Incoming :=
  (l.slot? handle command).map Slot.incoming

/-- Writes down a request that was received. A request that is still open there is replaced, and
nobody will answer it any more. -/
def openIncoming (l : Ledger) (handle : Handle) (command : Command) (transaction : TransactionId)
    (now : Instant) : Ledger :=
  (l.allocate handle command).modify handle command (·.receive transaction now)

/-- Marks a received request as answered and tells how long it took; none when it was not open. So
it succeeds at most once for each request. -/
def closeIncoming (l : Ledger) (handle : Handle) (command : Command) (transaction : TransactionId)
    (now : Instant) : Option (Span × Ledger) :=
  match l.slot? handle command with
  | none => none
  | some slot =>
      if slot.owes transaction then
        some (elapsedSince slot.incoming.receivedAt now, l.modify handle command Slot.answer)
      else none

/-! ### Forgetting -/

/-- The ledger without slots: numbers start again from zero. -/
def empty : Ledger := {}

/-- The ledger with exactly these slots. The index is built anew; of two slots for one pair it would
find the later one. -/
def ofSlots (slots : Array Slot) : Ledger :=
  { slots
    index := (List.range slots.size).foldl (fun index place =>
      match slots[place]? with
      | some s => index.insert (s.handle, s.command) place
      | none => index) {} }

/-- Forgets all slots of an endpoint. The slots behind them move up in the arena, so the index has
to be built anew. -/
def removeEndpoint (l : Ledger) (handle : Handle) : Ledger :=
  ofSlots (l.slots.filter fun s => s.handle != handle)

end Ledger

end HubRelay
