import HubRelay.Exchange.Message

/-!
The callers that are blocked until a response comes, and what has come for them.

A caller waits under the handle, command and transaction of its request. A response posted there
is kept for the caller; a caller that is released gets nothing. `Awaited.mail` tells a blocked
caller which of the three holds.
-/

namespace HubRelay

/-- What identifies a request while it is pending. -/
structure RequestKey where
  handle : Handle
  command : Command
  transaction : TransactionId
  deriving DecidableEq, Repr

def Header.key (h : Header) : RequestKey := ⟨h.handle, h.command, h.transaction⟩

/-- The number of a blocked call. -/
abbrev CallId := Nat

/-- What has come for a blocked caller. -/
inductive Mail
  | nothing
  | released
  | delivered (message : Message)
  deriving DecidableEq

/-- The blocked callers by request, and the mail of those that no longer stand there. Callers are
numbered as they come, so mail for one that has returned is nobody else's. -/
structure Awaited where
  waiting : List (RequestKey × CallId) := []
  mail : List (CallId × Option Message) := []
  calls : CallId := 0

namespace Awaited

def mailFor (a : Awaited) (call : CallId) : Mail :=
  match a.mail.find? fun m => m.1 == call with
  | none => .nothing
  | some (_, none) => .released
  | some (_, some message) => .delivered message

/-- Takes the callers that `leaves` picks out of the table, with nothing for them. -/
def releaseWhere (a : Awaited) (leaves : RequestKey → Bool) : Awaited :=
  { a with
    waiting := a.waiting.filter fun w => !leaves w.1
    mail := a.mail ++ (a.waiting.filter fun w => leaves w.1).map fun w => (w.2, none) }

def release (a : Awaited) (key : RequestKey) : Awaited := a.releaseWhere (· == key)

def releaseEndpoint (a : Awaited) (handle : Handle) : Awaited :=
  a.releaseWhere (·.handle == handle)

def releaseAll (a : Awaited) : Awaited := a.releaseWhere fun _ => true

/-- Lets a new caller wait for `key`; one that waited there before is released. Numbers of requests
come round, so there may be one whose own request has ended. -/
def enlist (a : Awaited) (key : RequestKey) : CallId × Awaited :=
  let freed := a.release key
  (a.calls, { freed with waiting := freed.waiting ++ [(key, a.calls)], calls := a.calls + 1 })

/-- Hands a response to the caller that waits for it. If nobody does, the response is not kept. -/
def post (a : Awaited) (message : Message) : Awaited :=
  { a with
    waiting := a.waiting.filter fun w => w.1 != message.header.key
    mail := a.mail ++
      (a.waiting.filter fun w => w.1 == message.header.key).map fun w => (w.2, some message) }

def forget (a : Awaited) (call : CallId) : Awaited :=
  { a with mail := a.mail.filter fun m => m.1 != call }

end Awaited

end HubRelay
