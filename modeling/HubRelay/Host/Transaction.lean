import HubRelay.Bytes
import HubRelay.Host.Error
import HubRelay.Time

/-!
Loads and unloads of programs on the hub, of which at most one is under way.

The binary of a load is handed out in numbered pieces, each of which repeats what the hub has to
know about the program. A transaction that has been idle for long enough may be superseded; every
piece that is handed out counts as activity.
-/

namespace HubRelay

/-! ### Binaries in pieces -/

/-- What the hub has to know about a program that is loaded. -/
structure ProgramInfo where
  transaction : TransactionNumber
  appId : UInt64
  appVersion : UInt32
  appFlags : UInt32
  apiVersion : UInt32
  deriving DecidableEq

/-- One piece of a binary; pieces are numbered from one. -/
structure Fragment where
  info : ProgramInfo
  number : Nat
  totalLength : Nat
  data : Bytes
  deriving DecidableEq

/-- A binary that is handed out in pieces of `pieceSize` bytes, and how many were. -/
structure Upload where
  info : ProgramInfo
  binary : Bytes
  pieceSize : Nat
  handedOut : Nat := 0

namespace Upload

/-- The most pieces that can be numbered. -/
def mostPieces : Nat := UInt32.size - 1

/-- A binary of which nothing was handed out. A piece holds at least one byte. -/
def ofBinary (info : ProgramInfo) (binary : Bytes) (pieceSize : Nat) : Upload :=
  { info, binary, pieceSize := max pieceSize 1 }

/-- How many pieces there are. An empty binary still takes one. -/
def pieces (u : Upload) : Nat :=
  min (max ((u.binary.length + u.pieceSize - 1) / u.pieceSize) 1) mostPieces

def isComplete (u : Upload) : Bool := u.pieces ≤ u.handedOut

/-- Hands out the next piece; none when all were. -/
def next (u : Upload) : Option (Fragment × Upload) :=
  if u.isComplete then none
  else some
    ({ info := u.info, number := u.handedOut + 1, totalLength := u.binary.length
       data := (u.binary.drop (u.handedOut * u.pieceSize)).take u.pieceSize },
     { u with handedOut := u.handedOut + 1 })

theorem handedOut_next {u later : Upload} {f : Fragment} (h : u.next = some (f, later)) :
    later.pieces = u.pieces ∧ later.handedOut = u.handedOut + 1 ∧ u.handedOut < u.pieces := by
  simp only [next] at h
  split at h
  · cases h
  · rename_i more
    simp only [isComplete, decide_eq_true_eq, Nat.not_le] at more
    obtain ⟨_, rfl⟩ := by simpa using h
    exact ⟨rfl, rfl, more⟩

/-- The pieces still to be handed out, each with the upload after it. The recursion goes on while
pieces are left. -/
def remaining (u : Upload) : List (Fragment × Upload) :=
  match _step : u.next with
  | none => []
  | some (fragment, later) => (fragment, later) :: later.remaining
termination_by u.pieces - u.handedOut
decreasing_by
  have := handedOut_next _step
  omega

end Upload

/-! ### The transaction under way -/

/-- A load or unload under way; only a load has something to hand out. -/
structure Transaction where
  number : TransactionNumber
  client : ClientId
  activeAt : Instant
  upload : Option Upload

def Transaction.kind (t : Transaction) : TransactionKind :=
  if t.upload.isSome then .load else .unload

/-- Whether the transaction is the client's own of that number. -/
def Transaction.isOf (t : Transaction) (client : ClientId) (number : TransactionNumber) : Bool :=
  t.client == client && t.number == number

/-- The place for one transaction, and how long one may be idle before another supersedes it. -/
structure Dock where
  timeout : Span
  pending : Option Transaction := none

namespace Dock

def isFree (d : Dock) (now : Instant) : Bool := d.pending.all fun t => d.timeout ≤ now - t.activeAt

/-- Starts a transaction, in place of one that was idle for too long. The one that gives way is not
told. -/
def start (d : Dock) (client : ClientId) (number : TransactionNumber) (upload : Option Upload)
    (now : Instant) : Except HostError Dock :=
  match d.pending with
  | some t =>
      if d.isFree now then
        .ok { d with pending := some { number, client, activeAt := now, upload } }
      else .error (.transactionPending t.kind t.number t.client)
  | none => .ok { d with pending := some { number, client, activeAt := now, upload } }

def startLoad (d : Dock) (client : ClientId) (upload : Upload) (now : Instant) :
    Except HostError Dock :=
  d.start client upload.info.transaction (some upload) now

def startUnload (d : Dock) (client : ClientId) (number : TransactionNumber) (now : Instant) :
    Except HostError Dock :=
  d.start client number none now

/-- Ends the client's own transaction of that number; the answer says whether it was under way.
Another client's or another number is left alone. -/
def settle (d : Dock) (client : ClientId) (number : TransactionNumber) : Bool × Dock :=
  if d.pending.any (·.isOf client number) then (true, { d with pending := none }) else (false, d)

def settleClient (d : Dock) (client : ClientId) : Option Transaction × Dock :=
  if d.pending.any (·.client == client) then (d.pending, { d with pending := none }) else (none, d)

def clear (d : Dock) : Option Transaction × Dock := (d.pending, { d with pending := none })

/-- Hands out the piece after the one that the hub has `acknowledged`, which has to be the last one
handed out. -/
def next (d : Dock) (client : ClientId) (number : TransactionNumber) (acknowledged : Nat)
    (now : Instant) : Option (Fragment × Dock) :=
  match d.pending with
  | none => none
  | some t =>
      if !t.isOf client number then none
      else
        match t.upload with
        | none => none
        | some upload =>
            if upload.handedOut ≠ acknowledged then none
            else
              match upload.next with
              | none => none
              | some (fragment, upload) =>
                  some (fragment,
                    { d with pending := some { t with activeAt := now, upload := some upload } })

end Dock

end HubRelay
