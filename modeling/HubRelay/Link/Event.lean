import HubRelay.Link.Source

/-!
What a link reports upward, for a stream that is read to its end and for a pair of ends joined in
memory.
-/

namespace HubRelay

/-- What a link reports to whoever listens at its end. -/
inductive LinkEvent
  | frame (bytes : Bytes)
  | reset
  | established
  deriving DecidableEq, Repr

/-! ### Reading a stream to its end -/

/-- The datagrams still to be found, and then one reset for the failure that ends the stream. -/
def Reassembly.remaining (r : Reassembly) : List LinkEvent :=
  match _result : r.next with
  | (.ok payload, r') => .frame payload :: remaining r'
  | (.error _, _) => [.reset]
termination_by r.weight
decreasing_by
  have := Reassembly.next_weight r (by rw [_result])
  rwa [_result] at this

/-- What reading a whole stream reports: the link is there, its datagrams, and one reset. -/
def Reassembly.events (r : Reassembly) : List LinkEvent := .established :: r.remaining

/-! ### Two ends joined in memory -/

/-- The two ends of a link. -/
inductive Side
  | left
  | right
  deriving DecidableEq, Repr

def Side.opposite : Side → Side
  | .left => .right
  | .right => .left

/-- A link between two ends in one process; `η` names the listener attached to an end. -/
structure JoinedLink (η : Type) where
  up : Bool := true
  left : Option η := none
  right : Option η := none

namespace JoinedLink

variable {η : Type}

def listener (link : JoinedLink η) : Side → Option η
  | .left => link.left
  | .right => link.right

def setListener (link : JoinedLink η) (side : Side) (listener : Option η) : JoinedLink η :=
  match side with
  | .left => { link with left := listener }
  | .right => { link with right := listener }

def listeners (link : JoinedLink η) : List η := link.left.toList ++ link.right.toList

/-- The listener that gets a frame sent from `side`; nobody when the link is down or the other end
has no listener. -/
def receiver? (link : JoinedLink η) (side : Side) : Option η :=
  if link.up then link.listener side.opposite else none

/-- Takes the link down or up. Only a change is reported, as a reset or as a link-up. -/
def setUp (link : JoinedLink η) (up : Bool) : JoinedLink η × List (η × LinkEvent) :=
  if link.up = up then (link, [])
  else ({ link with up },
    link.listeners.map fun l => (l, if up then .established else .reset))

/-- What a reset that recovers at once reports: a reset to everyone, then a link-up to everyone. -/
def resetEvents (link : JoinedLink η) : List (η × LinkEvent) :=
  link.listeners.map (·, .reset) ++ link.listeners.map (·, .established)

end JoinedLink

end HubRelay
