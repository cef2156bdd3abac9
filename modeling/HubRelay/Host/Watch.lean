import HubRelay.Host.Switchboard

/-!
Watching processes by looking from time to time which of them are still there.

Every link adds to the count of its process, every unlink takes from it, and a process is watched
while its count is not zero. A round of looking drops the processes that are gone and reports each
of them.
-/

namespace HubRelay

/-- The watched processes and the number of their links. -/
structure Watch where
  links : List (Pid × Nat) := []

namespace Watch

def count (w : Watch) (pid : Pid) : Nat :=
  ((w.links.find? fun link => link.1 == pid).map Prod.snd).getD 0

/-- Sets the count of a process; a count of zero is not kept. -/
def setCount (w : Watch) (pid : Pid) (count : Nat) : Watch :=
  let others := w.links.filter fun link => link.1 != pid
  ⟨if count = 0 then others else others ++ [(pid, count)]⟩

/-- Only positive numbers are processes that can be watched. -/
def isLinkable (pid : Pid) : Bool := 0 < pid

/-- Starts watching; the answer says whether the process can be watched. A process that is watched
already is counted once more. -/
def link (w : Watch) (pid : Pid) : Bool × Watch :=
  if isLinkable pid then (true, w.setCount pid (w.count pid + 1)) else (false, w)

def unlink (w : Watch) (pid : Pid) : Watch := w.setCount pid (w.count pid - 1)

def watched (w : Watch) : List Pid := (w.links.map Prod.fst).mergeSort (· ≤ ·)

/-- One round of looking: the processes that are gone, and the watch without them. They are dropped
with all their links, so no later unlink can concern them. -/
def look (w : Watch) (living : Pid → Bool) : List Pid × Watch :=
  let gone := fun link : Pid × Nat => !living link.1
  ((w.links.filter gone).map Prod.fst, ⟨w.links.filter fun link => !gone link⟩)

/-- Follows what a switchboard asks of its monitor. -/
def follow (w : Watch) : MonitorCall → Watch
  | .link pid _ _ => (w.link pid).2
  | .unlink pid _ => w.unlink pid

end Watch

/-- Whether a process is there; only positive numbers are asked for. -/
def isAlive (living : Pid → Bool) (pid : Pid) : Bool := 0 < pid && living pid

end HubRelay
