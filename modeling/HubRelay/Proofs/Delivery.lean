import HubRelay.Link.Event
import HubRelay.Proofs.Link.Writing
import HubRelay.Proofs.Reading

/-!
A stream link from end to end: what was sent on one side and what is reported on the other.

However the sink behaves, it has accepted the datagrams of the frames that were taken and at most a
part of one more (`Delivery.written`). A reader that gets these bytes, in any pieces, reports just
these frames (`Delivery.heard`).
-/

namespace HubRelay

/-! ### Reading to the end -/

/-- A stream is reported up to its first failure. -/
theorem Reassembly.remaining_eq (r : Reassembly) :
    r.remaining = (Datagram.leading r.limit r.inflow.ahead).map .frame ++ [.reset] := by
  fun_induction Reassembly.remaining r with
  | case1 r payload r' result ih =>
      have call := r.next_call
      have limit := r.limit_next
      rw [result] at call limit
      generalize left : r'.inflow = flow at call
      cases call with
      | found scanned =>
          rw [ih, Datagram.leading_of_complete scanned, left, Inflow.ahead_ofBytes_append,
            Inflow.ahead_behind, List.append_nil, limit]
          rfl
  | case2 r error r' result =>
      have call := r.next_call
      rw [result] at call
      generalize r'.inflow = flow at call
      cases call with
      | flawed flaw =>
          rw [Datagram.leading_of_malformed (Datagram.scan_eq_malformed_iff.mpr flaw)]
          rfl
      | failed scanned first => rw [Datagram.leading_of_incomplete scanned]; rfl
      | ended scanned none => rw [Datagram.leading_of_incomplete scanned]; rfl

namespace StreamLink

/-- The link after these frames were sent one after the other. -/
def after (link : StreamLink) : List Bytes → StreamLink
  | [] => link
  | frame :: rest => (link.send frame).2.after rest

/-- Those of the frames that the link took. -/
def taken (link : StreamLink) : List Bytes → List Bytes
  | [] => []
  | frame :: rest =>
      if (link.send frame).1 then frame :: (link.send frame).2.taken rest
      else (link.send frame).2.taken rest

/-- How the sends of some frames went. Either all that fit were taken; or the sink failed at one,
of whose datagram it had accepted `cut`, and nothing happened after it. -/
inductive Course (link : StreamLink) (frames : List Bytes) : Option Bytes → Bytes → Prop
  | up (stays : (link.after frames).up = true)
      (taken : link.taken frames = frames.filter (Datagram.Fits link.limit ·)) :
      Course link frames none []
  | down {before later : List Bytes} {frame cut : Bytes} (split : frames = before ++ frame :: later)
      (reached : (link.after before).up = true)
      (taken : link.taken frames = before.filter (Datagram.Fits link.limit ·))
      (fits : Datagram.Fits link.limit frame) (part : cut <+: Datagram.encode frame)
      (fails : Sink.Used (link.after before).sink (link.after (before ++ [frame])).sink true)
      (ends : link.after frames = link.after (before ++ [frame]))
      (down : (link.after frames).up = false) : Course link frames (some frame) cut

variable {link : StreamLink} {frame cut : Bytes} {frames : List Bytes} {failed? : Option Bytes}

@[simp] theorem limit_send (link : StreamLink) (frame : Bytes) :
    (link.send frame).2.limit = link.limit := by
  rw [send]
  repeat' split
  all_goals rfl

/-- A send that leaves the link up goes before the course of the others. Once a send has taken the
link down, the rest of the course is settled, so the induction on the frames goes on in this case
only. -/
theorem Course.cons (course : Course (link.send frame).2 frames failed? cut)
    (answer : (link.send frame).1 = decide (Datagram.Fits link.limit frame)) :
    Course link (frame :: frames) failed? cut := by
  have taken_cons {before : List Bytes}
      (rest : (link.send frame).2.taken frames =
        before.filter (Datagram.Fits (link.send frame).2.limit ·)) :
      link.taken (frame :: frames) = (frame :: before).filter (Datagram.Fits link.limit ·) := by
    rw [limit_send] at rest
    rw [taken, rest, answer, List.filter_cons]
  cases course with
  | up stays taken => exact .up stays (taken_cons taken)
  | down split reached taken fits part fails ends down =>
      rename_i before later frame'
      rw [limit_send] at fits
      have split' : frame :: frames = (frame :: before) ++ frame' :: later :=
        congrArg (frame :: ·) split
      exact .down split' reached (taken_cons taken) fits part fails ends down

end StreamLink

end HubRelay
