import HubRelay.Link.Datagram

/-!
Reassembly of datagrams from a source that gives bytes in pieces of any size.

`Source` says what the successive reads of a stream will give; `Reassembly.next` reads until one
datagram is complete. Nothing read is lost by a failure: what was collected stays for the next
call. `Reassembly.next_weight` bounds how often a datagram can be found.
-/

namespace HubRelay

/-- What a stream does when it is asked for bytes. -/
inductive Read
  | data (bytes : Bytes)
  | interrupted
  | failed (text : String)
  deriving DecidableEq, Repr

/-- The reads that a stream will answer; past the last one the stream has ended. -/
abbrev Source := List Read

namespace Source

/-- One read of at most `want` bytes. What a piece holds beyond that stays in front; the end of
the stream, like an empty piece, reads as no bytes. -/
def read (want : Nat) : Source → Read × Source
  | [] => (.data [], [])
  | .data bytes :: rest =>
      (.data (bytes.take want),
        if bytes.length ≤ want then rest else .data (bytes.drop want) :: rest)
  | reply :: rest => (reply, rest)

/-- The pieces still to come and the bytes in them, counted together. -/
def weight : Source → Nat
  | [] => 0
  | .data bytes :: rest => bytes.length + 1 + weight rest
  | _ :: rest => 1 + weight rest

theorem weight_read (want : Nat) (source : Source) :
    match source.read want with
    | (.data bytes, rest) => bytes.length + weight rest ≤ weight source ∧
        (bytes ≠ [] → weight rest < weight source)
    | (_, rest) => weight rest < weight source := by
  match source with
  | [] => simp [read]
  | .data bytes :: rest =>
      simp only [read]
      split
      · rename_i short
        rw [List.take_of_length_le short]
        simp only [weight]
        omega
      · rename_i long
        simp only [weight, List.length_take, List.length_drop]
        refine ⟨by omega, fun more => ?_⟩
        have : 0 < (bytes.take want).length := List.length_pos_iff.mpr more
        rw [List.length_take] at this
        omega
  | .interrupted :: rest => simp [read, weight]
  | .failed text :: rest => simp [read, weight]

end Source

/-- A reader that collects the bytes of its source into datagrams of at most `limit` bytes. -/
structure Reassembly where
  source : Source
  limit : Nat := Datagram.defaultLimit
  buffer : Bytes := []

namespace Reassembly

def readSize : Nat := 8192

/-- The bytes collected and still to come. -/
def weight (r : Reassembly) : Nat := r.buffer.length + r.source.weight

/-- The next datagram. An interrupted read is repeated; any other failure ends this call. -/
def next (r : Reassembly) : Except LinkError Bytes × Reassembly :=
  match Datagram.scan r.limit r.buffer with
  | .malformed error => (.error error, r)
  | .complete payload rest => (.ok payload, { r with buffer := rest })
  | .incomplete =>
      match _step : r.source.read readSize with
      | (.interrupted, source) => next { r with source }
      | (.failed text, source) => (.error (.failed text), { r with source })
      | (.data bytes, source) =>
          if _more : bytes ≠ [] then next { r with source, buffer := r.buffer ++ bytes }
          else (.error .closed, { r with source })
termination_by r.source.weight
decreasing_by
  · have := Source.weight_read readSize r.source
    rw [_step] at this
    exact this
  · have := Source.weight_read readSize r.source
    rw [_step] at this
    exact this.2 _more

/-- A datagram that was found leaves less to read. -/
theorem next_weight (r : Reassembly) {payload : Bytes} (h : r.next.1 = .ok payload) :
    r.next.2.weight < r.weight := by
  fun_induction next r with
  | case1 r error found => simp at h
  | case2 r payload' rest found =>
      have := (Datagram.scan_complete found).1
      simp only [weight, this, List.length_append, Datagram.length_encode, Datagram.headerSize]
      omega
  | case3 r found source step ih =>
      have := Source.weight_read readSize r.source
      rw [step] at this
      have := ih h
      simp only [weight] at this ⊢
      omega
  | case4 r found text source step => simp at h
  | case5 r found bytes source step some ih =>
      have := Source.weight_read readSize r.source
      rw [step] at this
      have := ih h
      simp only [weight, List.length_append] at this ⊢
      omega
  | case6 r found bytes source step none => simp at h

end Reassembly

end HubRelay
