import HubRelay.Bytes

/-!
Datagrams on a byte stream: a mark of two bytes, the length of the payload in four, and the
payload.

`scan` looks at the front of a buffer. `scan_encode` says that an encoded payload within the limit
is found again with whatever follows it left over, and `scan_complete` that nothing else is found.
-/

namespace HubRelay

/-- Why datagrams cannot be moved across a link. -/
inductive LinkError
  | badMark
  | oversized (size limit : Nat)
  | failed (text : String)
  | closed
  deriving DecidableEq, Repr

def LinkError.message : LinkError → String
  | .badMark => "invalid datagram magic (expected 0x484c \"HL\")"
  | .oversized size limit =>
      "payload too large (" ++ toString size ++ " bytes, max " ++ toString limit ++ ")"
  | .failed text => "link I/O error: " ++ text
  | .closed => "connection closed (incomplete datagram)"

namespace Datagram

def mark : Bytes := [0x48, 0x4C]

def headerSize : Nat := 6

/-- The payload limit of a link that is not given one. -/
def defaultLimit : Nat := 65536

/-- The largest payload whose length four bytes can hold. -/
def sizeCeiling : Nat := UInt32.size - 1

def encode (payload : Bytes) : Bytes :=
  mark ++ Bytes.littleEndian 4 payload.length ++ payload

/-- The datagram that carries `payload`, unless the length does not fit its field. -/
def encode? (payload : Bytes) : Except LinkError Bytes :=
  if payload.length > sizeCeiling then .error (.oversized payload.length sizeCeiling)
  else .ok (encode payload)

/-- What stands at the front of a buffer. -/
inductive Scan
  | incomplete
  | complete (payload rest : Bytes)
  | malformed (error : LinkError)
  deriving DecidableEq, Repr

/-- Looks for one datagram of at most `limit` bytes at the front of a buffer. A wrong mark and an
excessive length show as soon as the header is there. -/
def scan (limit : Nat) (buffer : Bytes) : Scan :=
  if buffer.length < headerSize then .incomplete
  else if buffer.take 2 ≠ mark then .malformed .badMark
  else
    let size := Bytes.ofLittleEndian ((buffer.drop 2).take 4)
    let body := buffer.drop headerSize
    if size > limit then .malformed (.oversized size limit)
    else if body.length < size then .incomplete
    else .complete (body.take size) (body.drop size)

/-- Takes the first datagram off the buffer, if it is whole. A failure leaves the buffer as it
is. -/
def take (limit : Nat) (buffer : Bytes) : Except LinkError (Option Bytes) × Bytes :=
  match scan limit buffer with
  | .incomplete => (.ok none, buffer)
  | .complete payload rest => (.ok (some payload), rest)
  | .malformed error => (.error error, buffer)

@[simp] theorem length_encode (payload : Bytes) :
    (encode payload).length = headerSize + payload.length := by
  simp [encode, mark, headerSize]
  omega

theorem scan_encode {limit : Nat} {payload : Bytes} (within : payload.length ≤ limit)
    (fits : payload.length ≤ sizeCeiling) (rest : Bytes) :
    scan limit (encode payload ++ rest) = .complete payload rest := by
  have enough : ¬ (encode payload ++ rest).length < headerSize := by
    rw [List.length_append, length_encode]
    omega
  have marked : (encode payload ++ rest).take 2 = mark := by simp [encode, mark]
  have field : ((encode payload ++ rest).drop 2).take 4
      = Bytes.littleEndian 4 payload.length := by
    have len : (Bytes.littleEndian 4 payload.length).length = 4 := Bytes.length_littleEndian _ _
    simp only [encode, mark, List.cons_append, List.nil_append, List.drop_succ_cons, List.drop_zero,
      List.append_assoc]
    rw [List.take_append_of_le_length (by omega), List.take_of_length_le (by omega)]
  have body : (encode payload ++ rest).drop headerSize = payload ++ rest := by
    have len : (mark ++ Bytes.littleEndian 4 payload.length).length = headerSize := by
      simp [mark, headerSize]
    rw [encode, List.append_assoc, ← len, List.drop_left]
  have size : Bytes.ofLittleEndian (Bytes.littleEndian 4 payload.length) = payload.length :=
    Bytes.ofLittleEndian_littleEndian (Nat.lt_of_le_of_lt fits (by decide))
  have whole : ¬ payload.length + rest.length < payload.length := by omega
  rw [scan, if_neg enough]
  simp [marked, field, body, size, whole, Nat.not_lt.mpr within]

theorem scan_complete {limit : Nat} {buffer payload rest : Bytes}
    (h : scan limit buffer = .complete payload rest) :
    buffer = encode payload ++ rest ∧ payload.length ≤ limit := by
  simp only [scan] at h
  split at h
  · cases h
  · rename_i long
    split at h
    · cases h
    · rename_i marked
      split at h
      · cases h
      · rename_i within
        split at h
        · cases h
        · rename_i whole
          simp only [Scan.complete.injEq] at h
          obtain ⟨rfl, rfl⟩ := h
          simp only [headerSize] at long whole within ⊢
          simp only [ne_eq, Decidable.not_not] at marked
          have fieldLen : ((buffer.drop 2).take 4).length = 4 := by
            simp only [List.length_take, List.length_drop]
            omega
          have len : ((buffer.drop 6).take (Bytes.ofLittleEndian ((buffer.drop 2).take 4))).length
              = Bytes.ofLittleEndian ((buffer.drop 2).take 4) := by
            rw [List.length_take]
            omega
          refine ⟨?_, by omega⟩
          have written := Bytes.littleEndian_ofLittleEndian ((buffer.drop 2).take 4)
          rw [fieldLen] at written
          rw [encode, len, written, ← marked, List.append_assoc, List.take_append_drop]
          have split4 : buffer.drop 6 = (buffer.drop 2).drop 4 := by rw [List.drop_drop]
          rw [split4, List.append_assoc, List.take_append_drop, List.take_append_drop]

/-- What a link is told when it is set up. -/
structure Settings where
  limit : Nat := defaultLimit
  readerName : String := "hublink-link-rx"

end Datagram

end HubRelay
