import HubRelay.Host.Transaction

/-!
The pieces of a binary.

An upload hands out its pieces by their places, one after the other (`next_eq`), so that what is
still to come is known from how many pieces there are and how many were handed out
(`fragments_eq`). The pieces up to any place are the front of the binary (`flatten_pieces`).
-/

namespace HubRelay.Upload

variable {u : Upload} {place count : Nat}

def piece (u : Upload) (place : Nat) : Fragment :=
  { info := u.info, number := place + 1, totalLength := u.binary.length
    data := (u.binary.drop (place * u.pieceSize)).take u.pieceSize }

/-- The upload when some more pieces were handed out. -/
def advanced (u : Upload) (count : Nat) : Upload := { u with handedOut := u.handedOut + count }

def fragments (u : Upload) : List Fragment := u.remaining.map Prod.fst

/-! ### One piece after the other -/

theorem next_eq (u : Upload) :
    u.next = if u.handedOut < u.pieces then some (u.piece u.handedOut, u.advanced 1) else none := by
  unfold next isComplete
  by_cases more : u.handedOut < u.pieces
  · rw [if_pos more, if_neg (by simpa using more)]
    rfl
  · rw [if_neg more, if_pos (by simpa using more)]

@[simp] theorem advanced_zero (u : Upload) : u.advanced 0 = u := rfl

@[simp] theorem advanced_advanced (u : Upload) (count more : Nat) :
    (u.advanced count).advanced more = u.advanced (count + more) := by
  simp [advanced, Nat.add_assoc]

@[simp] theorem handedOut_advanced (u : Upload) (count : Nat) :
    (u.advanced count).handedOut = u.handedOut + count := rfl

@[simp] theorem pieces_advanced (u : Upload) (count : Nat) :
    (u.advanced count).pieces = u.pieces := rfl

@[simp] theorem piece_advanced (u : Upload) (count place : Nat) :
    (u.advanced count).piece place = u.piece place := rfl

/-- What is still to come, each piece with the upload after it. -/
theorem remaining_eq (u : Upload) :
    u.remaining = (List.range (u.pieces - u.handedOut)).map fun k =>
      (u.piece (u.handedOut + k), u.advanced (k + 1)) := by
  generalize left : u.pieces - u.handedOut = n
  induction n generalizing u with
  | zero =>
      have none_left : u.next = none := by rw [next_eq, if_neg (by omega)]
      rw [remaining]
      split
      · rfl
      · next step =>
        rw [none_left] at step
        cases step
  | succ n ih =>
      have more : u.next = some (u.piece u.handedOut, u.advanced 1) := by
        rw [next_eq, if_pos (by omega)]
      have later := ih (u.advanced 1) (by simp; omega)
      rw [remaining]
      split
      · next step =>
        rw [more] at step
        cases step
      · next step =>
        rw [more] at step
        obtain ⟨rfl, rfl⟩ := Prod.mk.inj (Option.some.inj step)
        rw [later, List.range_succ_eq_map, List.map_cons, List.map_map]
        simp [Function.comp_def, Nat.add_comm, Nat.add_left_comm]

theorem fragments_eq (u : Upload) :
    u.fragments = (List.range' u.handedOut (u.pieces - u.handedOut)).map u.piece := by
  rw [fragments, remaining_eq, List.map_map, List.range'_eq_map_range, List.map_map]
  rfl

/-! ### The pieces of a whole binary -/

theorem pieceSize_pos (info : ProgramInfo) (binary : Bytes) (pieceSize : Nat) :
    0 < (ofBinary info binary pieceSize).pieceSize :=
  Nat.lt_of_lt_of_le Nat.zero_lt_one (Nat.le_max_right _ _)

theorem flatten_pieces (u : Upload) (count : Nat) :
    ((List.range count).map fun place => (u.piece place).data).flatten =
      u.binary.take (count * u.pieceSize) := by
  induction count with
  | zero => simp
  | succ count ih =>
      rw [List.range_succ, List.map_append, List.flatten_append, ih, Nat.succ_mul, List.take_add]
      simp [piece]

/-- A binary whose pieces can all be numbered has a piece for every place in front of its end, and
one if it is empty. The bound on the length is needed because the number of pieces is cut off where
numbers end. -/
theorem lt_pieces_iff (sized : 0 < u.pieceSize) (numbered : u.binary.length ≤ mostPieces) :
    place < u.pieces ↔ place * u.pieceSize < u.binary.length ∨ place = 0 := by
  have ceiling : place < (u.binary.length + u.pieceSize - 1) / u.pieceSize ↔
      place * u.pieceSize < u.binary.length := by
    rw [Nat.lt_div_iff_mul_lt sized]
    omega
  have fits : (u.binary.length + u.pieceSize - 1) / u.pieceSize ≤ mostPieces := by
    refine Nat.le_trans ?_ numbered
    have each := Nat.le_mul_of_pos_left u.binary.length sized
    rw [Nat.div_le_iff_le_mul_add_pred sized]
    omega
  have some_piece : 1 ≤ mostPieces := by decide
  rw [pieces, ← ceiling]
  omega

end HubRelay.Upload
