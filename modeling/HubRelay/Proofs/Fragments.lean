import HubRelay.Proofs.Dock.History

/-!
A load in pieces makes the binary again.

The pieces of a binary are numbered from one, are as long as asked for except for the last one, and
make the binary when they are put together. Handing them out stays within machine words: the
computation with checked words (`Upload.nextInWords`) never fails. Whatever is asked of a dock, it
hands out the pieces of the load that it has started in this order, each of them once.
-/

namespace HubRelay

namespace Upload

variable {u : Upload} {place : Nat}

/-! ### All calls -/

def answers (u : Upload) : Nat → List (Option Fragment)
  | 0 => []
  | calls + 1 =>
      match u.next with
      | none => none :: u.answers calls
      | some (piece, later) => some piece :: later.answers calls

/-- The pieces come one after the other, and nothing after the last one. -/
theorem answers_eq (u : Upload) (calls : Nat) :
    u.answers calls =
      (u.fragments.take calls).map some ++ List.replicate (calls - u.fragments.length) none := by
  induction calls generalizing u with
  | zero => simp [answers]
  | succ calls ih =>
      unfold answers
      cases step : u.next with
      | none =>
          have nothing : u.fragments = [] := by
            rw [fragments, remaining]
            split
            · rfl
            · simp_all
          simp [ih, nothing, List.replicate_succ]
      | some handed =>
          obtain ⟨piece, later⟩ := handed
          have rest : u.fragments = piece :: later.fragments := by
            rw [fragments, remaining]
            split
            · simp_all
            · next step' =>
              obtain ⟨rfl, rfl⟩ := Prod.mk.inj (Option.some.inj (step.symm.trans step'))
              rfl
          simp [ih, rest]

/-- All that handing out leads to is the binary with more pieces handed out. -/
theorem eq_advanced_of_mem {v : Upload} (mem : v ∈ u :: u.remaining.map Prod.snd) :
    ∃ count, v = u.advanced count := by
  rcases List.mem_cons.mp mem with rfl | mem
  · exact ⟨0, rfl⟩
  · rw [remaining_eq, List.map_map] at mem
    obtain ⟨k, -, rfl⟩ := List.mem_map.mp mem
    exact ⟨k + 1, rfl⟩

/-! ### Each piece -/

theorem length_piece (u : Upload) (place : Nat) :
    (u.piece place).data.length = min u.pieceSize (u.binary.length - place * u.pieceSize) := by
  simp [piece]

/-- Only the last piece may be shorter. -/
theorem length_piece_of_lt (sized : 0 < u.pieceSize) (numbered : u.binary.length ≤ mostPieces)
    (more : place + 1 < u.pieces) : (u.piece place).data.length = u.pieceSize := by
  have inside := (lt_pieces_iff sized numbered).mp more
  rw [length_piece]
  simp only [Nat.succ_mul] at inside
  omega

/-- Only the one piece of an empty binary is empty. -/
theorem eq_nil_of_piece (sized : 0 < u.pieceSize) (numbered : u.binary.length ≤ mostPieces)
    (more : place < u.pieces) (empty : (u.piece place).data = []) : u.binary = [] := by
  have length := u.length_piece place
  rw [empty, List.length_nil] at length
  apply List.eq_nil_of_length_eq_zero
  rcases (lt_pieces_iff sized numbered).mp more with inside | rfl
  · omega
  · omega

theorem pieces_of_nil (sized : 0 < u.pieceSize) (empty : u.binary = []) : u.pieces = 1 := by
  have numbered : u.binary.length ≤ mostPieces := by simp [empty]
  have first : 0 < u.pieces := (lt_pieces_iff sized numbered).mpr (.inr rfl)
  have second : ¬ 1 < u.pieces := mt (lt_pieces_iff sized numbered).mp (by simp [empty])
  omega

theorem flatten_all_pieces (sized : 0 < u.pieceSize) (numbered : u.binary.length ≤ mostPieces) :
    ((List.range u.pieces).map fun place => (u.piece place).data).flatten = u.binary := by
  have outside := mt (lt_pieces_iff sized numbered).mpr (Nat.lt_irrefl u.pieces)
  rw [flatten_pieces, List.take_of_length_le]
  omega

/-! ### In machine words -/

def word? (n : Nat) : Option Nat := if n < UInt64.size then some n else none

/-- How many pieces there are, computed in machine words. -/
def piecesInWords (u : Upload) : Option Nat := do
  let whole := u.binary.length / u.pieceSize
  let count ← if 0 < u.binary.length % u.pieceSize then word? (whole + 1) else some whole
  return if max count 1 < UInt32.size then max count 1 else mostPieces

/-- The next piece, computed in machine words, as the bytes from its start up to its end. Each sum
and product is checked, and the computation fails when one of them does not fit. -/
def nextInWords (u : Upload) : Option (Option (Fragment × Upload)) := do
  let pieces ← u.piecesInWords
  if pieces ≤ u.handedOut then return none
  let start ← word? (u.handedOut * u.pieceSize)
  let stop ← word? (start + u.pieceSize)
  let stop := min stop u.binary.length
  let number ← if u.handedOut + 1 < UInt32.size then some (u.handedOut + 1) else none
  let data := if start ≤ stop then (u.binary.take stop).drop start else []
  return some
    ({ info := u.info, number, totalLength := u.binary.length, data },
      { u with handedOut := number })

theorem word?_of_lt {n : Nat} (small : n < UInt64.size) : word? n = some n := if_pos small

/-- Rounding up a division is rounding it down and adding one if something is left over. -/
theorem div_add_of_rest (sized : 0 < u.pieceSize) :
    (u.binary.length + u.pieceSize - 1) / u.pieceSize =
      u.binary.length / u.pieceSize + if 0 < u.binary.length % u.pieceSize then 1 else 0 := by
  have parts := Nat.div_add_mod u.binary.length u.pieceSize
  have rest := Nat.mod_lt u.binary.length sized
  generalize u.binary.length / u.pieceSize = whole at parts
  generalize u.binary.length % u.pieceSize = left at parts rest
  rw [← parts]
  apply Nat.div_eq_of_lt_le
  · split <;> simp only [Nat.add_mul, Nat.mul_comm u.pieceSize whole] <;> omega
  · split <;> simp only [Nat.add_mul, Nat.mul_comm u.pieceSize whole] <;> omega

theorem piecesInWords_eq (sized : 0 < u.pieceSize) (numbered : u.binary.length ≤ mostPieces) :
    u.piecesInWords = some u.pieces := by
  have whole : u.binary.length / u.pieceSize ≤ mostPieces :=
    Nat.le_trans (Nat.div_le_self _ _) numbered
  have fits : u.binary.length / u.pieceSize + 1 < UInt64.size :=
    Nat.lt_of_le_of_lt (Nat.succ_le_succ whole) (by decide)
  have clamp (count : Nat) :
      (if max count 1 < UInt32.size then max count 1 else mostPieces) =
        min (max count 1) mostPieces := by
    have most : mostPieces + 1 = UInt32.size := by decide
    split <;> omega
  unfold piecesInWords pieces
  rw [div_add_of_rest sized, ← clamp]
  by_cases rest : 0 < u.binary.length % u.pieceSize
  · simp [rest, word?_of_lt fits]
  · simp [rest]

/-- Where a piece starts and ends can be told in machine words: only the first one can be longer
than the binary. A later one starts behind at least one whole piece, so it cannot end much behind
the binary. -/
theorem end_of_piece_lt (sized : 0 < u.pieceSize) (word : u.pieceSize < UInt64.size)
    (numbered : u.binary.length ≤ mostPieces) (more : place < u.pieces) :
    place * u.pieceSize + u.pieceSize < UInt64.size := by
  have small : mostPieces + mostPieces < UInt64.size := by decide
  rcases (lt_pieces_iff sized numbered).mp more with inside | rfl
  · rcases Nat.eq_zero_or_pos place with rfl | later
    · simpa using word
    · have shorter := Nat.le_mul_of_pos_left u.pieceSize later
      omega
  · simpa using word

theorem nextInWords_eq (sized : 0 < u.pieceSize) (word : u.pieceSize < UInt64.size)
    (numbered : u.binary.length ≤ mostPieces) : u.nextInWords = some u.next := by
  unfold nextInWords
  rw [next_eq, piecesInWords_eq sized numbered]
  by_cases more : u.handedOut < u.pieces
  · have ends := end_of_piece_lt sized word numbered more
    have number : u.handedOut + 1 < UInt32.size :=
      Nat.lt_of_le_of_lt (Nat.le_trans more (Nat.min_le_right _ _)) (by decide)
    have inside : u.handedOut * u.pieceSize ≤
        min (u.handedOut * u.pieceSize + u.pieceSize) u.binary.length := by
      rcases (lt_pieces_iff sized numbered).mp more with inside | first
      · omega
      · simp [first]
    simp only [Option.bind_eq_bind, Option.bind_some, if_neg (Nat.not_le.mpr more), if_pos more,
      word?_of_lt ends, word?_of_lt (Nat.lt_of_le_of_lt (Nat.le_add_right _ _) ends), if_pos number,
      if_pos inside]
    have data : (u.binary.take (min (u.handedOut * u.pieceSize + u.pieceSize)
          u.binary.length)).drop (u.handedOut * u.pieceSize) =
        (u.piece u.handedOut).data := by
      rw [List.drop_take, piece, List.take_eq_take_iff, List.length_drop]
      omega
    rw [data]
    rfl
  · simp [more, Nat.not_lt.mp more]

end Upload

/-! ### On the dock -/

namespace Dock

variable {timeout : Span} {t : Transaction} {u : Upload}

/-- Whatever is asked of the dock after a load was started and before something else is, the pieces
that it hands out are the first ones of that load, in order. What is asked in another's name, or
with another acknowledgement, is answered with nothing. -/
theorem handed_prefix {operations : List DockOperation} {before since : List DockEvent}
    {first : DockEvent} (split : record { timeout } operations = before ++ first :: since)
    (starts : first.started? = some t) (loading : t.upload = some u)
    (quiet : ∀ e ∈ since, e.started? = none) :
    (handedIn since).map Prod.snd <+: u.fragments := by
  induction since using List.reverseRecOn generalizing operations with
  | nil => exact List.nil_prefix
  | append_singleton since e ih =>
      rw [← List.cons_append, ← List.append_assoc] at split
      obtain ⟨earlier, operation, -, -, past, rfl⟩ := record_split split
      have recalls := (recalls_record timeout earlier).after operation
      rw [← past, List.append_assoc, List.cons_append] at recalls
      cases handed : ((run { timeout } earlier).event operation).handed? with
      | none =>
          rw [handedIn_concat, handed]
          simpa using ih past.symm fun e mem => quiet e (List.mem_append_left _ mem)
      | some _ =>
          -- It can only be a piece of the load, and the dock recalls which ones came before.
          obtain ⟨held, pending⟩ := pending_of_handed handed
          obtain ⟨stood, since', stands⟩ := recalls.stands held pending
          obtain ⟨rfl, rfl⟩ := stands.unique starts quiet
          obtain ⟨pieces, bound⟩ := recalls.pieces _ _ u stands loading
          rw [pieces, Upload.fragments_eq, ← List.take_range'_of_length_ge bound]
          exact (List.take_prefix _ _).map _

end Dock

/-- Asking for the next piece of a binary gives the pieces numbered from one, as many as there are,
and nothing after them. Put together they make the binary. Each of them tells of the program and of
the whole length; all but the last are exactly as long as asked for, the last is not longer, and
only an empty binary has an empty piece, which is its only one. None of this needs a number that is
larger than a machine word. And whatever is asked of a dock after such a load was started and before
something else is, the pieces that it hands out are the first ones of that load, in order. -/
theorem pieces_make_binary (info : ProgramInfo) (binary : Bytes) (size : Nat)
    (numbered : binary.length ≤ UInt32.size - 1) (word : size < UInt64.size) :
    let u := Upload.ofBinary info binary size
    (∀ calls, u.answers calls =
        (u.fragments.take calls).map some ++ List.replicate (calls - u.pieces) none) ∧
      u.fragments.map Fragment.number = List.range' 1 u.pieces ∧
      (u.fragments.map Fragment.data).flatten = binary ∧
      (∀ f ∈ u.fragments, f.info = info ∧ f.totalLength = binary.length ∧
        f.data.length ≤ max size 1 ∧ (f.data = [] → binary = [])) ∧
      (∀ f ∈ u.fragments.dropLast, f.data.length = max size 1) ∧
      (binary = [] → u.fragments.map Fragment.data = [[]]) ∧
      (∀ v ∈ u :: u.remaining.map Prod.snd, v.nextInWords = some v.next) ∧
      ∀ timeout operations before first since t,
        Dock.record { timeout } operations = before ++ first :: since →
        first.started? = some t → t.upload = some u → (∀ e ∈ since, e.started? = none) →
        (handedIn since).map Prod.snd <+: u.fragments := by
  intro u
  have sized : 0 < u.pieceSize := Upload.pieceSize_pos info binary size
  -- The pieces are those of all places up to their number; each clause is read off this list.
  have all : u.fragments = (List.range u.pieces).map u.piece := by
    rw [Upload.fragments_eq, List.range_eq_range']
    rfl
  have length : u.fragments.length = u.pieces := by rw [all, List.length_map, List.length_range]
  refine ⟨?calls, ?numbers, ?whole, ?each, ?full, ?empty, ?words, ?handed⟩
  case calls =>
    intro calls
    rw [Upload.answers_eq, length]
  case numbers =>
    rw [all, List.map_map, List.range'_eq_map_range]
    apply List.map_congr_left
    intro place _
    exact Nat.add_comm place 1
  case whole =>
    rw [all, List.map_map]
    exact Upload.flatten_all_pieces sized numbered
  case each =>
    intro f mem
    rw [all] at mem
    obtain ⟨place, more, rfl⟩ := List.mem_map.mp mem
    refine ⟨rfl, rfl, ?_, Upload.eq_nil_of_piece sized numbered (List.mem_range.mp more)⟩
    rw [Upload.length_piece]
    exact Nat.min_le_left _ _
  case full =>
    intro f mem
    rw [all, ← List.map_dropLast] at mem
    obtain ⟨place, more, rfl⟩ := List.mem_map.mp mem
    refine Upload.length_piece_of_lt sized numbered ?_
    rw [List.dropLast_eq_take, List.length_range, List.take_range, List.mem_range] at more
    omega
  case empty =>
    rintro rfl
    rw [all, Upload.pieces_of_nil sized rfl]
    simp [Upload.piece, u, Upload.ofBinary]
  case words =>
    intro v mem
    obtain ⟨count, rfl⟩ := Upload.eq_advanced_of_mem mem
    have small : u.pieceSize < UInt64.size := Nat.max_lt.mpr ⟨word, by decide⟩
    exact Upload.nextInWords_eq sized small numbered
  case handed =>
    intro timeout operations before first since t split starts loading quiet
    exact Dock.handed_prefix split starts loading quiet

/-- Pieces of the largest size that can be asked for. -/
theorem pieces_make_binary_largest :
    let size := UInt64.size - 1
    let u := Upload.ofBinary
      { transaction := 8, appId := 1, appVersion := 1, appFlags := 0, apiVersion := 1 }
      [1, 2, 3] size
    size < UInt64.size ∧ u.binary.length ≤ UInt32.size - 1 ∧
      u.fragments.map Fragment.number = [1] ∧ (u.fragments.map Fragment.data).flatten = [1, 2, 3] ∧
      u.nextInWords = some u.next := by
  intro size u
  have word : size < UInt64.size := by decide
  have numbered : u.binary.length ≤ UInt32.size - 1 := by decide
  have one : u.pieces = 1 := by decide
  obtain ⟨-, numbers, whole, -, -, -, words, -⟩ :=
    pieces_make_binary u.info u.binary size numbered word
  refine ⟨word, numbered, ?_, whole, words u List.mem_cons_self⟩
  exact numbers.trans (congrArg (List.range' 1) one)

end HubRelay
