import HubRelay.Link.Datagram

/-!
What stands at the front of a buffer, and what more bytes behind it change.

A complete datagram and a flawed header stay what they are (`scan_append_of_complete`,
`Flawed.append`); only an incomplete datagram can become something else. `leading` are all the
datagrams at the front, up to the first that is not whole or not well formed.
-/

namespace HubRelay

namespace Datagram

variable {limit : Nat} {bytes payload rest : Bytes} {error : LinkError}

/-- The payload may cross a link with this limit, and its length fits the header. -/
def Fits (limit : Nat) (payload : Bytes) : Prop :=
  payload.length ≤ limit ∧ payload.length ≤ sizeCeiling

instance : Decidable (Fits limit payload) := inferInstanceAs (Decidable (_ ∧ _))

theorem Fits.mono {limit' : Nat} (fits : Fits limit payload) (enough : limit ≤ limit') :
    Fits limit' payload := ⟨Nat.le_trans fits.1 enough, fits.2⟩

/-- The length that the header at the front of these bytes announces. -/
def announced (bytes : Bytes) : Nat := Bytes.ofLittleEndian ((bytes.drop 2).take 4)

/-- The six bytes at the front are no header of a datagram of at most `limit` bytes. -/
inductive Flawed (limit : Nat) (bytes : Bytes) : LinkError → Prop
  | badMark (header : headerSize ≤ bytes.length) (unmarked : bytes.take 2 ≠ mark) :
      Flawed limit bytes .badMark
  | oversized (header : headerSize ≤ bytes.length) (marked : bytes.take 2 = mark)
      (large : limit < announced bytes) : Flawed limit bytes (.oversized (announced bytes) limit)

theorem scan_eq_malformed_iff : scan limit bytes = .malformed error ↔ Flawed limit bytes error := by
  constructor
  · intro found
    simp only [scan] at found
    split at found
    · cases found
    · rename_i long
      split at found
      · rename_i unmarked
        cases found
        exact .badMark (Nat.not_lt.mp long) unmarked
      · rename_i marked
        split at found
        · rename_i large
          cases found
          exact .oversized (Nat.not_lt.mp long) (Decidable.not_not.mp marked) large
        · split at found <;> cases found
  · rintro (⟨header, unmarked⟩ | ⟨header, marked, large⟩)
    · rw [scan, if_neg (Nat.not_lt.mpr header), if_pos unmarked]
    · rw [scan, if_neg (Nat.not_lt.mpr header), if_neg (Decidable.not_not.mpr marked)]
      exact if_pos large

theorem fits_of_complete (found : scan limit bytes = .complete payload rest) :
    Fits limit payload := by
  refine ⟨(scan_complete found).2, ?_⟩
  simp only [scan] at found
  split at found
  · cases found
  · split at found
    · cases found
    · split at found
      · cases found
      · split at found
        · cases found
        · cases found
          have field : ((bytes.drop 2).take 4).length ≤ 4 := List.length_take_le ..
          have small := Bytes.ofLittleEndian_lt ((bytes.drop 2).take 4)
          have width : Nat.pow 256 ((bytes.drop 2).take 4).length ≤ Nat.pow 256 4 :=
            Nat.pow_le_pow_right (by decide) field
          have ceiling : Nat.pow 256 4 = sizeCeiling + 1 := by decide
          have taken := List.length_take_le (Bytes.ofLittleEndian ((bytes.drop 2).take 4))
            (bytes.drop headerSize)
          omega

/-! ### More bytes behind -/

theorem scan_append_of_complete (found : scan limit bytes = .complete payload rest)
    (more : Bytes) : scan limit (bytes ++ more) = .complete payload (rest ++ more) := by
  have fits := fits_of_complete found
  rw [(scan_complete found).1, List.append_assoc]
  exact scan_encode fits.1 fits.2 _

theorem Flawed.append (flawed : Flawed limit bytes error) (more : Bytes) :
    Flawed limit (bytes ++ more) error := by
  -- mark and length lie within the first six bytes
  have front (header : headerSize ≤ bytes.length) :
      headerSize ≤ (bytes ++ more).length ∧ (bytes ++ more).take 2 = bytes.take 2 ∧
        announced (bytes ++ more) = announced bytes := by
    simp only [headerSize] at header ⊢
    refine ⟨by rw [List.length_append]; omega,
      List.take_append_of_le_length (by omega), ?_⟩
    rw [announced, List.drop_append_of_le_length (by omega),
      List.take_append_of_le_length (by rw [List.length_drop]; omega), announced]
  cases flawed with
  | badMark header unmarked =>
      obtain ⟨header', mark', -⟩ := front header
      exact .badMark header' (mark' ▸ unmarked)
  | oversized header marked large =>
      obtain ⟨header', mark', size'⟩ := front header
      rw [← size'] at large ⊢
      exact .oversized header' (mark'.trans marked) large

theorem scan_append_of_malformed (found : scan limit bytes = .malformed error) (more : Bytes) :
    scan limit (bytes ++ more) = .malformed error :=
  scan_eq_malformed_iff.mpr ((scan_eq_malformed_iff.mp found).append more)

/-- The datagrams at the front of these bytes, for as long as they are whole and well formed. The
recursion goes on behind each of them, which is at least a header shorter. -/
def leading (limit : Nat) (bytes : Bytes) : List Bytes :=
  match _found : scan limit bytes with
  | .complete payload rest => payload :: leading limit rest
  | .incomplete => []
  | .malformed _ => []
termination_by bytes.length
decreasing_by
  rw [(scan_complete _found).1, List.length_append, length_encode, headerSize]
  omega

theorem leading_of_complete (found : scan limit bytes = .complete payload rest) :
    leading limit bytes = payload :: leading limit rest := by
  rw [leading]
  split
  all_goals simp_all

theorem leading_of_incomplete (found : scan limit bytes = .incomplete) :
    leading limit bytes = [] := by
  rw [leading]
  split
  all_goals simp_all

theorem leading_of_malformed (found : scan limit bytes = .malformed error) :
    leading limit bytes = [] := by
  rw [leading]
  split
  all_goals simp_all

end Datagram

end HubRelay
