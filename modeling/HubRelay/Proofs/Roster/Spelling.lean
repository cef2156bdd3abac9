import HubRelay.Uuid
import Mathlib.Algebra.Group.Nat.Defs
import Mathlib.Data.List.Induction

/-!
The spellings of identifiers.

An identifier has four spellings (`Uuid.spellings`), and a text is read as an identifier exactly if
it is one of them up to the case of its letters (`Uuid.ofText?_eq_some_iff`).
-/

namespace HubRelay

namespace Text

/-! ### Letters and digits -/

/-- A character that is no letter is the lower case of itself only. -/
theorem toLower_eq_iff {c d : Char} (caseless : d.isAlpha = false) : c.toLower = d ↔ c = d := by
  have letters : ∀ n : Fin 128, (Char.ofNat n).isUpper = true →
      (Char.ofNat n).isAlpha = true ∧ (Char.ofNat n).toLower.isAlpha = true := by decide +kernel
  by_cases upper : c.isUpper = true
  · have bound : c.toNat ≤ 90 := (of_decide_eq_true upper).2
    obtain ⟨letter, lower⟩ := letters ⟨c.toNat, by omega⟩ (by simpa using upper)
    rw [Char.ofNat_toNat] at letter lower
    refine iff_of_false ?_ ?_
    · rintro rfl
      rw [lower] at caseless
      cases caseless
    · rintro rfl
      rw [letter] at caseless
      cases caseless
  · have same : c.toLower = c := dif_neg fun inRange => upper (decide_eq_true inRange)
    rw [same]

namespace Hex

theorem value?_eq_some_iff {c : Char} {v : Nat} :
    value? c = some v ↔ v < 16 ∧ c.toLower = digit v := by
  by_cases ascii : c.toNat < 128
  · have table : ∀ n : Fin 128, ∀ v : Fin 16,
        value? (Char.ofNat n) = some v.val ↔ (Char.ofNat n).toLower = digit v := by
      decide +kernel
    have bounded : ∀ n : Fin 128, ∀ v ∈ value? (Char.ofNat n), v < 16 := by decide +kernel
    rw [← Char.ofNat_toNat c]
    by_cases small : v < 16
    · rw [and_iff_right small]
      exact table ⟨c.toNat, ascii⟩ ⟨v, small⟩
    · exact iff_of_false (fun read => small (bounded ⟨c.toNat, ascii⟩ v read))
        (fun spelled => small spelled.1)
  · -- Other characters are no digits, and they have no case.
    have unread : value? c = none := by
      simp only [value?]
      rw [if_neg (by omega), if_neg (by omega), if_neg (by omega)]
    have caseless : c.toLower = c := by
      refine dif_neg fun upper => ascii ?_
      have bound : c.toNat ≤ 90 := upper.2
      omega
    have digits : ∀ v : Fin 16, (digit v).toNat < 128 := by decide
    rw [unread, caseless]
    refine iff_of_false nofun fun spelled => ascii ?_
    rw [spelled.2]
    exact digits ⟨v, spelled.1⟩

theorem ofDigits?_concat_eq_some_iff {front : List Char} {c : Char} {n : Nat} :
    ofDigits? (front ++ [c]) = some n ↔
      ofDigits? front = some (n / 16) ∧ value? c = some (n % 16) := by
  have step (h : Nat) : ofDigitsFrom? h [c] = (value? c).map (16 * h + ·) := by
    unfold ofDigitsFrom?
    cases value? c <;> rfl
  rw [ofDigits?, ofDigitsFrom?_append, Option.bind_eq_some_iff]
  constructor
  · rintro ⟨h, high, low⟩
    rw [step, Option.map_eq_some_iff] at low
    obtain ⟨v, value, rfl⟩ := low
    have small := (value?_eq_some_iff.mp value).1
    have quotient : (16 * h + v) / 16 = h := by omega
    have remainder : (16 * h + v) % 16 = v := by omega
    rw [quotient, remainder]
    exact ⟨high, value⟩
  · rintro ⟨high, low⟩
    refine ⟨_, high, ?_⟩
    rw [step, low, Option.map_some, Nat.div_add_mod]

/-- Digits are read as the number whose digits they are, in either case. -/
theorem ofDigits?_eq_some_iff {text : List Char} {n : Nat} :
    ofDigits? text = some n ↔
      n < 16 ^ text.length ∧ text.map Char.toLower = fixed text.length n := by
  induction text using List.reverseRecOn generalizing n with
  | nil => simp [ofDigits?, ofDigitsFrom?, fixed, eq_comm]
  | append_singleton front c ih =>
      have bound : n / 16 < 16 ^ front.length ↔ n < 16 ^ (front.length + 1) := by
        rw [Nat.div_lt_iff_lt_mul (by decide), Nat.pow_succ]
      rw [ofDigits?_concat_eq_some_iff, ih, value?_eq_some_iff, bound, List.length_append,
        List.length_singleton, List.map_append, List.map_singleton, fixed,
        and_iff_right (Nat.mod_lt n (by decide)), and_assoc]
      refine and_congr_right fun _ => ?_
      constructor
      · rintro ⟨high, low⟩
        rw [high, low]
      · intro same
        obtain ⟨high, low⟩ := List.append_inj' same rfl
        exact ⟨high, List.singleton_inj.mp low⟩

end Hex

end Text

/-! ### Spellings -/

namespace Uuid

open Text

variable {u : Uuid} {text digits : List Char}

@[simp] theorem length_simple (u : Uuid) : u.simple.length = 32 := Hex.length_fixed _ _

theorem ofSimple?_eq_some_iff : ofSimple? text = some u ↔ text.map Char.toLower = u.simple := by
  unfold ofSimple?
  constructor
  · intro read
    split at read
    · next width =>
      obtain ⟨n, number, rfl⟩ := Option.map_eq_some_iff.mp read
      obtain ⟨bound, spelled⟩ := Hex.ofDigits?_eq_some_iff.mp number
      rw [width] at bound spelled
      have number : (BitVec.ofNat 128 n).toNat = n := Nat.mod_eq_of_lt bound
      rw [spelled, simple, ofNat, number]
    · cases read
  · intro spelled
    have width : text.length = 32 := by simpa using congrArg List.length spelled
    have number : Hex.ofDigits? text = some u.bits.toNat := by
      rw [Hex.ofDigits?_eq_some_iff, width]
      exact ⟨u.bits.isLt, spelled⟩
    rw [if_pos width, number, Option.map_some, ofNat, BitVec.ofNat_toNat, BitVec.setWidth_eq]

/-! #### Hyphens -/

theorem hyphenate_groups {a b c d e : List Char} (first : a.length = 8) (second : b.length = 4)
    (third : c.length = 4) (fourth : d.length = 4) :
    hyphenate (a ++ (b ++ (c ++ (d ++ e)))) =
      a ++ '-' :: (b ++ '-' :: (c ++ '-' :: (d ++ '-' :: e))) := by
  simp [hyphenate, List.drop_append, List.drop_eq_nil_of_le, *]

theorem exists_groups (width : digits.length = 32) :
    ∃ a b c d e : List Char, a.length = 8 ∧ b.length = 4 ∧ c.length = 4 ∧ d.length = 4 ∧
      e.length = 12 ∧ digits = a ++ (b ++ (c ++ (d ++ e))) := by
  refine ⟨digits.take 8, (digits.drop 8).take 4, (digits.drop 12).take 4, (digits.drop 16).take 4,
    digits.drop 20, ?_, ?_, ?_, ?_, ?_, ?_⟩
  iterate 5 simp [width]
  have drop (n : Nat) : (digits.drop n).drop 4 = digits.drop (n + 4) := List.drop_drop
  rw [← drop 16, List.take_append_drop, ← drop 12, List.take_append_drop, ← drop 8,
    List.take_append_drop, List.take_append_drop]

theorem length_hyphenate (width : digits.length = 32) : (hyphenate digits).length = 36 := by
  simp only [hyphenate, List.length_append, List.length_cons, List.length_take, List.length_drop]
  omega

theorem unhyphenate?_eq_some_iff :
    unhyphenate? text = some digits ↔ digits.length = 32 ∧ hyphenate digits = text := by
  simp only [unhyphenate?]
  constructor
  · intro read
    split at read
    · next both =>
      obtain rfl := Option.some.inj read
      refine ⟨?_, both.2⟩
      have width := both.1
      simp only [List.length_append, List.length_take, List.length_drop]
      omega
    · cases read
  · rintro ⟨width, rfl⟩
    obtain ⟨a, b, c, d, e, first, second, third, fourth, last, rfl⟩ := exists_groups width
    simp [hyphenate_groups first second third fourth, List.drop_append, List.drop_eq_nil_of_le, *]

theorem map_hyphenate (digits : List Char) :
    (hyphenate digits).map Char.toLower = hyphenate (digits.map Char.toLower) := by
  have hyphen : Char.toLower '-' = '-' := rfl
  simp only [hyphenate, List.map_append, List.map_cons, List.map_take, List.map_drop, hyphen]

/-- A hyphen has no case, so the hyphens of a text stand where they stand in small letters. -/
theorem map_toLower_eq_hyphenate_iff {small : List Char} (width : small.length = 32) :
    text.map Char.toLower = hyphenate small ↔
      ∃ digits, digits.map Char.toLower = small ∧ hyphenate digits = text := by
  constructor
  · have hyphen {c : Char} : c.toLower = '-' ↔ c = '-' := toLower_eq_iff (by decide)
    obtain ⟨a, b, c, d, e, first, second, third, fourth, -, rfl⟩ := exists_groups width
    rw [hyphenate_groups first second third fourth]
    simp only [List.map_eq_append_iff, List.map_eq_cons_iff, hyphen]
    rintro ⟨a', _, rfl, rfl, -, _, rfl, rfl, b', _, rfl, rfl, -, _, rfl, rfl, c', _, rfl, rfl,
      -, _, rfl, rfl, d', _, rfl, rfl, -, e', rfl, rfl, rfl⟩
    rw [List.length_map] at first second third fourth
    exact ⟨_, ⟨a', _, rfl, rfl, b', _, rfl, rfl, c', _, rfl, rfl, d', e', rfl, rfl, rfl⟩,
      hyphenate_groups first second third fourth⟩
  · rintro ⟨digits, rfl, rfl⟩
    exact map_hyphenate digits

theorem ofHyphenated?_eq_some_iff :
    ofHyphenated? text = some u ↔ text.map Char.toLower = hyphenate u.simple := by
  rw [ofHyphenated?, Option.bind_eq_some_iff, map_toLower_eq_hyphenate_iff u.length_simple]
  refine exists_congr fun digits => ?_
  rw [unhyphenate?_eq_some_iff, ofSimple?_eq_some_iff]
  constructor
  · rintro ⟨⟨-, hyphens⟩, spelled⟩
    exact ⟨spelled, hyphens⟩
  · rintro ⟨spelled, hyphens⟩
    have width : digits.length = 32 := by simpa using congrArg List.length spelled
    exact ⟨⟨width, hyphens⟩, spelled⟩

theorem ofBraced?_eq_some_iff :
    ofBraced? text = some u ↔
      text.map Char.toLower = '\x7b' :: (hyphenate u.simple ++ ['\x7d']) := by
  have opening {c : Char} : c.toLower = '\x7b' ↔ c = '\x7b' := toLower_eq_iff (by decide)
  have closing {c : Char} : c.toLower = '\x7d' ↔ c = '\x7d' := toLower_eq_iff (by decide)
  simp only [List.map_eq_cons_iff, List.map_eq_append_iff, opening, closing, List.map_eq_nil_iff]
  constructor
  · intro read
    unfold ofBraced? at read
    split at read
    · next rest =>
      split at read
      · next closed =>
        obtain ⟨body, rfl⟩ := List.getLast?_eq_some_iff.mp closed
        rw [List.dropLast_concat] at read
        have spelled := ofHyphenated?_eq_some_iff.mp read
        exact ⟨_, _, rfl, rfl, body, _, rfl, spelled, _, _, rfl, rfl, rfl⟩
      · cases read
    · cases read
  · rintro ⟨_, _, rfl, rfl, body, _, rfl, spelled, _, _, rfl, rfl, rfl⟩
    rw [ofBraced?, if_pos List.getLast?_concat, List.dropLast_concat]
    exact ofHyphenated?_eq_some_iff.mpr spelled

theorem ofUrn?_eq_some_iff :
    ofUrn? text = some u ↔ text.map Char.toLower = urnSpace ++ hyphenate u.simple := by
  unfold ofUrn?
  constructor
  · intro read
    split at read
    · next space =>
      rw [← List.take_append_drop urnSpace.length text, List.map_append, space,
        ofHyphenated?_eq_some_iff.mp read]
    · cases read
  · intro spelled
    obtain ⟨space, body, rfl, front, back⟩ := List.map_eq_append_iff.mp spelled
    have width : space.length = urnSpace.length := by simpa using congrArg List.length front
    rw [← width, List.take_left, List.drop_left, if_pos front]
    exact ofHyphenated?_eq_some_iff.mpr back

/-- The four spellings of an identifier, in small letters. -/
def spellings (u : Uuid) : List (List Char) :=
  [u.simple, hyphenate u.simple, '\x7b' :: (hyphenate u.simple ++ ['\x7d']),
    urnSpace ++ hyphenate u.simple]

/-- A text is read as an identifier exactly if it is a spelling of it, whatever the case of its
letters. -/
theorem ofText?_eq_some_iff : ofText? text = some u ↔ text.map Char.toLower ∈ u.spellings := by
  have hyphenated := length_hyphenate u.length_simple
  simp only [spellings, List.mem_cons, List.not_mem_nil, or_false]
  constructor
  · intro read
    unfold ofText? at read
    split at read
    · exact .inl (ofSimple?_eq_some_iff.mp read)
    · exact .inr (.inl (ofHyphenated?_eq_some_iff.mp read))
    · exact .inr (.inr (.inl (ofBraced?_eq_some_iff.mp read)))
    · exact .inr (.inr (.inr (ofUrn?_eq_some_iff.mp read)))
    · cases read
  · intro spelled
    have width : text.length = (text.map Char.toLower).length := (List.length_map _).symm
    unfold ofText?
    rcases spelled with spelled | spelled | spelled | spelled
    · have width : text.length = 32 := by rw [width, spelled, length_simple]
      rw [width]
      exact ofSimple?_eq_some_iff.mpr spelled
    · have width : text.length = 36 := by rw [width, spelled, hyphenated]
      rw [width]
      exact ofHyphenated?_eq_some_iff.mpr spelled
    · have width : text.length = 38 := by
        rw [width, spelled, List.length_cons, List.length_append, hyphenated, List.length_singleton]
      rw [width]
      exact ofBraced?_eq_some_iff.mpr spelled
    · have width : text.length = 45 := by
        rw [width, spelled, List.length_append, hyphenated]
        rfl
      rw [width]
      exact ofUrn?_eq_some_iff.mpr spelled

end Uuid

end HubRelay
