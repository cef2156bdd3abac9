/-!
Byte strings, and numbers written least significant byte first.

`ofLittleEndian_littleEndian` says that a number which fits comes back, and
`littleEndian_ofLittleEndian` that every byte string is the written form of its number.
-/

namespace HubRelay

abbrev Bytes := List UInt8

namespace Bytes

/-- The low `width` bytes of `n`, least significant first. -/
def littleEndian : Nat → Nat → Bytes
  | 0, _ => []
  | width + 1, n => UInt8.ofNat n :: littleEndian width (n / 256)

/-- The number whose bytes, least significant first, are given. -/
def ofLittleEndian : Bytes → Nat
  | [] => 0
  | b :: rest => b.toNat + 256 * ofLittleEndian rest

@[simp] theorem length_littleEndian (width n : Nat) : (littleEndian width n).length = width := by
  induction width generalizing n with
  | zero => rfl
  | succ width ih => simp [littleEndian, ih]

theorem ofLittleEndian_lt (bytes : Bytes) : ofLittleEndian bytes < Nat.pow 256 bytes.length := by
  induction bytes with
  | nil => decide
  | cons b rest ih =>
      have hb := b.toNat_lt
      have power : Nat.pow 256 (rest.length + 1) = Nat.pow 256 rest.length * 256 := rfl
      simp only [ofLittleEndian, List.length_cons, power]
      omega

theorem ofLittleEndian_littleEndian {width n : Nat} (fits : n < Nat.pow 256 width) :
    ofLittleEndian (littleEndian width n) = n := by
  induction width generalizing n with
  | zero =>
      have power : Nat.pow 256 0 = 1 := rfl
      simp only [littleEndian, ofLittleEndian]
      omega
  | succ width ih =>
      have fits' : n / 256 < Nat.pow 256 width := by
        have power : Nat.pow 256 (width + 1) = Nat.pow 256 width * 256 := rfl
        omega
      simp only [littleEndian, ofLittleEndian, ih fits', UInt8.toNat_ofNat']
      omega

theorem littleEndian_ofLittleEndian (bytes : Bytes) :
    littleEndian bytes.length (ofLittleEndian bytes) = bytes := by
  induction bytes with
  | nil => rfl
  | cons b rest ih =>
      have hb := b.toNat_lt
      have tail : (b.toNat + 256 * ofLittleEndian rest) / 256 = ofLittleEndian rest := by omega
      simp only [List.length_cons, littleEndian, ofLittleEndian, tail, ih, List.cons.injEq,
        and_true]
      apply UInt8.toNat_inj.mp
      rw [UInt8.toNat_ofNat']
      omega

end Bytes

end HubRelay
