/-
# Doubles and their unpacked forms

Arithmetic on doubles is defined on unpacked forms: a value that is not a number, an infinity, a
zero, or a sign with a mantissa and an exponent.  `parts` reads the same off the bits (`parts_eq`),
so that what is known about one of them holds for the other: a double is determined by its unpacked
form (`eq_of_unpack_eq`), and the opposite of a double has the other sign and is otherwise like it
(`parts_neg`).
-/
import Brace.Proofs.Number.Whole

namespace Brace.Number

open Float.Model Float.Model.UnpackedFloat

/-- Whether a sign is that of the negative numbers. -/
def isNegative : Sign → Bool
  | .negative => true
  | .positive => false

/-- The parts of an unpacked double. -/
def Parts.ofUnpacked : UnpackedFloat → Parts
  | .notANumber => .nan
  | .infinity s => .infinite (isNegative s)
  | .zero s => .finite (isNegative s) 0 (-1074)
  | .finite s m e _ => .finite (isNegative s) m e

/-- The bits that a double is unpacked from. -/
abbrev bits (x : Float) : BitVec 64 := x.toBits.toBitVec

/-- The mantissa field is the last 52 bits. -/
theorem toNat_unpackMantissa (b : BitVec 64) :
    (@unpackMantissa .binary64 b).toNat = b.toNat % Nat.pow 2 52 := by
  simp [unpackMantissa]

/-- The sign is the first bit. -/
theorem isNegative_unpackSign (b : BitVec 64) :
    isNegative (.ofBitVec (@unpackSign .binary64 b)) = decide (Nat.pow 2 63 ≤ b.toNat) := by
  have hlt := b.isLt
  have hsign : (@unpackSign .binary64 b).toNat = b.toNat / Nat.pow 2 63 := by
    simp [unpackSign, Nat.shiftRight_eq_div_pow]
    omega
  rw [Nat.pow_eq] at hsign ⊢
  unfold Sign.ofBitVec
  split
  · next h =>
    rw [h] at hsign
    simp at hsign
    simp [isNegative]
    omega
  · next h =>
    have : (@unpackSign .binary64 b).toNat ≠ 0 := fun h0 => h (BitVec.eq_of_toNat_eq h0)
    simp [isNegative]
    omega

theorem toNat_append_unpackMantissa (b : BitVec 64) :
    (1#1 ++ @unpackMantissa .binary64 b).toNat = Nat.pow 2 52 + b.toNat % Nat.pow 2 52 := by
  rw [BitVec.toNat_append, ← Nat.shiftLeft_add_eq_or_of_lt (BitVec.isLt _),
    toNat_unpackMantissa]
  rfl

/-- The parts of a double are those of its unpacked form. -/
theorem parts_eq (x : Float) : parts x = .ofUnpacked x.toModel.unpack := by
  show parts x = .ofUnpacked (UnpackedFloat.unpack .binary64 (bits x))
  have hexponent (n : ℕ) (hn : n < 2 ^ 11) :
      (bits x).toNat / Nat.pow 2 52 % Nat.pow 2 11 = n ↔
        @unpackExponent .binary64 (bits x) = BitVec.ofNat 11 n := by
    rw [← BitVec.toNat_inj, toNat_unpackExponent, BitVec.toNat_ofNat, Nat.mod_eq_of_lt hn]
  have hfraction : (bits x).toNat % Nat.pow 2 52 = 0 ↔
      @unpackMantissa .binary64 (bits x) = 0#52 := by
    rw [← BitVec.toNat_inj, toNat_unpackMantissa]
    rfl
  have hbias : (Format.binary64.exponentBias : ℤ) = 1023 := rfl
  unfold parts UnpackedFloat.unpack
  simp only [show x.toBits.toNat = (bits x).toNat from rfl, hexponent 2047 (by decide),
    hexponent 0 (by decide), hfraction, ← isNegative_unpackSign,
    show (BitVec.ofNat 11 2047) = -1#11 from rfl, hbias]
  -- The largest exponent, then the smallest one, then the others.
  split
  · split <;> rfl
  · split
    · next h =>
      split
      · next h0 => rw [hfraction.mpr h0, Parts.ofUnpacked]
      · rw [Parts.ofUnpacked, toNat_unpackMantissa, h]
        rfl
    · rw [Parts.ofUnpacked, toNat_unpackExponent, toNat_append_unpackMantissa]
      rfl

/-! ## The opposite of a number -/

/-- Changing the sign bit changes the sign. -/
theorem unpack_packComponents_neg (b : BitVec 64) :
    UnpackedFloat.unpack .binary64 (packComponents .binary64
      (-.ofBitVec (@unpackSign .binary64 b)) (unpackExponent b) (unpackMantissa b)) =
        (UnpackedFloat.unpack .binary64 b).neg := by
  unfold UnpackedFloat.unpack
  simp only [unpackExponent_packComponents, unpackMantissa_packComponents,
    unpackSign_packComponents, Sign.ofBitVec_toBitVec]
  split
  · split <;> rfl
  · split
    · split <;> rfl
    · rfl

/-- An unpacked form that came from bits survives being packed. -/
theorem unpack_pack_unpack (b : BitVec 64) :
    UnpackedFloat.unpack .binary64
        (UnpackedFloat.pack .binary64 (UnpackedFloat.unpack .binary64 b)) =
      UnpackedFloat.unpack .binary64 b := by
  rw [pack_unpack]
  split
  · next h =>
    rw [isNaNBits, decide_eq_true_iff] at h
    rw [unpack_packedNaN, UnpackedFloat.unpack]
    simp [h.1, h.2]
  · rfl

/-- The opposite of a number has the opposite unpacked form. -/
theorem unpack_neg (x : Float) : (-x).toModel.unpack = x.toModel.unpack.neg := by
  show UnpackedFloat.unpack .binary64 (UnpackedFloat.pack .binary64
    (UnpackedFloat.unpack .binary64 (bits x)).neg) = (UnpackedFloat.unpack .binary64 (bits x)).neg
  rw [← unpack_packComponents_neg, unpack_pack_unpack]

theorem eq_of_unpack_eq {x y : Float} (h : x.toModel.unpack = y.toModel.unpack) : x = y := by
  rw [← Float.toBits_inj]
  exact UInt64.toBitVec_inj.mp ((unpack_inj_of_valid x.toModel.valid y.toModel.valid).mp h)

theorem neg_neg_eq_self (x : Float) : - -x = x := by
  apply eq_of_unpack_eq
  rw [unpack_neg, unpack_neg]
  cases x.toModel.unpack with
  | notANumber => rfl
  | infinity s | zero s | finite s => cases s <;> rfl

/-- The parts with the other sign. -/
def Parts.opposite : Parts → Parts
  | .nan => .nan
  | .infinite negative => .infinite !negative
  | .finite negative m e => .finite (!negative) m e

/-- The opposite of a number differs in its sign only. -/
theorem parts_neg (x : Float) : parts (-x) = (parts x).opposite := by
  rw [parts_eq, parts_eq, unpack_neg]
  cases x.toModel.unpack with
  | notANumber => rfl
  | infinity s | zero s | finite s => cases s <;> rfl

/-- There is one value that is not a number. -/
theorem parts_eq_nan_iff {x : Float} : parts x = .nan ↔ x = nan := by
  constructor
  · intro h
    apply eq_of_unpack_eq
    rw [parts_eq] at h
    generalize x.toModel.unpack = u at h
    cases u with
    | notANumber => rfl
    | infinity s | zero s | finite s => cases h
  · rintro rfl
    rfl

end Brace.Number
