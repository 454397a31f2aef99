import Mathlib
import Signoff.Number.Read

/-! # Signs of doubles

    A double and its opposite differ in the sign bit alone:

    * `Binary.neg_ofMagnitude`: the bits of a double with a sign are the opposite of
      those without, up to infinity.
    * `Binary.isSome_parts?`: the doubles with an exact value are the finite ones.
    * `NumberText.neg_ofDecimal`: what a decimal literal stands for with a minus sign
      is the opposite of what it stands for without.
-/

open Float.Model (UnpackedFloat Format)
open Float.Model.UnpackedFloat (unpack packComponents Sign)

namespace Signoff.Binary

/-! ### The bits of a double -/

/-- Changing the sign bit changes the sign. -/
theorem unpack_neg (s : Sign) (e : BitVec Format.binary64.exponentBits)
    (m : BitVec Format.binary64.mantissaBitsWithoutImplicit) :
    unpack .binary64 (packComponents .binary64 (-s) e m) =
      (unpack .binary64 (packComponents .binary64 s e m)).neg := by
  simp only [unpack, UnpackedFloat.unpackExponent_packComponents,
    UnpackedFloat.unpackMantissa_packComponents, UnpackedFloat.unpackSign_packComponents,
    Sign.ofBitVec_toBitVec]
  split_ifs <;> rfl

/-- The double with the other sign bit is the opposite one. -/
theorem neg_ofBits {s : Sign} {e : BitVec Format.binary64.exponentBits}
    {m : BitVec Format.binary64.mantissaBitsWithoutImplicit}
    (valid : Format.binary64.Valid (packComponents .binary64 s e m)) :
    Float.ofBits ⟨packComponents .binary64 (-s) e m⟩ =
      -Float.ofBits ⟨packComponents .binary64 s e m⟩ := by
  apply Float.toBits_inj.mp
  apply UInt64.toBitVec_inj.mp
  change (unpack .binary64 (packComponents .binary64 (-s) e m)).pack .binary64 =
    (unpack .binary64 ((unpack .binary64 (packComponents .binary64 s e m)).pack .binary64)).neg.pack
      .binary64
  rw [UnpackedFloat.pack_unpack_of_valid (b := packComponents .binary64 s e m) valid, unpack_neg]

/-- Two bit vectors side by side, as a number. -/
theorem toNat_append {v w : Nat} (x : BitVec v) (y : BitVec w) :
    (x ++ y).toNat = x.toNat * 2 ^ w + y.toNat := by
  rw [BitVec.toNat_append, Nat.shiftLeft_eq, Nat.mul_comm, Nat.two_pow_add_eq_or_of_lt y.isLt]

/-- The bits of a magnitude up to infinity: sign, exponent and significand. -/
theorem bits_of_magnitude {n : Nat} (h : n ≤ 2047 * 2 ^ 52) (negative : Bool) :
    UInt64.ofNat (if negative then Nat.pow 2 63 + n else n) =
      ⟨packComponents .binary64 (if negative then .negative else .positive)
        (BitVec.ofNat 11 (n / 2 ^ 52)) (BitVec.ofNat 52 n)⟩ := by
  apply UInt64.toNat_inj.mp
  change _ = (((if negative then Sign.negative else Sign.positive).toBitVec ++
    BitVec.ofNat 11 (n / 2 ^ 52)) ++ BitVec.ofNat 52 n).toNat
  rw [toNat_append, toNat_append, BitVec.toNat_ofNat, BitVec.toNat_ofNat, UInt64.toNat_ofNat']
  cases negative
  · simp only [Bool.false_eq_true, if_false, Sign.toBitVec, BitVec.toNat_ofNat]
    omega
  · simp only [if_true, Sign.toBitVec, BitVec.toNat_ofNat, Nat.pow_eq]
    omega

/-- Up to infinity the bits are those of a number. -/
theorem valid_of_magnitude {n : Nat} (h : n ≤ 2047 * 2 ^ 52) (s : Sign) :
    Format.binary64.Valid
      (packComponents .binary64 s (BitVec.ofNat 11 (n / 2 ^ 52)) (BitVec.ofNat 52 n)) := by
  constructor
  rw [UnpackedFloat.unpackExponent_packComponents, UnpackedFloat.unpackMantissa_packComponents]
  intro full rest
  have full : n / 2 ^ 52 % 2 ^ 11 = 2 ^ 11 - 1 := by
    simpa [BitVec.toNat_ofNat] using congrArg BitVec.toNat full
  have zero : BitVec.ofNat 52 n = 0#52 := BitVec.eq_of_toNat_eq (by
    rw [BitVec.toNat_ofNat, BitVec.toNat_ofNat]
    omega)
  exact absurd zero rest

/-- The opposite of a double without a sign has the sign bit and the same magnitude. -/
theorem neg_ofMagnitude {n : Nat} (h : n ≤ 2047 * 2 ^ 52) :
    ofMagnitude true n = -ofMagnitude false n := by
  have opposite := neg_ofBits (valid_of_magnitude h .positive)
  rw [show -Sign.positive = Sign.negative from rfl] at opposite
  have minus := bits_of_magnitude h true
  have plus := bits_of_magnitude h false
  rw [if_pos rfl, if_pos rfl] at minus
  rw [if_neg Bool.false_ne_true, if_neg Bool.false_ne_true] at plus
  rw [← minus, ← plus] at opposite
  simpa only [ofMagnitude, if_true, Bool.false_eq_true, if_false] using opposite

/-- The doubles with an exact value are the finite ones. -/
theorem isSome_parts? (x : Float) : (parts? x).isSome = x.isFinite := by
  have exponent : (@UnpackedFloat.unpackExponent .binary64 x.toBits.toBitVec = -1#_) ↔
      x.toBits.toNat / Nat.pow 2 52 % 2048 = 2047 := by
    rw [UnpackedFloat.unpackExponent_def, ← BitVec.toNat_inj, BitVec.extractLsb'_toNat,
      Nat.shiftRight_eq_div_pow]
    exact Iff.rfl
  change _ = (unpack .binary64 x.toBits.toBitVec).isFinite
  unfold unpack parts?
  dsimp only
  split_ifs <;> simp_all [UnpackedFloat.isFinite]

/-! ### Decimal literals -/

/-- The infinity below is the opposite of the one above. -/
theorem neg_infinity : infinity true = -infinity false := by
  have opposite := neg_ofMagnitude (Nat.le_refl (2047 * 2 ^ 52))
  norm_num [ofMagnitude] at opposite
  rw [infinity, infinity, if_pos rfl, if_neg Bool.false_ne_true]
  exact opposite

/-- The double nearest to a quotient with a sign is the opposite of the one without. -/
theorem nearest?_neg (num den : Nat) :
    nearest? true num den = (nearest? false num den).map (- ·) := by
  unfold nearest?
  split_ifs with zero
  · rw [neg_ofMagnitude (Nat.zero_le _), Option.map_some]
  · extract_lets guess scaled fits exponent significand bits
    -- The sign is used nowhere but in the last step, where the bits are put together.
    split_ifs with small
    · clear_value bits
      have finite : bits ≤ 2047 * 2 ^ 52 := by simpa using small.le
      rw [neg_ofMagnitude finite, Option.map_some]
    · rfl

end Signoff.Binary

namespace Signoff.NumberText

/-- A decimal literal behind a minus sign stands for the opposite of what it stands for alone. -/
theorem neg_ofDecimal (digits : Nat) (exponent : Int) :
    ofDecimal true digits exponent = -ofDecimal false digits exponent := by
  have orInfinity (x? : Option Float) : (x?.map (- ·)).getD (Binary.infinity true) =
      -x?.getD (Binary.infinity false) := by
    cases x? with
    | none => exact Binary.neg_infinity
    | some x => rfl
  unfold ofDecimal
  extract_lets top nearest nearest'
  split_ifs
  · exact Binary.neg_ofMagnitude (Nat.zero_le _)
  · exact Binary.neg_infinity
  · rw [← orInfinity]
    congr 1
    unfold nearest nearest'
    split_ifs
    · exact Binary.nearest?_neg _ _
    · exact Binary.nearest?_neg _ _

end Signoff.NumberText
