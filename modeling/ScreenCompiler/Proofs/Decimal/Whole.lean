import Mathlib
import ScreenCompiler.Json.Number

/-!
# Doubles that are whole numbers

A double that is a whole number below `2 ^ 53` is the double of this number, so nothing is lost
when it is held as an integer.  Both are brought to one form: a significand of 53 bits, and an
exponent that takes the zeros behind it off again.
-/

namespace ScreenCompiler.Decimal

open Float.Model Float.Model.UnpackedFloat

theorem log2_shiftLeft {n : Nat} (solid : n ≠ 0) (k : Nat) : (n <<< k).log2 = n.log2 + k := by
  have bounds := (Nat.log2_eq_iff solid).mp rfl
  have shifted : n <<< k ≠ 0 := by
    simpa [Nat.shiftLeft_eq, Nat.mul_eq_zero] using solid
  rw [Nat.log2_eq_iff shifted, Nat.shiftLeft_eq, Nat.pow_add, Nat.add_right_comm, Nat.pow_add _ _ k]
  exact ⟨Nat.mul_le_mul_right _ bounds.1, Nat.mul_lt_mul_of_pos_right bounds.2 (Nat.two_pow_pos k)⟩

theorem shiftRight_shiftLeft (significand k : Nat) :
    ExtendedMantissa.mk (significand <<< k) false false >>> k = ⟨significand, false, false⟩ := by
  change Nat.repeat ExtendedMantissa.shiftRightOne k _ = _
  induction k generalizing significand with
  | zero => rfl
  | succ k inductionHypothesis =>
      rw [Nat.add_comm k 1, Nat.shiftLeft_add, Nat.add_comm 1 k, Nat.repeat, inductionHypothesis]
      simp [ExtendedMantissa.shiftRightOne, Nat.shiftLeft_succ]

section Normal

variable {significand : Nat} {exponent : Int}

theorem ne_zero_of_log2 (isNormal : significand.log2 = 52) : significand ≠ 0 := by
  rintro rfl
  simp at isNormal

theorem shiftToTargetExponent_shiftLeft (isNormal : significand.log2 = 52)
    (low : -1074 ≤ exponent) (k : Nat) :
    shiftToTargetExponent .binary64 (significand <<< k) (exponent - k) .exact =
      (⟨significand, false, false⟩, exponent) := by
  have target : Format.binary64.targetExponent
      (totalExponent (significand <<< k) (exponent - k)) = exponent := by
    simp only [Format.targetExponent, totalExponent, log2_shiftLeft (ne_zero_of_log2 isNormal),
      isNormal, Format.mantissaBits, Format.minExponent]
    omega
  have amount : (exponent - (exponent - k)).toNat = k := by omega
  rw [shiftToTargetExponent, target, shiftToExponent]
  simp only [amount, ExtendedMantissa.ofMantissaAndAccuracy, shiftRight_shiftLeft]
  simp

/-- A number of 53 bits with zeros behind them is rounded to itself. -/
theorem roundWithAccuracy_shiftLeft (isNormal : significand.log2 = 52) (low : -1074 ≤ exponent)
    (k : Nat) (sign : Sign) :
    roundWithAccuracy .binary64 sign (significand <<< k) (exponent - k) .exact =
      .finite sign significand exponent (Nat.pos_of_ne_zero (ne_zero_of_log2 isNormal)) := by
  have first := shiftToTargetExponent_shiftLeft isNormal low k
  have second := shiftToTargetExponent_shiftLeft isNormal low 0
  rw [Nat.shiftLeft_zero, Int.ofNat_zero, Int.sub_zero] at second
  rw [roundWithAccuracy, first]
  simp only [ExtendedMantissa.roundedMantissa, ExtendedMantissa.accuracy,
    Accuracy.roundToNearestEven, second]
  exact dif_neg (ne_zero_of_log2 isNormal)

/-- The first bit of a significand is not packed. -/
theorem toNat_append_one (isNormal : significand.log2 = 52) :
    (1#1 ++ BitVec.ofNat 52 significand).toNat = significand := by
  obtain ⟨low, high⟩ := (Nat.log2_eq_iff (ne_zero_of_log2 isNormal)).mp isNormal
  rw [BitVec.toNat_append, ← Nat.shiftLeft_add_eq_or_of_lt (BitVec.isLt _), BitVec.toNat_ofNat,
    Nat.shiftLeft_eq]
  simp only [BitVec.toNat_ofNat]
  omega

theorem unpack_pack (isNormal : significand.log2 = 52) (low : -1074 ≤ exponent)
    (high : exponent ≤ 971) (sign : Sign) (solid : 0 < significand) :
    (Float.Model.pack (.finite sign significand exponent solid)).unpack =
      .finite sign significand exponent solid := by
  obtain ⟨field, isField⟩ : ∃ field : Nat, exponent = field - 1075 :=
    ⟨(exponent + 1075).toNat, by omega⟩
  have biased : (exponent + Format.binary64.exponentBias +
      Format.binary64.mantissaBitsWithoutImplicit).toNat = field := by
    simp [Format.exponentBias]
    omega
  have toNat : (BitVec.ofNat 11 field).toNat = field := by
    rw [BitVec.toNat_ofNat]
    omega
  have notLast : BitVec.ofNat 11 field ≠ -1#11 := by
    rw [Ne, ← BitVec.toNat_inj, toNat]
    simp
    omega
  have notFirst : BitVec.ofNat 11 field ≠ 0#11 := by
    rw [Ne, ← BitVec.toNat_inj, toNat]
    simp
    omega
  change UnpackedFloat.unpack .binary64 (UnpackedFloat.pack .binary64 _) = _
  rw [UnpackedFloat.pack]
  simp only [biased]
  rw [if_neg (by simp; omega), if_pos (by simp [isNormal, Format.mantissaBits]),
    UnpackedFloat.unpack]
  simp only [unpackMantissa_packComponents, unpackExponent_packComponents,
    unpackSign_packComponents, if_neg notLast, if_neg notFirst, Sign.ofBitVec_toBitVec, toNat,
    toNat_append_one isNormal]
  congr 1
  simp [Format.exponentBias]
  omega

end Normal

theorem toModel_eq_pack_unpack (x : Float) : x.toModel = Float.Model.pack x.toModel.unpack :=
  congrArg Float.toModel (Float.ofBits_toBits x).symm

/-- The significand of a natural number below `2 ^ 53`. -/
def wholeSignificand (n : Nat) : Nat :=
  n <<< (52 - n.log2)

theorem log2_wholeSignificand {n : Nat} (solid : n ≠ 0) (small : n.log2 ≤ 52) :
    (wholeSignificand n).log2 = 52 := by
  rw [wholeSignificand, log2_shiftLeft solid]
  omega

def unpackedWhole (sign : Sign) (n : Nat) (solid : n ≠ 0) : UnpackedFloat :=
  .finite sign (wholeSignificand n) (n.log2 - 52) (by
    simp [wholeSignificand, Nat.shiftLeft_eq]
    omega)

section Whole

variable {n : Nat}

theorem unpack_pack_unpackedWhole (solid : n ≠ 0) (small : n.log2 ≤ 52) (sign : Sign) :
    (Float.Model.pack (unpackedWhole sign n solid)).unpack = unpackedWhole sign n solid :=
  unpack_pack (log2_wholeSignificand solid small) (by omega) (by omega) sign _

theorem normalize_natCast (solid : n ≠ 0) (small : n.log2 ≤ 52) (zeroSign : Sign) :
    UnpackedFloat.normalize .binary64 n 0 zeroSign = unpackedWhole .positive n solid := by
  have positive : compare (n : Int) 0 = .gt := by
    simp [compare_gt_iff_gt]
    omega
  have target : Format.binary64.targetExponent (totalExponent n 0) = n.log2 - 52 := by
    simp only [Format.targetExponent, totalExponent, Format.mantissaBits, Format.minExponent]
    omega
  have amount : (0 - ((n.log2 : Int) - 52)).toNat = 52 - n.log2 := by omega
  have exponent : (0 : Int) - (52 - n.log2 : Nat) = n.log2 - 52 := by omega
  have low : (-1074 : Int) ≤ n.log2 - 52 := by omega
  have rounded := roundWithAccuracy_shiftLeft (log2_wholeSignificand solid small) low 0 .positive
  simp only [Nat.shiftLeft_zero, Int.ofNat_zero, Int.sub_zero] at rounded
  rw [UnpackedFloat.normalize]
  simp only [positive, UnpackedFloat.round, Int.toNat_natCast, target, decreaseExponent, amount,
    exponent]
  exact rounded

theorem toModel_ofScientific (solid : n ≠ 0) (small : n.log2 ≤ 52) :
    (Float.ofScientific n false 0).toModel =
      Float.Model.pack (unpackedWhole .positive n solid) := by
  have fits : n < 2 ^ 53 := (Nat.log2_lt solid).mp (by omega)
  have toNat : n.toUInt64.toNat = n := by
    simp
    omega
  have isOne : (Float.exactlyRepresentablePowersOfTen[0]).toModel.unpack =
      .finite .positive fractionBound (-52) (by decide) := rfl
  have low : (-1074 : Int) ≤ n.log2 - 52 := by omega
  -- The number is multiplied by the double 1, which has zeros behind its first bit.
  have rounded := roundWithAccuracy_shiftLeft (log2_wholeSignificand solid small) low 52 .positive
  rw [Nat.shiftLeft_eq] at rounded
  rw [Float.ofScientific, dif_pos ⟨fits, by decide⟩]
  simp only [Bool.false_eq_true, if_false]
  change Float.Model.mul (Float.Model.ofUInt64 n.toUInt64) _ = _
  rw [Float.Model.mul, Float.Model.ofUInt64, UnpackedFloat.ofUInt64, toNat, UnpackedFloat.ofNat,
    UnpackedFloat.ofInt, normalize_natCast solid small, unpack_pack_unpackedWhole solid small,
    isOne]
  exact congrArg Float.Model.pack rounded

theorem toModel_neg (solid : n ≠ 0) (small : n.log2 ≤ 52) {x : Float}
    (isPositive : x.toModel = Float.Model.pack (unpackedWhole .positive n solid)) :
    (-x).toModel = Float.Model.pack (unpackedWhole .negative n solid) := by
  change Float.Model.neg x.toModel = _
  rw [Float.Model.neg, isPositive, unpack_pack_unpackedWhole solid small]
  rfl

end Whole

def signOf (negative : Bool) : Sign :=
  if negative then .negative else .positive

section Fields

variable (bits : BitVec Format.binary64.numBits)

theorem toNat_unpackMantissa : (unpackMantissa bits).toNat = bits.toNat % fractionBound := by
  rw [unpackMantissa_def, BitVec.extractLsb'_toNat, Nat.shiftRight_zero]
  rfl

theorem toNat_unpackExponent :
    (unpackExponent bits).toNat = bits.toNat / fractionBound % 2048 := by
  rw [unpackExponent_def, BitVec.extractLsb'_toNat, Nat.shiftRight_eq_div_pow]
  rfl

theorem ofBitVec_unpackSign :
    Sign.ofBitVec (unpackSign bits) = signOf (decide (signedBound ≤ bits.toNat)) := by
  have bound : bits.toNat < 0x10000000000000000 := bits.isLt
  have toNat : (unpackSign bits).toNat = bits.toNat / signedBound := by
    rw [unpackSign_def, BitVec.extractLsb'_toNat, Nat.shiftRight_eq_div_pow]
    change bits.toNat / 0x8000000000000000 % 2 = bits.toNat / 0x8000000000000000
    omega
  have isPositive : unpackSign bits = 0#1 ↔ ¬signedBound ≤ bits.toNat := by
    rw [← BitVec.toNat_inj, toNat]
    simp only [signedBound, BitVec.toNat_ofNat]
    omega
  unfold Sign.ofBitVec signOf
  simp only [isPositive, decide_eq_true_eq, ite_not]

theorem unpack_of_fields (notFirst : bits.toNat / fractionBound % 2048 ≠ 0)
    (notLast : bits.toNat / fractionBound % 2048 ≠ 2047) :
    UnpackedFloat.unpack .binary64 bits = .finite (signOf (decide (signedBound ≤ bits.toNat)))
      (fractionBound + bits.toNat % fractionBound)
      ((bits.toNat / fractionBound % 2048 : Nat) - 1075) (Nat.add_pos_left (by decide) _) := by
  have lastExponent : unpackExponent bits ≠ -1#11 := by
    rw [Ne, ← BitVec.toNat_inj, toNat_unpackExponent]
    exact notLast
  have firstExponent : unpackExponent bits ≠ 0#11 := by
    rw [Ne, ← BitVec.toNat_inj, toNat_unpackExponent]
    exact notFirst
  have significand : (1#1 ++ unpackMantissa bits).toNat =
      fractionBound + bits.toNat % fractionBound := by
    rw [BitVec.toNat_append, ← Nat.shiftLeft_add_eq_or_of_lt (BitVec.isLt _), toNat_unpackMantissa]
    rfl
  rw [UnpackedFloat.unpack]
  simp only [ofBitVec_unpackSign, if_neg lastExponent, if_neg firstExponent, significand,
    toNat_unpackExponent]
  rfl

end Fields

section Finite

variable {x : Float} {negative : Bool} {significand : Nat} {exponent : Int}

/-- The significand of a finite double has 53 bits, or the exponent is the least one. -/
theorem bounds_of_ofFloat (isFinite : Exact.ofFloat x = .finite negative significand exponent) :
    significand < fractionBound ∧ exponent = -1074 ∨
      fractionBound ≤ significand ∧ significand < fractionBound + fractionBound := by
  have bound : x.toBits.toNat % fractionBound < fractionBound := Nat.mod_lt _ (by decide)
  unfold Exact.ofFloat at isFinite
  extract_lets bits isNegative field fraction at isFinite
  split at isFinite
  · split at isFinite <;> simp at isFinite
  · split at isFinite
    · obtain ⟨-, rfl, rfl⟩ := Exact.finite.inj isFinite
      exact .inl ⟨bound, rfl⟩
    · obtain ⟨-, rfl, -⟩ := Exact.finite.inj isFinite
      exact .inr ⟨Nat.le_add_right _ _, Nat.add_lt_add_left bound _⟩

theorem unpack_of_ofFloat (isFinite : Exact.ofFloat x = .finite negative significand exponent)
    (isNormal : fractionBound ≤ significand) (solid : 0 < significand) :
    x.toModel.unpack = .finite (signOf negative) significand exponent solid := by
  have bound : x.toBits.toNat % fractionBound < fractionBound := Nat.mod_lt _ (by decide)
  unfold Exact.ofFloat at isFinite
  extract_lets bits isNegative field fraction at isFinite
  split at isFinite
  · split at isFinite <;> simp at isFinite
  · rename_i notLast
    split at isFinite
    · obtain ⟨-, rfl, -⟩ := Exact.finite.inj isFinite
      exact absurd isNormal (Nat.not_le.mpr bound)
    · rename_i notFirst
      obtain ⟨rfl, rfl, rfl⟩ := Exact.finite.inj isFinite
      exact unpack_of_fields x.toModel.toBits.toBitVec notFirst notLast

end Finite

theorem log2_eq_of_bounds {significand : Nat} (low : fractionBound ≤ significand)
    (high : significand < fractionBound + fractionBound) : significand.log2 = 52 := by
  have solid : significand ≠ 0 := Nat.ne_of_gt (Nat.lt_of_lt_of_le (by decide) low)
  exact (Nat.log2_eq_iff solid).mpr ⟨low, high⟩

/-- A natural number is written with 53 bits in one way. -/
theorem eq_wholeSignificand {significand magnitude : Nat} {exponent : Int}
    (isNormal : significand.log2 = 52) (solid : magnitude ≠ 0) (small : magnitude.log2 ≤ 52)
    (above : 0 ≤ exponent → magnitude = significand <<< exponent.toNat)
    (below : exponent < 0 → significand = magnitude <<< (-exponent).toNat) :
    significand = wholeSignificand magnitude ∧ exponent = magnitude.log2 - 52 := by
  by_cases nonnegative : 0 ≤ exponent
  · have same := above nonnegative
    have log2 := log2_shiftLeft (ne_zero_of_log2 isNormal) exponent.toNat
    rw [← same] at log2
    obtain rfl : exponent = 0 := by omega
    rw [Int.toNat_zero, Nat.shiftLeft_zero] at same
    subst same
    rw [wholeSignificand, isNormal]
    exact ⟨rfl, rfl⟩
  · have same := below (Int.not_le.mp nonnegative)
    have log2 := log2_shiftLeft solid (-exponent).toNat
    rw [← same, isNormal] at log2
    have zeros : 52 - magnitude.log2 = (-exponent).toNat := by omega
    rw [wholeSignificand, zeros]
    exact ⟨same, by omega⟩

section

variable {x : Float} {n : Int}

/-- A whole double is a sign and a natural number, and its significand is that number up to the
zeros behind one of them. -/
theorem exists_magnitude_of_whole? (isWhole : whole? x = some n) :
    ∃ negative significand exponent, ∃ magnitude : Nat,
      Exact.ofFloat x = .finite negative significand exponent ∧
      n = (if negative then -(magnitude : Int) else magnitude) ∧
      (0 ≤ exponent → magnitude = significand <<< exponent.toNat) ∧
      (exponent < 0 → significand = magnitude <<< (-exponent).toNat) := by
  unfold whole? at isWhole
  split at isWhole
  · rename_i negative significand exponent isFinite
    split at isWhole
    · rename_i fits
      obtain rfl := Option.some.inj isWhole
      refine ⟨negative, significand, exponent, _, isFinite, rfl, fun nonnegative => ?_,
        fun below => ?_⟩
      · rw [if_pos nonnegative, Nat.shiftLeft_eq]
        rfl
      · have divides := Nat.dvd_of_mod_eq_zero (fits.resolve_left (Int.not_le.mpr below))
        rw [if_neg (Int.not_le.mpr below), Nat.shiftLeft_eq]
        exact (Nat.div_mul_cancel divides).symm
    · simp at isWhole
  · simp at isWhole

theorem unpack_of_whole? (isWhole : whole? x = some n) (solid : n ≠ 0)
    (small : n.natAbs.log2 ≤ 52) :
    x.toModel.unpack = unpackedWhole (signOf (decide (n < 0))) n.natAbs
      (Int.natAbs_ne_zero.mpr solid) := by
  obtain ⟨negative, significand, exponent, magnitude, isFinite, isValue, above, below⟩ :=
    exists_magnitude_of_whole? isWhole
  have natAbs : n.natAbs = magnitude := by
    rw [isValue]
    split <;> simp
  have notZero : magnitude ≠ 0 := natAbs ▸ Int.natAbs_ne_zero.mpr solid
  have isNegative : decide (n < 0) = negative := by
    cases negative <;> simp at isValue ⊢ <;> omega
  rw [natAbs] at small
  rcases bounds_of_ofFloat isFinite with ⟨low, rfl⟩ | ⟨low, high⟩
  · -- With the least exponent, a whole number has more zeros than a significand has bits.
    have same : significand = magnitude <<< 1074 := below (by decide)
    have log2 := log2_shiftLeft notZero 1074
    rw [← same] at log2
    have solidSignificand : significand ≠ 0 := by
      rintro rfl
      simp at log2
    have few : significand.log2 < 52 := (Nat.log2_lt solidSignificand).mpr low
    omega
  · have solidSignificand : 0 < significand := Nat.lt_of_lt_of_le (by decide) low
    obtain ⟨isSignificand, isExponent⟩ :=
      eq_wholeSignificand (log2_eq_of_bounds low high) notZero small above below
    rw [unpack_of_ofFloat isFinite low solidSignificand, unpackedWhole]
    simp only [isNegative, natAbs, isSignificand, isExponent]

/-- A double that is a whole number below `2 ^ 53` is the double of this number. -/
theorem signed_ofScientific (isWhole : whole? x = some n) (solid : n ≠ 0)
    (small : n.natAbs.log2 ≤ 52) :
    Json.signed (n < 0) (Float.ofScientific n.natAbs false 0) = x := by
  have notZero := Int.natAbs_ne_zero.mpr solid
  have isPositive := toModel_ofScientific notZero small
  have isNegative := toModel_neg notZero small isPositive
  have isModel := toModel_eq_pack_unpack x
  rw [unpack_of_whole? isWhole solid small] at isModel
  refine Float.toBits_inj.mp (congrArg Float.Model.toBits ?_)
  rw [isModel, Json.signed]
  by_cases negative : n < 0
  · simp only [negative, decide_true, if_true, isNegative, signOf]
  · simp only [negative, decide_false, Bool.false_eq_true, if_false, isPositive, signOf]

end

end ScreenCompiler.Decimal

namespace ScreenCompiler.Json.Number

open Decimal

variable {x : Float}

/-- A number value keeps its double, but for the sign of zero. -/
theorem toFloat_ofFloat (solid : whole? x ≠ some 0) : (ofFloat x).toFloat = x := by
  unfold ofFloat
  split
  · rename_i n isWhole
    split
    · rename_i small
      have notZero : n ≠ 0 := by
        rintro rfl
        exact solid isWhole
      have fits : n.natAbs.log2 < 53 := (Nat.log2_lt (Int.natAbs_ne_zero.mpr notZero)).mpr small
      exact signed_ofScientific isWhole notZero (Nat.le_of_lt_succ fits)
    · rfl
  · rfl

/-- Zeros have one text in code, whatever their sign. -/
theorem numberText_ofFloat (x : Float) : numberText (ofFloat x).toFloat = numberText x := by
  by_cases isZero : whole? x = some 0
  · have same : (ofFloat x).toFloat = Float.ofScientific 0 false 0 := by
      simp only [ofFloat, isZero]
      rfl
    have zero : numberText (Float.ofScientific 0 false 0) = "0" := by decide +kernel
    rw [same, zero, numberText, isZero]
    rfl
  · rw [toFloat_ofFloat isZero]

end ScreenCompiler.Json.Number
