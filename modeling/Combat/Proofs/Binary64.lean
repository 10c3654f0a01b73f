import Combat.Formula
import Mathlib

/-!
Whole numbers of less than 53 bits in binary64. Packing, rounding and reading keep a normal number
as it is, so such a whole number is a float, is its own floor and is read back as itself.
-/

namespace Combat
namespace Binary64
open Float.Model hiding pack unpack
open UnpackedFloat

/-! ### Normal numbers -/

/-- With all bits of the mantissa in use, and an exponent in range. -/
structure Normal (mantissa : Nat) (exponent : Int) : Prop where
  lower : 2 ^ 52 ≤ mantissa
  upper : mantissa < 2 ^ 53
  least : -1074 ≤ exponent
  greatest : exponent ≤ 970

namespace Normal
variable {mantissa : Nat} {exponent : Int}

theorem pos (normal : Normal mantissa exponent) : 0 < mantissa :=
  Nat.lt_of_lt_of_le (by decide) normal.lower

theorem log2_shiftLeft (normal : Normal mantissa exponent) (k : Nat) :
    (mantissa <<< k).log2 = 52 + k := by
  have scale := Nat.two_pow_pos k
  have pos : mantissa <<< k ≠ 0 := by
    rw [Nat.shiftLeft_eq]
    exact Nat.mul_ne_zero (Nat.ne_of_gt normal.pos) (Nat.ne_of_gt scale)
  rw [Nat.log2_eq_iff pos, Nat.shiftLeft_eq, Nat.pow_add, Nat.add_right_comm, Nat.pow_add]
  exact ⟨Nat.mul_le_mul_right _ normal.lower, Nat.mul_lt_mul_of_pos_right normal.upper scale⟩

/-- The exponent as it is stored: the least value is for what is not normal, the greatest for what
is not finite. -/
theorem biased_bounds (normal : Normal mantissa exponent) :
    0 < (exponent + 1075).toNat ∧ (exponent + 1075).toNat < 2047 := by
  have least := normal.least
  have greatest := normal.greatest
  omega

theorem toNat_biased (normal : Normal mantissa exponent) :
    (BitVec.ofNat 11 (exponent + 1075).toNat).toNat = (exponent + 1075).toNat := by
  have bounds := normal.biased_bounds
  rw [BitVec.toNat_ofNat]
  omega

theorem toNat_fraction (normal : Normal mantissa exponent) :
    (BitVec.ofNat 52 mantissa).toNat = mantissa - 2 ^ 52 := by
  have lower := normal.lower
  have upper := normal.upper
  rw [BitVec.toNat_ofNat]
  omega

end Normal

/-! ### Rounding -/

theorem repeat_shiftRightOne (mantissa k : Nat) :
    k.repeat ExtendedMantissa.shiftRightOne ⟨mantissa <<< k, false, false⟩ =
      ⟨mantissa, false, false⟩ := by
  induction k generalizing mantissa with
  | zero => rfl
  | succ k ih =>
    have shifted := ih (mantissa <<< 1)
    rw [← Nat.shiftLeft_add, Nat.add_comm 1 k] at shifted
    rw [Nat.repeat, shifted]
    simp [ExtendedMantissa.shiftRightOne, Nat.shiftLeft_succ]

section
variable {mantissa : Nat} {exponent : Int}

theorem shiftToTargetExponent_shiftLeft (normal : Normal mantissa exponent) (k : Nat) :
    shiftToTargetExponent Format.binary64 (mantissa <<< k) (exponent - k) .exact =
      (⟨mantissa, false, false⟩, exponent) := by
  have target : Format.binary64.targetExponent (totalExponent (mantissa <<< k) (exponent - k)) =
      exponent := by
    have least := normal.least
    rw [totalExponent, normal.log2_shiftLeft, Format.targetExponent]
    simp only [Format.mantissaBits, Format.minExponent]
    omega
  have amount : (exponent - (exponent - k)).toNat = k := by omega
  have back : exponent - k + k = exponent := by omega
  unfold shiftToTargetExponent shiftToExponent
  simp only [target, amount, back, ExtendedMantissa.ofMantissaAndAccuracy]
  exact congrArg (·, exponent) (repeat_shiftRightOne mantissa k)

/-- The zeros behind a normal mantissa are dropped, and nothing else. -/
theorem roundWithAccuracy_shiftLeft (normal : Normal mantissa exponent) (sign : Sign) (k : Nat) :
    roundWithAccuracy Format.binary64 sign (mantissa <<< k) (exponent - k) .exact =
      .finite sign mantissa exponent normal.pos := by
  have again := shiftToTargetExponent_shiftLeft normal 0
  rw [Nat.shiftLeft_zero, Int.natCast_zero, Int.sub_zero] at again
  have nonzero : mantissa ≠ 0 := Nat.ne_of_gt normal.pos
  unfold roundWithAccuracy
  simp only [shiftToTargetExponent_shiftLeft normal k, ExtendedMantissa.roundedMantissa,
    ExtendedMantissa.accuracy, Accuracy.roundToNearestEven, again, dif_neg nonzero]

/-! ### Packing -/

theorem exponentBias_add_bits :
    (Format.binary64.exponentBias : Int) + (Format.binary64.mantissaBitsWithoutImplicit : Int) =
      1075 := rfl

theorem pack_normal (normal : Normal mantissa exponent) (sign : Sign) :
    pack Format.binary64 (.finite sign mantissa exponent normal.pos) =
      packComponents Format.binary64 sign (BitVec.ofNat 11 (exponent + 1075).toNat)
        (BitVec.ofNat 52 mantissa) := by
  have bounds := normal.biased_bounds
  have log2 := normal.log2_shiftLeft 0
  rw [Nat.shiftLeft_zero, Nat.add_zero] at log2
  have inRange : ¬2 ^ 11 ≤ (exponent + 1075).toNat + 1 := by omega
  unfold pack
  dsimp only
  rw [Int.add_assoc, exponentBias_add_bits, if_neg inRange, if_pos (by rw [log2]; rfl)]

theorem unpack_pack (normal : Normal mantissa exponent) (sign : Sign) :
    unpack Format.binary64 (pack Format.binary64 (.finite sign mantissa exponent normal.pos)) =
      .finite sign mantissa exponent normal.pos := by
  have bounds := normal.biased_bounds
  have biased := normal.toNat_biased
  have notLast : BitVec.ofNat 11 (exponent + 1075).toNat ≠ -1#11 := by
    intro last
    have value : (exponent + 1075).toNat = 2047 := by
      rw [← biased, last]
      rfl
    omega
  have notFirst : BitVec.ofNat 11 (exponent + 1075).toNat ≠ 0#11 := by
    intro first
    have value : (exponent + 1075).toNat = 0 := by
      rw [← biased, first]
      rfl
    omega
  have leading : (1#1 ++ BitVec.ofNat 52 mantissa).toNat = mantissa := by
    have lower := normal.lower
    rw [BitVec.toNat_append, ← Nat.shiftLeft_add_eq_or_of_lt (BitVec.isLt _),
      normal.toNat_fraction, BitVec.toNat_ofNat, Nat.shiftLeft_eq]
    omega
  have unbiased : ((BitVec.ofNat 11 (exponent + 1075).toNat).toNat : Int) -
      ((Format.binary64.exponentBias : Int) + (Format.binary64.mantissaBitsWithoutImplicit : Int)) =
        exponent := by
    have least := normal.least
    rw [biased, exponentBias_add_bits]
    omega
  rw [pack_normal normal]
  unfold unpack
  simp only [unpackMantissa_packComponents, unpackExponent_packComponents,
    unpackSign_packComponents, Sign.ofBitVec_toBitVec]
  rw [if_neg notLast, if_neg notFirst]
  congr 1

theorem toNat_packComponents (sign : Sign) (exponent : BitVec 11) (mantissa : BitVec 52) :
    (packComponents Format.binary64 sign exponent mantissa).toNat =
      sign.toBitVec.toNat * 2 ^ 63 + exponent.toNat * 2 ^ 52 + mantissa.toNat := by
  unfold packComponents
  rw [BitVec.toNat_append, BitVec.toNat_append, ← Nat.shiftLeft_add_eq_or_of_lt mantissa.isLt,
    ← Nat.shiftLeft_add_eq_or_of_lt exponent.isLt, Nat.shiftLeft_eq, Nat.shiftLeft_eq]
  omega

/-! ### Floats -/

def sign (negative : Bool) : Sign := if negative then .negative else .positive

/-- The float `± mantissa · 2 ^ exponent`. -/
def ofNormal (negative : Bool) (normal : Normal mantissa exponent) : Float :=
  .ofModel (.pack (.finite (sign negative) mantissa exponent normal.pos))

theorem unpack_ofNormal (negative : Bool) (normal : Normal mantissa exponent) :
    (ofNormal negative normal).toModel.unpack =
      .finite (sign negative) mantissa exponent normal.pos :=
  unpack_pack normal (sign negative)

theorem toBits_ofNormal (negative : Bool) (normal : Normal mantissa exponent) :
    (ofNormal negative normal).toBits.toNat =
      negative.toNat * 2 ^ 63 + (exponent + 1075).toNat * 2 ^ 52 + (mantissa - 2 ^ 52) := by
  have signBit : (sign negative).toBitVec.toNat = negative.toNat := by cases negative <;> rfl
  change (pack Format.binary64 (.finite (sign negative) mantissa exponent normal.pos)).toNat = _
  rw [pack_normal normal, toNat_packComponents, normal.toNat_biased, normal.toNat_fraction,
    signBit]

theorem read_ofNormal (negative : Bool) (normal : Normal mantissa exponent) :
    read (ofNormal negative normal) = .finite negative mantissa exponent := by
  have lower := normal.lower
  have upper := normal.upper
  have least := normal.least
  have bounds := normal.biased_bounds
  have small := negative.toNat_le
  have middle : (ofNormal negative normal).toBits.toNat / 2 ^ 52 % 2 ^ 11 =
      (exponent + 1075).toNat := by
    rw [toBits_ofNormal]
    omega
  have fraction : (ofNormal negative normal).toBits.toNat % 2 ^ 52 = mantissa - 2 ^ 52 := by
    rw [toBits_ofNormal]
    omega
  have leading : decide (2 ^ 63 ≤ (ofNormal negative normal).toBits.toNat) = negative := by
    rw [toBits_ofNormal]
    cases negative
    · rw [decide_eq_false_iff_not, Bool.toNat_false]
      omega
    · rw [decide_eq_true_eq, Bool.toNat_true]
      omega
  have whole : 2 ^ 52 + (mantissa - 2 ^ 52) = mantissa := by omega
  have unbiased : ((exponent + 1075).toNat : Int) - 1075 = exponent := by omega
  unfold read
  simp only [Nat.pow_eq, middle, fraction, leading]
  rw [if_neg (by omega), if_neg (by omega), whole, unbiased]

theorem neg_ofNormal (normal : Normal mantissa exponent) :
    (ofNormal false normal).neg = ofNormal true normal := by
  change Float.ofModel (.pack (ofNormal false normal).toModel.unpack.neg) = _
  rw [unpack_ofNormal]
  rfl

theorem ofNormal_add_zero (negative : Bool) (normal : Normal mantissa exponent) :
    ofNormal negative normal + -0.0 = ofNormal negative normal := by
  have zero : (-0.0 : Float).toModel.unpack = .zero .negative := rfl
  change Float.ofModel (.pack (UnpackedFloat.add Format.binary64
    (ofNormal negative normal).toModel.unpack (-0.0 : Float).toModel.unpack)) = _
  rw [unpack_ofNormal, zero]
  rfl

end

/-! ### Whole numbers -/

section
variable {n : Nat}

/-- Zeros are put behind a whole number until it fills the mantissa. -/
theorem normal_shiftLeft (pos : n ≠ 0) (bound : n < 2 ^ 53) :
    Normal (n <<< (52 - n.log2)) (n.log2 - 52) := by
  have short : n.log2 < 53 := (Nat.log2_lt pos).mpr bound
  have scale := Nat.two_pow_pos (52 - n.log2)
  constructor
  case lower =>
    calc 2 ^ 52 = 2 ^ n.log2 * 2 ^ (52 - n.log2) := by
          rw [← Nat.pow_add, Nat.add_sub_of_le (by omega)]
      _ ≤ n * 2 ^ (52 - n.log2) := Nat.mul_le_mul_right _ (Nat.log2_self_le pos)
      _ = n <<< (52 - n.log2) := (Nat.shiftLeft_eq ..).symm
  case upper =>
    calc n <<< (52 - n.log2) = n * 2 ^ (52 - n.log2) := Nat.shiftLeft_eq ..
      _ < 2 ^ (n.log2 + 1) * 2 ^ (52 - n.log2) :=
          Nat.mul_lt_mul_of_pos_right Nat.lt_log2_self scale
      _ = 2 ^ 53 := by rw [← Nat.pow_add, Nat.add_right_comm, Nat.add_sub_of_le (by omega)]
  case least => omega
  case greatest => omega

theorem round_whole (pos : n ≠ 0) (bound : n < 2 ^ 53) (sign : Sign) :
    UnpackedFloat.round Format.binary64 sign n 0 =
      .finite sign (n <<< (52 - n.log2)) (n.log2 - 52) (normal_shiftLeft pos bound).pos := by
  have short : n.log2 < 53 := (Nat.log2_lt pos).mpr bound
  have target : Format.binary64.targetExponent (totalExponent n 0) = n.log2 - 52 := by
    rw [totalExponent, Format.targetExponent]
    simp only [Format.mantissaBits, Format.minExponent]
    omega
  have amount : (0 - ((n.log2 : Int) - 52)).toNat = 52 - n.log2 := by omega
  have exponent : (0 : Int) - (52 - n.log2 : Nat) = n.log2 - 52 := by omega
  have rounded := roundWithAccuracy_shiftLeft (normal_shiftLeft pos bound) sign 0
  rw [Nat.shiftLeft_zero, Int.natCast_zero, Int.sub_zero] at rounded
  unfold UnpackedFloat.round decreaseExponent
  simp only [target, amount, exponent]
  exact rounded

theorem toFloat_whole (pos : n ≠ 0) (bound : n < 2 ^ 53) :
    n.toUInt64.toFloat = ofNormal false (normal_shiftLeft pos bound) := by
  have same : n.toUInt64.toNat = n := by
    rw [Nat.toUInt64, UInt64.toNat_ofNat']
    omega
  have above : compare (n : Int) 0 = .gt := by
    rw [Int.compare_eq_gt]
    omega
  change Float.ofModel (.pack (.normalize Format.binary64 (n.toUInt64.toNat : Int) 0 .positive)) = _
  rw [same, UnpackedFloat.normalize, above, Int.toNat_natCast, round_whole pos bound]
  rfl

theorem one_eq : Float.ofBits 0x3FF0000000000000 =
    ofNormal false (⟨by decide, by decide, by decide, by decide⟩ : Normal (2 ^ 52) (-52)) := rfl

/-- A literal is taken times a power of ten, here the first one. -/
theorem ofNat_whole (pos : n ≠ 0) (bound : n < 2 ^ 53) :
    Float.ofNat n = ofNormal false (normal_shiftLeft pos bound) := by
  have fast : n < 2 ^ 53 ∧ 0 ≤ 22 := ⟨bound, by decide⟩
  have rounded := roundWithAccuracy_shiftLeft (normal_shiftLeft pos bound) .positive 52
  rw [Nat.shiftLeft_eq] at rounded
  change Float.ofScientific n false 0 = _
  unfold Float.ofScientific
  rw [dif_pos fast]
  change n.toUInt64.toFloat * Float.ofBits 0x3FF0000000000000 = _
  rw [toFloat_whole pos bound, one_eq]
  change Float.ofModel (.pack (UnpackedFloat.mul Format.binary64
    (ofNormal false (normal_shiftLeft pos bound)).toModel.unpack
    (ofNormal false _).toModel.unpack)) = _
  rw [unpack_ofNormal, unpack_ofNormal]
  exact congrArg (fun product => Float.ofModel (.pack product)) rounded

def signed (negative : Bool) (n : Nat) : Int := if negative then -n else n

/-- A whole number of less than 53 bits is zero, or a sign and a magnitude. -/
theorem whole_cases {P : Int → Prop} (zero : P 0)
    (nonzero : ∀ negative n, n ≠ 0 → n < 2 ^ 53 → P (signed negative n)) {n : Int}
    (bound : n.natAbs < 2 ^ 53) : P n := by
  by_cases nothing : n = 0
  · rw [nothing]
    exact zero
  · have pos : n.natAbs ≠ 0 := Int.natAbs_ne_zero.mpr nothing
    obtain same | same := Int.natAbs_eq n
    · rw [same]
      exact nonzero false n.natAbs pos bound
    · rw [same]
      exact nonzero true n.natAbs pos bound

theorem ofInt_signed (pos : n ≠ 0) (bound : n < 2 ^ 53) (negative : Bool) :
    Float.ofInt (signed negative n) = ofNormal negative (normal_shiftLeft pos bound) := by
  cases negative with
  | false => exact ofNat_whole pos bound
  | true =>
    have below : Float.ofInt (signed true n) = (Float.ofNat n).neg := by
      cases n with
      | zero => exact absurd rfl pos
      | succ n => rfl
    rw [below, ofNat_whole pos bound, neg_ofNormal]

theorem read_signed (pos : n ≠ 0) (bound : n < 2 ^ 53) (negative : Bool) :
    read (Float.ofInt (signed negative n)) =
      .finite negative (n <<< (52 - n.log2)) (n.log2 - 52) := by
  rw [ofInt_signed pos bound, read_ofNormal]

theorem floorOf_whole (pos : n ≠ 0) (bound : n < 2 ^ 53) (negative : Bool) :
    floorOf negative (n <<< (52 - n.log2)) (n.log2 - 52) = signed negative n := by
  have short : n.log2 < 53 := (Nat.log2_lt pos).mpr bound
  have scale : ((2 ^ (52 - n.log2) : Nat) : Int) ≠ 0 := by
    exact_mod_cast Nat.ne_of_gt (Nat.two_pow_pos (52 - n.log2))
  have mantissa : (if negative then -((n <<< (52 - n.log2) : Nat) : Int)
      else ((n <<< (52 - n.log2) : Nat) : Int)) =
        signed negative n * (2 ^ (52 - n.log2) : Nat) := by
    rw [Nat.shiftLeft_eq, Int.natCast_mul, signed]
    split
    · rw [Int.neg_mul]
    · rfl
  unfold floorOf
  simp only [Nat.pow_eq, mantissa]
  split
  · have widest : n.log2 = 52 := by omega
    rw [widest]
    simp
  · have exponent : (-((n.log2 : Int) - 52)).toNat = 52 - n.log2 := by omega
    rw [exponent, Int.mul_ediv_cancel _ scale]

end

theorem floor_ofInt {n : Int} (bound : n.natAbs < 2 ^ 53) :
    floor (Float.ofInt n) = Float.ofInt n := by
  refine whole_cases (P := fun n => floor (Float.ofInt n) = Float.ofInt n) (by decide +kernel)
    (fun negative n pos small => ?_) bound
  have nonzero : signed negative n ≠ 0 := by
    unfold signed
    split <;> omega
  unfold floor
  rw [read_signed pos small]
  dsimp only
  rw [floorOf_whole pos small, ofIntSigned, if_neg fun zero => nonzero zero.1]

theorem toInt_ofInt {n : Int} (bound : n.natAbs < 2 ^ 53) : toInt (Float.ofInt n) = n := by
  refine whole_cases (P := fun n => toInt (Float.ofInt n) = n) (by decide +kernel)
    (fun negative n pos small => ?_) bound
  unfold toInt
  rw [read_signed pos small]
  dsimp only
  rw [floorOf_whole pos small]
  unfold signed Checked.saturate Checked.least Checked.greatest
  cases negative
  · simp only [Bool.false_eq_true, if_false]
    omega
  · simp only [Bool.false_eq_true, if_false, if_true]
    omega

theorem ofInt_add_zero {n : Int} (bound : n.natAbs < 2 ^ 53) :
    Float.ofInt n + -0.0 = Float.ofInt n := by
  refine whole_cases (P := fun n => Float.ofInt n + -0.0 = Float.ofInt n) (by decide +kernel)
    (fun negative n pos small => ?_) bound
  rw [ofInt_signed pos small, ofNormal_add_zero]

end Binary64

/-- A flat amount of less than 53 bits is worth just that, whoever is the source. -/
theorem Formula.evaluate_flat {n : Int} (bound : n.natAbs < 2 ^ 53) (stats : Option StatBlock) :
    (flat (Float.ofInt n)).evaluate stats = n := by
  have unscaled : (flat (Float.ofInt n)).scaled stats = -0.0 := rfl
  rw [evaluate, unscaled, flat, Binary64.ofInt_add_zero bound, Binary64.floor_ofInt bound,
    Binary64.toInt_ofInt bound]

end Combat
