import EntityCursor.Binary64.Basic
import Mathlib.Algebra.Group.Nat.Defs

/-!
Whole numbers in floating point. A whole number that a floating-point number has inside is held
exactly as long as it has at most 53 bits, and no whole number of 64 bits rounds to an infinity.
-/

namespace EntityCursor

namespace Binary64

/-! Bits. -/

theorem toNat_ofMagnitude {magnitude : Nat} (fits : magnitude < 2 ^ 63) (negative : Bool) :
    (ofMagnitude negative magnitude).bits.toNat =
      (if negative then 2 ^ 63 else 0) + magnitude := by
  rw [ofMagnitude, UInt64.toNat_ofNat', Nat.pow_eq]
  apply Nat.mod_eq_of_lt
  split <;> omega

theorem magnitude_ofMagnitude {magnitude : Nat} (fits : magnitude < 2 ^ 63) (negative : Bool) :
    (ofMagnitude negative magnitude).magnitude = magnitude := by
  rw [Binary64.magnitude, toNat_ofMagnitude fits, Nat.pow_eq]
  split <;> omega

@[simp]
theorem ofMagnitude_magnitude (number : Binary64) :
    ofMagnitude number.isNegative number.magnitude = number := by
  have bound := number.bits.toNat_lt
  have parts : (if number.isNegative then Nat.pow 2 63 else 0) + number.magnitude =
      number.bits.toNat := by
    rw [isNegative, magnitude, Nat.pow_eq]
    split
    · next negative =>
        have high := of_decide_eq_true negative
        omega
    · next negative =>
        have low := of_decide_eq_false (Bool.eq_false_iff.mpr negative)
        omega
  rw [ofMagnitude, parts, UInt64.ofNat_toNat]

/-! Rounding whole numbers. -/

variable {value : Nat}

/-- A whole number in units of its last kept bit, as a ratio of whole numbers. -/
theorem shifted_cases (value : Nat) :
    (∃ places, value.log2 = 52 + places ∧
      shifted value 1 (value.log2 - 52) = (value, 2 ^ places)) ∨
    ∃ places, value.log2 + places = 52 ∧
      shifted value 1 (value.log2 - 52) = (value * 2 ^ places, 1) := by
  by_cases many : 52 ≤ value.log2
  · left
    refine ⟨value.log2 - 52, by omega, ?_⟩
    have places : ((value.log2 : Int) - 52).toNat = value.log2 - 52 := by omega
    rw [shifted, if_pos (by omega), places, Nat.one_mul, Nat.pow_eq]
  · right
    refine ⟨52 - value.log2, by omega, ?_⟩
    have places : (-((value.log2 : Int) - 52)).toNat = 52 - value.log2 := by omega
    rw [shifted, if_neg (by omega), places, Nat.pow_eq]

theorem shifted_bounds {above below : Nat} (positive : value ≠ 0)
    (inUnits : shifted value 1 (value.log2 - 52) = (above, below)) :
    0 < below ∧ 2 ^ 52 * below ≤ above ∧ above < 2 ^ 53 * below := by
  have low := Nat.log2_self_le positive
  have high : value < 2 ^ (value.log2 + 1) := Nat.lt_log2_self
  rcases shifted_cases value with ⟨places, size, shape⟩ | ⟨places, size, shape⟩
  · cases inUnits.symm.trans shape
    rw [size, Nat.add_right_comm, Nat.pow_add] at high
    rw [size, Nat.pow_add] at low
    exact ⟨Nat.two_pow_pos places, low, high⟩
  · cases inUnits.symm.trans shape
    have sizeAbove : 2 ^ 53 = 2 ^ (value.log2 + 1) * 2 ^ places := by
      rw [← Nat.pow_add, Nat.add_right_comm, size]
    have sizeBelow : 2 ^ 52 = 2 ^ value.log2 * 2 ^ places := by
      rw [← Nat.pow_add, size]
    refine ⟨by decide, ?_, ?_⟩
    · rw [Nat.mul_one, sizeBelow]
      exact Nat.mul_le_mul_right _ low
    · rw [Nat.mul_one, sizeAbove]
      exact Nat.mul_lt_mul_of_pos_right high (Nat.two_pow_pos places)

@[simp]
theorem lastExponent_one (positive : value ≠ 0) :
    lastExponent value 1 = (value.log2 : Int) - 52 := by
  have one : Nat.log2 1 = 0 := by decide
  have guess : max (-1074) ((value.log2 : Int) - (Nat.log2 1 : Nat) - 52) =
      (value.log2 : Int) - 52 := by
    rw [one]
    omega
  rw [lastExponent, guess]
  rcases inUnits : shifted value 1 (value.log2 - 52) with ⟨above, below⟩
  obtain ⟨_, enough, _⟩ := shifted_bounds positive inUnits
  dsimp only
  rw [if_neg]
  rw [Nat.pow_eq]
  omega

theorem ofRatio_one {above below : Nat} (positive : value ≠ 0)
    (inUnits : shifted value 1 (value.log2 - 52) = (above, below)) (negative : Bool) :
    ofRatio negative value 1 =
      ofMagnitude negative
        (min ((value.log2 + 1022) * 2 ^ 52 + roundedQuotient above below) infinityMagnitude) := by
  have unit : ((value.log2 : Int) - 52 + 1074).toNat = value.log2 + 1022 := by omega
  rw [ofRatio, if_neg positive, lastExponent_one positive]
  dsimp only
  rw [inUnits]
  dsimp only
  rw [unit, Nat.pow_eq]

theorem roundedQuotient_le (above below : Nat) :
    roundedQuotient above below ≤ above / below + 1 := by
  rw [roundedQuotient]
  split <;> omega

@[simp]
theorem roundedQuotient_one (above : Nat) : roundedQuotient above 1 = above := by
  simp [roundedQuotient, Nat.mod_one]

theorem isFinite_ofMagnitude {magnitude : Nat} (below : magnitude < infinityMagnitude)
    (negative : Bool) : (ofMagnitude negative magnitude).isFinite := by
  rw [isFinite, magnitude_ofMagnitude (Nat.lt_trans below (by decide)), decide_eq_true_eq]
  exact below

theorem isFinite_ofInt {whole : Int} (fits : whole.natAbs ≤ 2 ^ 64) : (ofInt whole).isFinite := by
  rw [ofInt]
  by_cases zero : whole.natAbs = 0
  · rw [zero, ofRatio, if_pos rfl]
    exact isFinite_ofMagnitude (by decide) _
  · have size : whole.natAbs.log2 < 65 := (Nat.log2_lt zero).mpr (by omega)
    rcases inUnits : shifted whole.natAbs 1 (whole.natAbs.log2 - 52) with ⟨above, below⟩
    obtain ⟨positive, _, bound⟩ := shifted_bounds zero inUnits
    have quotient : above / below < 2 ^ 53 := Nat.div_lt_of_lt_mul (by rwa [Nat.mul_comm])
    have rounded := roundedQuotient_le above below
    rw [ofRatio_one zero inUnits]
    apply isFinite_ofMagnitude
    apply Nat.lt_of_le_of_lt (Nat.min_le_left _ _)
    rw [infinityMagnitude, Nat.pow_eq]
    omega

/-! Whole numbers inside. -/

theorem natAbs_truncate (number : Binary64) :
    number.truncate.natAbs =
      if 0 ≤ number.exponent then number.significand * 2 ^ number.exponent.toNat
      else number.significand / 2 ^ (-number.exponent).toNat := by
  rw [truncate, Nat.pow_eq, Nat.pow_eq]
  split <;> omega

theorem significand_of_normal {number : Binary64} (normal : 2 ^ 52 ≤ number.magnitude) :
    number.significand = number.magnitude % 2 ^ 52 + 2 ^ 52 ∧
      number.exponent = (number.magnitude / 2 ^ 52 : Nat) - 1075 := by
  rw [significand, exponent, Nat.pow_eq, if_neg (by omega), if_neg (by omega)]
  exact ⟨rfl, rfl⟩

theorem normal_of_truncate_ne_zero {number : Binary64} (nonzero : number.truncate ≠ 0) :
    2 ^ 52 ≤ number.magnitude := by
  apply Nat.le_of_not_lt
  intro subnormal
  have size := natAbs_truncate number
  rw [significand, exponent, Nat.pow_eq, if_pos subnormal, if_pos subnormal, if_neg (by decide),
    Nat.div_eq_of_lt] at size
  · exact nonzero (Int.natAbs_eq_zero.mp size)
  · exact Nat.lt_of_lt_of_le subnormal (Nat.pow_le_pow_right (by decide) (by decide))

/-- The significand of a number with a whole number other than zero inside is that number times a
power of two, where the power makes up for the exponent. -/
theorem significand_of_toInt? {number : Binary64} {whole : Int}
    (inside : number.toInt? = some whole) (nonzero : whole ≠ 0)
    (small : whole.natAbs < 2 ^ 53) :
    ∃ places : Nat, number.exponent = -places ∧
      number.significand = whole.natAbs * 2 ^ places := by
  rw [toInt?] at inside
  split at inside
  · next isWhole =>
      cases inside
      have size := natAbs_truncate number
      obtain ⟨significand, _⟩ := significand_of_normal (normal_of_truncate_ne_zero nonzero)
      -- A positive exponent would take the number past 53 bits.
      have noMore : number.exponent ≤ 0 := by
        apply Int.not_lt.mp
        intro positive
        rw [if_pos (by omega)] at size
        have doubles : 2 ^ 1 ≤ 2 ^ number.exponent.toNat :=
          Nat.pow_le_pow_right (by decide) (by omega)
        have large := Nat.mul_le_mul (Nat.le_add_left (2 ^ 52) (number.magnitude % 2 ^ 52)) doubles
        rw [← significand, ← size] at large
        omega
      refine ⟨(-number.exponent).toNat, by omega, ?_⟩
      rcases Int.lt_or_eq_of_le noMore with fractional | unit
      · rw [if_neg (by omega)] at size
        have divides := isWhole.2.resolve_left (by omega)
        rw [size]
        exact (Nat.div_mul_cancel (Nat.dvd_of_mod_eq_zero divides)).symm
      · rw [unit] at size ⊢
        rw [size]
        simp
  · cases inside

theorem log2_mul_two_pow {value : Nat} (positive : value ≠ 0) (places : Nat) :
    (value * 2 ^ places).log2 = value.log2 + places := by
  have power := Nat.two_pow_pos places
  apply (Nat.log2_eq_iff (Nat.mul_ne_zero positive (Nat.ne_of_gt power))).mpr
  rw [Nat.add_right_comm, Nat.pow_add, Nat.pow_add]
  exact ⟨Nat.mul_le_mul_right _ (Nat.log2_self_le positive),
    Nat.mul_lt_mul_of_pos_right Nat.lt_log2_self power⟩

theorem isNegative_of_truncate {number : Binary64} (nonzero : number.truncate ≠ 0) :
    decide (number.truncate < 0) = number.isNegative := by
  rw [truncate] at nonzero ⊢
  cases number.isNegative with
  | true =>
      simp only [if_true] at nonzero ⊢
      rw [decide_eq_true_eq]
      omega
  | false =>
      simp only [Bool.false_eq_true, if_false] at nonzero ⊢
      rw [decide_eq_false_iff_not]
      omega

/-- A whole number of up to 53 bits is held exactly, but zero without its sign. -/
theorem ofInt_of_toInt? {number : Binary64} {whole : Int} (inside : number.toInt? = some whole)
    (nonzero : whole ≠ 0) (small : whole.natAbs < 2 ^ 53) : ofInt whole = number := by
  obtain ⟨places, exponent, significand⟩ := significand_of_toInt? inside nonzero small
  rw [toInt?] at inside
  split at inside
  · next isWhole =>
      cases inside
      have normal := normal_of_truncate_ne_zero nonzero
      obtain ⟨parts, scale⟩ := significand_of_normal normal
      have positive : number.truncate.natAbs ≠ 0 := by omega
      have size : number.truncate.natAbs.log2 + places = 52 := by
        rw [← log2_mul_two_pow positive, ← significand, parts, Nat.log2_eq_iff (by omega)]
        omega
      have inUnits : shifted number.truncate.natAbs 1 (number.truncate.natAbs.log2 - 52) =
          (number.significand, 1) := by
        rw [significand]
        rcases shifted_cases number.truncate.natAbs with
          ⟨more, large, shape⟩ | ⟨others, same, shape⟩
        · obtain rfl : more = 0 := by omega
          obtain rfl : places = 0 := by omega
          rw [shape, Nat.pow_zero, Nat.mul_one]
        · obtain rfl : others = places := by omega
          exact shape
      have magnitude : (number.truncate.natAbs.log2 + 1022) * 2 ^ 52 +
          roundedQuotient number.significand 1 = number.magnitude := by
        rw [roundedQuotient_one, parts]
        omega
      have finite := of_decide_eq_true isWhole.1
      rw [ofInt, ofRatio_one positive inUnits, magnitude, Nat.min_eq_left (Nat.le_of_lt finite),
        isNegative_of_truncate nonzero, ofMagnitude_magnitude]
  · cases inside

end Binary64

end EntityCursor
