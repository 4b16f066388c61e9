import Mathlib.Algebra.Order.Field.Power
import Mathlib.Data.Rat.Cast.Order
import Mathlib.Tactic.Linarith
import Mathlib.Tactic.Positivity
import Mathlib.Tactic.Ring
import PolicyText.Binary.Basic

/-!
# Rounding that stays finite

A quotient is rounded to a finite number if it is not far beyond the numbers of the format, half of
the greatest power of two in it being enough (`Binary.isFinite_ofRatio`).  So an integer of 64 bits
is a finite number of 64 bits (`Binary.isFinite_ofInt_double`), and so is every finite number of 32
bits (`Binary.isFinite_convert_double`).  There is no such fact in the other direction.

The exponent at which a quotient is written leaves it with a significand of at most `precision`
bits, and of no less unless the exponent is the least one (`exponentFor_spec`); rounding does not
carry a significand over a whole number (`le_roundedQuotient`, `roundedQuotient_le`).
-/

namespace PolicyText.Binary

/-! ## Powers of two -/

lemma powerOfTwo_pos (e : Int) : 0 < (powerOfTwo e).1 ∧ 0 < (powerOfTwo e).2 :=
  ⟨Nat.two_pow_pos _, Nat.two_pow_pos _⟩

lemma powerOfTwo_eq (e : Int) : ((powerOfTwo e).1 : ℚ) / (powerOfTwo e).2 = 2 ^ e := by
  obtain ⟨k, rfl | rfl⟩ := Int.eq_nat_or_neg e
  · simp [powerOfTwo]
  · simp [powerOfTwo]

/-! ## Rounding a quotient -/

section Quotient

variable {numerator denominator k : Nat}

lemma roundedQuotient_cases (numerator denominator : Nat) (h : 0 < denominator) :
    roundedQuotient numerator denominator = numerator / denominator ∨
      (roundedQuotient numerator denominator = numerator / denominator + 1 ∧
        0 < numerator % denominator) := by
  unfold roundedQuotient
  dsimp only
  split
  · exact Or.inl rfl
  · have hRemainder : 0 < numerator % denominator := by omega
    split
    · exact Or.inr ⟨rfl, hRemainder⟩
    · obtain hEven | hOdd := Nat.mod_two_eq_zero_or_one (numerator / denominator)
      · exact Or.inl (by rw [hEven, Nat.add_zero])
      · exact Or.inr ⟨by rw [hOdd], hRemainder⟩

lemma le_roundedQuotient (hd : 0 < denominator) (h : k * denominator ≤ numerator) :
    k ≤ roundedQuotient numerator denominator := by
  have hWhole : k ≤ numerator / denominator := (Nat.le_div_iff_mul_le hd).2 h
  obtain hRound | ⟨hRound, -⟩ := roundedQuotient_cases numerator denominator hd
  · omega
  · omega

lemma roundedQuotient_le (hd : 0 < denominator) (h : numerator ≤ k * denominator) :
    roundedQuotient numerator denominator ≤ k := by
  have hWhole : numerator / denominator ≤ k := Nat.div_le_of_le_mul (by rwa [Nat.mul_comm])
  obtain hRound | ⟨hRound, hRemainder⟩ := roundedQuotient_cases numerator denominator hd
  · omega
  · -- With a remainder, the whole part is less.
    have hSplit := Nat.div_add_mod numerator denominator
    have hLess : numerator / denominator < k := by
      by_contra hNot
      have hMul := Nat.mul_le_mul_left denominator (Nat.le_of_not_lt hNot)
      rw [Nat.mul_comm k] at h
      omega
    omega

end Quotient

/-! ## The exponent -/

section Exponent

variable {format : BinaryFormat} {numerator denominator : Nat}

lemma log2_bounds (h : 0 < numerator) :
    (2 : ℚ) ^ (numerator.log2 : Int) ≤ numerator ∧
      (numerator : ℚ) < 2 ^ ((numerator.log2 : Int) + 1) := by
  constructor
  · have hLe := Nat.log2_self_le (Nat.pos_iff_ne_zero.1 h)
    rw [zpow_natCast]
    exact_mod_cast hLe
  · have hLt : numerator < 2 ^ (numerator.log2 + 1) := Nat.lt_log2_self
    have hCast : ((numerator.log2 : Int) + 1) = ((numerator.log2 + 1 : Nat) : Int) := by push_cast; rfl
    rw [hCast, zpow_natCast]
    exact_mod_cast hLt

/-- A quotient lies between powers of two that are known from the numbers of bits. -/
lemma quotient_bounds (hn : 0 < numerator) (hd : 0 < denominator) :
    (2 : ℚ) ^ ((numerator.log2 : Int) - denominator.log2 - 1) ≤ (numerator : ℚ) / denominator ∧
      (numerator : ℚ) / denominator < 2 ^ ((numerator.log2 : Int) - denominator.log2 + 1) := by
  have hdPos : (0 : ℚ) < denominator := by exact_mod_cast hd
  obtain ⟨hnLe, hnLt⟩ := log2_bounds hn
  obtain ⟨hdLe, hdLt⟩ := log2_bounds hd
  constructor
  · rw [le_div_iff₀ hdPos]
    calc (2 : ℚ) ^ ((numerator.log2 : Int) - denominator.log2 - 1) * denominator
        ≤ 2 ^ ((numerator.log2 : Int) - denominator.log2 - 1) * 2 ^ ((denominator.log2 : Int) + 1) :=
          mul_le_mul_of_nonneg_left hdLt.le (by positivity)
      _ = 2 ^ (numerator.log2 : Int) := by
          rw [← zpow_add₀ two_ne_zero]
          congr 1
          omega
      _ ≤ numerator := hnLe
  · rw [div_lt_iff₀ hdPos]
    calc (numerator : ℚ) < 2 ^ ((numerator.log2 : Int) + 1) := hnLt
      _ = 2 ^ ((numerator.log2 : Int) - denominator.log2 + 1) * 2 ^ (denominator.log2 : Int) := by
          rw [← zpow_add₀ two_ne_zero]
          congr 1
          omega
      _ ≤ 2 ^ ((numerator.log2 : Int) - denominator.log2 + 1) * denominator :=
          mul_le_mul_of_nonneg_left hdLe (by positivity)

lemma mul_lt_mul_powerOfTwo (hd : 0 < denominator) (e : Int) :
    numerator * (powerOfTwo e).2 < denominator * (powerOfTwo e).1 ↔
      (numerator : ℚ) / denominator < 2 ^ e := by
  obtain ⟨-, hDown⟩ := powerOfTwo_pos e
  have hdPos : (0 : ℚ) < denominator := by exact_mod_cast hd
  have hDownPos : (0 : ℚ) < (powerOfTwo e).2 := by exact_mod_cast hDown
  rw [← powerOfTwo_eq, div_lt_div_iff₀ hdPos hDownPos, mul_comm ((powerOfTwo e).1 : ℚ)]
  exact_mod_cast Iff.rfl

/-- The exponent at which a quotient is written is no less than the least one; it leaves no more
than `precision` bits before the point, and no fewer unless it is the least one. -/
lemma exponentFor_spec (format : BinaryFormat) (hn : 0 < numerator) (hd : 0 < denominator) :
    format.leastExponent ≤ exponentFor format numerator denominator ∧
      (numerator : ℚ) / denominator
        < 2 ^ (exponentFor format numerator denominator + format.precision) ∧
      (exponentFor format numerator denominator = format.leastExponent ∨
        (2 : ℚ) ^ (exponentFor format numerator denominator + format.precision - 1)
          ≤ (numerator : ℚ) / denominator) := by
  obtain ⟨hLower, hUpper⟩ := quotient_bounds hn hd
  have hMono {a b : Int} (h : a ≤ b) : (2 : ℚ) ^ a ≤ 2 ^ b := zpow_le_zpow_right₀ one_le_two h
  -- The guess is right, or too small by one.
  have hGuess : ∃ e, exponentFor format numerator denominator = max format.leastExponent e ∧
      (numerator : ℚ) / denominator < 2 ^ (e + format.precision) ∧
      (2 : ℚ) ^ (e + format.precision - 1) ≤ (numerator : ℚ) / denominator := by
    unfold exponentFor
    dsimp only
    split
    · rename_i hLess
      refine ⟨_, rfl, (mul_lt_mul_powerOfTwo hd _).1 hLess, (hMono ?_).trans hLower⟩
      omega
    · rename_i hNot
      refine ⟨_, rfl, hUpper.trans_le (hMono ?_), ?_⟩
      · omega
      · rw [mul_lt_mul_powerOfTwo hd, not_lt] at hNot
        refine (hMono ?_).trans hNot
        omega
  obtain ⟨e, hExponent, hLess, hLe⟩ := hGuess
  rw [hExponent]
  refine ⟨le_max_left _ _, hLess.trans_le (hMono ?_), ?_⟩
  · exact Int.add_le_add_right (le_max_right _ _) _
  · obtain hMax | hMax := max_choice format.leastExponent e
    · exact Or.inl hMax
    · right
      rw [hMax]
      exact hLe

end Exponent

/-! ## Finite results -/

section Finite

variable {format : BinaryFormat} {numerator denominator : Nat}

lemma isFinite_ofParts {significand : Nat} {exponent : Int} (negative : Bool)
    (h : format.admits significand exponent = true) :
    (ofParts format negative significand exponent).isFinite = true := by
  rw [ofParts, dif_pos h]
  rfl

/-- A quotient that is scaled by the power of two of an exponent is compared with a number of bits
as the quotient is with a power of two. -/
lemma scaled_le (hd : 0 < denominator) (e : Int) (bits : Nat) :
    (numerator * (powerOfTwo e).2 ≤ 2 ^ bits * (denominator * (powerOfTwo e).1) ↔
      (numerator : ℚ) / denominator ≤ 2 ^ (e + bits)) ∧
    (2 ^ bits * (denominator * (powerOfTwo e).1) ≤ numerator * (powerOfTwo e).2 ↔
      (2 : ℚ) ^ (e + bits) ≤ (numerator : ℚ) / denominator) := by
  obtain ⟨-, hDown⟩ := powerOfTwo_pos e
  have hdPos : (0 : ℚ) < denominator := by exact_mod_cast hd
  have hDownPos : (0 : ℚ) < (powerOfTwo e).2 := by exact_mod_cast hDown
  have hPower : (2 : ℚ) ^ (e + bits) = (2 ^ bits * (powerOfTwo e).1) / (powerOfTwo e).2 := by
    rw [zpow_add₀ two_ne_zero, ← powerOfTwo_eq, zpow_natCast]
    ring
  have hProduct : (2 ^ bits * (powerOfTwo e).1 : ℚ) * denominator
      = 2 ^ bits * (denominator * (powerOfTwo e).1) := by ring
  constructor
  · rw [hPower, div_le_div_iff₀ hdPos hDownPos, hProduct]
    exact_mod_cast Iff.rfl
  · rw [hPower, div_le_div_iff₀ hDownPos hdPos, hProduct]
    exact_mod_cast Iff.rfl

/-- A quotient that is at most the greatest power of two of a format is rounded to a finite number.
-/
lemma isFinite_ofRatio (hPrecision : 0 < format.precision)
    (hRange : format.leastExponent ≤ format.greatestExponent) (negative : Bool)
    (hd : 0 < denominator)
    (h : (numerator : ℚ) / denominator
      ≤ 2 ^ (format.greatestExponent + (format.precision - 1 : Nat))) :
    (ofRatio format negative numerator denominator).isFinite = true := by
  unfold ofRatio
  split
  · refine isFinite_ofParts _ ?_
    simp [BinaryFormat.admits, hRange]
  rename_i hZero
  have hn : 0 < numerator := Nat.pos_of_ne_zero hZero
  obtain ⟨hLeast, hLess, hBits⟩ := exponentFor_spec format hn hd
  generalize exponentFor format numerator denominator = e at hLeast hLess hBits
  have hScale : 0 < denominator * (powerOfTwo e).1 := Nat.mul_pos hd (powerOfTwo_pos e).1
  have hPred : ((format.precision - 1 : Nat) : Int) = format.precision - 1 := by omega
  have hHalf : 2 ^ (format.precision - 1) < 2 ^ format.precision :=
    Nat.pow_lt_pow_right (by decide) (by omega)
  -- Rounding leaves the significand within the bits that the exponent leaves for it.
  have hMost := roundedQuotient_le hScale ((scaled_le hd e format.precision).1.2 hLess.le)
  have hFewest : e = format.leastExponent ∨ 2 ^ (format.precision - 1)
      ≤ roundedQuotient (numerator * (powerOfTwo e).2) (denominator * (powerOfTwo e).1) := by
    refine hBits.imp_right fun hLe => ?_
    refine le_roundedQuotient hScale ((scaled_le hd e _).2.2 ?_)
    rwa [hPred, ← Int.add_sub_assoc]
  have hGreatest : e ≤ format.greatestExponent := by
    obtain rfl | hLe := hBits
    · exact hRange
    · rw [Int.add_sub_assoc, ← hPred] at hLe
      have hCompare := (zpow_le_zpow_iff_right₀ one_lt_two).1 (hLe.trans h)
      omega
  dsimp only
  split
  · rename_i hCarry
    refine isFinite_ofParts _ ?_
    -- At the greatest exponent there is no carry.
    have hBelow : e < format.greatestExponent := by
      refine lt_of_le_of_ne hGreatest fun hSame => ?_
      have hFew := roundedQuotient_le hScale ((scaled_le hd e _).1.2 (hSame ▸ h))
      omega
    simp only [BinaryFormat.admits, Bool.and_eq_true, Bool.or_eq_true, decide_eq_true_eq]
    exact ⟨⟨⟨hHalf, by omega⟩, by omega⟩, Or.inl le_rfl⟩
  · rename_i hNoCarry
    refine isFinite_ofParts _ ?_
    simp only [BinaryFormat.admits, Bool.and_eq_true, Bool.or_eq_true, decide_eq_true_eq]
    exact ⟨⟨⟨Nat.lt_of_le_of_ne hMost hNoCarry, hLeast⟩, hGreatest⟩, hFewest.symm⟩

lemma isFinite_ofInt_double {n : Int} (h : n.natAbs ≤ 2 ^ 64) :
    (ofInt .double n).isFinite = true := by
  refine isFinite_ofRatio (by decide) (by decide) _ Nat.one_pos ?_
  have hCast : (n.natAbs : ℚ) ≤ 2 ^ (64 : Int) := by exact_mod_cast h
  rw [Nat.cast_one, div_one]
  exact hCast.trans (zpow_le_zpow_right₀ one_le_two (by decide))

lemma isFinite_convert_double {x : Binary32} (h : x.isFinite = true) :
    (x.convert .double).isFinite = true := by
  cases x with
  | infinite negative => cases h
  | finite negative significand exponent admitted =>
    refine isFinite_ofRatio (by decide) (by decide) _ (powerOfTwo_pos exponent).2 ?_
    simp only [BinaryFormat.admits, Bool.and_eq_true, decide_eq_true_eq] at admitted
    obtain ⟨⟨⟨hSignificand, -⟩, hExponent⟩, -⟩ := admitted
    have hLe : (significand : ℚ) ≤ 2 ^ (24 : Int) := by exact_mod_cast hSignificand.le
    calc ((significand * (powerOfTwo exponent).1 : Nat) : ℚ) / (powerOfTwo exponent).2
        = significand * 2 ^ exponent := by
          rw [← powerOfTwo_eq, Nat.cast_mul, mul_div_assoc]
      _ ≤ 2 ^ (24 : Int) * 2 ^ (104 : Int) := by
          refine mul_le_mul hLe ?_ (by positivity) (by positivity)
          exact zpow_le_zpow_right₀ one_le_two hExponent
      _ ≤ _ := by
          rw [← zpow_add₀ two_ne_zero]
          exact zpow_le_zpow_right₀ one_le_two (by decide)

end Finite

end PolicyText.Binary
