import ProtonWire.Lib.Binary32

/-!
# Bounds on binary32 arithmetic

How large a result can be, in powers of two: enough to see that a computation stays finite without
following its roundings. Every operation rounds an exact ratio once, and rounding does not pass a
power of two.

* `displayFixed`: the text of a value to a fixed number of decimals;
* `Within`: a finite value of a magnitude up to `2 ^ e` units;
* **`within_roundRatio`**, `le_low_roundRatio`: a rounded ratio stays on its side of a power of two;
* `Within.add`, `Within.sub`, `Within.mul`, `Within.div`, `within_ofInt`: the operations.
-/

namespace Binary32

/-- `|x|`. -/
def abs (x : Binary32) : Binary32 := ofLow false x.low

/-- `{:.digits}` of an `f32`: its exact value to so many decimals, ties to even. -/
def displayFixed (digits : ℕ) (x : Binary32) : String :=
  if x.isNaN then "NaN"
  else (if x.sign then "-" else "") ++
    (if x.isInfinite then "inf"
    else
      let n := roundHalfEven (x.magnitude * 10 ^ digits) (2 ^ 149)
      toString (n / 10 ^ digits) ++ "." ++
      String.ofList ((toString (n % 10 ^ digits + 10 ^ digits)).toList.drop 1))

example : displayFixed 4 (div one (ofInt 3)) = "0.3333" := by decide

/-! ## Bits -/

section
variable {x y : Binary32} {neg : Bool} {n : ℕ}

theorem low_lt (x : Binary32) : x.low < 2 ^ 31 := Nat.mod_lt _ (by decide)

theorem toNat_ofLow (neg : Bool) (h : n < 2 ^ 31) :
    (ofLow neg n).bits.toNat = if neg then 2 ^ 31 + n else n := by
  unfold ofLow
  rw [BitVec.toNat_ofNat]
  cases neg
  · simp
    omega
  · simp
    omega

theorem low_ofLow (neg : Bool) (h : n < 2 ^ 31) : (ofLow neg n).low = n := by
  unfold low
  rw [toNat_ofLow neg h]
  cases neg <;> simp <;> omega

theorem sign_ofLow (neg : Bool) (h : n < 2 ^ 31) : (ofLow neg n).sign = neg := by
  unfold sign
  rw [toNat_ofLow neg h]
  cases neg
  · simpa using h
  · simp

theorem infLow_lt : infLow < 2 ^ 31 := by decide

theorem isFinite_iff : x.isFinite = true ↔ x.low < infLow := by
  have := low_lt x
  unfold isFinite exponent infLow
  simp only [bne_iff_ne, ne_eq]
  omega

/-- A finite value is no NaN. -/
theorem not_isNaN (h : x.isFinite = true) : x.isNaN = false := by
  unfold isFinite at h
  unfold isNaN
  simp only [bne_iff_ne, ne_eq] at h
  simp [h]

theorem not_isInfinite (h : x.isFinite = true) : x.isInfinite = false := by
  unfold isFinite at h
  unfold isInfinite
  simp only [bne_iff_ne, ne_eq] at h
  simp [h]

theorem fraction_lt (x : Binary32) : x.fraction < 2 ^ 23 := Nat.mod_lt _ (by decide)

/-- The magnitude grows with the low bits. -/
theorem magnitude_mono (h : x.low ≤ y.low) : x.magnitude ≤ y.magnitude := by
  have hx := fraction_lt x
  have hexp : x.exponent ≤ y.exponent := Nat.div_le_div_right h
  unfold magnitude
  by_cases hsame : x.exponent = y.exponent
  · have hfraction : x.fraction ≤ y.fraction := by
      unfold exponent at hsame
      unfold fraction
      omega
    rw [hsame]
    split_ifs
    · exact hfraction
    · exact Nat.mul_le_mul_right _ (by omega)
  · -- the greatest value of one binade is below the least of the next
    have hy : y.exponent ≠ 0 := by omega
    rw [if_neg hy]
    have hnext : 2 ^ 23 * 2 ^ (y.exponent - 1) ≤ (2 ^ 23 + y.fraction) * 2 ^ (y.exponent - 1) :=
      Nat.mul_le_mul_right _ (by omega)
    refine le_trans ?_ hnext
    split_ifs with hzero
    · exact hx.le.trans (Nat.le_mul_of_pos_right _ (Nat.two_pow_pos _))
    · calc (2 ^ 23 + x.fraction) * 2 ^ (x.exponent - 1) ≤ 2 ^ 24 * 2 ^ (x.exponent - 1) :=
            Nat.mul_le_mul_right _ (by omega)
        _ = 2 ^ 23 * 2 ^ (x.exponent - 1 + 1) := by ring
        _ ≤ 2 ^ 23 * 2 ^ (y.exponent - 1) :=
        Nat.mul_le_mul_left _ (Nat.pow_le_pow_right (by decide) (by omega))

/-- The low bits of a power of two, from the least normal value on. -/
def powLow (e : ℕ) : ℕ := (e - 22) * 2 ^ 23

theorem powLow_lt {e : ℕ} (h : e ≤ 276) : powLow e < infLow := by
  unfold powLow infLow
  omega

theorem magnitude_powLow (neg : Bool) {e : ℕ} (hlow : 23 ≤ e) (hhigh : e ≤ 276) :
    (ofLow neg (powLow e)).magnitude = 2 ^ e := by
  have hlt := (powLow_lt hhigh).trans infLow_lt
  have hexp : (ofLow neg (powLow e)).exponent = e - 22 := by
    unfold exponent
    rw [low_ofLow neg hlt]
    exact Nat.mul_div_cancel _ (by decide)
  have hfraction : (ofLow neg (powLow e)).fraction = 0 := by
    unfold fraction
    rw [low_ofLow neg hlt]
    exact Nat.mul_mod_left _ _
  unfold magnitude
  rw [hexp, hfraction, if_neg (by omega), Nat.add_zero, ← pow_add]
  congr 1
  omega

end

/-! ## Rounding -/

section
variable {num den k e : ℕ} {neg : Bool}

theorem roundHalfEven_le (hden : 0 < den) (h : num ≤ den * k) : roundHalfEven num den ≤ k := by
  have hle : num / den ≤ k := Nat.div_le_of_le_mul h
  unfold roundHalfEven
  split_ifs with hdown
  · exact hle
  · have hne : num / den ≠ k := by
      intro heq
      have hdiv := Nat.div_add_mod num den
      rw [heq] at hdiv
      omega
    omega

theorem le_roundHalfEven (hden : 0 < den) (h : den * k ≤ num) : k ≤ roundHalfEven num den := by
  have hle : k ≤ num / den := (Nat.le_div_iff_mul_le hden).mpr (by rwa [Nat.mul_comm])
  unfold roundHalfEven
  split_ifs <;> omega

/-- A finite value of a magnitude up to `2 ^ e` units. -/
def Within (e : ℕ) (x : Binary32) : Prop := x.isFinite = true ∧ x.magnitude ≤ 2 ^ e

theorem Within.mono {e' : ℕ} {x : Binary32} (h : Within e x) (he : e ≤ e') : Within e' x :=
  ⟨h.1, h.2.trans (Nat.pow_le_pow_right (by decide) he)⟩

theorem within_of_low_le {x : Binary32} (hlow : 23 ≤ e) (hhigh : e ≤ 276) (h : x.low ≤ powLow e) :
    Within e x := by
  have hlt := powLow_lt hhigh
  refine ⟨isFinite_iff.mpr (by omega), ?_⟩
  rw [← magnitude_powLow false hlow hhigh]
  exact magnitude_mono (by rwa [low_ofLow false (hlt.trans infLow_lt)])

theorem low_roundRatio (neg : Bool) (num den : ℕ) : (roundRatio neg num den).low =
    min infLow ((Nat.log2 (num / den) - 23) * 2 ^ 23 +
      roundHalfEven num (den * 2 ^ (Nat.log2 (num / den) - 23))) := by
  unfold roundRatio
  exact low_ofLow neg (lt_of_le_of_lt (Nat.min_le_left _ _) infLow_lt)

/-- **A ratio up to a power of two is rounded to a value up to it.** -/
theorem within_roundRatio (hden : 0 < den) (h : num ≤ den * 2 ^ e) (hlow : 23 ≤ e)
    (hhigh : e ≤ 276) :
    Within e (roundRatio neg num den) := by
  refine within_of_low_le hlow hhigh ?_
  rw [low_roundRatio]
  refine (Nat.min_le_right _ _).trans ?_
  have hquotient : num / den ≤ 2 ^ e := Nat.div_le_of_le_mul h
  have hpos : ∀ shift, 0 < den * 2 ^ shift := fun shift => Nat.mul_pos hden (Nat.two_pow_pos _)
  unfold powLow
  by_cases htop : num / den = 2 ^ e
  · -- the power of two itself
    have hround : roundHalfEven num (den * 2 ^ (e - 23)) ≤ 2 ^ 23 := by
      refine roundHalfEven_le (hpos _) ?_
      rwa [Nat.mul_assoc, ← pow_add, Nat.sub_add_cancel hlow]
    rw [htop, Nat.log2_two_pow]
    omega
  · have hbelow : num / den < 2 ^ e := lt_of_le_of_ne hquotient htop
    have hlog : Nat.log2 (num / den) < e := by
      by_cases hzero : num / den = 0
      · rw [hzero, Nat.log2_zero]
        omega
      · exact (Nat.log2_lt hzero).mpr hbelow
    have hnum : num ≤ den * 2 ^ (Nat.log2 (num / den) + 1) :=
      ((Nat.div_lt_iff_lt_mul hden).mp Nat.lt_log2_self).le.trans_eq (Nat.mul_comm _ _)
    by_cases hsmall : Nat.log2 (num / den) < 23
    · have hshift : Nat.log2 (num / den) - 23 = 0 := by omega
      have hround : roundHalfEven num (den * 2 ^ 0) ≤ 2 ^ 23 := by
        refine roundHalfEven_le (hpos _) ?_
        rw [pow_zero, Nat.mul_one]
        exact hnum.trans (Nat.mul_le_mul_left _ (Nat.pow_le_pow_right (by decide) (by omega)))
      rw [hshift]
      omega
    · have hround : roundHalfEven num (den * 2 ^ (Nat.log2 (num / den) - 23)) ≤ 2 ^ 24 := by
        refine roundHalfEven_le (hpos _) ?_
        rw [Nat.mul_assoc, ← pow_add]
        exact hnum.trans (Nat.mul_le_mul_left _ (Nat.pow_le_pow_right (by decide) (by omega)))
      omega

/-- **A ratio from a power of two on is rounded to a value from it on.** -/
theorem le_low_roundRatio (hden : 0 < den) (h : den * 2 ^ e ≤ num) (hlow : 23 ≤ e)
    (hhigh : e ≤ 276) :
    powLow e ≤ (roundRatio neg num den).low := by
  have hquotient : 2 ^ e ≤ num / den := (Nat.le_div_iff_mul_le hden).mpr (by rwa [Nat.mul_comm])
  have hzero : num / den ≠ 0 := by
    have := Nat.two_pow_pos e
    omega
  have hlog : e ≤ Nat.log2 (num / den) := (Nat.le_log2 hzero).mpr hquotient
  have hround : 2 ^ 23 ≤ roundHalfEven num (den * 2 ^ (Nat.log2 (num / den) - 23)) := by
    refine le_roundHalfEven (Nat.mul_pos hden (Nat.two_pow_pos _)) ?_
    rw [Nat.mul_assoc, ← pow_add, Nat.sub_add_cancel (by omega), Nat.mul_comm]
    exact (Nat.le_div_iff_mul_le hden).mp (Nat.log2_self_le hzero)
  rw [low_roundRatio, le_min_iff]
  refine ⟨(powLow_lt hhigh).le, ?_⟩
  unfold powLow
  omega

end

/-! ## Operations -/

section
variable {x y : Binary32} {a b e : ℕ}

theorem natAbs_signedMagnitude (x : Binary32) : x.signedMagnitude.natAbs = x.magnitude := by
  unfold signedMagnitude
  split_ifs <;> simp

theorem add_finite (hx : x.isFinite = true) (hy : y.isFinite = true) : x.add y =
    if x.signedMagnitude + y.signedMagnitude = 0 then ofLow (x.sign && y.sign) 0
    else roundRatio (decide (x.signedMagnitude + y.signedMagnitude < 0))
      (x.signedMagnitude + y.signedMagnitude).natAbs 1 := by
  unfold add
  rw [not_isNaN hx, not_isNaN hy, not_isInfinite hx, not_isInfinite hy]
  rfl

theorem within_zero {neg : Bool} : Within e (ofLow neg 0) := by
  have hlow := low_ofLow neg (show 0 < 2 ^ 31 by decide)
  refine ⟨isFinite_iff.mpr (by rw [hlow]; decide), ?_⟩
  unfold magnitude exponent fraction
  rw [hlow]
  exact Nat.zero_le _

theorem Within.add (hx : Within e x) (hy : Within e y) (hlow : 22 ≤ e) (hhigh : e < 276) :
    Within (e + 1) (x.add y) := by
  rw [add_finite hx.1 hy.1]
  split_ifs
  · exact within_zero
  · refine within_roundRatio (by decide) ?_ (by omega) hhigh
    have habs := Int.natAbs_add_le x.signedMagnitude y.signedMagnitude
    rw [natAbs_signedMagnitude, natAbs_signedMagnitude] at habs
    have := hx.2
    have := hy.2
    rw [pow_succ]
    omega

theorem Within.neg (h : Within e x) (neg : Bool) : Within e (ofLow neg x.low) := by
  have hlow := low_ofLow neg (low_lt x)
  refine ⟨isFinite_iff.mpr (by rw [hlow]; exact isFinite_iff.mp h.1), ?_⟩
  exact (magnitude_mono hlow.le).trans h.2

theorem Within.sub (hx : Within e x) (hy : Within e y) (hlow : 22 ≤ e) (hhigh : e < 276) :
    Within (e + 1) (x.sub y) := hx.add (hy.neg _) hlow hhigh

theorem Within.mul (hx : Within a x) (hy : Within b y) (hlow : 172 ≤ a + b) (hhigh : a + b ≤ 425) :
    Within (a + b - 149) (x.mul y) := by
  unfold Binary32.mul
  rw [not_isNaN hx.1, not_isNaN hy.1, not_isInfinite hx.1, not_isInfinite hy.1]
  refine within_roundRatio (Nat.two_pow_pos _) ?_ (by omega) (by omega)
  rw [← pow_add, Nat.add_sub_cancel' (by omega), pow_add]
  exact Nat.mul_le_mul hx.2 hy.2

/-- A quotient, given how far the dividend is above the divisor. -/
theorem Within.div (hx : x.isFinite = true) (hy : y.isFinite = true) (hpos : 0 < y.magnitude)
    (h : x.magnitude * 2 ^ 149 ≤ y.magnitude * 2 ^ e) (hlow : 23 ≤ e) (hhigh : e ≤ 276) :
    Within e (x.div y) := by
  have hne : y.low ≠ 0 := by
    intro hzero
    have : y.magnitude ≤ (ofLow false 0).magnitude :=
      magnitude_mono (by rw [hzero]; exact Nat.zero_le _)
    have hzero : (ofLow false 0).magnitude = 0 := by decide
    omega
  unfold Binary32.div
  rw [not_isNaN hx, not_isNaN hy, not_isInfinite hx, not_isInfinite hy, if_neg hne]
  exact within_roundRatio hpos h hlow hhigh

theorem within_ofInt {z : ℤ} (h : z.natAbs ≤ 2 ^ e) (hhigh : e ≤ 127) :
    Within (e + 149) (ofInt z) := by
  unfold ofInt
  refine within_roundRatio (by decide) ?_ (by omega) (by omega)
  rw [pow_add, Nat.one_mul]
  exact Nat.mul_le_mul_right _ h

/-- An integer from a power of two on. -/
theorem le_magnitude_ofInt {z : ℤ} (h : 2 ^ e ≤ z.natAbs) (hhigh : e ≤ 127) :
    2 ^ (e + 149) ≤ (ofInt z).magnitude := by
  unfold ofInt
  have hnum : 1 * 2 ^ (e + 149) ≤ z.natAbs * 2 ^ 149 := by
    rw [pow_add, Nat.one_mul]
    exact Nat.mul_le_mul_right _ h
  have hround : powLow (e + 149) ≤ (roundRatio (decide (z < 0)) (z.natAbs * 2 ^ 149) 1).low :=
    le_low_roundRatio (by decide) hnum (by omega) (by omega)
  calc 2 ^ (e + 149) = (ofLow false (powLow (e + 149))).magnitude :=
        (magnitude_powLow false (by omega) (by omega)).symm
    _ ≤ _ := magnitude_mono (by rwa [low_ofLow false ((powLow_lt (by omega)).trans infLow_lt)])

end

/-! ## Values that are not negative -/

section
variable {x y : Binary32} {e : ℕ}

/-- No NaN, and negative as a zero only. -/
structure Nonneg (x : Binary32) : Prop where
  low : x.low ≤ infLow
  sign : x.sign = true → x.low = 0

theorem isNaN_iff : x.isNaN = true ↔ infLow < x.low := by
  unfold isNaN exponent fraction infLow
  have := low_lt x
  simp only [Bool.and_eq_true, beq_iff_eq, bne_iff_ne, ne_eq]
  omega

theorem isInfinite_iff : x.isInfinite = true ↔ x.low = infLow := by
  unfold isInfinite exponent fraction infLow
  have := low_lt x
  simp only [Bool.and_eq_true, beq_iff_eq]
  omega

theorem Nonneg.not_isNaN (h : Nonneg x) : x.isNaN = false :=
  Bool.eq_false_iff.mpr fun hnan => absurd (isNaN_iff.mp hnan) (not_lt.mpr h.low)

theorem Nonneg.isFinite (h : Nonneg x) (hinf : x.isInfinite = false) : x.isFinite = true := by
  refine isFinite_iff.mpr (lt_of_le_of_ne h.low fun heq => ?_)
  rw [isInfinite_iff.mpr heq] at hinf
  cases hinf

theorem magnitude_of_low_eq_zero (h : x.low = 0) : x.magnitude = 0 := by
  unfold magnitude exponent fraction
  rw [h]
  rfl

theorem Nonneg.signedMagnitude (h : Nonneg x) : x.signedMagnitude = x.magnitude := by
  unfold Binary32.signedMagnitude
  split_ifs with hsign
  · rw [magnitude_of_low_eq_zero (h.sign hsign)]
    rfl
  · rfl

theorem Nonneg.position (h : Nonneg x) : x.position = x.low := by
  unfold Binary32.position
  split_ifs with hsign
  · rw [h.sign hsign]
    rfl
  · rfl

theorem Nonneg.lt_eq (hx : Nonneg x) (hy : Nonneg y) : x.lt y = decide (x.low < y.low) := by
  unfold lt
  rw [hx.not_isNaN, hy.not_isNaN, hx.position, hy.position]
  simp

theorem Nonneg.of_sign (hlow : x.low ≤ infLow) (hsign : x.sign = false) : Nonneg x :=
  ⟨hlow, fun h => by rw [hsign] at h; cases h⟩

theorem nonneg_ofLow {n : ℕ} (h : n ≤ infLow) : Nonneg (ofLow false n) :=
  .of_sign (by rwa [low_ofLow false (h.trans_lt infLow_lt)])
  (sign_ofLow false (h.trans_lt infLow_lt))

theorem nonneg_zero (neg : Bool) : Nonneg (ofLow neg 0) :=
  have hlow : (ofLow neg 0).low = 0 := low_ofLow neg (by decide)
  ⟨by rw [hlow]; exact Nat.zero_le _, fun _ => hlow⟩

theorem nonneg_roundRatio (num den : ℕ) : Nonneg (roundRatio false num den) := by
  unfold roundRatio
  exact nonneg_ofLow (Nat.min_le_left _ _)

theorem pow_le_magnitude (h : powLow e ≤ x.low) (hlow : 23 ≤ e) (hhigh : e ≤ 276) :
    2 ^ e ≤ x.magnitude := by
  rw [← magnitude_powLow false hlow hhigh]
  exact magnitude_mono (by rwa [low_ofLow false ((powLow_lt hhigh).trans infLow_lt)])

/-- A sum of values that are not negative is none, and is not below a power of two that one of them
reaches. -/
theorem Nonneg.add (hx : Nonneg x) (hy : Nonneg y) : Nonneg (x.add y) ∧
    ∀ e, 23 ≤ e → e ≤ 276 → powLow e ≤ x.low ∨ powLow e ≤ y.low → powLow e ≤ (x.add y).low := by
  have hinf : ∀ z : Binary32, Nonneg z → z.isInfinite = true → z.sign = false ∧ ∀ e, e ≤ 276 →
    powLow e ≤ z.low := by
    intro z hz hzinf
    have hzlow := isInfinite_iff.mp hzinf
    refine ⟨Bool.eq_false_iff.mpr fun hsign => ?_,
      fun e he => by rw [hzlow]; exact (powLow_lt he).le⟩
    rw [hz.sign hsign] at hzlow
    exact absurd hzlow (by decide)
  unfold Binary32.add
  rw [hx.not_isNaN, hy.not_isNaN]
  by_cases hxinf : x.isInfinite = true
  · have hsum : (if y.isInfinite && x.sign != y.sign then nan else x) = x := by
      refine if_neg ?_
      rw [Bool.and_eq_true]
      rintro ⟨hyinf, hsign⟩
      rw [(hinf x hx hxinf).1, (hinf y hy hyinf).1] at hsign
      cases hsign
    rw [hxinf]
    simp only [Bool.or_self, Bool.false_eq_true, if_false, if_true]
    rw [hsum]
    exact ⟨hx, fun e _ he _ => (hinf x hx hxinf).2 e he⟩
  by_cases hyinf : y.isInfinite = true
  · rw [Bool.eq_false_iff.mpr hxinf, hyinf]
    simp only [Bool.or_self, Bool.false_eq_true, if_false, if_true]
    exact ⟨hy, fun e _ he _ => (hinf y hy hyinf).2 e he⟩
  rw [Bool.eq_false_iff.mpr hxinf, Bool.eq_false_iff.mpr hyinf, hx.signedMagnitude,
    hy.signedMagnitude]
  simp only [Bool.or_self, Bool.false_eq_true, if_false]
  have hsum : ((x.magnitude : ℤ) + y.magnitude).natAbs = x.magnitude + y.magnitude := by omega
  have hsign : decide ((x.magnitude : ℤ) + y.magnitude < 0) = false := decide_eq_false (by omega)
  split_ifs with hzero
  · refine ⟨nonneg_zero _, fun e hlow hhigh h => ?_⟩
    have hpos := Nat.two_pow_pos e
    rcases h with h | h
    · have := pow_le_magnitude h hlow hhigh
      omega
    · have := pow_le_magnitude h hlow hhigh
      omega
  · rw [hsum, hsign]
    refine ⟨nonneg_roundRatio _ _, fun e hlow hhigh h =>
      le_low_roundRatio (by decide) ?_ hlow hhigh⟩
    rcases h with h | h
    · have := pow_le_magnitude h hlow hhigh
      omega
    · have := pow_le_magnitude h hlow hhigh
      omega

theorem low_abs (x : Binary32) : x.abs.low = x.low := low_ofLow false (low_lt x)

/-- From a power of two on, what is below half of it leaves half of it. -/
theorem Nonneg.le_low_sub (hx : Nonneg x) (hy : Within e y) (hlow : 23 ≤ e) (hhigh : e < 276)
    (h : powLow (e + 1) ≤ x.low) : powLow e ≤ (x.sub y).low ∧ (x.sub y).low ≤ infLow := by
  have hz := hy.neg !y.sign
  unfold Binary32.sub
  by_cases hinf : x.isInfinite = true
  · have hsame : x.add (ofLow (!y.sign) y.low) = x := by
      unfold Binary32.add
      rw [hx.not_isNaN, Binary32.not_isNaN hz.1, hinf, not_isInfinite hz.1]
      rfl
    rw [hsame, isInfinite_iff.mp hinf]
    exact ⟨(powLow_lt hhigh.le).le, le_refl _⟩
  · rw [add_finite (hx.isFinite (Bool.eq_false_iff.mpr hinf)) hz.1, hx.signedMagnitude]
    have hreach := pow_le_magnitude h (by omega) (by omega)
    have hsmall := hz.2
    rw [← natAbs_signedMagnitude] at hsmall
    rw [pow_succ] at hreach
    have hpos := Nat.two_pow_pos e
    rw [if_neg (by omega), low_roundRatio]
    refine ⟨?_, Nat.min_le_left _ _⟩
    rw [← low_roundRatio (decide ((x.magnitude : ℤ) + (ofLow (!y.sign) y.low).signedMagnitude < 0))]
    exact le_low_roundRatio (by decide) (by omega) hlow hhigh.le

/-- The same of a sum over a list. -/
theorem Nonneg.foldl_add {l : List Binary32} (hx : Nonneg x) (hl : ∀ w ∈ l, Nonneg w)
    (hlow : 23 ≤ e) (hhigh : e ≤ 276) (h : powLow e ≤ x.low ∨ ∃ w ∈ l, powLow e ≤ w.low) :
    Nonneg (l.foldl Binary32.add x) ∧ powLow e ≤ (l.foldl Binary32.add x).low := by
  induction l generalizing x with
  | nil =>
    rcases h with h | ⟨w, hw, -⟩
    · exact ⟨hx, h⟩
    · cases hw
  | cons w l ih =>
    obtain ⟨hsum, hreach⟩ := hx.add (hl w List.mem_cons_self)
    refine ih hsum (fun w hw => hl w (List.mem_cons_of_mem _ hw)) ?_
    rcases h with h | ⟨w', hw', h⟩
    · exact .inl (hreach e hlow hhigh (.inl h))
    · rcases List.mem_cons.mp hw' with rfl | hw'
      · exact .inl (hreach e hlow hhigh (.inr h))
      · exact .inr ⟨w', hw', h⟩

/-- The greatest of a list is in it, and no value of the list is above it. -/
theorem Nonneg.foldl_max {l : List Binary32} (hx : Nonneg x) (hl : ∀ w ∈ l, Nonneg w) :
    l.foldl Binary32.max x ∈ x :: l ∧ ∀ w ∈ x :: l, w.low ≤ (l.foldl Binary32.max x).low := by
  induction l generalizing x with
  | nil => exact ⟨List.mem_cons_self, fun w hw => by rw [List.mem_singleton.mp hw]; rfl⟩
  | cons w l ih =>
    have hw := hl w List.mem_cons_self
    have hmax : x.max w = if x.low < w.low then w else x := by
      unfold Binary32.max
      rw [hx.not_isNaN, hw.not_isNaN, hx.lt_eq hw]
      simp
    have hnonneg : Nonneg (x.max w) := by
      rw [hmax]
      split_ifs
      · exact hw
      · exact hx
    obtain ⟨hmem, hgreatest⟩ := ih hnonneg fun v hv => hl v (List.mem_cons_of_mem _ hv)
    rw [List.foldl_cons]
    refine ⟨?_, fun v hv => ?_⟩
    · rcases List.mem_cons.mp hmem with heq | hmem
      · rw [heq, hmax]
        split_ifs
        · exact List.mem_cons_of_mem _ List.mem_cons_self
        · exact List.mem_cons_self
      · exact List.mem_cons_of_mem _ (List.mem_cons_of_mem _ hmem)
    · have hhead := hgreatest _ List.mem_cons_self
      have hboth : x.low ≤ (x.max w).low ∧ w.low ≤ (x.max w).low := by
        rw [hmax]
        split_ifs <;> omega
      rcases List.mem_cons.mp hv with rfl | hv
      · exact hboth.1.trans hhead
      rcases List.mem_cons.mp hv with rfl | hv
      · exact hboth.2.trans hhead
      · exact hgreatest v (List.mem_cons_of_mem _ hv)

end

end Binary32
