import Mathlib
import TagTemplate.Number.Decimal
import TagTemplate.Proofs.Rounding

/-! The double of a decimal is the one nearest to its value. The shortcuts for very large and
very small decimals agree with rounding, and so does the limit beyond which there is no finite
double. -/

namespace TagTemplate

namespace Binary64

theorem roundHalfEven_spec (num : Nat) {den : Nat} (h : 0 < den) :
    2 * (roundHalfEven num den * den) ≤ 2 * num + den ∧
    2 * num ≤ 2 * (roundHalfEven num den * den) + den ∧
    (2 * (roundHalfEven num den * den) = 2 * num + den ∨
      2 * num = 2 * (roundHalfEven num den * den) + den → roundHalfEven num den % 2 = 0) := by
  have hdiv := Nat.div_add_mod num den
  have hlt := Nat.mod_lt num h
  have hsucc : (num / den + 1) * den = num / den * den + den := Nat.succ_mul _ _
  rw [Nat.mul_comm] at hdiv
  unfold roundHalfEven
  dsimp only
  split_ifs with hlow hhigh
  · omega
  · rw [hsucc]
    omega
  · obtain heven | hodd := Nat.mod_two_eq_zero_or_one (num / den)
    · rw [heven, Nat.add_zero]
      omega
    · rw [hodd, hsucc]
      omega

section

variable {num den r : Nat}

theorem stepsOf_low (h : 0 < den) : stepOf (num / den) = 0 ∨ binade ≤ stepsOf num den := by
  by_cases hs : stepOf (num / den) = 0
  · exact .inl hs
  · exact .inr (le_stepsOf h (Nat.pos_of_ne_zero hs))

/-- The next rank is a whole step away. -/
theorem units_add_step_le (h : 0 < den) (hr : nearestRank num den < r) :
    units (nearestRank num den) + 2 ^ stepOf (num / den) ≤ units r := by
  have hhigh := @stepsOf_le num den h
  have hlow := @stepsOf_low num den h
  have hnext : units (nearestRank num den) + 2 ^ stepOf (num / den) ≤
      units (nearestRank num den + 1) := by
    rw [units_nearestRank h, nearestRank_eq]
    generalize stepOf (num / den) = s at *
    generalize stepsOf num den = m at *
    by_cases hm : m = 2 * binade
    · have hrank : s * binade + m + 1 = (s + 1) * binade + (binade + 1) := by
        rw [hm]
        ring
      have hfits : binade + 1 ≤ 2 * binade ∧ binade ≤ binade + 1 := by
        unfold binade
        omega
      rw [hrank, units_of_steps hfits.1 (.inr hfits.2), hm, pow_succ]
      nlinarith [Nat.two_pow_pos s]
    · have hrank : s * binade + m + 1 = s * binade + (m + 1) := Nat.add_assoc _ m 1
      rw [hrank, units_of_steps (by omega) (hlow.imp_right Nat.le_succ_of_le)]
      exact (Nat.succ_mul m (2 ^ s)).ge
  exact hnext.trans (units_strictMono.monotone hr)

/-- The rank before is a whole step away, or it is where the steps get wider and the quotient
lies on their side. -/
theorem units_add_step_le_or (h : 0 < den) (hr : r < nearestRank num den) :
    units r + 2 ^ stepOf (num / den) ≤ units (nearestRank num den) ∨
      units (nearestRank num den) ≤ num / den := by
  have hhigh := @stepsOf_le num den h
  have hlow := @stepsOf_low num den h
  by_cases hedge : 0 < stepOf (num / den) ∧ stepsOf num den = binade
  · right
    rw [units_nearestRank h, hedge.2]
    calc binade * 2 ^ stepOf (num / den) = 2 ^ (stepOf (num / den) + 52) := by rw [pow_add]; ring
      _ ≤ num / den := le_of_stepOf hedge.1
  · left
    rw [nearestRank_eq] at hr
    have hle : r ≤ stepOf (num / den) * binade + (stepsOf num den - 1) := by omega
    have hm : stepOf (num / den) = 0 ∨ binade ≤ stepsOf num den - 1 := by
      unfold binade at *
      omega
    have hpos : 0 < stepsOf num den := by
      unfold binade at *
      omega
    have hbefore : units (stepOf (num / den) * binade + (stepsOf num den - 1)) =
        (stepsOf num den - 1) * 2 ^ stepOf (num / den) := units_of_steps (by omega) hm
    have hstep : (stepsOf num den - 1) * 2 ^ stepOf (num / den) + 2 ^ stepOf (num / den) =
        stepsOf num den * 2 ^ stepOf (num / den) := by
      rw [← Nat.succ_mul, Nat.succ_eq_add_one, Nat.sub_add_cancel hpos]
    have hmono := units_strictMono.monotone hle
    rw [units_nearestRank h, ← hstep, ← hbefore]
    omega

end

theorem le_nearestRank {num den k : Nat} (h : 0 < den) (hq : 2 ^ (k + 53) ≤ num / den) :
    (k + 2) * binade ≤ nearestRank num den := by
  have hne : num / den ≠ 0 := (lt_of_lt_of_le (Nat.two_pow_pos _) hq).ne'
  have hlog := (Nat.le_log2 hne).mpr hq
  have hstep : k + 1 ≤ stepOf (num / den) := by
    unfold stepOf
    omega
  have hsteps := le_stepsOf h (lt_of_lt_of_le k.succ_pos hstep)
  rw [nearestRank_eq]
  unfold binade at *
  omega

theorem nearestRank_of_tiny {num den : Nat} (h : 2 * num < den) : nearestRank num den = 0 := by
  have hq : num / den = 0 := Nat.div_eq_of_lt (by omega)
  have hr : num % den = num := Nat.mod_eq_of_lt (by omega)
  have hstep : stepOf 0 = 0 := by decide
  rw [nearestRank_eq, hq, stepsOf, hq, hstep, pow_zero, Nat.mul_one, roundHalfEven]
  rw [hq, hr, if_pos h, Nat.zero_mul]

/-- A rank with a magnitude nearest to a number of units. It is even if another one is as near. -/
structure Closest (v : ℚ) (rank : Nat) : Prop where
  least : ∀ r, |v - units rank| ≤ |v - units r|
  even : ∀ r, r ≠ rank → |v - units r| = |v - units rank| → rank % 2 = 0

theorem nearestRank_mod_two (num den : Nat) :
    nearestRank num den % 2 = stepsOf num den % 2 := by
  rw [nearestRank_eq]
  unfold binade
  omega

/-- The rank is half a step away at most, and then it is even. -/
theorem abs_sub_units_le (num : Nat) {den : Nat} (h : 0 < den) :
    2 * |(num / den : ℚ) - units (nearestRank num den)| ≤ (2 ^ stepOf (num / den) : Nat) ∧
    (2 * |(num / den : ℚ) - units (nearestRank num den)| = (2 ^ stepOf (num / den) : Nat) →
      nearestRank num den % 2 = 0) := by
  obtain ⟨hlow, hhigh, htie⟩ :=
    roundHalfEven_spec num (show 0 < den * 2 ^ stepOf (num / den) by positivity)
  have hrank : roundHalfEven num (den * 2 ^ stepOf (num / den)) * (den * 2 ^ stepOf (num / den)) =
      den * units (nearestRank num den) := by
    rw [units_nearestRank h, stepsOf]
    ring
  have hparity : roundHalfEven num (den * 2 ^ stepOf (num / den)) % 2 = nearestRank num den % 2 :=
    (nearestRank_mod_two num den).symm
  rw [hrank, hparity] at htie
  rw [hrank] at hlow hhigh
  generalize nearestRank num den = rank at *
  generalize 2 ^ stepOf (num / den) = w at *
  have hden : (0 : ℚ) < den := Nat.cast_pos.mpr h
  have hnum : (num : ℚ) = den * (num / den) := (mul_div_cancel₀ _ hden.ne').symm
  have hlow' : (2 * (den * units rank) : ℚ) ≤ 2 * num + den * w := mod_cast hlow
  have hhigh' : (2 * num : ℚ) ≤ 2 * (den * units rank) + den * w := mod_cast hhigh
  have htie' : (2 * (den * units rank) : ℚ) = 2 * num + den * w ∨
      (2 * num : ℚ) = 2 * (den * units rank) + den * w → rank % 2 = 0 := mod_cast htie
  rw [hnum] at hlow' hhigh' htie'
  generalize (num / den : ℚ) = v at *
  generalize (units rank : ℚ) = u at *
  have hleft : u - v ≤ w / 2 := by nlinarith
  have hright : v - u ≤ w / 2 := by nlinarith
  have hle : |v - u| ≤ w / 2 := abs_le.mpr ⟨by linarith, hright⟩
  refine ⟨by linarith, fun heq => htie' ?_⟩
  obtain habs | habs := abs_choice (v - u)
  · right
    rw [← heq, habs]
    ring
  · left
    rw [← heq, habs]
    ring

/-- Other ranks are a step away from the nearest one, or lie behind it. -/
theorem far_of_ne (num : Nat) {den r : Nat} (h : 0 < den) (hr : r ≠ nearestRank num den) :
    (2 ^ stepOf (num / den) : Nat) ≤ |(units r : ℚ) - units (nearestRank num den)| ∨
      (units r : ℚ) < units (nearestRank num den) ∧
        (units (nearestRank num den) : ℚ) ≤ num / den := by
  obtain hlt | hgt := Nat.lt_or_gt_of_ne hr
  · obtain hstep | hfloor := units_add_step_le_or h hlt
    · have hstep' : (units r : ℚ) + (2 ^ stepOf (num / den) : Nat) ≤
          units (nearestRank num den) := mod_cast hstep
      left
      rw [abs_sub_comm]
      exact le_trans (by linarith) (le_abs_self _)
    · right
      exact ⟨mod_cast units_strictMono hlt, (Nat.cast_le.mpr hfloor).trans Nat.cast_div_le⟩
  · have hstep : (units (nearestRank num den) : ℚ) + (2 ^ stepOf (num / den) : Nat) ≤ units r :=
      mod_cast units_add_step_le h hgt
    left
    exact le_trans (by linarith) (le_abs_self _)

theorem closest_nearestRank (num : Nat) {den : Nat} (h : 0 < den) :
    Closest (num / den) (nearestRank num den) := by
  obtain ⟨hnear, htie⟩ := abs_sub_units_le num h
  have hother : ∀ r, r ≠ nearestRank num den →
      |(num / den : ℚ) - units (nearestRank num den)| ≤ |(num / den : ℚ) - units r| ∧
        (|(num / den : ℚ) - units r| = |(num / den : ℚ) - units (nearestRank num den)| →
          nearestRank num den % 2 = 0) := by
    intro r hr
    have hfar := far_of_ne num h hr
    generalize (num / den : ℚ) = v at *
    generalize (units (nearestRank num den) : ℚ) = u at *
    generalize (units r : ℚ) = x at *
    generalize ((2 ^ stepOf (num / den) : Nat) : ℚ) = w at *
    obtain hstep | ⟨hlt, hle⟩ := hfar
    · have htri : |x - u| ≤ |v - x| + |v - u| := by
        rw [abs_sub_comm v x]
        exact abs_sub_le x v u
      exact ⟨by linarith, fun heq => htie (by linarith)⟩
    · have hu : |v - u| = v - u := abs_of_nonneg (by linarith)
      have hx : |v - x| = v - x := abs_of_nonneg (by linarith)
      exact ⟨by linarith, fun heq => by linarith⟩
  constructor
  · intro r
    by_cases hr : r = nearestRank num den
    · rw [hr]
    · exact (hother r hr).1
  · exact fun r hr => (hother r hr).2

/-- The magnitude at a rank as a number. -/
def magnitude (rank : Nat) : ℚ :=
  units rank / 2 ^ 1074

/-- A finite magnitude nearest to a number that is not too large for one; of two equally near the
even one. -/
structure Rounds (v : ℚ) (rank : Fin finiteRanks) : Prop where
  below : v < 2 ^ 1024 - 2 ^ 970
  nearest : ∀ r : Fin finiteRanks, |v - magnitude rank| ≤ |v - magnitude r|
  even : ∀ r : Fin finiteRanks, r ≠ rank → |v - magnitude r| = |v - magnitude rank| →
    rank.val % 2 = 0

theorem cast_twoTo (n : Nat) : (twoTo n : ℚ) = 2 ^ n := by
  rw [twoTo_eq, Nat.cast_pow, Nat.cast_ofNat]

/-- The limit lies midway between the largest finite double and what would follow it. -/
theorem limit_eq : ((2 : ℚ) ^ 1024 - 2 ^ 970) * 2 ^ 1074 =
    (units finiteRanks + units (finiteRanks - 1)) / 2 := by
  have hnat : 2 * (twoTo 1024 * twoTo 1074) =
      units finiteRanks + units (finiteRanks - 1) + 2 * (twoTo 970 * twoTo 1074) := by
    decide +kernel
  have hrat := congrArg (Nat.cast : Nat → ℚ) hnat
  simp only [Nat.cast_mul, Nat.cast_add, Nat.cast_ofNat, cast_twoTo] at hrat
  rw [sub_mul]
  generalize (2 : ℚ) ^ 1024 * 2 ^ 1074 = a at *
  generalize (2 : ℚ) ^ 970 * 2 ^ 1074 = b at *
  generalize (units finiteRanks : ℚ) = next at *
  generalize (units (finiteRanks - 1) : ℚ) = last at *
  linarith

theorem abs_sub_magnitude (v : ℚ) (r : Nat) :
    |v - magnitude r| = |v * 2 ^ 1074 - units r| / 2 ^ 1074 := by
  have hpos : (0 : ℚ) < 2 ^ 1074 := by positivity
  rw [magnitude]
  generalize (2 : ℚ) ^ 1074 = scale at *
  have hsplit : v - units r / scale = (v * scale - units r) / scale := by
    field_simp
  rw [hsplit, abs_div, abs_of_pos hpos]

theorem lt_of_between {v a x b : ℚ} (ha : a < x) (hb : x < b) (h : |v - a| = |v - b|) :
    |v - x| < |v - a| := by
  have hmid : v - a = b - v := by
    obtain heq | heq := abs_eq_abs.mp h <;> linarith
  rw [abs_of_nonneg (show 0 ≤ v - a by linarith), abs_lt]
  exact ⟨by linarith, by linarith⟩

section

variable {v : ℚ} {n : Nat}

theorem Closest.lt_of_below (h : Closest (v * 2 ^ 1074) n) (hv : v < 2 ^ 1024 - 2 ^ 970) :
    n < finiteRanks := by
  by_contra hn
  have hpos : (0 : ℚ) < 2 ^ 1074 := by positivity
  have hlimit := mul_lt_mul_of_pos_right hv hpos
  rw [limit_eq] at hlimit
  have hlast : (units (finiteRanks - 1) : ℚ) < units finiteRanks :=
    mod_cast units_strictMono (by decide)
  have hbig : (units finiteRanks : ℚ) ≤ units n :=
    mod_cast units_strictMono.monotone (not_lt.mp hn)
  have hnear := h.least (finiteRanks - 1)
  generalize v * 2 ^ 1074 = x at *
  generalize (units n : ℚ) = u at *
  generalize (units finiteRanks : ℚ) = next at *
  generalize (units (finiteRanks - 1) : ℚ) = last at *
  have hfar : u - x ≤ |x - last| := le_trans (by linarith [neg_abs_le (x - u)]) hnear
  obtain habs | habs := abs_choice (x - last) <;> rw [habs] at hfar <;> linarith

theorem Closest.below_of_lt (h : Closest (v * 2 ^ 1074) n) (hn : n < finiteRanks) :
    v < 2 ^ 1024 - 2 ^ 970 := by
  by_contra hv
  have hpos : (0 : ℚ) < 2 ^ 1074 := by positivity
  have hlimit := mul_le_mul_of_nonneg_right (not_lt.mp hv) hpos.le
  rw [limit_eq] at hlimit
  have hle : n ≤ finiteRanks - 1 := Nat.le_sub_one_of_lt hn
  have hlast : (units (finiteRanks - 1) : ℚ) < units finiteRanks :=
    mod_cast units_strictMono (by decide)
  have hsmall : (units n : ℚ) ≤ units (finiteRanks - 1) :=
    mod_cast units_strictMono.monotone hle
  have hnear := h.least finiteRanks
  have heven := h.even finiteRanks hn.ne'
  -- A tie with what follows the largest double goes to that, for the largest one is odd.
  have hodd : n = finiteRanks - 1 → n % 2 ≠ 0 := by
    rintro rfl
    decide
  have hlt : n ≠ finiteRanks - 1 → (units n : ℚ) < units (finiteRanks - 1) := fun hne =>
    mod_cast units_strictMono (lt_of_le_of_ne hle hne)
  generalize v * 2 ^ 1074 = x at *
  generalize (units finiteRanks : ℚ) = next at *
  generalize (units (finiteRanks - 1) : ℚ) = last at *
  have hx : |x - units n| = x - units n := abs_of_nonneg (by linarith)
  have hnext : |x - next| ≤ |x - units n| := by
    rw [hx]
    exact abs_le.mpr ⟨by linarith, by linarith⟩
  have hparity := heven (le_antisymm hnext hnear)
  have hstrict := hlt fun hn => hodd hn hparity
  have hcloser : |x - next| < |x - units n| := by
    rw [hx]
    exact abs_lt.mpr ⟨by linarith, by linarith⟩
  exact not_lt.mpr hnear hcloser

/-- No two ranks are nearest, for between two even ones lies a rank that is nearer. -/
theorem Closest.eq_of_even {x : ℚ} {m : Nat} (h : Closest x n) (hm : m % 2 = 0)
    (heq : |x - units m| = |x - units n|) : m = n := by
  by_contra hne
  have hn := h.even m hne heq
  have hbetween : ∀ a b : Nat, a < b → a % 2 = 0 → b % 2 = 0 →
      |x - units a| = |x - units b| → |x - units (a + 1)| < |x - units a| := by
    intro a b hab ha hb heq
    have hleft : units a < units (a + 1) := units_strictMono (by omega)
    have hright : units (a + 1) < units b := units_strictMono (by omega)
    exact lt_of_between (mod_cast hleft) (mod_cast hright) heq
  obtain hlt | hgt := Nat.lt_or_gt_of_ne hne
  · have hnear := h.least (m + 1)
    rw [← heq] at hnear
    exact not_lt.mpr hnear (hbetween m n hlt hm hn heq)
  · exact not_lt.mpr (h.least (n + 1)) (hbetween n m hgt hn hm heq.symm)

theorem Closest.rounds_iff (h : Closest (v * 2 ^ 1074) n) (rank : Fin finiteRanks) :
    Rounds v rank ↔ rank.val = n := by
  have hpos : (0 : ℚ) < 2 ^ 1074 := by positivity
  constructor
  · intro hr
    have hn := h.lt_of_below hr.below
    have hnear := hr.nearest ⟨n, hn⟩
    rw [abs_sub_magnitude, abs_sub_magnitude, div_le_div_iff_of_pos_right hpos] at hnear
    have heq := le_antisymm hnear (h.least rank)
    by_contra hne
    have heven := hr.even ⟨n, hn⟩ (fun he => hne (congrArg Fin.val he).symm)
    rw [abs_sub_magnitude, abs_sub_magnitude, div_left_inj' hpos.ne'] at heven
    exact hne (h.eq_of_even (heven heq.symm) heq)
  · rintro rfl
    refine ⟨h.below_of_lt rank.isLt, fun r => ?_, fun r hne heq => ?_⟩
    · rw [abs_sub_magnitude, abs_sub_magnitude, div_le_div_iff_of_pos_right hpos]
      exact h.least r
    · rw [abs_sub_magnitude, abs_sub_magnitude, div_left_inj' hpos.ne'] at heq
      exact h.even r (Fin.val_ne_of_ne hne) heq

end

end Binary64

namespace Decimal

/-- The magnitude that a decimal stands for. -/
def magnitude (d : Decimal) : ℚ :=
  d.digits * 10 ^ d.exponent

theorem ten_zpow (e : Int) : (10 : ℚ) ^ e = tenTo e.toNat / tenTo (-e).toNat := by
  obtain ⟨n, rfl | rfl⟩ := e.eq_nat_or_neg <;> simp [tenTo_eq]

/-- A decimal in units, as the quotient that is rounded. -/
theorem magnitude_mul (d : Decimal) : d.magnitude * 2 ^ 1074 =
    (d.digits * tenTo d.exponent.toNat * twoTo 1074 : Nat) / tenTo (-d.exponent).toNat := by
  rw [magnitude, ten_zpow, Nat.cast_mul, Nat.cast_mul, Binary64.cast_twoTo, ← mul_div_assoc,
    div_mul_eq_mul_div]

theorem tenTo_le_tenTo {m n : Nat} (h : m ≤ n) : tenTo m ≤ tenTo n :=
  Nat.pow_le_pow_right (by decide) h

theorem tenTo_add (m n : Nat) : tenTo (m + n) = tenTo m * tenTo n :=
  Nat.pow_add 10 m n

theorem lt_tenTo_length (n : Nat) : n < tenTo (Nat.toDigits 10 n).length :=
  (Nat.length_toDigits_le_iff (by decide) Nat.length_toDigits_pos).mp le_rfl

theorem length_toDigits_le {n k : Nat} (hk : 0 < k) (h : n < tenTo k) :
    (Nat.toDigits 10 n).length ≤ k :=
  (Nat.length_toDigits_le_iff (by decide) hk).mpr h

theorem tenTo_length_le {n : Nat} (h : 0 < n) : tenTo ((Nat.toDigits 10 n).length - 1) ≤ n := by
  by_contra hlt
  by_cases hone : (Nat.toDigits 10 n).length - 1 = 0
  · rw [hone, tenTo_zero] at hlt
    exact hlt h
  · have hle := length_toDigits_le (Nat.pos_of_ne_zero hone) (not_le.mp hlt)
    omega

section

variable {n : Nat} {e : Int}

theorem finiteRanks_le (hn : 0 < n) (h : 310 < (Nat.toDigits 10 n).length + e) :
    finiteRanks ≤ Binary64.nearestRank (n * tenTo e.toNat * twoTo 1074) (tenTo (-e).toNat) := by
  have hten : twoTo 1024 ≤ tenTo 310 := by decide +kernel
  have htwo : twoTo 1024 * twoTo 1074 = 2 ^ (2045 + 53) := by decide +kernel
  have hexp : 310 + (-e).toNat ≤ (Nat.toDigits 10 n).length - 1 + e.toNat := by omega
  refine Binary64.le_nearestRank (tenTo_pos _) ((Nat.le_div_iff_mul_le (tenTo_pos _)).mpr ?_)
  calc 2 ^ (2045 + 53) * tenTo (-e).toNat
      = twoTo 1024 * tenTo (-e).toNat * twoTo 1074 := by rw [← htwo]; ring
    _ ≤ tenTo (310 + (-e).toNat) * twoTo 1074 := by
        rw [tenTo_add]
        exact Nat.mul_le_mul_right _ (Nat.mul_le_mul_right _ hten)
    _ ≤ tenTo ((Nat.toDigits 10 n).length - 1 + e.toNat) * twoTo 1074 :=
        Nat.mul_le_mul_right _ (tenTo_le_tenTo hexp)
    _ ≤ n * tenTo e.toNat * twoTo 1074 := by
        rw [tenTo_add]
        exact Nat.mul_le_mul_right _ (Nat.mul_le_mul_right _ (tenTo_length_le hn))

theorem nearestRank_eq_zero (h : (Nat.toDigits 10 n).length + e < -330) :
    Binary64.nearestRank (n * tenTo e.toNat * twoTo 1074) (tenTo (-e).toNat) = 0 := by
  have hten : 2 * twoTo 1074 ≤ tenTo 331 := by decide +kernel
  have he : e.toNat = 0 := by omega
  have hexp : (Nat.toDigits 10 n).length + 331 ≤ (-e).toNat := by omega
  refine Binary64.nearestRank_of_tiny ?_
  rw [he, tenTo_zero, Nat.mul_one]
  calc 2 * (n * twoTo 1074) = n * (2 * twoTo 1074) := by ring
    _ < tenTo (Nat.toDigits 10 n).length * (2 * twoTo 1074) :=
        Nat.mul_lt_mul_of_pos_right (lt_tenTo_length n) (Nat.mul_pos (by decide) (twoTo_pos _))
    _ ≤ tenTo (Nat.toDigits 10 n).length * tenTo 331 := Nat.mul_le_mul_left _ hten
    _ = tenTo ((Nat.toDigits 10 n).length + 331) := (tenTo_add _ _).symm
    _ ≤ tenTo (-e).toNat := tenTo_le_tenTo hexp

end

/-- The shortcuts give what rounding would. -/
theorem toBinary64_eq (d : Decimal) : d.toBinary64 =
    .ofQuotient d.negative (d.digits * tenTo d.exponent.toNat * twoTo 1074)
      (tenTo (-d.exponent).toNat) := by
  have hzero : Binary64.zero d.negative = .ofRank d.negative 0 := rfl
  unfold toBinary64
  dsimp only
  split_ifs with hdigits hhigh hlow
  · have htiny : Binary64.nearestRank 0 (tenTo (-d.exponent).toNat) = 0 :=
      Binary64.nearestRank_of_tiny (tenTo_pos _)
    rw [Binary64.ofQuotient, hdigits, Nat.zero_mul, Nat.zero_mul, htiny, hzero]
  · have hbeyond := finiteRanks_le (Nat.pos_of_ne_zero hdigits) hhigh
    rw [Binary64.ofQuotient, Binary64.ofRank, dif_neg (not_lt.mpr hbeyond)]
  · rw [Binary64.ofQuotient, nearestRank_eq_zero hlow, hzero]
  · rfl

theorem toBinary64_congr {d d' : Decimal} (hs : d.negative = d'.negative)
    (hm : d.magnitude = d'.magnitude) : d.toBinary64 = d'.toBinary64 := by
  have hunits : d.magnitude * 2 ^ 1074 = d'.magnitude * 2 ^ 1074 := by rw [hm]
  rw [magnitude_mul, magnitude_mul, div_eq_div_iff (Nat.cast_ne_zero.mpr (tenTo_pos _).ne')
    (Nat.cast_ne_zero.mpr (tenTo_pos _).ne'), ← Nat.cast_mul, ← Nat.cast_mul] at hunits
  rw [toBinary64_eq, toBinary64_eq, hs, Binary64.ofQuotient, Binary64.ofQuotient,
    Binary64.nearestRank_congr (tenTo_pos _) (tenTo_pos _) (Nat.cast_injective hunits)]

theorem toBinary64_eq_finite_iff (d : Decimal) {negative : Bool} {rank : Fin finiteRanks} :
    d.toBinary64 = .finite negative rank ↔
      d.negative = negative ∧ Binary64.Rounds d.magnitude rank := by
  have hclosest := Binary64.closest_nearestRank
    (d.digits * tenTo d.exponent.toNat * twoTo 1074) (tenTo_pos (-d.exponent).toNat)
  rw [← magnitude_mul] at hclosest
  rw [hclosest.rounds_iff, toBinary64_eq, Binary64.ofQuotient, Binary64.ofRank]
  generalize Binary64.nearestRank _ _ = n
  split_ifs with hfin
  · rw [Binary64.finite.injEq, Fin.ext_iff, eq_comm (a := n)]
  · have hne : rank.val ≠ n := fun heq => hfin (heq ▸ rank.isLt)
    simp [hne]

end Decimal

end TagTemplate
