import Mathlib
import TagTemplate.Number.Binary64

/-! Rounding to doubles. A quotient is rounded to a whole number of steps, and how wide a
step is depends on the size of the quotient. A rank names both, so magnitudes grow with
their ranks, and a magnitude that a double has already is left alone. -/

namespace TagTemplate

theorem twoTo_eq (n : Nat) : twoTo n = 2 ^ n := rfl

theorem tenTo_eq (n : Nat) : tenTo n = 10 ^ n := rfl

namespace Binary64

theorem roundHalfEven_cases (num den : Nat) :
    roundHalfEven num den = num / den ∧ 2 * (num % den) ≤ den ∨
      roundHalfEven num den = num / den + 1 ∧ den ≤ 2 * (num % den) := by
  unfold roundHalfEven
  dsimp only
  split
  · exact .inl ⟨rfl, by omega⟩
  · split
    · exact .inr ⟨rfl, by omega⟩
    · obtain he | ho := Nat.mod_two_eq_zero_or_one (num / den)
      · exact .inl ⟨by omega, by omega⟩
      · exact .inr ⟨by omega, by omega⟩

theorem roundHalfEven_mul (num den : Nat) {k : Nat} (hk : 0 < k) :
    roundHalfEven (num * k) (den * k) = roundHalfEven num den := by
  have hlt : ∀ a b : Nat, a * k < b * k ↔ a < b := fun a b => Nat.mul_lt_mul_right hk
  have hexcess : 2 * (num % den * k) = 2 * (num % den) * k := by ring
  unfold roundHalfEven
  simp only [Nat.mul_div_mul_right _ _ hk, Nat.mul_mod_mul_right, hexcess, hlt]

theorem roundHalfEven_mul_self (n : Nat) {den : Nat} (h : 0 < den) :
    roundHalfEven (n * den) den = n := by
  simp [roundHalfEven, Nat.mul_div_cancel _ h, h]

theorem roundHalfEven_mono {a b : Nat} (den : Nat) (h : a ≤ b) :
    roundHalfEven a den ≤ roundHalfEven b den := by
  have hq : a / den ≤ b / den := Nat.div_le_div_right h
  obtain hlt | heq := Nat.lt_or_eq_of_le hq
  · have ha := roundHalfEven_cases a den
    have hb := roundHalfEven_cases b den
    omega
  · -- With one quotient the larger remainder cannot be rounded down alone.
    have hr : a % den ≤ b % den := by
      have hda := Nat.div_add_mod a den
      have hdb := Nat.div_add_mod b den
      rw [heq] at hda
      omega
    unfold roundHalfEven
    dsimp only
    rw [heq]
    split_ifs <;> omega

theorem le_roundHalfEven {k num den : Nat} (hden : 0 < den) (h : k * den ≤ num) :
    k ≤ roundHalfEven num den := by
  have hm := roundHalfEven_mono den h
  rwa [roundHalfEven_mul_self k hden] at hm

theorem roundHalfEven_le {k num den : Nat} (hden : 0 < den) (h : num ≤ k * den) :
    roundHalfEven num den ≤ k := by
  have hm := roundHalfEven_mono den h
  rwa [roundHalfEven_mul_self k hden] at hm

/-- A quotient of this size is rounded to a multiple of 2 to this power. -/
def stepOf (quotient : Nat) : Nat :=
  quotient.log2 - 52

theorem lt_of_stepOf (q : Nat) : q < 2 ^ (stepOf q + 53) := by
  have hq := Nat.lt_log2_self (n := q)
  have hle : 2 ^ (q.log2 + 1) ≤ 2 ^ (stepOf q + 53) :=
    Nat.pow_le_pow_right (by decide) (by unfold stepOf; omega)
  omega

theorem le_of_stepOf {q : Nat} (h : 0 < stepOf q) : 2 ^ (stepOf q + 52) ≤ q := by
  have hlog : stepOf q + 52 = q.log2 := by unfold stepOf at h ⊢; omega
  have hq : q ≠ 0 := by
    rintro rfl
    simp [stepOf] at h
  rw [hlog]
  exact Nat.log2_self_le hq

theorem stepOf_eq {q s : Nat} (hlow : s = 0 ∨ 2 ^ (s + 52) ≤ q) (hhigh : q < 2 ^ (s + 53)) :
    stepOf q = s := by
  by_cases hq : q = 0
  · subst hq
    obtain rfl | h := hlow
    · simp [stepOf]
    · have hpos := Nat.two_pow_pos (s + 52)
      omega
  · have hlt : q.log2 < s + 53 := (Nat.log2_lt hq).mpr hhigh
    have hle : s = 0 ∨ s + 52 ≤ q.log2 := hlow.imp_right (Nat.le_log2 hq).mpr
    unfold stepOf
    omega

/-- The steps in the quotient rounded. -/
def stepsOf (num den : Nat) : Nat :=
  roundHalfEven num (den * 2 ^ stepOf (num / den))

theorem nearestRank_eq (num den : Nat) :
    nearestRank num den = stepOf (num / den) * binade + stepsOf num den := rfl

section

variable {num den : Nat}

theorem stepsOf_le (hden : 0 < den) : stepsOf num den ≤ 2 * binade := by
  refine roundHalfEven_le (by positivity) (Nat.le_of_lt ?_)
  have hq := (Nat.div_lt_iff_lt_mul hden).mp (lt_of_stepOf (num / den))
  calc num < 2 ^ (stepOf (num / den) + 53) * den := hq
    _ = 2 * binade * (den * 2 ^ stepOf (num / den)) := by rw [pow_add]; ring

theorem le_stepsOf (hden : 0 < den) (h : 0 < stepOf (num / den)) : binade ≤ stepsOf num den := by
  refine le_roundHalfEven (by positivity) ?_
  have hq := (Nat.le_div_iff_mul_le hden).mp (le_of_stepOf h)
  calc binade * (den * 2 ^ stepOf (num / den))
      = 2 ^ (stepOf (num / den) + 52) * den := by rw [pow_add]; ring
    _ ≤ num := hq

theorem nearestRank_mul (num den : Nat) {k : Nat} (hk : 0 < k) :
    nearestRank (num * k) (den * k) = nearestRank num den := by
  have hq : num * k / (den * k) = num / den := Nat.mul_div_mul_right _ _ hk
  rw [nearestRank_eq, nearestRank_eq, stepsOf, stepsOf, hq, Nat.mul_right_comm den k,
    roundHalfEven_mul _ _ hk]

theorem nearestRank_congr {num' den' : Nat} (hden : 0 < den) (hden' : 0 < den')
    (h : num * den' = num' * den) : nearestRank num den = nearestRank num' den' := by
  rw [← nearestRank_mul num den hden', ← nearestRank_mul num' den' hden, h, Nat.mul_comm den]

end

/-- A rank is a width and a number of steps of that width, which fills the width's row
unless it is the first one. -/
theorem units_of_steps {s m : Nat} (hhigh : m ≤ 2 * binade) (hlow : s = 0 ∨ binade ≤ m) :
    units (s * binade + m) = m * 2 ^ s := by
  by_cases hm : m = 2 * binade
  · have hs : spacing (s * binade + m) = s + 1 := by
      unfold spacing binade at *
      omega
    have hrest : s * binade + m - (s + 1) * binade = binade := by
      unfold binade at *
      omega
    rw [units, hs, hrest, twoTo_eq, hm, pow_succ]
    ring
  · have hs : spacing (s * binade + m) = s := by
      unfold spacing binade at *
      omega
    rw [units, hs, Nat.add_sub_cancel_left, twoTo_eq]

theorem units_nearestRank {num den : Nat} (hden : 0 < den) :
    units (nearestRank num den) = stepsOf num den * 2 ^ stepOf (num / den) := by
  rw [nearestRank_eq]
  refine units_of_steps (stepsOf_le hden) ?_
  by_cases h : stepOf (num / den) = 0
  · exact .inl h
  · exact .inr (le_stepsOf hden (Nat.pos_of_ne_zero h))

theorem exists_steps (rank : Nat) : ∃ m, rank = spacing rank * binade + m ∧
    m < 2 * binade ∧ (spacing rank = 0 ∨ binade ≤ m) := by
  refine ⟨rank - spacing rank * binade, ?_, ?_, ?_⟩ <;> unfold spacing binade <;> omega

theorem nearestRank_units (rank : Nat) : nearestRank (units rank) 1 = rank := by
  obtain ⟨m, hr, hhigh, hlow⟩ := exists_steps rank
  generalize spacing rank = s at hr hlow
  subst hr
  have hu := units_of_steps (Nat.le_of_lt hhigh) hlow
  have hstep : stepOf (m * 2 ^ s / 1) = s := by
    rw [Nat.div_one]
    refine stepOf_eq (hlow.imp_right fun hm => ?_) ?_
    · calc 2 ^ (s + 52) = binade * 2 ^ s := by rw [pow_add]; ring
        _ ≤ m * 2 ^ s := Nat.mul_le_mul_right _ hm
    · calc m * 2 ^ s < 2 * binade * 2 ^ s := Nat.mul_lt_mul_of_pos_right hhigh (by positivity)
        _ = 2 ^ (s + 53) := by rw [pow_add]; ring
  rw [hu, nearestRank_eq, stepsOf, hstep, Nat.one_mul, roundHalfEven_mul_self m (by positivity)]

theorem units_strictMono : StrictMono units := by
  refine strictMono_nat_of_lt_succ fun rank => ?_
  obtain ⟨m, hr, hhigh, hlow⟩ := exists_steps rank
  generalize spacing rank = s at hr hlow
  have hnext : rank + 1 = s * binade + (m + 1) := by omega
  rw [hnext, units_of_steps hhigh (hlow.imp_right Nat.le_succ_of_le), hr,
    units_of_steps (Nat.le_of_lt hhigh) hlow]
  exact Nat.mul_lt_mul_of_pos_right (Nat.lt_succ_self m) (by positivity)

theorem stepOf_le {q k : Nat} (h : q < 2 ^ (k + 53)) : stepOf q ≤ k := by
  by_cases hs : stepOf q = 0
  · omega
  · have hq := le_of_stepOf (Nat.pos_of_ne_zero hs)
    have hexp : stepOf q + 52 < k + 53 :=
      (Nat.pow_lt_pow_iff_right (by decide)).mp (lt_of_le_of_lt hq h)
    omega

theorem nearestRank_le {num den k : Nat} (hden : 0 < den) (h : num / den < 2 ^ (k + 53)) :
    nearestRank num den ≤ (k + 2) * binade := by
  have hm := @stepsOf_le num den hden
  have hs : stepOf (num / den) * binade ≤ k * binade := Nat.mul_le_mul_right _ (stepOf_le h)
  rw [nearestRank_eq, Nat.add_mul]
  exact Nat.add_le_add hs hm

/-- Integers of 64 bits lie far below the largest double. -/
theorem ofInt_eq {i : Int} (h : i.natAbs ≤ 2 ^ 63) :
    ∃ hfin : nearestRank (i.natAbs * twoTo 1074) 1 < finiteRanks,
      ofInt i = finite (decide (i < 0)) ⟨nearestRank (i.natAbs * twoTo 1074) 1, hfin⟩ := by
  have hnum : i.natAbs * twoTo 1074 / 1 < 2 ^ (1085 + 53) := by
    rw [Nat.div_one, twoTo_eq, show 1085 + 53 = 64 + 1074 by rfl, pow_add]
    exact Nat.mul_lt_mul_of_pos_right (by omega) (by positivity)
  have hle := nearestRank_le Nat.one_pos hnum
  have hfin : nearestRank (i.natAbs * twoTo 1074) 1 < finiteRanks := by
    unfold finiteRanks
    unfold binade at *
    omega
  exact ⟨hfin, by rw [ofInt, ofQuotient, ofRank, dif_pos hfin]⟩

end Binary64

end TagTemplate
