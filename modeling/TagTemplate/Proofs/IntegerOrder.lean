import Mathlib
import TagTemplate.Proofs.Respelling

/-! The order of integers in conditions. Integers are compared as the doubles nearest to them.
Rounding keeps the order but can join integers, and it joins none that lies nearer to zero
than 2 to the power 53. -/

namespace TagTemplate

namespace Comparison

/-- Whether two integers are related as a comparison says. -/
def relates : Comparison → Int → Int → Bool
  | eq, i, j => i = j
  | ne, i, j => i ≠ j
  | lt, i, j => i < j
  | gt, i, j => j < i
  | le, i, j => i ≤ j
  | ge, i, j => j ≤ i

theorem holds_compare (c : Comparison) (i j : Int) :
    c.holds (some (compare i j)) = c.relates i j := by
  obtain h | rfl | h := lt_trichotomy i j
  · have ho : compare i j = .lt := Std.compare_eq_lt.mpr h
    cases c <;> simp [holds, relates, ho, h, h.le, h.ne]
  · cases c <;> simp [holds, relates]
  · have ho : compare i j = .gt := Std.compare_eq_gt.mpr h
    cases c <;> simp [holds, relates, ho, h, h.le, h.ne']

end Comparison

/-- A function of magnitudes, with signs kept. -/
def oddExtension (f : Nat → Nat) (i : Int) : Int :=
  if i < 0 then -(f i.natAbs : Int) else f i.natAbs

theorem oddExtension_natCast (f : Nat → Nat) (n : Nat) : oddExtension f n = f n := by
  rw [oddExtension, if_neg (by omega), Int.natAbs_natCast]

section

variable {f : Nat → Nat}

theorem oddExtension_neg (h : f 0 = 0) (i : Int) : oddExtension f (-i) = -oddExtension f i := by
  unfold oddExtension
  rw [Int.natAbs_neg]
  obtain hi | rfl | hi := lt_trichotomy i 0
  · rw [if_neg (by omega), if_pos hi, Int.neg_neg]
  · simp [h]
  · rw [if_pos (by omega), if_neg (by omega)]

theorem oddExtension_mono (h : f 0 = 0) (hf : Monotone f) : Monotone (oddExtension f) := by
  refine monotone_of_odd_of_monotoneOn_nonneg (oddExtension_neg h) fun i hi j hj hij => ?_
  obtain ⟨m, rfl⟩ := Int.eq_ofNat_of_zero_le hi
  obtain ⟨n, rfl⟩ := Int.eq_ofNat_of_zero_le hj
  rw [oddExtension_natCast, oddExtension_natCast]
  exact_mod_cast hf (Int.ofNat_le.mp hij)

theorem oddExtension_strictMono (h : f 0 = 0) (hf : StrictMono f) : StrictMono (oddExtension f) := by
  refine strictMono_of_odd_strictMonoOn_nonneg (oddExtension_neg h) fun i hi j hj hij => ?_
  obtain ⟨m, rfl⟩ := Int.eq_ofNat_of_zero_le hi
  obtain ⟨n, rfl⟩ := Int.eq_ofNat_of_zero_le hj
  rw [oddExtension_natCast, oddExtension_natCast]
  exact_mod_cast hf (Int.ofNat_lt.mp hij)

end

namespace Binary64

/-- A natural number rounded to a whole number of steps. -/
def roundNat (n : Nat) : Nat :=
  roundHalfEven n (2 ^ stepOf n) * 2 ^ stepOf n

theorem roundNat_eq (n : Nat) : roundNat n = stepsOf n 1 * 2 ^ stepOf n := by
  rw [stepsOf, Nat.div_one, Nat.one_mul, roundNat]

theorem roundNat_of_small {n : Nat} (h : n ≤ 2 ^ 53) : roundNat n = n := by
  obtain hlt | rfl := Nat.lt_or_eq_of_le h
  · have hs : stepOf n = 0 := Nat.le_zero.mp (stepOf_le hlt)
    have hone := roundHalfEven_mul_self n Nat.one_pos
    rw [Nat.mul_one] at hone
    rw [roundNat, hs, pow_zero, Nat.mul_one, hone]
  · decide +kernel

theorem stepOf_mono : Monotone stepOf := by
  intro a b h
  exact stepOf_le (lt_of_le_of_lt h (lt_of_stepOf b))

theorem roundNat_mono : Monotone roundNat := by
  intro a b h
  obtain hs | hs := Nat.lt_or_eq_of_le (stepOf_mono h)
  · -- A wider step begins where the narrower ones have ended.
    have hb : binade ≤ stepsOf b 1 := le_stepsOf Nat.one_pos (by rw [Nat.div_one]; omega)
    rw [roundNat_eq, roundNat_eq]
    calc stepsOf a 1 * 2 ^ stepOf a
        ≤ 2 * binade * 2 ^ stepOf a := Nat.mul_le_mul_right _ (stepsOf_le Nat.one_pos)
      _ = binade * 2 ^ (stepOf a + 1) := by rw [pow_succ]; ring
      _ ≤ stepsOf b 1 * 2 ^ stepOf b :=
        Nat.mul_le_mul hb (Nat.pow_le_pow_right (by decide) hs)
  · rw [roundNat, roundNat, hs]
    exact Nat.mul_le_mul_right _ (roundHalfEven_mono _ h)

/-- In units an integer is rounded as it is by itself. -/
theorem units_nearestRank_mul (n : Nat) {k : Nat} (hk : 52 ≤ k) :
    units (nearestRank (n * 2 ^ k) 1) = roundNat n * 2 ^ k := by
  by_cases hn : n = 0
  · subst hn
    have hzero : units (nearestRank 0 1) = 0 := by decide +kernel
    rw [Nat.zero_mul, hzero, roundNat_of_small (Nat.zero_le _), Nat.zero_mul]
  · have hlow := Nat.log2_self_le hn
    have hhigh := Nat.lt_log2_self (n := n)
    obtain ⟨s, hs⟩ : ∃ s, s + 52 = n.log2 + k := ⟨n.log2 + k - 52, by omega⟩
    have hstep : stepOf (n * 2 ^ k) = s := by
      refine stepOf_eq (.inr ?_) ?_
      · rw [hs, pow_add]
        exact Nat.mul_le_mul_right _ hlow
      · rw [show s + 53 = n.log2 + 1 + k by omega, pow_add]
        exact Nat.mul_lt_mul_of_pos_right hhigh (by positivity)
    rw [units_nearestRank Nat.one_pos, stepsOf, Nat.div_one, hstep, Nat.one_mul]
    -- A small number fills no step by itself, but in units it is many whole ones.
    by_cases hlarge : 52 ≤ n.log2
    · obtain rfl : s = stepOf n + k := by unfold stepOf; omega
      rw [pow_add, roundHalfEven_mul _ _ (by positivity), roundNat, Nat.mul_assoc]
    · obtain ⟨j, rfl⟩ : ∃ j, k = s + j := ⟨k - s, by omega⟩
      have hsmall : n ≤ 2 ^ 53 :=
        hhigh.le.trans (Nat.pow_le_pow_right (by decide) (by omega))
      have hpow : n * 2 ^ (s + j) = n * 2 ^ j * 2 ^ s := by rw [pow_add]; ring
      rw [hpow, roundHalfEven_mul_self _ (by positivity), roundNat_of_small hsmall, hpow]

theorem roundNat_zero : roundNat 0 = 0 :=
  roundNat_of_small (Nat.zero_le _)

def roundInt : Int → Int :=
  oddExtension roundNat

theorem roundInt_of_small {i : Int} (h : i.natAbs ≤ 2 ^ 53) : roundInt i = i := by
  rw [roundInt, oddExtension, roundNat_of_small h]
  split <;> omega

theorem roundInt_mono : Monotone roundInt :=
  oddExtension_mono roundNat_zero roundNat_mono

/-- Rounding joins no integers on one side of which nothing is rounded. -/
theorem roundInt_lt {i j : Int} (hij : i < j)
    (h : i.natAbs < 2 ^ 53 ∨ j.natAbs < 2 ^ 53 ∨ i.natAbs ≤ 2 ^ 53 ∧ j.natAbs ≤ 2 ^ 53) :
    roundInt i < roundInt j := by
  have hend : roundInt (2 ^ 53) = 2 ^ 53 := roundInt_of_small (by decide)
  have hstart : roundInt (-2 ^ 53) = -2 ^ 53 := roundInt_of_small (by decide)
  by_cases hi : i.natAbs ≤ 2 ^ 53
  · rw [roundInt_of_small hi]
    by_cases hj : j.natAbs ≤ 2 ^ 53
    · rwa [roundInt_of_small hj]
    · have hle : roundInt (2 ^ 53) ≤ roundInt j := roundInt_mono (by omega)
      omega
  · have hj : j.natAbs < 2 ^ 53 := by omega
    have hle : roundInt i ≤ roundInt (-2 ^ 53) := roundInt_mono (by omega)
    rw [roundInt_of_small hj.le]
    omega

/-- The integers that are doubles. -/
def IsDouble (i : Int) : Prop :=
  ∃ (m : Int) (e : Nat), m.natAbs ≤ 2 ^ 53 ∧ i = m * 2 ^ e

theorem IsDouble.neg {i : Int} (h : IsDouble i) : IsDouble (-i) := by
  obtain ⟨m, e, hm, rfl⟩ := h
  exact ⟨-m, e, by rwa [Int.natAbs_neg], (Int.neg_mul m (2 ^ e)).symm⟩

/-- Among the integers that are doubles none is nearer. -/
structure Nearest (i r : Int) : Prop where
  isDouble : IsDouble r
  least : ∀ j, IsDouble j → (i - r).natAbs ≤ (i - j).natAbs

theorem Nearest.neg {i r : Int} (h : Nearest i r) : Nearest (-i) (-r) where
  isDouble := h.isDouble.neg
  least j hj := by
    have hle := h.least (-j) hj.neg
    omega

/-- Doubles lie at whole steps, or below all of them. -/
theorem outside_step (n : Nat) {m : Nat} (hm : m ≤ 2 ^ 53) (e : Nat) :
    m * 2 ^ e ≤ n / 2 ^ stepOf n * 2 ^ stepOf n ∨
      (n / 2 ^ stepOf n + 1) * 2 ^ stepOf n ≤ m * 2 ^ e := by
  by_cases he : stepOf n ≤ e
  · obtain ⟨d, rfl⟩ := Nat.exists_eq_add_of_le he
    have hv : m * 2 ^ (stepOf n + d) = m * 2 ^ d * 2 ^ stepOf n := by rw [pow_add]; ring
    rw [hv]
    obtain h | h := Nat.lt_or_ge (n / 2 ^ stepOf n) (m * 2 ^ d)
    · exact .inr (Nat.mul_le_mul_right _ h)
    · exact .inl (Nat.mul_le_mul_right _ h)
  · -- A double with a narrower step is at most as large as the smallest with this one.
    obtain ⟨d, hd⟩ := Nat.exists_eq_add_of_lt (not_le.mp he)
    have hn : 2 ^ 52 ≤ n / 2 ^ stepOf n := by
      rw [Nat.le_div_iff_mul_le (by positivity), ← pow_add, Nat.add_comm]
      exact le_of_stepOf (by omega)
    left
    calc m * 2 ^ e ≤ 2 ^ 53 * 2 ^ e := Nat.mul_le_mul_right _ hm
      _ ≤ 2 ^ 53 * 2 ^ (e + d) :=
        Nat.mul_le_mul_left _ (Nat.pow_le_pow_right (by decide) (by omega))
      _ = 2 ^ 52 * 2 ^ stepOf n := by rw [hd, pow_succ]; ring
      _ ≤ n / 2 ^ stepOf n * 2 ^ stepOf n := Nat.mul_le_mul_right _ hn

theorem roundNat_nearest (n : Nat) {m : Nat} (hm : m ≤ 2 ^ 53) (e : Nat) :
    ((n : Int) - roundNat n).natAbs ≤ ((n : Int) - (m * 2 ^ e : Nat)).natAbs := by
  have hcases := roundHalfEven_cases n (2 ^ stepOf n)
  have hout := outside_step n hm e
  have hdiv := Nat.div_add_mod n (2 ^ stepOf n)
  rw [Nat.mul_comm] at hdiv
  rw [Nat.add_mul, Nat.one_mul] at hout
  have hround : roundNat n = n / 2 ^ stepOf n * 2 ^ stepOf n ∧
        2 * (n % 2 ^ stepOf n) ≤ 2 ^ stepOf n ∨
      roundNat n = n / 2 ^ stepOf n * 2 ^ stepOf n + 2 ^ stepOf n ∧
        2 ^ stepOf n ≤ 2 * (n % 2 ^ stepOf n) := by
    obtain ⟨h, hr⟩ | ⟨h, hr⟩ := hcases
    · exact .inl ⟨by rw [roundNat, h], hr⟩
    · exact .inr ⟨by rw [roundNat, h, Nat.add_mul, Nat.one_mul], hr⟩
  have hlt : n % 2 ^ stepOf n < 2 ^ stepOf n := Nat.mod_lt _ (by positivity)
  generalize n / 2 ^ stepOf n * 2 ^ stepOf n = below at *
  generalize n % 2 ^ stepOf n = rest at *
  generalize 2 ^ stepOf n = width at *
  generalize m * 2 ^ e = v at *
  omega

theorem roundInt_nearest (i : Int) : Nearest i (roundInt i) := by
  have hnat : ∀ n : Nat, Nearest n (roundInt n) := by
    intro n
    rw [roundInt, oddExtension_natCast]
    constructor
    · refine ⟨stepsOf n 1, stepOf n, stepsOf_le Nat.one_pos, ?_⟩
      rw [roundNat_eq]
      push_cast
      rfl
    · rintro j ⟨m, e, hm, rfl⟩
      have hj : (m * 2 ^ e).natAbs = m.natAbs * 2 ^ e := by
        rw [Int.natAbs_mul, Int.natAbs_pow]
        rfl
      have h := roundNat_nearest n hm e
      rw [← hj] at h
      omega
  obtain ⟨n, rfl | rfl⟩ := Int.eq_nat_or_neg i
  · exact hnat n
  · rw [roundInt, oddExtension_neg roundNat_zero]
    exact (hnat n).neg

/-- The number of units at a place in the order of the doubles. -/
def unitsAt : Int → Int :=
  oddExtension units

theorem units_zero : units 0 = 0 := by
  decide +kernel

theorem unitsAt_strictMono : StrictMono unitsAt :=
  oddExtension_strictMono units_zero units_strictMono

theorem key?_ofInt {i : Int} (h : i.natAbs ≤ 2 ^ 63) :
    ∃ place, (ofInt i).key? = some place ∧ unitsAt place = roundInt i * 2 ^ 1074 := by
  obtain ⟨hfin, hof⟩ := ofInt_eq h
  have hunits := units_nearestRank_mul i.natAbs (show 52 ≤ 1074 by decide)
  refine ⟨if i < 0 then -(nearestRank (i.natAbs * twoTo 1074) 1 : Int)
    else nearestRank (i.natAbs * twoTo 1074) 1, ?_, ?_⟩
  · rw [hof]
    simp [key?]
  · rw [twoTo_eq, unitsAt, roundInt]
    generalize nearestRank (i.natAbs * 2 ^ 1074) 1 = rank at hunits
    generalize (1074 : Nat) = k at hunits
    by_cases hi : i < 0
    · rw [if_pos hi, oddExtension_neg units_zero, oddExtension_natCast, hunits, oddExtension,
        if_pos hi]
      push_cast
      ring
    · rw [if_neg hi, oddExtension_natCast, hunits, oddExtension, if_neg hi]
      push_cast
      rfl

theorem order?_ofInt {i j : Int} (hi : i.natAbs ≤ 2 ^ 63) (hj : j.natAbs ≤ 2 ^ 63) :
    (ofInt i).order? (ofInt j) = some (compare (roundInt i) (roundInt j)) := by
  obtain ⟨p, hp, hpi⟩ := key?_ofInt hi
  obtain ⟨q, hq, hqj⟩ := key?_ofInt hj
  have hscale : StrictMono fun k : Int => k * 2 ^ 1074 :=
    fun a b hab => Int.mul_lt_mul_of_pos_right hab (by positivity)
  have hplaces := unitsAt_strictMono.cmp_map_eq p q
  have hrounded := hscale.cmp_map_eq (roundInt i) (roundInt j)
  rw [order?_eq, hp, hq, Option.bind_some, Option.map_some, ← cmp_eq_compare, ← cmp_eq_compare,
    ← hplaces, hpi, hqj, hrounded]

theorem relates_roundInt {i j : Int}
    (h : i.natAbs < 2 ^ 53 ∨ j.natAbs < 2 ^ 53 ∨ i.natAbs ≤ 2 ^ 53 ∧ j.natAbs ≤ 2 ^ 53)
    (c : Comparison) : c.relates (roundInt i) (roundInt j) = c.relates i j := by
  rw [← Comparison.holds_compare, ← Comparison.holds_compare]
  obtain hij | rfl | hij := lt_trichotomy i j
  · rw [Std.compare_eq_lt.mpr hij, Std.compare_eq_lt.mpr (roundInt_lt hij h)]
  · rw [Std.ReflOrd.compare_self, Std.ReflOrd.compare_self]
  · have hr : roundInt j < roundInt i := roundInt_lt hij (by omega)
    rw [Std.compare_eq_gt.mpr hij, Std.compare_eq_gt.mpr hr]

end Binary64

/-- A condition compares an integer with the literal of another as the nearest doubles are
related. Rounding keeps their order but may make them equal; if one of them lies nearer to
zero than 2 to the power 53, the integers themselves are compared. -/
theorem integers_compare_as_nearest_doubles {s : Scope} {args : List String} {raw : String}
    {c : Comparison} {a b : Int} (ha : Value.fitsInt a = true) (hb : Value.fitsInt b = true)
    (hc : Condition.parse args = .ok ⟨.reference raw, c, toString b⟩)
    (hv : s.resolve raw .scalar = .ok (.int a)) :
    s.holds args = .ok (c.relates (Binary64.roundInt a) (Binary64.roundInt b)) ∧
    Binary64.Nearest a (Binary64.roundInt a) ∧ Binary64.Nearest b (Binary64.roundInt b) ∧
    (a ≤ b → Binary64.roundInt a ≤ Binary64.roundInt b) ∧
    (b ≤ a → Binary64.roundInt b ≤ Binary64.roundInt a) ∧
    (a.natAbs < 2 ^ 53 ∨ b.natAbs < 2 ^ 53 ∨ a.natAbs ≤ 2 ^ 53 ∧ b.natAbs ≤ 2 ^ 53 →
      s.holds args = .ok (c.relates a b)) := by
  have ha' := Value.natAbs_le_of_fitsInt ha
  have hb' := Value.natAbs_le_of_fitsInt hb
  have horder : (Scalar.ofValue (.int a)).order? (Scalar.number (.ofInt b)) =
      some (compare (Binary64.roundInt a) (Binary64.roundInt b)) := Binary64.order?_ofInt ha' hb'
  have hrounded : s.holds args =
      .ok (c.relates (Binary64.roundInt a) (Binary64.roundInt b)) := by
    rw [Scope.holds_of_resolve hc rfl hv, Scalar.ofText_toString hb', Comparison.compares, horder,
      Comparison.holds_compare]
  refine ⟨hrounded, Binary64.roundInt_nearest a, Binary64.roundInt_nearest b,
    fun h => Binary64.roundInt_mono h, fun h => Binary64.roundInt_mono h, fun h => ?_⟩
  rw [hrounded, Binary64.relates_roundInt h]

/-- One side is no double, but no integer on the other side is joined with it. -/
theorem integers_compare_as_nearest_doubles_one_rounded :
    let s : Scope := .ofInputs ⟨[], [("n", .int 9007199254740993)], none, none⟩
    let args := ["n", ">", "9007199254740991"]
    Value.fitsInt 9007199254740993 = true ∧ Value.fitsInt 9007199254740991 = true ∧
    Condition.parse args = .ok ⟨.reference "n", .gt, toString (9007199254740991 : Int)⟩ ∧
    s.resolve "n" .scalar = .ok (.int 9007199254740993) ∧
    Binary64.roundInt 9007199254740993 = 9007199254740992 ∧
    Binary64.Nearest 9007199254740993 9007199254740992 ∧ s.holds args = .ok true := by
  intro s args
  have hc : Condition.parse args =
      .ok ⟨.reference "n", .gt, toString (9007199254740991 : Int)⟩ := by decide +kernel
  have hv : s.resolve "n" .scalar = .ok (.int 9007199254740993) := rfl
  have hround : Binary64.roundInt 9007199254740993 = 9007199254740992 := by decide +kernel
  obtain ⟨-, hnearest, -, -, -, hexact⟩ :=
    integers_compare_as_nearest_doubles (a := 9007199254740993) rfl rfl hc hv
  rw [hround] at hnearest
  exact ⟨rfl, rfl, hc, hv, hround, hnearest, hexact (by decide)⟩

/-- The integer after 2 to the power 53 equals it in a condition. -/
theorem distinct_integers_equal :
    let s : Scope := .ofInputs ⟨[], [("n", .int 9007199254740993)], none, none⟩
    let args := ["n", "==", "9007199254740992"]
    Value.fitsInt 9007199254740993 = true ∧ Value.fitsInt 9007199254740992 = true ∧
    Condition.parse args = .ok ⟨.reference "n", .eq, toString (9007199254740992 : Int)⟩ ∧
    s.resolve "n" .scalar = .ok (.int 9007199254740993) ∧
    s.holds args = .ok true ∧
    Comparison.eq.relates 9007199254740993 9007199254740992 = false := by
  intro s args
  exact ⟨rfl, rfl, by decide +kernel, rfl, by decide +kernel, by decide⟩

end TagTemplate
