import Mathlib.Logic.ExistsUnique
import TagTemplate.Expr.Scalar

/-! The six comparisons agree with each other. Scalars meet by truth, as numbers or as
texts, but every pair is looked at in the same way from both sides, and only NaN among
numbers leaves a pair without an order. -/

namespace TagTemplate

namespace Comparison

/-- The comparison that says the same with the sides exchanged. -/
def mirror : Comparison → Comparison
  | eq => eq
  | ne => ne
  | lt => gt
  | gt => lt
  | le => ge
  | ge => le

theorem holds_mirror (c : Comparison) (o : Option Ordering) :
    c.mirror.holds (o.map Ordering.swap) = c.holds o := by
  cases o with
  | none => cases c <;> rfl
  | some o => cases c <;> cases o <;> rfl

/-- What is ordered is less, equal or greater, and no two of these. -/
theorem existsUnique_holds (o : Ordering) :
    ∃! c, c ∈ [lt, eq, gt] ∧ c.holds (some o) = true := by
  have hone : ∀ c d, c ∈ [lt, eq, gt] → d ∈ [lt, eq, gt] → c.holds (some o) = true →
      d.holds (some o) = true → c = d := by
    intro c d
    cases o <;> cases c <;> cases d <;> decide
  obtain ⟨c, hc, ho⟩ : ∃ c, c ∈ [lt, eq, gt] ∧ c.holds (some o) = true := by
    cases o with
    | lt => exact ⟨lt, by decide, rfl⟩
    | eq => exact ⟨eq, by decide, rfl⟩
    | gt => exact ⟨gt, by decide, rfl⟩
  exact ⟨c, ⟨hc, ho⟩, fun d hd => hone d c hd.1 hc hd.2 ho⟩

end Comparison

namespace Binary64

theorem key?_eq_none_iff {x : Binary64} : x.key? = none ↔ x = nan := by
  cases x <;> simp [key?]

theorem order?_eq (x y : Binary64) :
    x.order? y = x.key?.bind fun i => y.key?.map fun j => compare i j := by
  cases hx : x.key? <;> cases hy : y.key? <;> simp [order?, hx, hy]

theorem order?_swap (x y : Binary64) : y.order? x = (x.order? y).map Ordering.swap := by
  rw [order?_eq, order?_eq]
  cases x.key? with
  | none => cases y.key? <;> rfl
  | some i =>
    cases y.key? with
    | none => rfl
    | some j => exact congrArg some Std.OrientedOrd.eq_swap

theorem order?_eq_none_iff {x y : Binary64} : x.order? y = none ↔ x = nan ∨ y = nan := by
  rw [order?_eq, ← key?_eq_none_iff, ← key?_eq_none_iff]
  cases x.key? <;> cases y.key? <;> simp

theorem order?_self {x : Binary64} (h : x ≠ nan) : x.order? x = some .eq := by
  obtain ⟨i, hi⟩ := Option.ne_none_iff_exists'.mp (mt key?_eq_none_iff.mp h)
  rw [order?_eq, hi]
  exact congrArg some Std.ReflOrd.compare_self

end Binary64

namespace Scalar

/-- Two numbers, one of them NaN at least. -/
def Unordered (a b : Scalar) : Prop :=
  ∃ x y, a = number x ∧ b = number y ∧ (x = .nan ∨ y = .nan)

theorem compareTruth_swap (a b : Scalar) : b.compareTruth a = (a.compareTruth b).swap :=
  Std.OrientedOrd.eq_swap

/-- Every rule for a pair of types is the one for the exchanged pair seen from the other side. -/
theorem order?_swap (a b : Scalar) : b.order? a = (a.order? b).map Ordering.swap := by
  have htruth : ∀ a b : Scalar,
      some (b.compareTruth a) = (some (a.compareTruth b)).map Ordering.swap :=
    fun a b => congrArg some (compareTruth_swap a b)
  have htext : ∀ s t : String, some (compare t s) = (some (compare s t)).map Ordering.swap :=
    fun s t => congrArg some Std.OrientedOrd.eq_swap
  cases a with
  | bool p => cases b <;> exact htruth _ _
  | null =>
    cases b with
    | null => rfl
    | bool q => exact htruth _ _
    | number y => exact htruth _ _
    | text t => exact htext _ _
  | number x =>
    cases b with
    | null => exact htruth _ _
    | bool q => exact htruth _ _
    | number y => exact Binary64.order?_swap x y
    | text t => exact htext _ _
  | text s =>
    cases b with
    | null => exact htext _ _
    | bool q => exact htruth _ _
    | number y => exact htext _ _
    | text t => exact htext _ _

theorem order?_eq_none_iff {a b : Scalar} : a.order? b = none ↔ a.Unordered b := by
  cases a <;> cases b <;> simp [order?, Unordered, Binary64.order?_eq_none_iff]

theorem order?_self {a : Scalar} (h : a ≠ number .nan) : a.order? a = some .eq := by
  cases a with
  | null => rfl
  | bool p => exact congrArg some Std.ReflOrd.compare_self
  | number x => exact Binary64.order?_self fun hx => h (congrArg number hx)
  | text s => exact congrArg some Std.ReflOrd.compare_self

end Scalar

theorem Comparison.compares_mirror (c : Comparison) (a b : Scalar) :
    c.mirror.compares b a = c.compares a b := by
  rw [compares, Scalar.order?_swap a b, holds_mirror]
  rfl

/-- Exchanging the sides exchanges less and greater and leaves equality alone; "not equal" is
the negation of "equal", and "at most" is "less or equal". One of less, equal and greater
holds, save for NaN among numbers, of which only "not equal" holds. Only NaN differs from
itself. -/
theorem comparisons_cohere (a b : Scalar) :
    Comparison.lt.compares a b = Comparison.gt.compares b a ∧
    Comparison.le.compares a b = Comparison.ge.compares b a ∧
    Comparison.eq.compares a b = Comparison.eq.compares b a ∧
    Comparison.ne.compares a b = Comparison.ne.compares b a ∧
    Comparison.ne.compares a b = !Comparison.eq.compares a b ∧
    Comparison.le.compares a b = (Comparison.lt.compares a b || Comparison.eq.compares a b) ∧
    Comparison.ge.compares a b = (Comparison.gt.compares a b || Comparison.eq.compares a b) ∧
    (a.Unordered b ∧ (∀ c : Comparison, c.compares a b = true ↔ c = .ne) ∨
      ¬ a.Unordered b ∧ ∃! c, c ∈ [Comparison.lt, .eq, .gt] ∧ c.compares a b = true) ∧
    (Comparison.eq.compares a a = true ↔ a ≠ .number .nan) := by
  have hmirror := fun c => Comparison.compares_mirror c b a
  refine ⟨hmirror .gt, hmirror .ge, hmirror .eq, hmirror .ne, ?_, ?_, ?_, ?_, ?_⟩
  · simp only [Comparison.compares]
    cases a.order? b with
    | none => rfl
    | some o => rfl
  · simp only [Comparison.compares]
    cases a.order? b with
    | none => rfl
    | some o => cases o <;> rfl
  · simp only [Comparison.compares]
    cases a.order? b with
    | none => rfl
    | some o => cases o <;> rfl
  · cases ho : a.order? b with
    | none =>
      refine .inl ⟨Scalar.order?_eq_none_iff.mp ho, fun c => ?_⟩
      rw [Comparison.compares, ho]
      exact beq_iff_eq
    | some o =>
      have hordered : ¬ a.Unordered b := fun h => by simp [Scalar.order?_eq_none_iff.mpr h] at ho
      refine .inr ⟨hordered, ?_⟩
      simp only [Comparison.compares, ho]
      exact Comparison.existsUnique_holds o
  · constructor
    · rintro h rfl
      cases h
    · intro h
      rw [Comparison.compares, Scalar.order?_self h]
      rfl

/-- Equality does not pass from pair to pair: truth equates texts that differ. -/
example : Comparison.eq.compares (.text "x") (.bool true) = true ∧
    Comparison.eq.compares (.bool true) (.text "y") = true ∧
    Comparison.eq.compares (.text "x") (.text "y") = false := by decide

end TagTemplate
