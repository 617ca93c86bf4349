import Mathlib
import TagTemplate.Proofs.NumberTexts
import TagTemplate.Proofs.Operands
import TagTemplate.Proofs.Respelling

/-! Emptiness and truth. A value is tested for emptiness as it stands and for truth after its
coercion, and the two tests differ only over texts that spell false, null or a zero at length. -/

namespace TagTemplate

namespace Binary64

theorem nearestRank_pos {num : Nat} (h : 0 < num) : 0 < nearestRank num 1 := by
  rw [nearestRank_eq, Nat.div_one]
  by_cases hs : stepOf num = 0
  · have hsteps : 1 ≤ stepsOf num 1 := by
      rw [stepsOf, Nat.div_one, hs]
      exact le_roundHalfEven (by decide) (by omega)
    exact Nat.add_pos_right _ hsteps
  · exact Nat.add_pos_left (Nat.mul_pos (Nat.pos_of_ne_zero hs) (by decide)) _

theorem isZero_ofRank {negative : Bool} {rank : Nat} :
    (ofRank negative rank).isZero = true ↔ rank = 0 := by
  by_cases h : rank < finiteRanks
  · cases negative <;> simp [ofRank, h, isZero, key?]
  · have hne : rank ≠ 0 := by
      rintro rfl
      exact h (by decide)
    cases negative <;> simp [ofRank, h, isZero, key?, hne]

theorem isZero_ofInt {i : Int} : (ofInt i).isZero = true ↔ i = 0 := by
  rw [ofInt, ofQuotient, isZero_ofRank]
  constructor
  · intro h
    by_contra hi
    have hnum : 0 < i.natAbs * twoTo 1074 := Nat.mul_pos (Int.natAbs_pos.mpr hi) (twoTo_pos 1074)
    exact (nearestRank_pos hnum).ne' h
  · rintro rfl
    decide +kernel

end Binary64

/-- A text, other than the digit zero alone, that is coerced to false, to null or to zero. -/
def Value.SpellsFalsehood (v : Value) : Prop :=
  ∃ t, v = .text t ∧ t ≠ "0" ∧ (Scalar.ofText t = .bool false ∨ Scalar.ofText t = .null ∨
    ∃ x : Binary64, Scalar.ofText t = .number x ∧ x.isZero = true)

namespace Scalar

theorem ofText_empty : ofText "" = text "" := by
  decide +kernel

theorem isTruthy_text (t : String) : (text t).isTruthy = !(Value.text t).isEmpty := by
  simp [isTruthy, Value.isEmpty, bne]

/-- Against a boolean only truth counts. -/
theorem compares_bool (a : Scalar) (b : Bool) :
    Comparison.eq.compares a (bool b) = (a.isTruthy == b) := by
  have horder : a.order? (bool b) = some (compare a.isTruthy b) := by
    cases a <;> rfl
  rw [Comparison.compares, horder]
  cases a.isTruthy <;> cases b <;> rfl

end Scalar

namespace Value

variable {v : Value}

/-- Every coercion but that of a text is as true as its value is not empty. -/
theorem isTruthy_of_not_text (hs : v.isContainer = false) (ht : ∀ t, v ≠ .text t) :
    (Scalar.ofValue v).isTruthy = !v.isEmpty := by
  cases v with
  | null => rfl
  | bool b => simp [Scalar.ofValue, Scalar.isTruthy, isEmpty]
  | int i =>
    have hzero : (Binary64.ofInt i).isZero = (i == 0) := by
      rw [Bool.eq_iff_iff, Binary64.isZero_ofInt, beq_iff_eq]
    simp [Scalar.ofValue, Scalar.isTruthy, isEmpty, hzero]
  | float x => rfl
  | text t => exact absurd rfl (ht t)
  | list items => cases hs
  | map entries => cases hs

theorem isTruthy_of_isEmpty (hs : v.isContainer = false) (he : v.isEmpty = true) :
    (Scalar.ofValue v).isTruthy = false := by
  by_cases ht : ∃ t, v = text t
  · obtain ⟨t, rfl⟩ := ht
    obtain rfl | rfl : t = "" ∨ t = "0" := by simpa [isEmpty] using he
    · decide +kernel
    · decide +kernel
  · rw [isTruthy_of_not_text hs fun t h => ht ⟨t, h⟩, he]
    rfl

theorem separates_text_iff (t : String) :
    (Scalar.ofText t).isTruthy = false ∧ (text t).isEmpty = false ↔
      (text t).SpellsFalsehood := by
  have hne : Scalar.ofText t ≠ .text t → t ≠ "" := by
    rintro h rfl
    exact h Scalar.ofText_empty
  simp only [SpellsFalsehood, text.injEq, exists_eq_left']
  cases hc : Scalar.ofText t with
  | null =>
    have ht : t ≠ "" := hne (by simp [hc])
    simp [Scalar.isTruthy, isEmpty, ht]
  | bool b =>
    have ht : t ≠ "" := hne (by simp [hc])
    simp [Scalar.isTruthy, isEmpty, ht, and_comm]
  | number x =>
    have ht : t ≠ "" := hne (by simp [hc])
    simp [Scalar.isTruthy, isEmpty, ht, and_comm]
  | text s =>
    obtain rfl := Scalar.eq_of_ofText hc
    rw [Scalar.isTruthy_text]
    simp

theorem separates_iff (hs : v.isContainer = false) :
    (Scalar.ofValue v).isTruthy = false ∧ v.isEmpty = false ↔ v.SpellsFalsehood := by
  by_cases ht : ∃ t, v = text t
  · obtain ⟨t, rfl⟩ := ht
    exact separates_text_iff t
  · have hnone : ∀ t, v ≠ text t := fun t h => ht ⟨t, h⟩
    have hspell : ¬ v.SpellsFalsehood := fun ⟨t, h, _⟩ => hnone t h
    rw [isTruthy_of_not_text hs hnone]
    simp [hspell]

end Value

/-- A word that starts like the test for emptiness is no operator and not in quotes. -/
theorem plain_isEmpty (raw : String) : "isempty|" ++ raw ∉ Comparison.spellings.map Prod.fst ∧
    ¬ InQuotes ("isempty|" ++ raw) := by
  have hhead : ("isempty|" ++ raw).toList.head? = some 'i' := by simp
  have hspellings : ∀ t ∈ Comparison.spellings.map Prod.fst, t.toList.head? ≠ some 'i' := by decide
  refine ⟨fun h => hspellings _ h hhead, fun h => ?_⟩
  have hquote := h.1
  rw [hhead] at hquote
  exact absurd hquote (by decide)

namespace Condition.Reads

variable {c : Condition} {token : String} {before after : List String}

theorem left_eq (h : c.Reads token before after) (hq : ¬ InQuotes (joinWords before)) :
    c.left = .reference (joinWords before) := by
  have hspelling := h.left
  cases hl : c.left with
  | literal text => exact absurd (h.literal.mp ⟨text, hl⟩) hq
  | reference name =>
    rw [hl] at hspelling
    exact congrArg Operand.reference hspelling

theorem operator_eq {o : Comparison} (h : c.Reads token before after)
    (ho : (token, o) ∈ Comparison.spellings) : c.operator = o := by
  have hread := Comparison.ofToken?_eq_some_iff.mpr h.operator
  rw [Comparison.ofToken?_eq_some_iff.mpr ho] at hread
  exact (Option.some.inj hread).symm

end Condition.Reads

namespace Scope

variable {s : Scope} {raw : String} {v : Value}

/-- A reference on the left of a boolean is asked for its truth. -/
theorem holds_of_boolean (hop : raw ∉ Comparison.spellings.map Prod.fst) (hq : ¬ InQuotes raw)
    (hv : s.resolve raw .scalar = .ok v) (b : Bool) :
    s.holds [raw, "==", toString b] = .ok ((Scalar.ofValue v).isTruthy == b) := by
  have hbefore : operators [raw] = [] := operators_cons_eq_nil_iff.mpr ⟨hop, rfl⟩
  have hafter : operators [toString b] = [] := by cases b <;> decide
  have hsign : ("==", Comparison.eq) ∈ Comparison.spellings := by decide
  have hright : ¬ InQuotes (joinWords [toString b]) := by cases b <;> decide
  obtain ⟨c, hc, hreads⟩ :=
    Condition.parse_of_one hsign hbefore (List.cons_ne_nil raw []) hafter
  have hcoerced : Scalar.ofText c.right = .bool b := by
    rw [hreads.plain hright]
    cases b <;> rfl
  have hholds := holds_of_resolve hc (hreads.left_eq hq) hv
  rw [hcoerced, hreads.operator_eq hsign, Scalar.compares_bool] at hholds
  exact hholds

end Scope

/-- What is empty is false. What is false without being empty is a text that spells false, null
or zero in another way than by the digit zero alone, and every such text is. -/
theorem empty_values_are_false (s : Scope) {raw : String} {v : Value}
    (hop : raw ∉ Comparison.spellings.map Prod.fst) (hq : ¬ InQuotes raw)
    (hbar : '|' ∉ raw.toList) (hv : s.resolve raw .scalar = .ok v) :
    ∃ empty truth : Bool,
      (∀ e, s.resolve ("isempty|" ++ raw) e = .ok (.bool empty)) ∧
      s.holds ["isempty|" ++ raw, "==", "true"] = .ok empty ∧
      s.holds [raw, "==", "true"] = .ok truth ∧
      s.holds [raw, "==", "false"] = .ok (!truth) ∧
      (empty = true → truth = false) ∧
      (truth = false ∧ empty = false ↔ v.SpellsFalsehood) := by
  obtain ⟨r, hfetch, -, hempty⟩ := s.resolve_of_plain hbar
  obtain ⟨hfound, hshape⟩ := Scope.fetch_eq_ok_iff.mp ((hfetch .scalar).symm.trans hv)
  have hscalar : v.isContainer = false := by
    simpa [Expected.accepts] using Expected.accepts_iff.mpr hshape
  have htest : ∀ e, s.resolve ("isempty|" ++ raw) e = .ok (.bool v.isEmpty) := by
    intro e
    rw [hempty, hfound]
    rfl
  obtain ⟨hop', hq'⟩ := plain_isEmpty raw
  have hcondition := Scope.holds_of_boolean hop' hq' (htest .scalar) true
  have htrue := Scope.holds_of_boolean hop hq hv true
  have hfalse := Scope.holds_of_boolean hop hq hv false
  rw [beq_true] at hcondition htrue
  rw [beq_false] at hfalse
  exact ⟨v.isEmpty, (Scalar.ofValue v).isTruthy, htest, hcondition, htrue, hfalse,
    Value.isTruthy_of_isEmpty hscalar, Value.separates_iff hscalar⟩

/-- A zero with a sign and an exponent, behind a blank and in a loop item. -/
theorem empty_values_are_false_long_zero :
    let s : Scope := ⟨⟨[], [], none, none⟩, [⟨"n", .map [("k", .text "\t-0e7")]⟩], []⟩
    "n[k]" ∉ Comparison.spellings.map Prod.fst ∧ ¬ InQuotes "n[k]" ∧ '|' ∉ "n[k]".toList ∧
    s.resolve "n[k]" .scalar = .ok (.text "\t-0e7") ∧
    (Value.text "\t-0e7").SpellsFalsehood ∧
    (∀ e, s.resolve ("isempty|" ++ "n[k]") e = .ok (.bool false)) ∧
    s.holds ["n[k]", "==", "true"] = .ok false ∧ s.holds ["n[k]", "==", "false"] = .ok true := by
  intro s
  have hop : "n[k]" ∉ Comparison.spellings.map Prod.fst := by decide
  have hq : ¬ InQuotes "n[k]" := by decide
  have hbar : '|' ∉ "n[k]".toList := by decide
  have hv : s.resolve "n[k]" .scalar = .ok (.text "\t-0e7") := rfl
  have hzero : Scalar.ofText "\t-0e7" = .number (.zero true) := by decide +kernel
  have hspells : (Value.text "\t-0e7").SpellsFalsehood :=
    ⟨_, rfl, by decide, .inr (.inr ⟨_, hzero, rfl⟩)⟩
  obtain ⟨empty, truth, htest, -, htrue, hfalse, -, hiff⟩ :=
    empty_values_are_false s hop hq hbar hv
  obtain ⟨rfl, rfl⟩ := hiff.mpr hspells
  exact ⟨hop, hq, hbar, hv, hspells, htest, htrue, hfalse⟩

end TagTemplate
