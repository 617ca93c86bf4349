import Mathlib
import TagTemplate.Proofs.Coherence
import TagTemplate.Proofs.Numerals
import TagTemplate.Proofs.Presence
import TagTemplate.Render.Evaluate

/-! A number and the text it renders as are the same to a condition. Both are coerced to one
scalar, so numbers anywhere in the data can become texts without a condition that fetches
them noticing. -/

namespace TagTemplate

/-- Entries with one key and related values. -/
inductive Keyed {α : Type} (R : α → α → Prop) : String × α → String × α → Prop where
  | entry {key : String} {v w : α} (h : R v w) : Keyed R (key, v) (key, w)

namespace Value

/-- An integer of 64 bits, or a double that is finite. -/
inductive IsNumber : Value → Prop where
  | int {i : Int} (h : fitsInt i = true) : IsNumber (.int i)
  | float {x : Binary64} (h : x.isFinite = true) : IsNumber (.float x)

/-- Some of the numbers in a value may be texts in the other. -/
inductive Respelled : Value → Value → Prop where
  | same (v : Value) : Respelled v v
  | number {v : Value} (h : v.IsNumber) : Respelled v (.text v.render)
  | list {vs ws : List Value} (h : List.Forall₂ Respelled vs ws) : Respelled (.list vs) (.list ws)
  | map {es fs : List (String × Value)}
      (h : List.Forall₂ (Keyed Respelled) es fs) : Respelled (.map es) (.map fs)

theorem natAbs_le_of_fitsInt {i : Int} (h : fitsInt i = true) : i.natAbs ≤ 2 ^ 63 := by
  simp only [fitsInt, Bool.and_eq_true, decide_eq_true_eq] at h
  omega

theorem IsNumber.coerced {v : Value} (h : v.IsNumber) : ∃ x : Binary64, x.isFinite = true ∧
    Scalar.ofValue v = .number x ∧ Scalar.ofText v.render = .number x := by
  cases h with
  | @int i h =>
    have hi := natAbs_le_of_fitsInt h
    obtain ⟨hfin, hof⟩ := Binary64.ofInt_eq hi
    exact ⟨.ofInt i, by rw [hof]; rfl, rfl, Scalar.ofText_toString hi⟩
  | @float x h => exact ⟨x, h, rfl, Scalar.ofText_text h⟩

end Value

def Entries.Respelled (es fs : Entries Value) : Prop :=
  List.Forall₂ (Keyed Value.Respelled) es fs

theorem Entries.Respelled.get? {es fs : Entries Value} (h : Entries.Respelled es fs)
    (key : String) : Option.Rel Value.Respelled (Entries.get? es key) (Entries.get? fs key) := by
  unfold Entries.Respelled at h
  induction h with
  | nil => exact .none
  | cons hef _ ih =>
    cases hef with
    | @entry k v w hvw =>
      by_cases hk : k = key
      · simp only [Entries.get?, List.find?_cons, hk, beq_self_eq_true, Option.map_some]
        exact .some hvw
      · simpa [Entries.get?, List.find?_cons, hk] using ih

namespace Value.Respelled

variable {v w : Value}

theorem isContainer (h : v.Respelled w) : v.isContainer = w.isContainer := by
  cases h with
  | same v => rfl
  | number h => cases h <;> rfl
  | list h => rfl
  | map h => rfl

theorem coerced (h : v.Respelled w) : Scalar.ofValue v = Scalar.ofValue w := by
  cases h with
  | same v => rfl
  | number h =>
    obtain ⟨x, -, hv, ht⟩ := h.coerced
    exact hv.trans ht.symm
  | list h => rfl
  | map h => rfl

theorem get? (h : v.Respelled w) (key : String) :
    Option.Rel Value.Respelled (v.get? key) (w.get? key) := by
  cases h with
  | same v =>
    cases v.get? key with
    | none => exact .none
    | some u => exact .some (.same u)
  | number h => cases h <;> exact .none
  | @list vs ws h =>
    have hat : ∀ i : Nat, Option.Rel Value.Respelled vs[i]? ws[i]? := by
      intro i
      induction h generalizing i with
      | nil => exact .none
      | cons huw _ ih =>
        cases i with
        | zero => exact .some huw
        | succ i => exact ih i
    simp only [Value.get?]
    cases index? key with
    | none => exact .none
    | some i => exact hat i
  | map h => exact Entries.Respelled.get? h key

end Value.Respelled

inductive Lookup.Respelled : Lookup → Lookup → Prop where
  | found {v w : Value} (h : v.Respelled w) : Respelled (.found v) (.found w)
  | noCollection : Respelled .noCollection .noCollection
  | notIndexable (v w : Value) : Respelled (.notIndexable v) (.notIndexable w)
  | missing : Respelled .missing .missing

structure Frame.Respelled (f g : Frame) : Prop where
  name : f.name = g.name
  item : f.item.Respelled g.item

/-- What can be seen at one place with numbers and with texts for some of them. -/
structure Scope.Respelled (s t : Scope) : Prop where
  data : Entries.Respelled s.inputs.data t.inputs.data
  globals : Option.Rel Entries.Respelled s.inputs.globals t.inputs.globals
  frames : List.Forall₂ Frame.Respelled s.frames t.frames

namespace Scope.Respelled

variable {s t : Scope}

theorem data? (h : s.Respelled t) (name : String) :
    Option.Rel Value.Respelled (s.data? name) (t.data? name) := by
  have hdata := h.data.get? name
  have hglobals : Option.Rel Value.Respelled (s.inputs.globals.bind (Entries.get? · name))
      (t.inputs.globals.bind (Entries.get? · name)) := by
    have hg := h.globals
    generalize s.inputs.globals = gs at hg
    generalize t.inputs.globals = hs at hg
    cases hg with
    | none => exact .none
    | some hg => exact hg.get? name
  unfold Scope.data?
  generalize s.inputs.globals.bind (Entries.get? · name) = x at hglobals
  generalize t.inputs.globals.bind (Entries.get? · name) = y at hglobals
  cases hglobals with
  | none => exact hdata
  | some hg => exact .some hg

theorem frame? (h : s.Respelled t) (name : String) :
    Option.Rel Frame.Respelled (s.frame? name) (t.frame? name) := by
  have hf := h.frames
  unfold Scope.frame?
  generalize s.frames = fs at hf
  generalize t.frames = gs at hf
  induction hf with
  | nil => exact .none
  | @cons f g fs gs hfg _ ih =>
    by_cases hn : f.name = name
    · have hg : g.name = name := hfg.name ▸ hn
      simp only [List.find?_cons, hn, hg, beq_self_eq_true]
      exact .some hfg
    · have hg : ¬ g.name = name := hfg.name ▸ hn
      simpa [List.find?_cons, hn, hg] using ih

theorem lookup (h : s.Respelled t) (r : Reference) :
    Lookup.Respelled (s.lookup r) (t.lookup r) := by
  have hdata := h.data? r.name
  have hframe := h.frame? r.name
  unfold Scope.lookup
  generalize s.data? r.name = x at hdata
  generalize t.data? r.name = y at hdata
  generalize s.frame? r.name = f at hframe
  generalize t.frame? r.name = g at hframe
  cases r.key with
  | none =>
    cases hdata with
    | some hv => exact .found hv
    | none =>
      cases hframe with
      | none => exact .missing
      | some hfg => exact .found hfg.item
  | some key =>
    cases hframe with
    | none => exact .noCollection
    | @some f g hfg =>
      have hget := hfg.item.get? key
      dsimp only
      rw [← hfg.item.isContainer]
      generalize f.item.get? key = x at hget
      generalize g.item.get? key = y at hget
      split
      · cases hget with
        | none => exact .missing
        | some hv => exact .found hv
      · exact .notIndexable f.item g.item

theorem fetch (h : s.Respelled t) {raw : String} {r : Reference} {e : Expected} {v : Value}
    (hv : s.fetch raw r e = .ok v) : ∃ w, t.fetch raw r e = .ok w ∧ v.Respelled w := by
  obtain ⟨hl, rfl⟩ := Scope.fetch_eq_ok_iff.mp hv
  have hlook := h.lookup r
  rw [hl] at hlook
  generalize ht : t.lookup r = l at hlook
  cases hlook with
  | @found v w hw =>
    have hshape : v.shape = w.shape := by rw [Value.shape, Value.shape, hw.isContainer]
    exact ⟨w, Scope.fetch_eq_ok_iff.mpr ⟨ht, hshape⟩, hw⟩

end Scope.Respelled

theorem Scope.holds_of_resolve {s : Scope} {args : List String} {c : Condition} {raw : String}
    {v : Value} (hc : Condition.parse args = .ok c) (hl : c.left = .reference raw)
    (hv : s.resolve raw .scalar = .ok v) :
    s.holds args = .ok (c.operator.compares (Scalar.ofValue v) (Scalar.ofText c.right)) := by
  simp only [Scope.holds, hc, hl, hv, Functor.map, Except.map, bind, Except.bind]
  rfl

theorem Scope.Respelled.holds {s t : Scope} (h : s.Respelled t) {args : List String}
    {c : Condition} {raw : String} {v : Value} (hc : Condition.parse args = .ok c)
    (hl : c.left = .reference raw) (hraw : '|' ∉ raw.toList)
    (hv : s.resolve raw .scalar = .ok v) : t.holds args = s.holds args := by
  obtain ⟨name, key, hparse, -, -⟩ := Reference.parse_of_plain hraw
  have hplain : ∀ u : Scope, u.resolve raw .scalar = u.fetch raw ⟨.fetch, name, key⟩ .scalar := by
    intro u
    rw [Scope.resolve, hparse]
    rfl
  obtain ⟨w, hw, hvw⟩ := h.fetch ((hplain s).symm.trans hv)
  rw [Scope.holds_of_resolve hc hl hv, Scope.holds_of_resolve hc hl ((hplain t).trans hw),
    hvw.coerced]

theorem Scalar.eq_of_ofText {s t : String} (h : ofText s = text t) : t = s := by
  unfold ofText at h
  split at h
  · cases h
  · cases h
  · cases h
  · split at h
    · cases h
    · exact (Scalar.text.inj h).symm

/-- A number could only equal its own text, which is coerced to it. -/
theorem Scalar.number_ne_text {x : Binary64} {s t : String} (hx : x.isFinite = true)
    (hs : ofText s = text t) : Comparison.eq.compares (number x) (text t) = false := by
  refine Bool.eq_false_iff.mpr fun h => ?_
  have hcompare : compare x.text t = .eq := beq_iff_eq.mp h
  have htext := Std.LawfulEqCmp.eq_of_compare hcompare
  rw [← eq_of_ofText hs, ← htext, ofText_text hx] at hs
  cases hs

/-- A number and the text it renders as are coerced to one scalar, also minus zero and integers
that no double equals. Where a condition fetches a value, it ends in the same way if numbers
anywhere in the data, or in the loop items around it, become texts. A text that stays one
equals no finite number. -/
theorem numbers_and_texts_condition_alike :
    (∀ v : Value, v.IsNumber → ∃ x : Binary64, x.isFinite = true ∧
      Scalar.ofValue v = .number x ∧ Scalar.ofText v.render = .number x) ∧
    (∀ (s t : Scope) (args : List String) (c : Condition) (raw : String) (v : Value),
      s.Respelled t → Condition.parse args = .ok c → c.left = .reference raw →
      '|' ∉ raw.toList → s.resolve raw .scalar = .ok v →
        ∃ holds, s.holds args = .ok holds ∧ t.holds args = .ok holds) ∧
    ∀ (x : Binary64) (s t : String), x.isFinite = true → Scalar.ofText s = .text t →
      Comparison.eq.compares (.number x) (.text t) = false ∧
      Comparison.eq.compares (.text t) (.number x) = false := by
  refine ⟨fun v h => h.coerced, fun s t args c raw v h hc hl hraw hv => ?_,
    fun x s t hx hs => ?_⟩
  · have hs := Scope.holds_of_resolve hc hl hv
    exact ⟨_, hs, (h.holds hc hl hraw hv).trans hs⟩
  · have hne := Scalar.number_ne_text hx hs
    exact ⟨hne, (Comparison.eq.compares_mirror (.number x) (.text t)).trans hne⟩

/-- A loop item with an integer that is no double and with minus zero, and one that spells them. -/
theorem numbers_and_texts_condition_alike_in_loop :
    let s : Scope := ⟨⟨[], [], none, none⟩,
      [⟨"r", .map [("n", .int 9007199254740993), ("z", .list [.float (.zero true)])]⟩], []⟩
    let t : Scope := ⟨⟨[], [], none, none⟩,
      [⟨"r", .map [("n", .text "9007199254740993"), ("z", .list [.text "-0"])]⟩], []⟩
    s.Respelled t ∧ s.resolve "r[n]" .scalar = .ok (.int 9007199254740993) ∧
    s.holds ["r[n]", ">=", "9007199254740992"] = .ok true ∧
    t.holds ["r[n]", ">=", "9007199254740992"] = .ok true ∧
    (∃ x : Binary64, x.isFinite = true ∧ Scalar.ofText "9007199254740993" = .number x) ∧
    Binary64.isFinite (.zero true) = true ∧ Scalar.ofText "0 0" = .text "0 0" ∧
    Comparison.eq.compares (.text "0 0") (.number (.zero true)) = false := by
  intro s t
  have hn : Value.IsNumber (.int 9007199254740993) := .int rfl
  have hz : Value.IsNumber (.float (.zero true)) := .float rfl
  have hitem : Value.Respelled
      (.map [("n", .int 9007199254740993), ("z", .list [.float (.zero true)])])
      (.map [("n", .text "9007199254740993"), ("z", .list [.text "-0"])]) :=
    .map (.cons (.entry (.number hn)) (.cons (.entry (.list (.cons (.number hz) .nil))) .nil))
  have h : s.Respelled t := ⟨.nil, .none, .cons ⟨rfl, hitem⟩ .nil⟩
  have hv : s.resolve "r[n]" .scalar = .ok (.int 9007199254740993) := rfl
  have htext : Scalar.ofText "0 0" = .text "0 0" := by decide +kernel
  let args := ["r[n]", ">=", "9007199254740992"]
  have hargs : Condition.parse args = .ok ⟨.reference "r[n]", .ge, "9007199254740992"⟩ := rfl
  have hholds : s.holds args = .ok true := by decide +kernel
  obtain ⟨hcoerced, hcondition, hdiffer⟩ := numbers_and_texts_condition_alike
  obtain ⟨x, hx, -, ht⟩ := hcoerced _ hn
  obtain ⟨holds, hs, hrespelled⟩ := hcondition s t args _ "r[n]" _ h hargs rfl (by decide) hv
  obtain rfl : true = holds := Except.ok.inj (hholds.symm.trans hs)
  exact ⟨h, hv, hholds, hrespelled, ⟨x, hx, ht⟩, rfl, htext, (hdiffer _ _ _ rfl htext).2⟩

end TagTemplate
