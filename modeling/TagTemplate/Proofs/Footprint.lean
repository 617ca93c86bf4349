import Mathlib
import TagTemplate.Proofs.Descent
import TagTemplate.Proofs.Reading

/-! What an evaluation can change. Output only grows, the tables and the loop items are
back in place afterwards, also after a failure, and marks change only where a conditional
of the evaluated parts is. -/

namespace TagTemplate

/-- One state can come of another by evaluating parts that own the given marks. -/
structure Progress.Extends (own : List Nat) (p p' : Progress) : Prop where
  output : ∃ added, p'.output = p.output ++ added
  inputs : p'.scope.inputs = p.scope.inputs
  frames : p'.scope.frames = p.scope.frames
  marks : ∀ id ∉ own, (id ∈ p'.scope.settled ↔ id ∈ p.scope.settled)

namespace Progress.Extends

variable {own own' : List Nat} {p p' p'' : Progress}

theorem refl (own : List Nat) (p : Progress) : p.Extends own p :=
  ⟨⟨"", by simp⟩, rfl, rfl, fun _ _ => Iff.rfl⟩

theorem trans (h : p.Extends own p') (h' : p'.Extends own p'') : p.Extends own p'' where
  output := by
    obtain ⟨a, ha⟩ := h.output
    obtain ⟨b, hb⟩ := h'.output
    exact ⟨a ++ b, by rw [hb, ha, String.append_assoc]⟩
  inputs := h'.inputs.trans h.inputs
  frames := h'.frames.trans h.frames
  marks id hid := (h'.marks id hid).trans (h.marks id hid)

theorem mono (h : p.Extends own p') (hs : own ⊆ own') : p.Extends own' p' :=
  ⟨h.output, h.inputs, h.frames, fun id hid => h.marks id fun hm => hid (hs hm)⟩

end Progress.Extends

/-- An action that stays within the given marks, from every state and however it ends. -/
def Eval.Confined {α : Type} (own : List Nat) (x : Eval α) : Prop :=
  ∀ p : Progress, p.Extends own (x p).2

namespace Eval

variable {α β : Type} {own own' : List Nat} {x : Eval α}

theorem Confined.mono (h : x.Confined own) (hs : own ⊆ own') : x.Confined own' :=
  fun p => (h p).mono hs

theorem Confined.pure (a : α) : (Pure.pure a : Eval α).Confined own :=
  fun p => .refl own p

theorem Confined.bind {f : α → Eval β} (hx : x.Confined own) (hf : ∀ a, (f a).Confined own) :
    (x >>= f).Confined own := by
  intro p
  have hp := hx p
  rw [bind_apply]
  split
  · rename_i a p' hr
    rw [hr] at hp
    exact hp.trans (hf a p')
  · rename_i e p' hr
    rwa [hr] at hp

theorem Confined.ask (site : Site) (question : Scope → Except RenderFault α) :
    (ask site question).Confined own := by
  intro p
  rw [ask_apply]
  split <;> exact .refl own p

theorem Confined.write (s : String) : (write s).Confined own :=
  fun _ => ⟨⟨s, rfl⟩, rfl, rfl, fun _ _ => Iff.rfl⟩

theorem Confined.isSettled (id : Nat) : (isSettled id).Confined own :=
  fun p => .refl own p

theorem Confined.settle {owner : Nat} (h : owner ∈ own) : (settle owner).Confined own := by
  refine fun p => ⟨⟨"", by simp [Eval.settle]; rfl⟩, rfl, rfl, fun id hid => ?_⟩
  have hne : id ≠ owner := fun he => hid (he ▸ h)
  exact Node.mem_settle.trans (or_iff_right hne)

theorem Confined.unsettle {owner : Nat} (h : owner ∈ own) : (unsettle owner).Confined own := by
  refine fun p => ⟨⟨"", by simp [Eval.unsettle]; rfl⟩, rfl, rfl, fun id hid => ?_⟩
  have hne : id ≠ owner := fun he => hid (he ▸ h)
  show id ∈ (p.scope.unsettle owner).settled ↔ _
  simp [Scope.unsettle, hne]

/-- The frame comes off again whether the action inside succeeds or fails. -/
theorem Confined.withFrame {action : Eval Unit} (f : Frame) (h : action.Confined own) :
    (withFrame f action).Confined own := by
  intro p
  have hp := h { p with scope := p.scope.push f }
  refine ⟨hp.output, hp.inputs, ?_, hp.marks⟩
  show (action { p with scope := p.scope.push f }).2.scope.frames.tail = p.scope.frames
  rw [hp.frames]
  rfl

theorem Confined.forEach {action : Eval Unit} (name : String) (h : action.Confined own)
    (items : List Value) : (forEach name action items).Confined own := by
  induction items with
  | nil => exact .pure ()
  | cons item items ih => exact (h.withFrame ⟨name, item⟩).bind fun _ => ih

end Eval

/-- The mark that evaluating a part by itself sets and resets. -/
def Part.ownMark? : Part → Option Nat
  | .node (.choice site _ _) => some site.id
  | _ => none

/-- The marks that evaluating a part can change: a branch settles its conditional. -/
def Part.marks (q : Part) : List Nat :=
  match q with
  | node _ => q.subtree.filterMap ownMark?
  | branch owner _ => owner :: q.subtree.filterMap ownMark?

namespace Node

mutual

theorem run_confined (n : Node) : n.run.Confined (n.parts.filterMap Part.ownMark?) := by
  cases n with
  | text site content => exact .write content
  | fetch site raw => exact (Eval.Confined.ask _ _).bind fun s => .write s
  | localeText site key raw => exact fun p => Eval.Confined.write _ p
  | field site args => exact (Eval.Confined.ask _ _).bind fun s => .write s
  | conditional site args body =>
    have hb := runAll_confined body
    refine (Eval.Confined.ask _ _).bind fun holds => ?_
    cases holds with
    | true => exact hb
    | false => exact .pure ()
  | loop site args body =>
    have hb := runAll_confined body
    exact (Eval.Confined.ask _ _).bind fun head => .forEach head.1 hb head.2
  | choice site args bs =>
    have hb := runBranches_confined site.id bs
    exact (Eval.Confined.unsettle List.mem_cons_self).bind fun _ => hb

theorem runAll_confined (ns : List Node) :
    (runAll ns).Confined ((partsAll ns).filterMap Part.ownMark?) := by
  cases ns with
  | nil => exact .pure ()
  | cons n ns =>
    rw [partsAll, List.filterMap_append]
    exact ((run_confined n).mono (List.subset_append_left _ _)).bind fun _ =>
      (runAll_confined ns).mono (List.subset_append_right _ _)

theorem runBranch_confined (owner : Nat) (b : Branch Node) :
    (runBranch owner b).Confined (owner :: (partsBranch owner b).filterMap Part.ownMark?) := by
  obtain ⟨site, guard, body⟩ := b
  have hb : (runAll body).Confined
      (owner :: (partsBranch owner ⟨site, guard, body⟩).filterMap Part.ownMark?) :=
    (runAll_confined body).mono (List.subset_cons_self _ _)
  -- Settling its conditional is all that a branch does outside of its subtree.
  have henter : ∀ enters : Bool, (if enters then Eval.settle owner >>= fun _ => runAll body
      else pure () : Eval Unit).Confined
        (owner :: (partsBranch owner ⟨site, guard, body⟩).filterMap Part.ownMark?) := by
    intro enters
    cases enters with
    | true => exact (Eval.Confined.settle List.mem_cons_self).bind fun _ => hb
    | false => exact .pure ()
  rw [runBranch]
  refine (Eval.Confined.isSettled owner).bind fun settled => ?_
  cases settled with
  | true => exact .pure ()
  | false =>
    cases guard with
    | none => exact (Eval.Confined.pure true).bind henter
    | some args => exact (Eval.Confined.ask _ _).bind henter

theorem runBranches_confined (owner : Nat) (bs : List (Branch Node)) :
    (runBranches owner bs).Confined
      (owner :: (partsBranches owner bs).filterMap Part.ownMark?) := by
  cases bs with
  | nil => exact .pure ()
  | cons b bs =>
    rw [partsBranches, List.filterMap_append]
    exact ((runBranch_confined owner b).mono
      (List.cons_subset_cons _ (List.subset_append_left _ _))).bind fun _ =>
        (runBranches_confined owner bs).mono
          (List.cons_subset_cons _ (List.subset_append_right _ _))

end

end Node

namespace Part

theorem run_confined (q : Part) : q.run.Confined q.marks := by
  cases q with
  | node n => exact n.run_confined
  | branch owner b => exact Node.runBranch_confined owner b

theorem runAll_confined (qs : List Part) : (runAll qs).Confined (qs.flatMap marks) := by
  induction qs with
  | nil => exact .pure ()
  | cons q qs ih =>
    rw [List.flatMap_cons]
    exact (q.run_confined.mono (List.subset_append_left _ _)).bind fun _ =>
      ih.mono (List.subset_append_right _ _)

end Part

namespace Template

variable {t : Template}

theorem branched_of_ownMark? {q r : Part} (hq : q ∈ t.parts) (hr : r ∈ q.subtree) {i : Nat}
    (hi : r.ownMark? = some i) :
    Below t.table i q.id ∧ ∃ s ∈ t.table, s.id = i ∧ s.content.isBranched = true := by
  have hm := Part.subtree_subset hq hr
  obtain ⟨s, hs, hid, hc⟩ := mem_table_of_mem hm
  cases r with
  | branch owner b => exact nomatch hi
  | node n =>
    cases n with
    | choice site args bs =>
      obtain rfl : site.id = i := Option.some.inj hi
      exact ⟨below_of_mem_subtree hq hr, s, hs, hid, by rw [hc]; rfl⟩
    | _ => exact nomatch hi

end Template

/-- Any parts of a template, named by their numbers and evaluated from any state, leave
the loop items and the tables as they were and only add output, whether they succeed or
fail. The marks that change are those of conditionals with branches in their subtrees, and
of the conditionals whose branches are among the parts themselves. -/
theorem evaluation_stays_within {source name : String} {t : Template}
    (h : Template.compile source name = .ok t) {ids : List Nat} (hids : ∀ i ∈ ids, i < t.size) :
    ∃ qs, ids.mapM t.part? = some qs ∧ ∀ p : Progress,
      (∃ added, (Part.runAll qs p).2.output = p.output ++ added) ∧
      (Part.runAll qs p).2.scope.inputs = p.scope.inputs ∧
      (Part.runAll qs p).2.scope.frames = p.scope.frames ∧
      ∀ i, (i ∈ (Part.runAll qs p).2.scope.settled ↔ i ∈ p.scope.settled) ∨
        (∃ j ∈ ids, Below t.table i j ∧ ∃ r ∈ t.table, r.id = i ∧ r.content.isBranched = true) ∨
        ∃ j ∈ ids, ∃ r ∈ t.table, r.id = j ∧ r.content.isBranch = true ∧ r.parent = some i := by
  obtain ⟨qs, hqs, rfl, hmem⟩ := Template.exists_parts h hids
  refine ⟨qs, hqs, fun p => ?_⟩
  have hp := Part.runAll_confined qs p
  refine ⟨hp.output, hp.inputs, hp.frames, fun i => ?_⟩
  by_cases hi : i ∈ qs.flatMap Part.marks
  · right
    obtain ⟨q, hq, hi⟩ := List.mem_flatMap.mp hi
    have hid : q.id ∈ qs.map Part.id := List.mem_map_of_mem hq
    have hbelow : i ∈ q.subtree.filterMap Part.ownMark? → ∃ j ∈ qs.map Part.id,
        Below t.table i j ∧ ∃ r ∈ t.table, r.id = i ∧ r.content.isBranched = true := by
      intro hi
      obtain ⟨r, hr, hri⟩ := List.mem_filterMap.mp hi
      exact ⟨q.id, hid, Template.branched_of_ownMark? (hmem q hq) hr hri⟩
    cases q with
    | node n => exact .inl (hbelow hi)
    | branch owner b =>
      rcases List.mem_cons.mp hi with rfl | hi
      · exact .inr ⟨b.site.id, hid, Template.parent_of_branch h (hmem _ hq)⟩
      · exact .inl (hbelow hi)
  · exact .inl (hp.marks i hi)

/-- The last branch of a conditional by itself, which fails after it has settled the
conditional, and the loop around it. -/
theorem evaluation_stays_within_failing_branch :
    ∃ t qs, Template.compile
        "{%foreach n in l}{%if n == x}a{%else}b{%?gone}{%/if}{%/foreach}" "page" = .ok t ∧
      (∀ i ∈ [4, 0], i < t.size) ∧ [4, 0].mapM t.part? = some qs ∧
      Part.runAll qs ⟨"so ", ⟨⟨[], [], none, none⟩, [⟨"n", .text "y"⟩], []⟩⟩ =
        (.error ⟨38, .variableNotFound "gone"⟩,
          ⟨"so b", ⟨⟨[], [], none, none⟩, [⟨"n", .text "y"⟩], [1]⟩⟩) ∧
      ∀ p : Progress, (∃ added, (Part.runAll qs p).2.output = p.output ++ added) ∧
        (Part.runAll qs p).2.scope.frames = p.scope.frames := by
  have hc : Template.compile
      "{%foreach n in l}{%if n == x}a{%else}b{%?gone}{%/if}{%/foreach}" "page" =
      .ok ⟨"page", "{%foreach n in l}{%if n == x}a{%else}b{%?gone}{%/if}{%/foreach}",
        [.loop ⟨0, ⟨0, 63⟩⟩ ["n", "in", "l"]
          [.choice ⟨1, ⟨17, 52⟩⟩ ["n", "==", "x"]
            [⟨⟨3, ⟨17, 30⟩⟩, some ["n", "==", "x"], [.text ⟨2, ⟨29, 30⟩⟩ "a"]⟩,
              ⟨⟨4, ⟨30, 46⟩⟩, none,
                [.text ⟨5, ⟨37, 38⟩⟩ "b", .fetch ⟨6, ⟨38, 46⟩⟩ "gone"]⟩]]]⟩ := by cbv
  have hids : ∀ i ∈ [4, 0], i < 7 := by decide
  obtain ⟨qs, hqs, hp⟩ := evaluation_stays_within hc hids
  refine ⟨_, qs, hc, hids, hqs, ?_, fun p => ⟨(hp p).1, (hp p).2.2.1⟩⟩
  obtain rfl := Option.some.inj hqs
  rfl

end TagTemplate
