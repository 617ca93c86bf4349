import TagTemplate.Proofs.Footprint

/-! Branches exclude each other. The mark of a conditional is set before a body runs and
only a reset takes it away, so the branches that come after a body that was entered see it
in every order of evaluation, whatever else is evaluated or fails in between. -/

namespace TagTemplate

/-- What is done to a state from outside. -/
inductive Act where
  | push (f : Frame)
  | pop
  | settle (id : Nat)
  | unsettle (id : Nat)
  | evaluate (qs : List Part)

structure Evaluation where
  part : Part
  start : Progress

/-- Whether a branch with this guard may be entered. A condition that fails keeps it shut. -/
def Scope.admits (s : Scope) (guard : Option (List String)) : Bool :=
  match guard with
  | none => true
  | some args =>
    match s.holds args with
    | .ok holds => holds
    | .error _ => false

namespace Evaluation

def stop (e : Evaluation) : Progress :=
  (e.part.run e.start).2

/-- Whether the body of a branch of a conditional is entered. -/
def enters (owner : Nat) (e : Evaluation) : Bool :=
  match e.part with
  | .node _ => false
  | .branch o b => o == owner && !e.start.scope.isSettled owner && e.start.scope.admits b.guard

end Evaluation

/-- The parts of a row that come to be evaluated. A failure ends the row. -/
def Part.evaluations : List Part → Progress → List Evaluation
  | [], _ => []
  | q :: qs, p =>
    ⟨q, p⟩ :: match q.run p with
      | (.ok (), p') => evaluations qs p'
      | (.error _, _) => []

namespace Act

/-- The state afterwards, also where an evaluation fails. -/
def run : Act → Progress → Progress
  | push f, p => { p with scope := p.scope.push f }
  | pop, p => { p with scope := p.scope.pop }
  | settle id, p => { p with scope := p.scope.settle id }
  | unsettle id, p => { p with scope := p.scope.unsettle id }
  | evaluate qs, p => (Part.runAll qs p).2

def runAll : List Act → Progress → Progress
  | [], p => p
  | a :: as, p => runAll as (a.run p)

def evaluations : Act → Progress → List Evaluation
  | evaluate qs, p => Part.evaluations qs p
  | _, _ => []

def evaluationsAll : List Act → Progress → List Evaluation
  | [], _ => []
  | a :: as, p => a.evaluations p ++ evaluationsAll as (a.run p)

/-- An act that does not reset a conditional: it evaluates neither the conditional nor
anything around it, and does not take its mark away by hand. -/
def Spares (t : Template) (i : Nat) : Act → Prop
  | unsettle id => id ≠ i
  | evaluate qs => ∀ q ∈ qs, q ∈ t.parts ∧ ¬ Below t.table i q.id
  | _ => True

end Act

theorem Scope.isSettled_iff {s : Scope} {i : Nat} : s.isSettled i = true ↔ i ∈ s.settled := by
  simp [isSettled]

namespace Node

variable {owner : Nat} {p : Progress} {b : Branch Node}

theorem runBranch_of_admits (hs : owner ∉ p.scope.settled) (ha : p.scope.admits b.guard = true) :
    runBranch owner b p = runAll b.body { p with scope := p.scope.settle owner } := by
  obtain ⟨site, guard, body⟩ := b
  rw [runBranch_of_unsettled hs]
  cases guard with
  | none => rfl
  | some args =>
    cases hh : p.scope.holds args with
    | error fault => simp [Scope.admits, hh] at ha
    | ok holds =>
      obtain rfl : holds = true := by simpa [Scope.admits, hh] using ha
      simp only [bind_apply, Eval.ask_apply, hh]
      rfl

theorem runBranch_of_not_admits (hs : owner ∉ p.scope.settled)
    (ha : p.scope.admits b.guard = false) : (runBranch owner b p).2 = p := by
  obtain ⟨site, guard, body⟩ := b
  rw [runBranch_of_unsettled hs]
  cases guard with
  | none => cases ha
  | some args =>
    cases hh : p.scope.holds args with
    | error fault => simp only [bind_apply, Eval.ask_apply, hh]
    | ok holds =>
      obtain rfl : holds = false := by simpa [Scope.admits, hh] using ha
      simp only [bind_apply, Eval.ask_apply, hh]
      rfl

end Node

namespace Evaluation

variable {e : Evaluation} {owner i : Nat} {b : Branch Node}

theorem enters_iff : e.enters i = true ↔ ∃ b, e.part = .branch i b ∧
    i ∉ e.start.scope.settled ∧ e.start.scope.admits b.guard = true := by
  obtain ⟨q, p⟩ := e
  cases q with
  | node n => simp [enters]
  | branch o b =>
    simp only [enters, Bool.and_eq_true, beq_iff_eq, Bool.not_eq_true', ← Bool.not_eq_true,
      Scope.isSettled_iff]
    constructor
    · rintro ⟨⟨rfl, hs⟩, ha⟩
      exact ⟨b, rfl, hs, ha⟩
    · rintro ⟨c, hc, hs, ha⟩
      obtain ⟨rfl, rfl⟩ := by simpa using hc
      exact ⟨⟨rfl, hs⟩, ha⟩

theorem run_of_enters (hb : e.part = .branch i b) (h : e.enters i = true) :
    e.part.run e.start = Node.runAll b.body { e.start with scope := e.start.scope.settle i } := by
  obtain ⟨c, hc, hs, ha⟩ := enters_iff.mp h
  obtain ⟨-, rfl⟩ : i = i ∧ c = b := by simpa [hc] using hb
  rw [hc]
  exact Node.runBranch_of_admits hs ha

/-- A branch that is not entered leaves no trace, however its condition ends. -/
theorem stop_of_not_enters (hb : e.part = .branch i b) (h : e.enters i = false) :
    e.stop = e.start := by
  rw [stop, hb]
  by_cases hs : i ∈ e.start.scope.settled
  · exact congrArg Prod.snd (Node.runBranch_of_settled hs b)
  · refine Node.runBranch_of_not_admits hs (Bool.eq_false_iff.mpr fun ha => ?_)
    exact Bool.eq_false_iff.mp h (enters_iff.mpr ⟨b, hb, hs, ha⟩)

end Evaluation

section

variable {t : Template} {i : Nat} {q : Part}

theorem Template.notMem_marks (hq : q ∈ t.parts) (h : ¬ Below t.table i q.id) :
    i ∉ q.subtree.filterMap Part.ownMark? := by
  intro hi
  obtain ⟨r, hr, hri⟩ := List.mem_filterMap.mp hi
  exact h (branched_of_ownMark? hq hr hri).1

/-- A branch of a conditional lies in a part that is not around the conditional only if it
is that part. -/
theorem Template.eq_of_branch_mem_subtree (hq : q ∈ t.parts) (h : ¬ Below t.table i q.id)
    {b : Branch Node} (hb : Part.branch i b ∈ q.subtree) : q = .branch i b := by
  cases q with
  | node n =>
    obtain ⟨site, args, bs, hm, rfl, -⟩ := Node.exists_choice hb
    exact absurd (below_of_mem_subtree hq hm) h
  | branch owner c =>
    rw [Part.subtree, Node.partsBranch_eq] at hb
    rcases List.mem_cons.mp hb with he | hb
    · exact he.symm
    · obtain ⟨site, args, bs, hm, rfl, -⟩ := Node.exists_choice_all hb
      have hs : Part.node (.choice site args bs) ∈ (Part.branch owner c).subtree := by
        rw [Part.subtree, Node.partsBranch_eq]
        exact List.mem_cons_of_mem _ hm
      exact absurd (below_of_mem_subtree hq hs) h

/-- Nothing but the branches of a conditional touches its mark from below, and they do
nothing once it is set. -/
theorem Part.run_keeps_mark (hq : q ∈ t.parts) (h : ¬ Below t.table i q.id) {p : Progress}
    (hp : i ∈ p.scope.settled) : i ∈ (q.run p).2.scope.settled := by
  have hm := Template.notMem_marks hq h
  cases q with
  | node n => exact (n.run_confined p).marks i hm |>.mpr hp
  | branch owner b =>
    by_cases ho : i = owner
    · obtain rfl := ho
      rw [Part.run, Node.runBranch_of_settled hp]
      exact hp
    · have hn : i ∉ (Part.branch owner b).marks := by
        intro hi
        rcases List.mem_cons.mp hi with he | hi
        · exact ho he
        · exact hm hi
      exact ((Part.branch owner b).run_confined p).marks i hn |>.mpr hp

theorem Evaluation.settled_of_enters {e : Evaluation} (hq : e.part ∈ t.parts)
    (h : ¬ Below t.table i e.part.id) (he : e.enters i = true) : i ∈ e.stop.scope.settled := by
  obtain ⟨b, hb, -, -⟩ := enters_iff.mp he
  have hm := Template.notMem_marks hq h
  -- The body runs with the mark set, and the marks it changes are others.
  have hn : i ∉ (Node.partsAll b.body).filterMap Part.ownMark? := by
    rw [hb, Part.subtree, Node.partsBranch_eq] at hm
    exact hm
  rw [stop, run_of_enters hb he]
  exact (Node.runAll_confined b.body _).marks i hn |>.mpr (Node.mem_settle.mpr (.inl rfl))

end

/-- Evaluations on the way from one state to another, as a conditional sees them: its mark
stays once it is set, and it is set from the first entered body on. -/
structure Latched (i : Nat) (p : Progress) (es : List Evaluation) (p' : Progress) : Prop where
  kept : i ∈ p.scope.settled →
    i ∈ p'.scope.settled ∧ ∀ e ∈ es, i ∈ e.start.scope.settled
  later : es.Pairwise fun e e' => e.enters i = true → i ∈ e'.start.scope.settled
  last : ∀ e ∈ es, e.enters i = true → i ∈ p'.scope.settled

namespace Latched

variable {t : Template} {i : Nat} {p p' p'' : Progress} {es es' : List Evaluation}

theorem skip (h : i ∈ p.scope.settled → i ∈ p'.scope.settled) : Latched i p [] p' :=
  ⟨fun hp => ⟨h hp, by simp⟩, .nil, by simp⟩

theorem append (h : Latched i p es p') (h' : Latched i p' es' p'') :
    Latched i p (es ++ es') p'' where
  kept hp := by
    obtain ⟨hp', hes⟩ := h.kept hp
    obtain ⟨hp'', hes'⟩ := h'.kept hp'
    exact ⟨hp'', fun e he => (List.mem_append.mp he).elim (hes e) (hes' e)⟩
  later := List.pairwise_append.mpr ⟨h.later, h'.later, fun e he e' he' hent =>
    (h'.kept (h.last e he hent)).2 e' he'⟩
  last e he hent := by
    rcases List.mem_append.mp he with he | he
    · exact (h'.kept (h.last e he hent)).1
    · exact h'.last e he hent

end Latched

theorem Evaluation.latched {t : Template} {i : Nat} {e : Evaluation} (hq : e.part ∈ t.parts)
    (h : ¬ Below t.table i e.part.id) : Latched i e.start [e] e.stop where
  kept hp := ⟨Part.run_keeps_mark hq h hp, by simpa using hp⟩
  later := List.pairwise_singleton _ _
  last e' he hent := by
    obtain rfl := List.mem_singleton.mp he
    exact settled_of_enters hq h hent

namespace Part

variable {t : Template} {i : Nat} {qs : List Part} {p : Progress}

theorem runAll_cons_snd (q : Part) (qs : List Part) (p : Progress) :
    (runAll (q :: qs) p).2 = match q.run p with
      | (.ok (), p') => (runAll qs p').2
      | (.error _, p') => p' := by
  rw [runAll, bind_apply]
  rcases q.run p with ⟨r, p'⟩
  cases r <;> rfl

theorem mem_of_mem_evaluations {e : Evaluation} (h : e ∈ evaluations qs p) : e.part ∈ qs := by
  induction qs generalizing p with
  | nil => exact nomatch h
  | cons q qs ih =>
    rcases List.mem_cons.mp h with rfl | h
    · exact List.mem_cons_self
    · rcases hr : q.run p with ⟨r, p'⟩
      rw [hr] at h
      cases r with
      | error f => exact nomatch h
      | ok u => exact List.mem_cons_of_mem _ (ih h)

theorem latched (hqs : ∀ q ∈ qs, q ∈ t.parts ∧ ¬ Below t.table i q.id) :
    Latched i p (evaluations qs p) (runAll qs p).2 := by
  induction qs generalizing p with
  | nil => exact .skip fun hp => hp
  | cons q qs ih =>
    have hq : Latched i p [⟨q, p⟩] (q.run p).2 :=
      Evaluation.latched (e := ⟨q, p⟩) (hqs q (by simp)).1 (hqs q (by simp)).2
    have hrest := fun {p'} => @ih p' fun r hr => hqs r (List.mem_cons_of_mem _ hr)
    rw [runAll_cons_snd, evaluations]
    rcases hr : q.run p with ⟨r, p'⟩
    rw [hr] at hq
    cases r with
    | error f => exact hq
    | ok u => exact hq.append hrest

end Part

namespace Act

variable {t : Template} {i : Nat} {p : Progress}

theorem latched {a : Act} (ha : a.Spares t i) : Latched i p (a.evaluations p) (a.run p) := by
  cases a with
  | push f => exact .skip id
  | pop => exact .skip id
  | settle id => exact .skip fun hp => Node.mem_settle.mpr (.inr hp)
  | unsettle id =>
    refine .skip fun hp => ?_
    show i ∈ (p.scope.unsettle id).settled
    simp [Scope.unsettle, hp, Ne.symm ha]
  | evaluate qs => exact Part.latched ha

theorem latchedAll {acts : List Act} (h : ∀ a ∈ acts, a.Spares t i) :
    Latched i p (evaluationsAll acts p) (runAll acts p) := by
  induction acts generalizing p with
  | nil => exact .skip id
  | cons a acts ih =>
    exact (latched (h a (by simp))).append (ih fun b hb => h b (List.mem_cons_of_mem _ hb))

theorem spared_of_mem {acts : List Act} (h : ∀ a ∈ acts, a.Spares t i) {e : Evaluation}
    (he : e ∈ evaluationsAll acts p) : e.part ∈ t.parts ∧ ¬ Below t.table i e.part.id := by
  induction acts generalizing p with
  | nil => exact nomatch he
  | cons a acts ih =>
    rcases List.mem_append.mp he with he | he
    · cases a with
      | evaluate qs => exact h (.evaluate qs) (by simp) _ (Part.mem_of_mem_evaluations he)
      | _ => exact nomatch he
    · exact ih (fun b hb => h b (List.mem_cons_of_mem _ hb)) he

end Act

theorem Latched.length_enters_le {i : Nat} {p p' : Progress} {es : List Evaluation}
    (h : Latched i p es p') : (es.filter (·.enters i)).length ≤ 1 := by
  have hp : (es.filter (·.enters i)).Pairwise fun _ _ => False := by
    refine (h.later.filter _).imp_of_mem fun {e e'} he he' hlater => ?_
    obtain ⟨-, -, hs, -⟩ := Evaluation.enters_iff.mp (List.mem_filter.mp he').2
    exact hs (hlater (List.mem_filter.mp he).2)
  generalize es.filter (·.enters i) = entered at hp ⊢
  rcases entered with _ | ⟨e, _ | ⟨e', es'⟩⟩
  · simp
  · simp
  · exact False.elim ((List.pairwise_cons.mp hp).1 e' (by simp))

theorem Template.mem_branches {source name : String} {t : Template}
    (h : Template.compile source name = .ok t) {site : Site} {args : List String}
    {bs : List (Branch Node)} (hc : Part.node (.choice site args bs) ∈ t.parts)
    {b : Branch Node} (hb : Part.branch site.id b ∈ t.parts) : b ∈ bs := by
  have hd := nodup_parts (compile_eq_ok_iff.mp h).2.2
  obtain ⟨site', args', bs', hm, hid, hmem⟩ := Node.exists_choice_all hb
  have he := List.inj_on_of_nodup_map hd hm hc hid
  obtain ⟨-, -, rfl⟩ := by simpa using he
  exact hmem

/-- Between two resets of a conditional at most one of its branches is entered. The body
runs with the mark set and leaves it set, also when it fails; from then on the branches of
the conditional do nothing, and their guards do not matter, for a branch with any guard at
all would do nothing. A branch that is not entered leaves the state as it was. Besides the
branches evaluated here there are none: the parts that are evaluated hold no branch of the
conditional further down. -/
theorem one_branch_enters_between_resets {source name : String} {t : Template}
    (h : Template.compile source name = .ok t) {site : Site} {args : List String}
    {bs : List (Branch Node)} (hc : Part.node (.choice site args bs) ∈ t.parts)
    {acts : List Act} (hacts : ∀ a ∈ acts, a.Spares t site.id) (p : Progress) :
    ((Act.evaluationsAll acts p).filter (·.enters site.id)).length ≤ 1 ∧
    (Act.evaluationsAll acts p).Pairwise (fun e e' => e.enters site.id = true →
      site.id ∈ e'.start.scope.settled ∧
      ∀ b, Node.runBranch site.id b e'.start = (.ok (), e'.start)) ∧
    ∀ e ∈ Act.evaluationsAll acts p,
      (e.enters site.id = true → site.id ∈ (Act.runAll acts p).scope.settled) ∧
      ∀ b, Part.branch site.id b ∈ e.part.subtree → e.part = .branch site.id b ∧ b ∈ bs ∧
        if e.enters site.id then
          site.id ∈ e.stop.scope.settled ∧ e.part.run e.start =
            Node.runAll b.body { e.start with scope := e.start.scope.settle site.id }
        else e.stop = e.start := by
  have hl := Act.latchedAll (p := p) hacts
  refine ⟨hl.length_enters_le, hl.later.imp fun hlater he => ?_, fun e he => ⟨hl.last e he, ?_⟩⟩
  · exact ⟨hlater he, fun b => Node.runBranch_of_settled (hlater he) b⟩
  · intro b hb
    obtain ⟨hq, hbelow⟩ := Act.spared_of_mem hacts he
    have hpart := Template.eq_of_branch_mem_subtree hq hbelow hb
    refine ⟨hpart, Template.mem_branches h hc (hpart ▸ hq), ?_⟩
    split
    · rename_i henters
      exact ⟨Evaluation.settled_of_enters hq hbelow henters,
        Evaluation.run_of_enters hpart henters⟩
    · rename_i henters
      exact Evaluation.stop_of_not_enters hpart (Bool.not_eq_true _ ▸ henters)

/-- A condition that fails, a last branch that fails in its body, and both branches again
where the condition would hold: the second evaluation is the only one that enters. -/
theorem one_branch_enters_between_resets_failing_body :
    ∃ t first last,
      Template.compile "{%if n == x}a{%else}b{%?gone}{%/if}" "page" = .ok t ∧
      Part.node (.choice ⟨0, ⟨0, 35⟩⟩ ["n", "==", "x"] [first, last]) ∈ t.parts ∧
      let acts : List Act := [.evaluate [.branch 0 first], .evaluate [.branch 0 last],
        .push ⟨"n", .text "x"⟩, .evaluate [.branch 0 first, .branch 0 last]]
      let p : Progress := ⟨"so ", ⟨⟨[], [], none, none⟩, [], []⟩⟩
      (∀ a ∈ acts, a.Spares t 0) ∧
      (Act.evaluationsAll acts p).map (·.enters 0) = [false, true, false, false] ∧
      Act.runAll acts p = ⟨"so b", ⟨⟨[], [], none, none⟩, [⟨"n", .text "x"⟩], [0]⟩⟩ ∧
      ((Act.evaluationsAll acts p).filter (·.enters 0)).length ≤ 1 := by
  let first : Branch Node := ⟨⟨2, ⟨0, 13⟩⟩, some ["n", "==", "x"], [.text ⟨1, ⟨12, 13⟩⟩ "a"]⟩
  let last : Branch Node := ⟨⟨3, ⟨13, 29⟩⟩, none,
    [.text ⟨4, ⟨20, 21⟩⟩ "b", .fetch ⟨5, ⟨21, 29⟩⟩ "gone"]⟩
  let t : Template := ⟨"page", "{%if n == x}a{%else}b{%?gone}{%/if}",
    [.choice ⟨0, ⟨0, 35⟩⟩ ["n", "==", "x"] [first, last]]⟩
  have hc : Template.compile "{%if n == x}a{%else}b{%?gone}{%/if}" "page" = .ok t := by cbv
  have hif : Part.node (.choice ⟨0, ⟨0, 35⟩⟩ ["n", "==", "x"] [first, last]) ∈ t.parts :=
    List.mem_cons_self
  -- The conditional is a root, so no row is around it.
  have hroot : ∀ r ∈ Node.rowsAll none t.roots, 0 ∉ r.content.children := by decide
  have hbelow : ∀ i, i ≠ 0 → ¬ Below t.table 0 i := by
    intro i hi hb
    rcases hb.cases_head with h | ⟨j, ⟨r, hr, -, hj⟩, -⟩
    · exact hi h.symm
    · exact hroot r (t.table_perm_rows.mem_iff.mp hr) hj
  have hfirst : Part.branch 0 first ∈ t.parts ∧ ¬ Below t.table 0 2 :=
    ⟨by simp [t, Template.parts, Node.partsAll, Node.parts, Node.partsBranches_cons],
      hbelow 2 (by decide)⟩
  have hlast : Part.branch 0 last ∈ t.parts ∧ ¬ Below t.table 0 3 :=
    ⟨by simp [t, Template.parts, Node.partsAll, Node.parts, Node.partsBranches_cons],
      hbelow 3 (by decide)⟩
  have hacts : ∀ a ∈ ([.evaluate [.branch 0 first], .evaluate [.branch 0 last],
      .push ⟨"n", .text "x"⟩, .evaluate [.branch 0 first, .branch 0 last]] : List Act),
      a.Spares t 0 := by
    simp only [List.forall_mem_cons, Act.Spares]
    simp [hfirst, hlast, first, last]
  exact ⟨t, first, last, hc, hif, hacts, rfl, rfl,
    (one_branch_enters_between_resets hc hif hacts _).1⟩

end TagTemplate
