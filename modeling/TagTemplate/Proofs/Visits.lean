import Mathlib
import TagTemplate.Proofs.Footprint
import TagTemplate.Proofs.Outline

/-! The parts that an evaluation comes to, in order, each with what it can see there. What
a run writes and how it ends is what its visits do one after another, and every visit is
entered from the one around it. -/

namespace TagTemplate

/-- A part that is evaluated, and the scope in which it is. -/
structure Visit where
  part : Part
  scope : Scope

/-- What comes after an action, if it succeeds. -/
def Eval.visitsAfter {α : Type} (x : Eval α) (next : α → Progress → List Visit)
    (p : Progress) : List Visit :=
  match x p with
  | (.ok a, p') => next a p'
  | (.error _, _) => []

def Eval.visitsEach (name : String) (body : Eval Unit) (visits : Progress → List Visit) :
    List Value → Progress → List Visit
  | [], _ => []
  | v :: vs, p =>
    visits { p with scope := p.scope.push ⟨name, v⟩ } ++
      (withFrame ⟨name, v⟩ body).visitsAfter (fun _ => visitsEach name body visits vs) p

namespace Node

mutual

def visits (n : Node) (p : Progress) : List Visit :=
  ⟨.node n, p.scope⟩ :: match n with
    | conditional site args body =>
      (Eval.ask site (·.holds args)).visitsAfter
        (fun holds p => if holds then visitsAll body p else []) p
    | choice site _ branches =>
      (Eval.unsettle site.id).visitsAfter (fun _ p => visitsBranches site.id branches p) p
    | loop site args body =>
      (Eval.ask site (·.iteration args)).visitsAfter
        (fun head p => Eval.visitsEach head.1 (runAll body) (fun p => visitsAll body p) head.2 p) p
    | text .. | fetch .. | localeText .. | field .. => []

def visitsAll : List Node → Progress → List Visit
  | [], _ => []
  | n :: ns, p => n.visits p ++ n.run.visitsAfter (fun _ p => visitsAll ns p) p

def visitsBranch (owner : Nat) : Branch Node → Progress → List Visit
  | ⟨site, guard, body⟩, p =>
    ⟨.branch owner ⟨site, guard, body⟩, p.scope⟩ ::
      if p.scope.isSettled owner then []
      else
        let enter (p : Progress) : List Visit :=
          (Eval.settle owner).visitsAfter (fun _ p => visitsAll body p) p
        match guard with
        | some args =>
          (Eval.ask site (·.holds args)).visitsAfter
            (fun holds p => if holds then enter p else []) p
        | none => enter p

def visitsBranches (owner : Nat) : List (Branch Node) → Progress → List Visit
  | [], _ => []
  | b :: bs, p =>
    visitsBranch owner b p ++
      (runBranch owner b).visitsAfter (fun _ p => visitsBranches owner bs p) p

end

end Node

/-- The visits of a render. -/
def Template.visits (t : Template) (inputs : Inputs) : List Visit :=
  Node.visitsAll t.roots ⟨"", .ofInputs inputs⟩

namespace Visit

/-- What a part by itself writes where it is visited, or how its own question fails. -/
def reading (v : Visit) : Reading :=
  match v.part with
  | .node (.text _ content) => .text content
  | .node (.fetch site raw) => .asking site (v.scope.renderVariable raw) .text
  | .node (.localeText _ key raw) => .text (v.scope.renderLocale key raw)
  | .node (.field site args) => .asking site (Field.render v.scope args) .text
  | .node (.conditional site args _) => .asking site (v.scope.holds args) fun _ => .silent
  | .node (.choice ..) => .silent
  | .node (.loop site args _) => .asking site (v.scope.iteration args) fun _ => .silent
  | .branch owner ⟨site, some args, _⟩ =>
    if v.scope.isSettled owner then .silent
    else .asking site (v.scope.holds args) fun _ => .silent
  | .branch _ ⟨_, none, _⟩ => .silent

def replay (vs : List Visit) : Reading :=
  .inOrder (vs.map reading)

@[simp] theorem replay_nil : replay [] = .silent := rfl

@[simp] theorem replay_cons (v : Visit) (vs : List Visit) :
    replay (v :: vs) = v.reading.andThen (replay vs) := rfl

theorem replay_append (vs ws : List Visit) :
    replay (vs ++ ws) = (replay vs).andThen (replay ws) := by
  induction vs with
  | nil => simp
  | cons v vs ih => rw [List.cons_append, replay_cons, replay_cons, ih, Reading.andThen_assoc]

/-- The visit that fails is the one after those that go well. -/
theorem exists_of_replay_failure {vs : List Visit} {f : Failure}
    (h : (replay vs).failure = some f) : ∃ before v after, vs = before ++ v :: after ∧
      (replay before).failure = none ∧ v.reading.failure = some f := by
  induction vs with
  | nil => exact nomatch h
  | cons v vs ih =>
    cases hv : v.reading.failure with
    | some g =>
      have hr : replay (v :: vs) = v.reading := by rw [replay_cons, Reading.andThen, hv]
      exact ⟨[], v, vs, rfl, rfl, hr ▸ h⟩
    | none =>
      rw [replay_cons, Reading.andThen, hv] at h
      obtain ⟨before, w, after, rfl, hb, hw⟩ := ih h
      refine ⟨v :: before, w, after, rfl, ?_, hw⟩
      rw [replay_cons, Reading.andThen, hv]
      exact hb

end Visit

/-- A run that ends like a reading and writes what the reading does. -/
def Eval.Yields (x : Eval Unit) (r : Reading) (p : Progress) : Prop :=
  (x p).1 = r.result ∧ (x p).2.output = p.output ++ r.output

namespace Eval

variable {x y : Eval Unit} {r : Reading} {p p' : Progress}

theorem visitsAfter_of_ok {α : Type} {x : Eval α} {a : α} (h : x p = (.ok a, p'))
    (next : α → Progress → List Visit) : x.visitsAfter next p = next a p' := by
  rw [visitsAfter, h]

theorem visitsAfter_of_error {α : Type} {x : Eval α} {f : Failure} (h : x p = (.error f, p'))
    (next : α → Progress → List Visit) : x.visitsAfter next p = [] := by
  rw [visitsAfter, h]

theorem Yields.silent : (pure () : Eval Unit).Yields .silent p :=
  ⟨rfl, by simp [Reading.silent]; rfl⟩

theorem Yields.text (s : String) : (write s).Yields (.text s) p :=
  ⟨rfl, rfl⟩

theorem Yields.bind_of_ok {α : Type} {x : Eval α} {f : α → Eval Unit} {a : α}
    (h : x p = (.ok a, p')) (ho : p'.output = p.output) (hf : (f a).Yields r p') :
    (x >>= f).Yields r p := by
  unfold Yields at hf ⊢
  rw [bind_apply, h, ← ho]
  exact hf

theorem Yields.leaf (site : Site) (question : Scope → Except RenderFault String) :
    (ask site question >>= write).Yields (.asking site (question p.scope) .text) p := by
  have hx := ask_apply site question p
  cases hq : question p.scope with
  | ok s =>
    rw [hq] at hx
    exact .bind_of_ok hx rfl (.text s)
  | error fault =>
    rw [hq] at hx
    unfold Yields
    rw [bind_apply, hx]
    exact ⟨rfl, by simp [Reading.asking]⟩

/-- A question that fails is the last thing that happens, and otherwise it leaves no trace. -/
theorem Yields.asking {α : Type} {site : Site} {question : Scope → Except RenderFault α}
    {k : α → Eval Unit} {next : α → Progress → List Visit} {v : Visit}
    (hv : v.reading = .asking site (question p.scope) fun _ => .silent)
    (hk : ∀ a, (k a).Yields (Visit.replay (next a p)) p) :
    (ask site question >>= k).Yields
      (Visit.replay (v :: (ask site question).visitsAfter next p)) p := by
  have hx := ask_apply site question p
  rw [Visit.replay_cons, hv]
  cases hq : question p.scope with
  | ok a =>
    rw [hq] at hx
    rw [visitsAfter_of_ok hx, Reading.asking, Reading.silent_andThen]
    exact .bind_of_ok hx rfl (hk a)
  | error fault =>
    rw [hq] at hx
    unfold Yields
    rw [bind_apply, hx]
    exact ⟨rfl, by simp [Reading.asking, Reading.andThen]⟩

theorem Yields.andThen {vs : List Visit} {next : Progress → List Visit}
    (hx : x.Yields (Visit.replay vs) p)
    (hy : ∀ p', y.Yields (Visit.replay (next p')) p') :
    (x >>= fun _ => y).Yields
      (Visit.replay (vs ++ x.visitsAfter (fun _ => next) p)) p := by
  rw [Visit.replay_append]
  unfold Yields at hx ⊢
  rw [bind_apply]
  cases hp : x p with
  | mk result p' =>
    rw [hp] at hx
    obtain ⟨hr, ho⟩ : result = _ ∧ p'.output = _ := hx
    cases hf : (Visit.replay vs).failure with
    | none =>
      have hok : result = .ok () := by rw [hr, Reading.result, hf]
      subst hok
      obtain ⟨hr', ho'⟩ := hy p'
      rw [visitsAfter_of_ok hp]
      refine ⟨?_, ?_⟩
      · simpa [Reading.andThen, hf, Reading.result] using hr'
      · rw [ho', ho]
        simp [Reading.andThen, hf, String.append_assoc]
    | some f =>
      have herror : result = .error f := by rw [hr, Reading.result, hf]
      subst herror
      rw [visitsAfter_of_error hp]
      exact ⟨by simp [Reading.andThen, hf, Reading.result], by simpa using ho⟩

theorem Yields.withFrame {f : Frame} (h : x.Yields r { p with scope := p.scope.push f }) :
    (withFrame f x).Yields r p :=
  h

theorem Yields.forEach {name : String} {visits : Progress → List Visit}
    (h : ∀ p, x.Yields (Visit.replay (visits p)) p) (items : List Value) (p : Progress) :
    (forEach name x items).Yields (Visit.replay (visitsEach name x visits items p)) p := by
  induction items generalizing p with
  | nil => exact .silent
  | cons item items ih => exact (Yields.withFrame (h _)).andThen ih

end Eval

namespace Node

mutual

/-- A run writes what its visits write, and ends as they do. -/
theorem run_yields (n : Node) (p : Progress) : n.run.Yields (Visit.replay (n.visits p)) p := by
  cases n with
  | text site content =>
    rw [visits, Visit.replay_cons, Visit.replay_nil, Reading.andThen_silent]
    exact .text content
  | localeText site key raw =>
    rw [visits, Visit.replay_cons, Visit.replay_nil, Reading.andThen_silent]
    exact .text _
  | fetch site raw =>
    rw [visits, Visit.replay_cons, Visit.replay_nil, Reading.andThen_silent]
    exact .leaf site (·.renderVariable raw)
  | field site args =>
    rw [visits, Visit.replay_cons, Visit.replay_nil, Reading.andThen_silent]
    exact .leaf site (Field.render · args)
  | conditional site args body =>
    rw [run, visits]
    refine .asking rfl fun holds => ?_
    cases holds with
    | true => exact runAll_yields body p
    | false => exact .silent
  | loop site args body =>
    rw [run, visits]
    exact .asking rfl fun head => .forEach (runAll_yields body) head.2 p
  | choice site args bs =>
    rw [run, visits, Visit.replay_cons]
    -- Resetting the mark writes nothing; the branches are all there is.
    show Eval.Yields _ (Reading.andThen .silent _) p
    rw [Reading.silent_andThen]
    exact .bind_of_ok rfl rfl (runBranches_yields site.id bs _)

theorem runAll_yields (ns : List Node) (p : Progress) :
    (runAll ns).Yields (Visit.replay (visitsAll ns p)) p := by
  cases ns with
  | nil => exact .silent
  | cons n ns =>
    rw [runAll, visitsAll]
    exact (run_yields n p).andThen (runAll_yields ns)

theorem runBranch_yields (owner : Nat) (b : Branch Node) (p : Progress) :
    (runBranch owner b).Yields (Visit.replay (visitsBranch owner b p)) p := by
  obtain ⟨site, guard, body⟩ := b
  have henter : ∀ p : Progress, (Eval.settle owner >>= fun _ => runAll body).Yields
      (Visit.replay ((Eval.settle owner).visitsAfter (fun _ p => visitsAll body p) p)) p :=
    fun p => .bind_of_ok rfl rfl (runAll_yields body _)
  by_cases hs : owner ∈ p.scope.settled
  · have hv : Visit.replay (visitsBranch owner ⟨site, guard, body⟩ p) = .silent := by
      have hsettled : p.scope.isSettled owner = true := by simpa [Scope.isSettled] using hs
      rw [visitsBranch, if_pos hsettled, Visit.replay_cons, Visit.replay_nil,
        Reading.andThen_silent]
      cases guard <;> simp [Visit.reading, hsettled]
    rw [hv]
    unfold Eval.Yields
    rw [runBranch_of_settled hs]
    exact Eval.Yields.silent
  · have hsettled : p.scope.isSettled owner = false := by simpa [Scope.isSettled] using hs
    unfold Eval.Yields
    rw [runBranch_of_unsettled hs, visitsBranch, if_neg (by simp [hsettled])]
    cases guard with
    | none => exact henter p
    | some args =>
      refine Eval.Yields.asking (by simp [Visit.reading, hsettled]) fun holds => ?_
      cases holds with
      | true => exact henter p
      | false => exact .silent

theorem runBranches_yields (owner : Nat) (bs : List (Branch Node)) (p : Progress) :
    (runBranches owner bs).Yields (Visit.replay (visitsBranches owner bs p)) p := by
  cases bs with
  | nil => exact .silent
  | cons b bs =>
    rw [runBranches, visitsBranches]
    exact (runBranch_yields owner b p).andThen (runBranches_yields owner bs)

end

end Node

/-- One visit directly within another. Only a loop changes what can be seen. -/
inductive Visit.Enters : Visit → Visit → Prop where
  | conditional {site : Site} {args : List String} {body : List Node} {m : Node} {s s' : Scope}
      (child : m ∈ body) (view : s'.view = s.view) :
      Enters ⟨.node (.conditional site args body), s⟩ ⟨.node m, s'⟩
  | choice {site : Site} {args : List String} {bs : List (Branch Node)} {b : Branch Node}
      {s s' : Scope} (child : b ∈ bs) (view : s'.view = s.view) :
      Enters ⟨.node (.choice site args bs), s⟩ ⟨.branch site.id b, s'⟩
  | branch {owner : Nat} {b : Branch Node} {m : Node} {s s' : Scope} (child : m ∈ b.body)
      (view : s'.view = s.view) : Enters ⟨.branch owner b, s⟩ ⟨.node m, s'⟩
  | loop {site : Site} {args : List String} {body : List Node} {m : Node} {s s' : Scope}
      {name : String} {items : List Value} {item : Value} (child : m ∈ body)
      (iteration : s.iteration args = .ok (name, items)) (mem : item ∈ items)
      (view : s'.view = s.view.bind name item) :
      Enters ⟨.node (.loop site args body), s⟩ ⟨.node m, s'⟩

namespace Eval

variable {α : Type} {x : Eval α} {own : List Nat} {p : Progress} {v : Visit}

theorem Confined.view (h : x.Confined own) (p : Progress) :
    (x p).2.scope.view = p.scope.view := by
  have hp := h p
  simp only [Scope.view, hp.inputs, hp.frames]

theorem exists_of_mem_visitsAfter (h : x.Confined own) {next : α → Progress → List Visit}
    (hv : v ∈ x.visitsAfter next p) :
    ∃ a p', x p = (.ok a, p') ∧ p'.scope.view = p.scope.view ∧ v ∈ next a p' := by
  have hview := h.view p
  unfold visitsAfter at hv
  split at hv
  · rename_i a p' hx
    rw [hx] at hview
    exact ⟨a, p', hx, hview, hv⟩
  · exact nomatch hv

theorem exists_of_mem_visitsAfter_ask {site : Site} {question : Scope → Except RenderFault α}
    {next : α → Progress → List Visit} (hv : v ∈ (ask site question).visitsAfter next p) :
    ∃ a, question p.scope = .ok a ∧ v ∈ next a p := by
  have hx := ask_apply site question p
  cases hq : question p.scope with
  | ok a =>
    rw [hq] at hx
    exact ⟨a, rfl, visitsAfter_of_ok hx next ▸ hv⟩
  | error fault =>
    rw [hq] at hx
    rw [visitsAfter_of_error hx] at hv
    exact nomatch hv

theorem exists_of_mem_visitsEach {name : String} {body : Eval Unit} (h : body.Confined own)
    {visits : Progress → List Visit} {items : List Value}
    (hv : v ∈ visitsEach name body visits items p) :
    ∃ item ∈ items, ∃ p', p'.scope.view = p.scope.view.bind name item ∧ v ∈ visits p' := by
  induction items generalizing p with
  | nil => exact nomatch hv
  | cons item items ih =>
    rcases List.mem_append.mp hv with hv | hv
    · exact ⟨item, List.mem_cons_self, _, rfl, hv⟩
    · obtain ⟨_, p', -, hview, hv⟩ := exists_of_mem_visitsAfter (h.withFrame ⟨name, item⟩) hv
      obtain ⟨item', hmem, p'', hview', hv⟩ := ih hv
      exact ⟨item', List.mem_cons_of_mem _ hmem, p'', hview ▸ hview', hv⟩

end Eval

namespace Node

mutual

theorem enters_of_mem_visits {n : Node} {p : Progress} {v : Visit} (hv : v ∈ n.visits p) :
    Relation.ReflTransGen Visit.Enters ⟨.node n, p.scope⟩ v := by
  rw [visits.eq_def] at hv
  rcases List.mem_cons.mp hv with rfl | hv
  · exact .refl
  cases n with
  | conditional site args body =>
    obtain ⟨holds, -, hv⟩ := Eval.exists_of_mem_visitsAfter_ask hv
    cases holds with
    | true =>
      obtain ⟨m, hm, s, hs, hr⟩ := enters_of_mem_visitsAll hv
      exact .head (.conditional hm hs) hr
    | false => exact nomatch hv
  | loop site args body =>
    obtain ⟨head, hi, hv⟩ := Eval.exists_of_mem_visitsAfter_ask hv
    obtain ⟨item, hitem, q, hq, hv⟩ := Eval.exists_of_mem_visitsEach (runAll_confined body) hv
    obtain ⟨m, hm, s, hs, hr⟩ := enters_of_mem_visitsAll hv
    exact .head (.loop hm hi hitem (hs.trans hq)) hr
  | choice site args bs =>
    have hown : (Eval.unsettle site.id).Confined [site.id] := .unsettle List.mem_cons_self
    obtain ⟨_, p', -, hview, hv⟩ := Eval.exists_of_mem_visitsAfter hown hv
    obtain ⟨b, hb, s, hs, hr⟩ := enters_of_mem_visitsBranches hv
    exact .head (.choice hb (hs.trans hview)) hr
  | text | fetch | localeText | field => exact nomatch hv

theorem enters_of_mem_visitsAll {ns : List Node} {p : Progress} {v : Visit}
    (hv : v ∈ visitsAll ns p) : ∃ n ∈ ns, ∃ s : Scope, s.view = p.scope.view ∧
      Relation.ReflTransGen Visit.Enters ⟨.node n, s⟩ v := by
  cases ns with
  | nil => exact nomatch hv
  | cons n ns =>
    rcases List.mem_append.mp hv with hv | hv
    · exact ⟨n, List.mem_cons_self, p.scope, rfl, enters_of_mem_visits hv⟩
    · obtain ⟨_, p', -, hview, hv⟩ := Eval.exists_of_mem_visitsAfter n.run_confined hv
      obtain ⟨m, hm, s, hs, hr⟩ := enters_of_mem_visitsAll hv
      exact ⟨m, List.mem_cons_of_mem _ hm, s, hs.trans hview, hr⟩

theorem enters_of_mem_visitsBranch {owner : Nat} {b : Branch Node} {p : Progress} {v : Visit}
    (hv : v ∈ visitsBranch owner b p) :
    Relation.ReflTransGen Visit.Enters ⟨.branch owner b, p.scope⟩ v := by
  obtain ⟨site, guard, body⟩ := b
  have henter : v ∈ (Eval.settle owner).visitsAfter (fun _ p => visitsAll body p) p →
      Relation.ReflTransGen Visit.Enters ⟨.branch owner ⟨site, guard, body⟩, p.scope⟩ v := by
    intro hv
    have hown : (Eval.settle owner).Confined [owner] := .settle List.mem_cons_self
    obtain ⟨_, p', -, hview, hv⟩ := Eval.exists_of_mem_visitsAfter hown hv
    obtain ⟨m, hm, s, hs, hr⟩ := enters_of_mem_visitsAll hv
    exact .head (.branch hm (hs.trans hview)) hr
  rw [visitsBranch] at hv
  rcases List.mem_cons.mp hv with rfl | hv
  · exact .refl
  split at hv
  · exact nomatch hv
  · cases guard with
    | none => exact henter hv
    | some args =>
      obtain ⟨holds, -, hv⟩ := Eval.exists_of_mem_visitsAfter_ask hv
      cases holds with
      | true => exact henter hv
      | false => exact nomatch hv

theorem enters_of_mem_visitsBranches {owner : Nat} {bs : List (Branch Node)} {p : Progress}
    {v : Visit} (hv : v ∈ visitsBranches owner bs p) : ∃ b ∈ bs, ∃ s : Scope,
      s.view = p.scope.view ∧ Relation.ReflTransGen Visit.Enters ⟨.branch owner b, s⟩ v := by
  cases bs with
  | nil => exact nomatch hv
  | cons b bs =>
    rcases List.mem_append.mp hv with hv | hv
    · exact ⟨b, List.mem_cons_self, p.scope, rfl, enters_of_mem_visitsBranch hv⟩
    · obtain ⟨_, p', -, hview, hv⟩ :=
        Eval.exists_of_mem_visitsAfter (runBranch_confined owner b) hv
      obtain ⟨c, hc, s, hs, hr⟩ := enters_of_mem_visitsBranches hv
      exact ⟨c, List.mem_cons_of_mem _ hc, s, hs.trans hview, hr⟩

end

end Node

theorem Node.node_mem_partsAll {ns : List Node} {n : Node} (h : n ∈ ns) :
    Part.node n ∈ partsAll ns := by
  rw [partsAll_eq_flatMap]
  exact List.mem_flatMap.mpr ⟨n, h, n.node_mem_parts⟩

theorem Node.branch_mem_partsBranches {bs : List (Branch Node)} {b : Branch Node} (h : b ∈ bs)
    (owner : Nat) : Part.branch owner b ∈ partsBranches owner bs := by
  rw [partsBranches_eq_flatMap]
  refine List.mem_flatMap.mpr ⟨b, h, ?_⟩
  rw [partsBranch_eq]
  exact List.mem_cons_self

theorem Visit.Enters.mem_subtree {v w : Visit} (h : v.Enters w) : w.part ∈ v.part.subtree := by
  cases h with
  | conditional child => exact List.mem_cons_of_mem _ (Node.node_mem_partsAll child)
  | loop child => exact List.mem_cons_of_mem _ (Node.node_mem_partsAll child)
  | choice child => exact List.mem_cons_of_mem _ (Node.branch_mem_partsBranches child _)
  | @branch owner b m s s' child =>
    show Part.node m ∈ Node.partsBranch owner b
    rw [Node.partsBranch_eq]
    exact List.mem_cons_of_mem _ (Node.node_mem_partsAll child)

namespace Template

variable {t : Template} {inputs : Inputs}

/-- A render is what its visits do, one after another. -/
theorem render_eq_replay (t : Template) (inputs : Inputs) :
    t.render inputs = (Visit.replay (t.visits inputs)).outcome t.name := by
  obtain ⟨hr, ho⟩ := Node.runAll_yields t.roots ⟨"", .ofInputs inputs⟩
  unfold render Reading.outcome visits
  cases hx : (Node.runAll t.roots).run ⟨"", .ofInputs inputs⟩ with
  | mk result p =>
    have hx' : Node.runAll t.roots ⟨"", .ofInputs inputs⟩ = (result, p) := hx
    rw [hx'] at hr ho
    cases hf : (Visit.replay (Node.visitsAll t.roots ⟨"", .ofInputs inputs⟩)).failure with
    | none =>
      obtain rfl : result = .ok () := by simpa [Reading.result, hf] using hr
      exact congrArg Except.ok (by simpa using ho)
    | some f =>
      obtain rfl : result = .error f := by simpa [Reading.result, hf] using hr
      rfl

/-- What holds of the roots with nothing bound, and of each visit that is entered from one of
which it holds, holds of all visits of a render. -/
theorem visits_induction {P : Visit → Prop}
    (roots : ∀ n ∈ t.roots, ∀ s : Scope, s.view = ⟨inputs, []⟩ → P ⟨.node n, s⟩)
    (enters : ∀ v w, P v → v.Enters w → P w) {v : Visit} (hv : v ∈ t.visits inputs) : P v := by
  obtain ⟨n, hn, s, hs, hr⟩ := Node.enters_of_mem_visitsAll hv
  clear hv
  induction hr with
  | refl => exact roots n hn s hs
  | tail _ h ih => exact enters _ _ ih h

theorem part_mem_of_mem_visits {v : Visit} (hv : v ∈ t.visits inputs) : v.part ∈ t.parts := by
  exact visits_induction (P := fun v => v.part ∈ t.parts)
    (fun n hn _ _ => Node.node_mem_partsAll hn)
    (fun v w h he => Part.subtree_subset h he.mem_subtree) hv

end Template

end TagTemplate
