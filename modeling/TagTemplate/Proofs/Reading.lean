import Mathlib
import TagTemplate.Proofs.Numbering
import TagTemplate.Render.Evaluate

/-! A reading of templates without marks and without a stack: what is bound is handed
down the tree, and a conditional is its first branch whose guard holds. Running the
nodes of a template writes what they read, whatever marks and loop items are around. -/

namespace TagTemplate

/-- What a reading can see: the tables, and the loop items around, innermost first. -/
structure View where
  inputs : Inputs
  bindings : List Frame

namespace View

def bind (v : View) (name : String) (item : Value) : View :=
  { v with bindings := ⟨name, item⟩ :: v.bindings }

/-- The scope that answers the questions of a reading. No mark is ever set in it. -/
def scope (v : View) : Scope :=
  ⟨v.inputs, v.bindings, []⟩

/-- The item name of a loop and the collection it runs over. -/
def looped (v : View) (args : List String) : Except RenderFault (String × Value) := do
  let (item, collection) ← loopHead args
  return (item, ← v.scope.collection collection)

end View

/-- The text that is read, and the failure that ended it, if one did. -/
structure Reading where
  output : String
  failure : Option Failure

namespace Reading

def silent : Reading :=
  ⟨"", none⟩

def text (s : String) : Reading :=
  ⟨s, none⟩

/-- Nothing is read after a failure. -/
def andThen (r s : Reading) : Reading :=
  match r.failure with
  | some _ => r
  | none => ⟨r.output ++ s.output, s.failure⟩

def inOrder : List Reading → Reading
  | [] => silent
  | r :: rs => r.andThen (inOrder rs)

/-- What is read for each item of a list, or for the value of each entry of a map. -/
def each (reading : Value → Reading) : Value → Reading
  | .list items => inOrder (items.map reading)
  | .map entries => inOrder (entries.map fun e => reading e.2)
  | _ => silent

/-- Reads on with an answer; a fault is a failure of the tag at the site. -/
def asking {α : Type} (site : Site) (answer : Except RenderFault α) (next : α → Reading) :
    Reading :=
  match answer with
  | .ok a => next a
  | .error fault => ⟨"", some ⟨site.span.start, fault⟩⟩

def result (r : Reading) : Except Failure Unit :=
  match r.failure with
  | none => .ok ()
  | some f => .error f

end Reading

namespace Node

mutual

def read (v : View) : Node → Reading
  | text _ content => .text content
  | fetch site raw => .asking site (v.scope.renderVariable raw) .text
  | localeText _ key raw => .text (v.scope.renderLocale key raw)
  | field site args => .asking site (Field.render v.scope args) .text
  | conditional site args body =>
    .asking site (v.scope.holds args) fun holds => if holds then readAll v body else .silent
  | choice _ _ branches => readFirst v branches
  | loop site args body =>
    .asking site (v.looped args) fun (name, collection) =>
      .each (fun item => readAll (v.bind name item) body) collection

def readAll (v : View) : List Node → Reading
  | [] => .silent
  | n :: ns => (read v n).andThen (readAll v ns)

/-- The body of the first branch whose guard holds; those after it are not looked at. -/
def readFirst (v : View) : List (Branch Node) → Reading
  | [] => .silent
  | ⟨site, guard, body⟩ :: bs =>
    match guard with
    | none => readAll v body
    | some args =>
      .asking site (v.scope.holds args) fun holds =>
        if holds then readAll v body else readFirst v bs

end

end Node

def Scope.view (s : Scope) : View :=
  ⟨s.inputs, s.frames⟩

theorem Reading.each_eq (reading : Value → Reading) (collection : Value) :
    each reading collection = inOrder (collection.elements.map reading) := by
  cases collection with
  | map entries => simp [each, Value.elements, Entries.values, Function.comp_def]
  | _ => rfl

/-- What the evaluator asks of its scope when it comes to a loop. -/
theorem Scope.iteration_eq (s : Scope) (args : List String) :
    s.iteration args = (s.view.looped args).map fun l => (l.1, l.2.elements) := by
  unfold iteration View.looped
  cases loopHead args with
  | error fault => rfl
  | ok head =>
    change (s.collection head.2).bind _ = Except.map _ ((s.collection head.2).bind _)
    cases s.collection head.2 <;> rfl

theorem Reading.asking_map {α β : Type} (site : Site) (answer : Except RenderFault α) (f : α → β)
    (next : β → Reading) :
    asking site (answer.map f) next = asking site answer fun a => next (f a) := by
  cases answer <;> rfl

/-- Whether a conditional's own number does not come back below it. -/
def Part.MarksAlone : Part → Prop
  | .node (.choice site _ bs) => site.id ∉ (Node.partsBranches site.id bs).map Part.id
  | _ => True

/-- An action writes a reading: the output and the end are those of the reading, the loop
items are as before, and so are the marks of all conditionals but its own. -/
def Eval.Writes (x : Eval Unit) (r : Reading) (own : List Nat) (p : Progress) : Prop :=
  ∃ marks, x p = (r.result, ⟨p.output ++ r.output, { p.scope with settled := marks }⟩) ∧
    ∀ id ∉ own, (id ∈ marks ↔ id ∈ p.scope.settled)

theorem bind_apply {σ ε α β : Type} (x : ExceptT ε (StateM σ) α)
    (f : α → ExceptT ε (StateM σ) β) (s : σ) :
    (x >>= f) s = match x s with
      | (.ok a, s') => f a s'
      | (.error e, s') => (.error e, s') := by
  simp only [bind, ExceptT.bind, ExceptT.mk, StateT.bind, ExceptT.bindCont]
  cases x s with
  | mk a s' => cases a <;> rfl

namespace Eval

variable {x y : Eval Unit} {r r' : Reading} {own own' : List Nat} {p : Progress}

theorem ask_apply {α : Type} (site : Site) (question : Scope → Except RenderFault α)
    (p : Progress) : ask site question p = match question p.scope with
      | .ok a => (.ok a, p)
      | .error fault => (.error ⟨site.span.start, fault⟩, p) := by
  change (match question p.scope with
    | .ok a => (pure a : Eval α)
    | .error fault => throw (⟨site.span.start, fault⟩ : Failure)) p = _
  cases question p.scope <;> rfl

theorem bind_congr_apply {α β : Type} {x y : Eval α} {p : Progress} (h : x p = y p)
    (f : α → Eval β) : (x >>= f) p = (y >>= f) p := by
  rw [bind_apply, bind_apply, h]

theorem Writes.congr (h : x p = y p) (hy : y.Writes r own p) : x.Writes r own p := by
  unfold Writes
  rwa [h]

theorem Writes.mono (h : x.Writes r own p) (hs : own ⊆ own') : x.Writes r own' p := by
  obtain ⟨marks, hx, hm⟩ := h
  exact ⟨marks, hx, fun id hid => hm id fun hi => hid (hs hi)⟩

theorem Writes.silent : (pure () : Eval Unit).Writes .silent own p :=
  ⟨p.scope.settled, by simp [Reading.silent, Reading.result]; rfl, fun _ _ => Iff.rfl⟩

theorem Writes.text (s : String) : (write s).Writes (.text s) own p :=
  ⟨p.scope.settled, rfl, fun _ _ => Iff.rfl⟩

theorem Writes.andThen (hx : x.Writes r own p)
    (hy : ∀ marks, (∀ id ∉ own, (id ∈ marks ↔ id ∈ p.scope.settled)) →
      y.Writes r' own ⟨p.output ++ r.output, { p.scope with settled := marks }⟩) :
    (x >>= fun _ => y).Writes (r.andThen r') own p := by
  obtain ⟨marks, hx, hm⟩ := hx
  unfold Writes
  rw [bind_apply, hx]
  cases hf : r.failure with
  | some f => exact ⟨marks, by simp [Reading.andThen, Reading.result, hf], hm⟩
  | none =>
    obtain ⟨marks', hy, hm'⟩ := hy marks hm
    refine ⟨marks', ?_, fun id hid => (hm' id hid).trans (hm id hid)⟩
    simp [Reading.andThen, Reading.result, hf, hy, String.append_assoc]

theorem Writes.asking {α : Type} {site : Site} {question : Scope → Except RenderFault α}
    {k : α → Eval Unit} {next : α → Reading} (hk : ∀ a, (k a).Writes (next a) own p) :
    (ask site question >>= k).Writes (.asking site (question p.scope) next) own p := by
  unfold Writes
  rw [bind_apply, ask_apply]
  cases hq : question p.scope with
  | ok a => exact hk a
  | error fault =>
    exact ⟨p.scope.settled, by simp [Reading.asking, Reading.result], fun _ _ => Iff.rfl⟩

theorem Writes.withFrame {f : Frame}
    (h : x.Writes r own { p with scope := p.scope.push f }) : (withFrame f x).Writes r own p := by
  obtain ⟨marks, hx, hm⟩ := h
  refine ⟨marks, ?_, hm⟩
  simp only [Eval.withFrame, hx]
  rfl

/-- A loop writes the readings of its body one after another, whatever one run of the
body leaves behind for the next. -/
theorem Writes.forEach {name : String} (reading : View → Reading)
    (h : ∀ p, x.Writes (reading p.scope.view) own p) (items : List Value) :
    (forEach name x items).Writes
      (.inOrder (items.map fun item => reading (p.scope.view.bind name item))) own p := by
  induction items generalizing p with
  | nil => exact .silent
  | cons item items ih =>
    have hb := (h { p with scope := p.scope.push ⟨name, item⟩ }).withFrame
    exact hb.andThen fun marks _ => ih

end Eval

namespace Node

theorem runBranch_of_settled {owner : Nat} {p : Progress} (h : owner ∈ p.scope.settled)
    (b : Branch Node) : runBranch owner b p = (.ok (), p) := by
  obtain ⟨site, guard, body⟩ := b
  have hs : Eval.isSettled owner p = (.ok true, p) := by
    change (Except.ok (p.scope.isSettled owner), p) = _
    simp [Scope.isSettled, h]
  rw [runBranch, bind_apply, hs]
  rfl

theorem runBranches_of_settled {owner : Nat} {p : Progress} (h : owner ∈ p.scope.settled)
    (bs : List (Branch Node)) : runBranches owner bs p = (.ok (), p) := by
  induction bs with
  | nil => rfl
  | cons b bs ih =>
    rw [runBranches, bind_apply, runBranch_of_settled h]
    exact ih

/-- A branch of a conditional that has not settled yet: its guard decides, and a body that
is entered settles the conditional first. -/
theorem runBranch_of_unsettled {owner : Nat} {p : Progress} (h : owner ∉ p.scope.settled)
    (site : Site) (guard : Option (List String)) (body : List Node) :
    runBranch owner ⟨site, guard, body⟩ p =
      (match guard with
        | some args => Eval.ask site (·.holds args) >>= fun holds =>
            if holds then Eval.settle owner >>= fun _ => runAll body else pure ()
        | none => Eval.settle owner >>= fun _ => runAll body) p := by
  have hs : Eval.isSettled owner p = (.ok false, p) := by
    change (Except.ok (p.scope.isSettled owner), p) = _
    simp [Scope.isSettled, h]
  rw [runBranch, bind_apply, hs]
  cases guard <;> rfl

theorem mem_settle {s : Scope} {owner id : Nat} :
    id ∈ (s.settle owner).settled ↔ id = owner ∨ id ∈ s.settled := by
  by_cases h : owner ∈ s.settled
  · simp only [Scope.settle, List.contains_iff_mem, h, if_true]
    exact ⟨.inr, fun hi => hi.elim (fun he => he ▸ h) fun hi => hi⟩
  · simp [Scope.settle, h]

/-- A body that is entered leaves its conditional settled, so the branches after it stay
silent. -/
theorem writes_entered {owner : Nat} {own : List Nat} {body : List Node} {r : Reading}
    {p : Progress} (ho : owner ∉ own)
    (hb : ∀ p', p'.scope.view = p.scope.view → (runAll body).Writes r own p')
    (bs : List (Branch Node)) :
    ((Eval.settle owner >>= fun _ => runAll body) >>= fun _ => runBranches owner bs).Writes r
      (owner :: own) p := by
  obtain ⟨marks, hx, hm⟩ := hb { p with scope := p.scope.settle owner } rfl
  have hs : (Eval.settle owner >>= fun _ => runAll body) p = _ := hx
  refine ⟨marks, ?_, ?_⟩
  · rw [bind_apply, hs]
    cases hf : r.failure with
    | some f => simp only [Reading.result, hf]; rfl
    | none =>
      have hmem : owner ∈ marks := (hm owner ho).mpr (mem_settle.mpr (.inl rfl))
      simp only [Reading.result, hf]
      exact runBranches_of_settled hmem bs
  · intro id hid
    have hne : id ≠ owner := fun he => hid (by simp [he])
    rw [hm id fun hi => hid (List.mem_cons_of_mem _ hi), mem_settle]
    simp [hne]

mutual

theorem run_writes (n : Node) (h : ∀ q ∈ n.parts, q.MarksAlone) (p : Progress) :
    n.run.Writes (n.read p.scope.view) (n.parts.map Part.id) p := by
  cases n with
  | text site content => exact .text content
  | fetch site raw => exact .asking fun s => .text s
  | localeText site key raw => exact .text _
  | field site args => exact .asking fun s => .text s
  | conditional site args body =>
    rw [run, read]
    refine .asking fun holds => ?_
    cases holds with
    | true =>
      have hb := runAll_writes body (fun q hq => h q (List.mem_cons_of_mem _ hq)) p
      exact hb.mono (List.subset_cons_self _ _)
    | false => exact .silent
  | loop site args body =>
    have hr : (loop site args body).read p.scope.view =
        .asking site (p.scope.iteration args) fun (name, items) =>
          .inOrder (items.map fun item => readAll (p.scope.view.bind name item) body) := by
      simp only [read, Scope.iteration_eq, Reading.asking_map, Reading.each_eq]
    rw [run, hr]
    refine .asking fun ⟨name, items⟩ => .forEach (readAll · body) (fun p => ?_) items
    have hb := runAll_writes body (fun q hq => h q (List.mem_cons_of_mem _ hq)) p
    exact hb.mono (List.subset_cons_self _ _)
  | choice site args branches =>
    have ho : site.id ∉ (partsBranches site.id branches).map Part.id :=
      h _ (List.mem_cons_self ..)
    rw [run, read]
    have hu : site.id ∉ (p.scope.unsettle site.id).settled := by simp [Scope.unsettle]
    obtain ⟨marks, hx, hm⟩ := runBranches_writes site.id branches ho
      (fun q hq => h q (List.mem_cons_of_mem _ hq)) { p with scope := p.scope.unsettle site.id } hu
    refine ⟨marks, hx, fun id hid => ?_⟩
    have hne : id ≠ site.id := fun he => hid (by simp [he, parts, Node.site])
    rw [hm id hid]
    simp [Scope.unsettle, hne]

theorem runAll_writes (ns : List Node) (h : ∀ q ∈ partsAll ns, q.MarksAlone) (p : Progress) :
    (runAll ns).Writes (readAll p.scope.view ns) ((partsAll ns).map Part.id) p := by
  cases ns with
  | nil => exact .silent
  | cons n ns =>
    have hn := run_writes n (fun q hq => h q (List.mem_append_left _ hq)) p
    rw [runAll, readAll]
    refine Eval.Writes.andThen (hn.mono ?_) fun marks _ => ?_
    · exact List.map_subset _ (List.subset_append_left _ _)
    · have hns := runAll_writes ns (fun q hq => h q (List.mem_append_right _ hq))
      exact (hns _).mono (List.map_subset _ (List.subset_append_right _ _))

theorem runBranches_writes (owner : Nat) (bs : List (Branch Node))
    (ho : owner ∉ (partsBranches owner bs).map Part.id)
    (h : ∀ q ∈ partsBranches owner bs, q.MarksAlone) (p : Progress)
    (hp : owner ∉ p.scope.settled) :
    (runBranches owner bs).Writes (readFirst p.scope.view bs)
      (owner :: (partsBranches owner bs).map Part.id) p := by
  cases bs with
  | nil => exact .silent
  | cons b bs =>
    obtain ⟨site, guard, body⟩ := b
    simp only [partsBranches_cons, List.map_cons, List.map_append, List.mem_cons, List.mem_append,
      not_or] at ho h
    have henter := writes_entered (p := p) ho.2.1
      (fun p' hv => hv ▸ runAll_writes body (fun q hq => h q (.inr (.inl hq))) p') bs
    have hrest := runBranches_writes owner bs ho.2.2 (fun q hq => h q (.inr (.inr hq))) p hp
    have he := Eval.bind_congr_apply (runBranch_of_unsettled hp site guard body)
      fun _ => runBranches owner bs
    have hbody : (partsAll body).map Part.id ⊆
        (partsBranches owner (⟨site, guard, body⟩ :: bs)).map Part.id :=
      List.map_subset _ fun q hq => by simp [partsBranches_cons, hq]
    have hlater : (partsBranches owner bs).map Part.id ⊆
        (partsBranches owner (⟨site, guard, body⟩ :: bs)).map Part.id :=
      List.map_subset _ fun q hq => by simp [partsBranches_cons, hq]
    rw [runBranches]
    refine Eval.Writes.congr he ?_
    cases guard with
    | none => exact henter.mono (List.cons_subset_cons _ hbody)
    | some args =>
      rw [bind_assoc, readFirst]
      refine .asking fun holds => ?_
      cases holds with
      | true => exact henter.mono (List.cons_subset_cons _ hbody)
      | false => exact hrest.mono (List.cons_subset_cons _ hlater)

end

theorem runAll_parts (ns : List Node) : Part.runAll (ns.map .node) = runAll ns := by
  induction ns with
  | nil => rfl
  | cons n ns ih => rw [List.map_cons, Part.runAll, ih, Part.run, runAll]

end Node

namespace Template

theorem marksAlone {source : List Char} {roots : List Node} (h : ofSource source = .ok roots) :
    ∀ q ∈ Node.partsAll roots, q.MarksAlone := by
  intro q hq
  cases q with
  | branch => trivial
  | node n =>
    have hd : (n.parts.map Part.id).Nodup :=
      (nodup_parts h).sublist ((Node.parts_sublist_all hq).map Part.id)
    cases n <;> try trivial
    exact (List.nodup_cons.mp hd).1

theorem mapM_part? {t : Template} (hd : (t.parts.map Part.id).Nodup) {ns : List Node}
    (hns : ∀ n ∈ ns, Part.node n ∈ t.parts) :
    (ns.map (·.site.id)).mapM t.part? = some (ns.map .node) := by
  induction ns with
  | nil => rfl
  | cons n ns ih =>
    have hn : t.part? n.site.id = some (.node n) := part?_of_mem hd (hns n (by simp))
    simp [hn, ih fun m hm => hns m (by simp [hm])]

end Template

def Reading.outcome (r : Reading) (template : String) : Except TemplateError String :=
  match r.failure with
  | none => .ok r.output
  | some f => .error (f.toError template)

/-- Any nodes of a template are found by their numbers and write what they read, from every
state: the same text, the same first failure, and no trace but their own marks. A render
is the reading of the roots with nothing bound. -/
theorem evaluation_writes_reading {source name : String} {t : Template}
    (h : Template.compile source name = .ok t) :
    (∀ ns : List Node, (∀ n ∈ ns, Part.node n ∈ t.parts) →
      (ns.map (·.site.id)).mapM t.part? = some (ns.map .node) ∧
      ∀ p : Progress, (Part.runAll (ns.map .node)).Writes (Node.readAll p.scope.view ns)
        ((Node.partsAll ns).map Part.id) p) ∧
    ∀ inputs, t.render inputs = (Node.readAll ⟨inputs, []⟩ t.roots).outcome t.name := by
  have ht := (Template.compile_eq_ok_iff.mp h).2.2
  have hs := Template.marksAlone ht
  refine ⟨fun ns hns => ⟨Template.mapM_part? (Template.nodup_parts ht) hns, fun p => ?_⟩,
    fun inputs => ?_⟩
  · rw [Node.runAll_parts]
    refine Node.runAll_writes ns (fun q hq => ?_) p
    rw [Node.partsAll_eq_flatMap] at hq
    obtain ⟨n, hn, hq⟩ := List.mem_flatMap.mp hq
    exact hs q ((Node.parts_sublist_all (hns n hn)).subset hq)
  · obtain ⟨marks, hx, -⟩ := Node.runAll_writes t.roots hs ⟨"", .ofInputs inputs⟩
    have hr : (Node.runAll t.roots).run ⟨"", .ofInputs inputs⟩ = _ := hx
    unfold Template.render Reading.outcome
    rw [hr]
    change _ = match (Node.readAll (Scope.ofInputs inputs).view t.roots).failure with
      | none => _
      | some f => _
    cases hf : (Node.readAll (Scope.ofInputs inputs).view t.roots).failure with
    | none => simp [Reading.result, hf]; rfl
    | some f => simp [Reading.result, hf]

/-- A conditional in a loop, run on its own with a mark left over, and from the root with a
loop over the entries of a map. -/
theorem evaluation_writes_reading_in_loop :
    ∃ t n,
      Template.compile "{%foreach n in l}{%if n == x}a{%else}b{%/if}{%/foreach}" "page" = .ok t ∧
      Part.node n ∈ t.parts ∧
      (∃ marks, Part.runAll [.node n] ⟨"so ", ⟨⟨[], [], none, none⟩, [⟨"n", .text "y"⟩], [1]⟩⟩ =
        (.ok (), ⟨"so b", ⟨⟨[], [], none, none⟩, [⟨"n", .text "y"⟩], marks⟩⟩)) ∧
      t.render ⟨[], [("l", .map [("p", .text "x"), ("q", .text "y")])], none, none⟩ =
        .ok "ab" := by
  let n : Node := .choice ⟨1, ⟨17, 44⟩⟩ ["n", "==", "x"]
    [⟨⟨3, ⟨17, 30⟩⟩, some ["n", "==", "x"], [.text ⟨2, ⟨29, 30⟩⟩ "a"]⟩,
      ⟨⟨4, ⟨30, 38⟩⟩, none, [.text ⟨5, ⟨37, 38⟩⟩ "b"]⟩]
  have hc : Template.compile "{%foreach n in l}{%if n == x}a{%else}b{%/if}{%/foreach}" "page" =
      .ok ⟨"page", "{%foreach n in l}{%if n == x}a{%else}b{%/if}{%/foreach}",
        [.loop ⟨0, ⟨0, 55⟩⟩ ["n", "in", "l"] [n]]⟩ := by cbv
  have hn : Part.node n ∈ Node.partsAll [.loop ⟨0, ⟨0, 55⟩⟩ ["n", "in", "l"] [n]] := by
    simp [n, Node.partsAll, Node.parts]
  have hr := evaluation_writes_reading hc
  obtain ⟨marks, hx, -⟩ := (hr.1 [n] fun m hm => List.mem_singleton.mp hm ▸ hn).2
    ⟨"so ", ⟨⟨[], [], none, none⟩, [⟨"n", .text "y"⟩], [1]⟩⟩
  exact ⟨_, n, hc, hn, ⟨marks, hx.trans rfl⟩,
    (hr.2 _).trans (by decide +kernel)⟩

end TagTemplate
