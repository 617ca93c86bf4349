import TagTemplate.Proofs.Outline

/-! One source read in the place another has come to. An outline that goes on from a base
is the outline of the same pieces read from the start, moved and grafted on the base, as
long as no branching tag falls to the base. -/

namespace TagTemplate

namespace Reading

/-- The same reading with its failure at another offset. -/
def mapOffset (g : Nat → Nat) (r : Reading) : Reading :=
  { r with failure := r.failure.map fun f => { f with offset := g f.offset } }

variable {g : Nat → Nat}

@[simp] theorem mapOffset_silent : silent.mapOffset g = silent := rfl

@[simp] theorem mapOffset_text (s : String) : (text s).mapOffset g = text s := rfl

@[simp] theorem mapOffset_andThen (r s : Reading) :
    (r.andThen s).mapOffset g = (r.mapOffset g).andThen (s.mapOffset g) := by
  obtain ⟨a, f⟩ := r
  cases f <;> rfl

@[simp] theorem mapOffset_inOrder (rs : List Reading) :
    (inOrder rs).mapOffset g = inOrder (rs.map (mapOffset g)) := by
  induction rs with
  | nil => rfl
  | cons r rs ih => simp [inOrder, ih]

@[simp] theorem mapOffset_each (reading : Value → Reading) (collection : Value) :
    (each reading collection).mapOffset g = each (fun v => (reading v).mapOffset g) collection := by
  simp only [each_eq, mapOffset_inOrder, List.map_map, Function.comp_def]

@[simp] theorem mapOffset_charging {α : Type} (offset : Nat) (answer : Except RenderFault α)
    (next : α → Reading) : (charging offset answer next).mapOffset g =
      charging (g offset) answer fun a => (next a).mapOffset g := by
  cases answer <;> rfl

end Reading

def Offer.mapOffset (g : Nat → Nat) (o : Offer) : Offer :=
  ⟨g o.offset, o.guard, fun v => (o.reading v).mapOffset g⟩

theorem Offer.first_mapOffset (g : Nat → Nat) (v : View) (os : List Offer) :
    first v (os.map (mapOffset g)) = (first v os).mapOffset g := by
  induction os with
  | nil => rfl
  | cons o os ih =>
    obtain ⟨offset, guard, reading⟩ := o
    cases guard with
    | none => rfl
    | some args =>
      simp only [List.map_cons, first, mapOffset, Reading.mapOffset_charging]
      refine congrArg _ (funext fun holds => ?_)
      cases holds <;> simp [← ih]

namespace Stage

def mapOffset (g : Nat → Nat) (st : Stage) : Stage :=
  { st with
    start := g st.start
    finished := st.finished.map (Offer.mapOffset g)
    current := st.current.map fun b => (g b.1, b.2)
    children := fun v => (st.children v).mapOffset g }

variable {g : Nat → Nat}

theorem ending_mapOffset (st : Stage) : (st.mapOffset g).ending = st.ending.mapOffset g := by
  obtain ⟨block, start, args, finished, current, children⟩ := st
  cases current <;> rfl

theorem offers_mapOffset (st : Stage) :
    (st.mapOffset g).offers = st.offers.map (Offer.mapOffset g) := by
  unfold offers
  rw [ending_mapOffset]
  cases hc : st.current <;> simp [mapOffset, hc]

theorem branched_mapOffset (st : Stage) (pos : Nat) (guard : Option (List String)) :
    (st.mapOffset g).branched (g pos) guard = (st.branched pos guard).mapOffset g := by
  rw [branched, ending_mapOffset]
  simp [branched, mapOffset]

theorem prose_mapOffset (st : Stage) (v : View) :
    (st.mapOffset g).prose v = (st.prose v).mapOffset g := by
  unfold prose
  rw [offers_mapOffset]
  cases hb : st.block with
  | conditional => simp [mapOffset, hb, Offer.first_mapOffset]
  | loop => simp [mapOffset, hb]

end Stage

/-- A tag that starts a branch, if it stands directly in a conditional. -/
def Piece.Branches : Piece → Prop
  | .text _ => False
  | .tag body => ∃ guard, (Tag.ofBody body).guard? = some guard

def NestingFault.moved (n : Nat) (f : NestingFault) : NestingFault :=
  { f with offset := f.offset + n }

namespace Outline

/-- What an outline becomes when its pieces are read where a base has come to. -/
def graft (b m : Outline) : Outline :=
  let base := b.say fun v => (m.roots v).mapOffset (· + b.pos)
  ⟨m.pos + b.pos, m.stages.map (Stage.mapOffset (· + b.pos)) ++ base.stages, base.roots⟩

theorem graft_start (b : Outline) : b.graft start = b := by
  simp [graft, start]

theorem graft_of_stages {b m : Outline} (h : m.stages = []) : b.graft m =
    { b.say fun v => (m.roots v).mapOffset (· + b.pos) with pos := m.pos + b.pos } := by
  simp [graft, h]

theorem graft_say (b m : Outline) (r : Prose) :
    b.graft (m.say r) = (b.graft m).say fun v => (r v).mapOffset (· + b.pos) := by
  obtain ⟨pos, stages, roots⟩ := m
  cases stages with
  | nil =>
    have hs := b.say_say (fun v => (roots v).mapOffset (· + b.pos))
      fun v => (r v).mapOffset (· + b.pos)
    simp only [← Reading.mapOffset_andThen] at hs
    refine (congrArg (fun m : Outline => { m with pos := pos + b.pos }) hs.symm).trans ?_
    exact (say_with_pos _ _ _).symm
  | cons st ss => simp [graft, say, Stage.mapOffset]

theorem graft_with_pos (b m : Outline) (pos : Nat) :
    b.graft { m with pos } = { b.graft m with pos := pos + b.pos } := rfl

theorem stop_graft (b m : Outline) (p : Piece) : (b.graft m).stop p = m.stop p + b.pos := by
  simp only [stop, graft]
  omega

theorem graft_append (b m : Outline) (cs : List Char) :
    b.graft (m.append cs) = (b.graft m).append cs := by
  simp only [append, graft_with_pos, graft_say, Reading.mapOffset_text]
  simp only [graft, Nat.add_right_comm]

theorem graft_leaf (b m : Outline) (stop : Nat) {raw : List Char} {tag : Tag} {node : Site → Node}
    (h : tag.leaf? raw = some node) :
    b.graft (m.leaf stop node) = (b.graft m).leaf (stop + b.pos) node := by
  have hr : ∀ v, ((node ⟨0, ⟨m.pos, stop⟩⟩).read v).mapOffset (· + b.pos) =
      (node ⟨0, ⟨m.pos + b.pos, stop + b.pos⟩⟩).read v := by
    intro v
    cases tag <;> simp only [Tag.leaf?, Option.some.injEq, reduceCtorEq] at h <;> subst h <;>
      simp [Node.read, Reading.asking_eq]
  simp only [leaf, graft_with_pos, graft_say, hr]
  rfl

theorem graft_openBlock (b m : Outline) (stop : Nat) (block : Block) (args : List String) :
    b.graft (m.openBlock stop block args) = (b.graft m).openBlock (stop + b.pos) block args := by
  simp [graft, openBlock, Stage.mapOffset]

theorem inConditional_graft {b m : Outline} (h : m.stages ≠ [] ∨ b.inConditional = false) :
    (b.graft m).inConditional = m.inConditional := by
  obtain ⟨pos, stages, roots⟩ := m
  cases stages with
  | cons st ss => rfl
  | nil =>
    have hb := h.resolve_left (by simp)
    rw [graft_of_stages rfl]
    unfold inConditional say at *
    cases hs : b.stages <;> simp_all

theorem graft_startBranch (b : Outline) {m : Outline} (h : m.inConditional = true) (stop : Nat)
    (guard : Option (List String)) :
    b.graft (m.startBranch stop guard) = (b.graft m).startBranch (stop + b.pos) guard := by
  obtain ⟨pos, stages, roots⟩ := m
  cases stages with
  | nil => simp [inConditional] at h
  | cons st ss => simp [graft, startBranch, ← Stage.branched_mapOffset]

theorem closeBlock_graft (b m : Outline) (stop : Nat) (name : String) :
    match m.closeBlock stop name with
    | .ok m' => (b.graft m).closeBlock (stop + b.pos) name = .ok (b.graft m')
    | .error f =>
      b.stages = [] → (b.graft m).closeBlock (stop + b.pos) name = .error (f.moved b.pos) := by
  obtain ⟨pos, stages, roots⟩ := m
  unfold closeBlock
  by_cases hn : name = ""
  · simp only [if_pos hn]
    exact fun _ => rfl
  · simp only [if_neg hn]
    cases stages with
    | nil =>
      intro hb
      simp [graft, say, hb, NestingFault.moved]
    | cons st ss =>
      by_cases hs : st.block.name = name
      · have hm : (st.mapOffset (· + b.pos)).block.name = name := hs
        simp only [if_pos hs]
        have ho := graft_say b ⟨pos, ss, roots⟩ st.prose
        simp only [← Stage.prose_mapOffset] at ho
        simp only [graft, List.map_cons, List.cons_append, if_pos hm]
        exact congrArg (fun m : Outline => Except.ok { m with pos := stop + b.pos }) ho.symm
      · have hm : ¬ (st.mapOffset (· + b.pos)).block.name = name := hs
        simp only [if_neg hs, graft, List.map_cons, List.cons_append, if_neg hm]
        exact fun _ => rfl

/-- Reading one piece on a base does what it does from the start. What fails there need
not fail here, where the base may have blocks to close. -/
theorem step_graft (b m : Outline) (p : Piece)
    (h : p.Branches → m.stages ≠ [] ∨ b.inConditional = false) :
    match m.step p with
    | .ok m' => (b.graft m).step p = .ok (b.graft m')
    | .error f => b.stages = [] → (b.graft m).step p = .error (f.moved b.pos) := by
  cases p with
  | text content => exact congrArg Except.ok (b.graft_append m content).symm
  | tag body =>
    simp only [step, stop_graft]
    cases ht : Tag.ofBody body with
    | blank => exact fun _ => rfl
    | close name => exact b.closeBlock_graft m _ name
    | openBlock block args => exact congrArg Except.ok (b.graft_openBlock m _ block args).symm
    | unknown => exact congrArg Except.ok (b.graft_append m _).symm
    | fetch | localeText | field =>
      exact congrArg Except.ok
        (@graft_leaf b m _ (Piece.tag body).source (Tag.ofBody body) _ (by rw [ht]; rfl)).symm
    | elseIf | otherwise =>
      have hc := inConditional_graft (h ⟨_, by rw [ht]; rfl⟩)
      simp only [Tag.leaf?, Tag.guard?, hc]
      split
      · rename_i hm
        exact congrArg Except.ok (b.graft_startBranch hm _ _).symm
      · exact congrArg Except.ok (b.graft_append m _).symm

theorem foldlM_graft (b m : Outline) (ps : List Piece)
    (h : ∀ before p after, ps = before ++ p :: after → p.Branches → ∀ m',
      before.foldlM step m = .ok m' → m'.stages ≠ [] ∨ b.inConditional = false) :
    match ps.foldlM step m with
    | .ok m' => ps.foldlM step (b.graft m) = .ok (b.graft m')
    | .error f => b.stages = [] → ps.foldlM step (b.graft m) = .error (f.moved b.pos) := by
  induction ps generalizing m with
  | nil => rfl
  | cons p ps ih =>
    have hp := b.step_graft m p fun hp => h [] p ps rfl hp m rfl
    rw [List.foldlM_cons, List.foldlM_cons]
    cases hm : m.step p with
    | error f =>
      rw [hm] at hp
      exact fun hb => by rw [hp hb]; rfl
    | ok m' =>
      rw [hm] at hp
      rw [hp]
      refine ih m' fun before q after hps hq m'' hb => ?_
      refine h (p :: before) q after (by rw [hps]; rfl) hq m'' ?_
      rw [List.foldlM_cons, hm]
      exact hb

end Outline

end TagTemplate
