import TagTemplate.Proofs.Adoption

/-! An arena that is being built, beside the draft of the same pieces. What is complete in
the draft stands in the arena as it will stay; an open block or branch stands there under
what was open around it, still without children and with a range that ends too early. -/

namespace TagTemplate

namespace Level

variable {a a' : Arena} {parent : Option Nat} {l : Level}

/-- The branch or block that the children of a level are made under. -/
def holder (l : Level) : Nat :=
  (l.current.map OpenBranch.id).getD l.id

/-- A level by numbers. A block that is open inside it is a child already. -/
def asOpen (inner : Option Nat) (l : Level) : OpenBlock :=
  ⟨l.block, l.id, l.start, Node.ids l.children ++ inner.toList, l.current.map OpenBranch.id,
    l.finished.map fun b => b.site.id⟩

structure Stands (a : Arena) (parent : Option Nat) (l : Level) : Prop where
  own : ∃ stop, a.row? l.id = some ⟨l.id, parent, ⟨l.start, stop⟩, .ofBlock l.args l.block⟩
  current : ∀ b ∈ l.current,
    ∃ stop, a.row? b.id = some ⟨b.id, some l.id, ⟨b.start, stop⟩, .ofGuard b.guard⟩
  branches : a.Holds (Node.rowsBranches l.id l.finished)
  children : a.Holds (Node.rowsAll (some l.holder) l.children)

theorem Stands.congr (h : l.Stands a parent) (hs : ∀ i ∈ l.numbers, a'.row? i = a.row? i) :
    l.Stands a' parent where
  own := by
    obtain ⟨stop, ho⟩ := h.own
    exact ⟨stop, (hs l.id (by simp [numbers])).trans ho⟩
  current b hb := by
    obtain ⟨stop, hc⟩ := h.current b hb
    have hm : b.id ∈ l.numbers := by simp [numbers, Option.mem_def.mp hb]
    exact ⟨stop, (hs b.id hm).trans hc⟩
  branches := by
    refine h.branches.congr fun i hi => hs i ?_
    rw [Node.map_id_rowsBranches] at hi
    simp only [numbers, parts, List.map_append, List.mem_cons, List.mem_append]
    tauto
  children := by
    refine h.children.congr fun i hi => hs i ?_
    rw [Node.map_id_rowsAll] at hi
    simp only [numbers, parts, List.map_append, List.mem_cons, List.mem_append]
    tauto

end Level

/-- Levels of which each stands under the holder of the next one. -/
def Stand (a : Arena) : List Level → Prop
  | [] => True
  | l :: ls => l.Stands a (ls.head?.map Level.holder) ∧ Stand a ls

theorem Stand.congr {a a' : Arena} {ls : List Level} (h : Stand a ls)
    (hs : ∀ i ∈ ls.flatMap Level.numbers, a'.row? i = a.row? i) : Stand a' ls := by
  induction ls with
  | nil => trivial
  | cons l ls ih =>
    simp only [List.flatMap_cons, List.mem_append] at hs
    exact ⟨h.1.congr fun i hi => hs i (.inl hi), ih h.2 fun i hi => hs i (.inr hi)⟩

/-- Levels by numbers, with the number of the block that is open inside them, if any. -/
def opened : Option Nat → List Level → List OpenBlock
  | _, [] => []
  | inner, l :: ls => l.asOpen inner :: opened (some l.id) ls

/-- The number of the outermost block. -/
def outermost : Option Nat → List Level → Option Nat
  | inner, [] => inner
  | _, l :: ls => outermost (some l.id) ls

namespace Draft

variable {a a' : Arena} {d : Draft} {l : Level} {ls : List Level}

structure LaidOut (a : Arena) (d : Draft) : Prop where
  roots : a.Holds (Node.rowsAll none d.roots)
  levels : Stand a d.levels

theorem LaidOut.congr (h : d.LaidOut a) (hs : ∀ i ∈ d.numbers, a'.row? i = a.row? i) :
    d.LaidOut a' := by
  simp only [numbers, List.mem_append] at hs
  refine ⟨h.roots.congr fun i hi => hs i (.inl ?_), h.levels.congr fun i hi => hs i (.inr hi)⟩
  rwa [Node.map_id_rowsAll] at hi

theorem Numbered.lt_of_mem (h : d.Numbered) {i : Nat} (hi : i ∈ d.numbers) : i < d.nextId :=
  List.mem_range.mp (h.perm.mem_iff.mp hi)

theorem Numbered.nodup (h : d.Numbered) : d.numbers.Nodup :=
  h.perm.nodup_iff.mpr List.nodup_range

/-- What is laid out stays so when nodes are made. -/
theorem LaidOut.alloc (h : d.LaidOut a) (hn : d.Numbered) (hs : a.size = d.nextId)
    (parent : Option Nat) (span : Span) (content : Content) :
    d.LaidOut (a.alloc parent span content) :=
  h.congr fun _ hi => Arena.row?_alloc_of_lt (hs ▸ hn.lt_of_mem hi) parent span content

theorem LaidOut.attach {n : Node} (h : d.LaidOut a)
    (hn : a.Holds (n.rows (d.levels.head?.map Level.holder))) : (d.attach n).LaidOut a := by
  obtain ⟨hroots, hlevels⟩ := h
  unfold Draft.attach
  split
  · rename_i hl
    rw [hl] at hn
    refine ⟨?_, by simpa [hl] using hlevels⟩
    rw [Node.rowsAll_append, Node.rowsAll_singleton]
    exact Arena.holds_append.mpr ⟨hroots, hn⟩
  · rename_i l ls hl
    rw [hl] at hn hlevels
    obtain ⟨⟨hown, hcurrent, hbranches, hchildren⟩, houter⟩ := hlevels
    refine ⟨hroots, ⟨hown, hcurrent, hbranches, ?_⟩, houter⟩
    rw [Node.rowsAll_append, Node.rowsAll_singleton]
    exact Arena.holds_append.mpr ⟨hchildren, hn⟩

theorem opened_attach (d : Draft) (n : Node) :
    opened none (d.attach n).levels = opened (some n.site.id) d.levels := by
  unfold attach
  split
  · rename_i hl
    simp [hl, opened]
  · rename_i l ls hl
    simp [hl, opened, Level.asOpen, Node.ids]

theorem outermost_attach (d : Draft) (n : Node) :
    Node.ids (d.attach n).roots ++ (outermost none (d.attach n).levels).toList =
      Node.ids d.roots ++ (outermost (some n.site.id) d.levels).toList := by
  unfold attach
  split
  · rename_i hl
    simp [hl, outermost, Node.ids]
  · rename_i l ls hl
    simp [hl, outermost]

end Draft

namespace Level

variable {a : Arena} {parent : Option Nat} {l : Level} {i : Nat}

theorem notMem_of_notMem_numbers (h : i ∉ l.numbers) : i ≠ l.id ∧ i ∉ Node.ids l.children ∧
    i ∉ l.finished.map (fun b => b.site.id) ∧ i ∉ l.current.map OpenBranch.id := by
  simp only [numbers, parts, List.map_append, List.mem_cons, List.mem_append, not_or] at h
  obtain ⟨hown, hcurrent, hbranches, hchildren⟩ := h
  refine ⟨hown, mt (fun hi => Node.ids_subset hi) hchildren,
    mt (fun hi => Node.branchIds_subset l.id hi) hbranches, fun hi => hcurrent ?_⟩
  cases hc : l.current with
  | none => simp [hc] at hi
  | some b => simpa [hc, eq_comm] using hi

theorem nodup_children (hd : l.numbers.Nodup) :
    (l.id :: (Node.partsAll l.children).map Part.id).Nodup := by
  simp only [numbers, parts, List.map_append] at hd
  have hs := (List.sublist_append_right _ _).trans (List.sublist_append_right
    (l.current.toList.map OpenBranch.id) ((Node.partsBranches l.id l.finished).map Part.id ++
      (Node.partsAll l.children).map Part.id))
  exact hd.sublist (hs.cons_cons l.id)

theorem le_nextId (l : Level) (id : Nat) : id ≤ l.nextId id := by
  unfold nextId
  split <;> omega

theorem id_finish (l : Level) (closing : Span) : (l.finish closing).site.id = l.id := by
  unfold Level.finish
  split <;> rfl

section

variable {ended : Nat} {others : List Nat}

/-- The branch that ends, with all under it, apart from the other numbers. -/
theorem ended_perm (l : Level) (ended : Nat) (others : List Nat) :
    (ended :: l.id :: (l.parts.map Part.id ++ others)).Perm
      ((ended :: (Node.partsAll l.children).map Part.id) ++
        l.id :: ((Node.partsBranches l.id l.finished).map Part.id ++ others)) := by
  apply List.perm_iff_count.mpr
  intro j
  simp only [parts, List.map_append, List.count_append, List.count_cons]
  omega

theorem nodup_ended (hd : (ended :: l.id :: (l.parts.map Part.id ++ others)).Nodup) :
    (ended :: (Node.partsAll l.children).map Part.id).Nodup :=
  (List.nodup_append.mp ((ended_perm l ended others).nodup_iff.mp hd)).1

theorem notMem_ended (hd : (ended :: l.id :: (l.parts.map Part.id ++ others)).Nodup)
    (hi : i ∈ l.id :: ((Node.partsBranches l.id l.finished).map Part.id ++ others)) :
    i ∉ ended :: Node.ids l.children := by
  intro hm
  have hchild := List.cons_subset_cons ended Node.ids_subset hm
  exact (List.nodup_append.mp ((ended_perm l ended others).nodup_iff.mp hd)).2.2 i hchild i hi rfl

end

/-- The branch that ends is completed; it stands after the branches before it, of which no row
changes. -/
theorem Stands.endBranch (h : l.Stands a parent) {b : OpenBranch} {stop : Nat} {others : List Nat}
    (hb : a.row? b.id = some ⟨b.id, some l.id, ⟨b.start, stop⟩, .ofGuard b.guard⟩)
    (hd : (b.id :: l.id :: (l.parts.map Part.id ++ others)).Nodup) (pos : Nat) :
    (a.completeBranch b.id (Node.ids l.children) pos).Holds
      (Node.rowsBranches l.id (l.finished ++ [b.finish pos l.children])) := by
  have hlast := Arena.Holds.completeBranch hb h.children (nodup_ended hd) pos
  rw [Node.rowsBranches_append, Node.rowsBranches_singleton]
  refine Arena.holds_append.mpr ⟨h.branches.congr fun i hi => ?_, hlast⟩
  rw [Node.map_id_rowsBranches] at hi
  exact Arena.row?_completeBranch
    (notMem_ended hd (List.mem_cons_of_mem _ (List.mem_append_left _ hi)))

theorem Stands.finish_plain (h : l.Stands a parent) (hc : l.current = none)
    (hd : l.numbers.Nodup) (closing : Span) :
    (a.closeBlock (l.asOpen none) closing).Holds ((l.finish closing).rows parent) := by
  obtain ⟨stop, hown⟩ := h.own
  let own : Row := ⟨l.id, parent, ⟨l.start, stop⟩, .ofBlock l.args l.block⟩
  have he := Arena.Holds.enclose (r := own) hown h.children (nodup_children hd)
  have hid : l.id ∉ (Node.rowsAll (some l.id) l.children).map Row.id := by
    rw [Node.map_id_rowsAll]
    exact (List.nodup_cons.mp (nodup_children hd)).1
  have hs := he.setStop hid closing.stop
  simp only [Arena.closeBlock, asOpen, hc, Option.map_none, Option.toList_none, List.append_nil]
  cases hb : l.block <;> simp only [own, hb] at hs <;> simp only [Level.finish, hb, hc] <;>
    exact hs

theorem Stands.finish_branched (h : l.Stands a parent) {b : OpenBranch} (hc : l.current = some b)
    (hf : l.Formed) (hd : l.numbers.Nodup) (closing : Span) :
    (a.closeBlock (l.asOpen none) closing).Holds ((l.finish closing).rows parent) := by
  obtain ⟨stop, hown⟩ := h.own
  let own : Row := ⟨l.id, parent, ⟨l.start, stop⟩, .ofBlock l.args l.block⟩
  let bs := l.finished ++ [b.finish closing.start l.children]
  have hblock : l.block = .conditional := by
    unfold Formed at hf
    rw [hc] at hf
    exact hf.1
  have hfinish : l.finish closing = .choice ⟨l.id, ⟨l.start, closing.stop⟩⟩ l.args bs := by
    simp only [Level.finish, hblock, hc, bs]
  have hnodup := (numbers_finish hf closing).nodup_iff.mpr hd
  rw [hfinish] at hnodup ⊢
  have hid : l.id ∉ (Node.rowsBranches l.id bs).map Row.id := by
    rw [Node.map_id_rowsBranches]
    exact (List.nodup_cons.mp hnodup).1
  have hlast : (b.id :: l.id :: (l.parts.map Part.id ++ [])).Nodup := by
    refine (List.Perm.swap b.id l.id _).nodup_iff.mp ?_
    simpa [numbers, hc] using hd
  -- The last branch is completed before the block, whose own row it leaves alone.
  obtain ⟨start, hb⟩ := h.current b hc
  have hkept :
      (a.completeBranch b.id (Node.ids l.children) closing.start).row? l.id = a.row? l.id :=
    Arena.row?_completeBranch (notMem_ended hlast List.mem_cons_self)
  have he := Arena.Holds.encloseBranches (r := own) (hkept.trans hown)
    (h.endBranch hb hlast closing.start) hnodup
  have hs := (he.setBranched hid).setStop hid closing.stop
  have hids : bs.map (fun b => b.site.id) = l.finished.map (fun b => b.site.id) ++ [b.id] := by
    simp [bs, OpenBranch.finish]
  simp only [own, hblock] at hs
  simp only [Arena.closeBlock, asOpen, hc, Option.map_some, Option.toList_none, List.append_nil]
  rw [← hids]
  exact hs

/-- A level that is closed stands in the arena as the rows of its node. -/
theorem Stands.finish (h : l.Stands a parent) (hf : l.Formed) (hd : l.numbers.Nodup)
    (closing : Span) :
    (a.closeBlock (l.asOpen none) closing).Holds ((l.finish closing).rows parent) := by
  cases hc : l.current with
  | none => exact h.finish_plain hc hd closing
  | some b => exact h.finish_branched hc hf hd closing

end Level

namespace Draft

variable {a : Arena} {d : Draft} {l : Level} {ls : List Level}

theorem numbers_perm (hl : d.levels = l :: ls) :
    d.numbers.Perm (l.numbers ++ ({ d with levels := ls } : Draft).numbers) := by
  simp only [numbers, hl, List.flatMap_cons]
  exact List.perm_append_comm_assoc ..

theorem Numbered.nodup_ending (h : d.Numbered) (hl : d.levels = l :: ls) :
    ((l.ending d.nextId).id :: l.id ::
      (l.parts.map Part.id ++ ({ d with levels := ls } : Draft).numbers)).Nodup := by
  have hd := (numbers_perm hl).nodup_iff.mp h.nodup
  cases hc : l.current with
  | none =>
    have hnumbers : l.numbers = l.id :: l.parts.map Part.id := by simp [Level.numbers, hc]
    rw [hnumbers] at hd
    refine List.nodup_cons.mpr ⟨fun hm => ?_, hd⟩
    have hlt : d.nextId < d.nextId := by
      refine h.lt_of_mem ((numbers_perm hl).mem_iff.mpr ?_)
      rw [hnumbers]
      simpa [Level.ending, hc] using hm
    exact Nat.lt_irrefl _ hlt
  | some b =>
    have hnumbers : l.numbers = l.id :: b.id :: l.parts.map Part.id := by
      simp [Level.numbers, hc]
    rw [hnumbers] at hd
    simpa [Level.ending, hc] using (List.Perm.swap b.id l.id _).nodup_iff.mp hd

theorem LaidOut.stand (h : d.LaidOut a) (hl : d.levels = l :: ls) :
    l.Stands a (ls.head?.map Level.holder) ∧ Stand a ls := by
  have hlevels := h.levels
  rwa [hl] at hlevels

/-- What is left of a draft whose innermost block is taken off is laid out as before. -/
theorem LaidOut.outer (h : d.LaidOut a) (hl : d.levels = l :: ls) :
    ({ d with levels := ls } : Draft).LaidOut a :=
  ⟨h.roots, (h.stand hl).2⟩

theorem LaidOut.closeBlock (h : d.LaidOut a) (hn : d.Numbered) (hl : d.levels = l :: ls)
    (closing : Span) : (({ d with levels := ls } : Draft).attach (l.finish closing)).LaidOut
      (a.closeBlock (l.asOpen none) closing) := by
  have hd := List.nodup_append.mp ((numbers_perm hl).nodup_iff.mp hn.nodup)
  refine LaidOut.attach ((h.outer hl).congr fun i hi => ?_)
    ((h.stand hl).1.finish (hn.levels l (by simp [hl])) hd.1 closing)
  obtain ⟨hown, hchildren, hbranches, hcurrent⟩ :=
    Level.notMem_of_notMem_numbers fun hm => hd.2.2 i hm i hi rfl
  exact Arena.row?_closeBlock hown (by simpa [Level.asOpen] using hchildren) hbranches hcurrent

/-- Before a branch ends it is there, if need be made for what came before any branching tag. -/
theorem LaidOut.exists_ending (h : d.LaidOut a) (hn : d.Numbered) (hs : a.size = d.nextId)
    (hl : d.levels = l :: ls) (hb : l.block = .conditional) (tag : Span)
    (guard : Option (List String)) :
    ∃ a₁ : Arena, a₁.size = l.nextId d.nextId ∧ d.LaidOut a₁ ∧
      (∃ stop, a₁.row? (l.ending d.nextId).id = some ⟨(l.ending d.nextId).id, some l.id,
        ⟨(l.ending d.nextId).start, stop⟩, .ofGuard (l.ending d.nextId).guard⟩) ∧
      a.startBranch (l.asOpen none) tag guard =
        ((l.branched d.nextId tag.start guard).asOpen none,
          (a₁.completeBranch (l.ending d.nextId).id (Node.ids l.children) tag.start).alloc
            (some l.id) tag (.ofGuard guard)) := by
  have hstands := (h.stand hl).1
  cases hc : l.current with
  | none =>
    obtain ⟨stop, hown⟩ := hstands.own
    have hcondition : a.condition l.id = l.args := by
      simp [Arena.condition, hown, hb, Content.ofBlock, Content.condition]
    refine ⟨a.alloc (some l.id) ⟨l.start, tag.start⟩ (.elseIf l.args []), ?_,
      h.alloc hn hs _ _ _, ⟨tag.start, ?_⟩, ?_⟩
    · simp [Level.nextId, hc, hs]
    · simp only [Level.ending, hc, Option.getD_none, ← hs]
      exact Arena.row?_alloc_size ..
    · simp [Arena.startBranch, Level.asOpen, Level.branched, Level.ending, Level.nextId, hc,
        hcondition, hs, OpenBranch.finish, Node.ids]
  | some b =>
    refine ⟨a, by simp [Level.nextId, hc, hs], h, ?_, ?_⟩
    · simpa [Level.ending, hc] using hstands.current b hc
    · simp [Arena.startBranch, Level.asOpen, Level.branched, Level.ending, Level.nextId, hc, hs,
        OpenBranch.finish, Node.ids]

theorem LaidOut.startBranch (h : d.LaidOut a) (hn : d.Numbered) (hs : a.size = d.nextId)
    (hl : d.levels = l :: ls) (hb : l.block = .conditional) (tag : Span)
    (guard : Option (List String)) :
    ∃ a' : Arena, a'.size = l.nextId d.nextId + 1 ∧
      ({ d with levels := l.branched d.nextId tag.start guard :: ls } : Draft).LaidOut a' ∧
      a.startBranch (l.asOpen none) tag guard =
        ((l.branched d.nextId tag.start guard).asOpen none, a') := by
  obtain ⟨a₁, hsize, hlaid, ⟨stop, hended⟩, heq⟩ := h.exists_ending hn hs hl hb tag guard
  refine ⟨_, by simp [hsize], ?_, heq⟩
  let ended := l.ending d.nextId
  let a₂ := a₁.completeBranch ended.id (Node.ids l.children) tag.start
  have hd := hn.nodup_ending hl
  have hsize₂ : a₂.size = l.nextId d.nextId := by simpa [a₂] using hsize
  -- Besides the branch that ends and its children nothing that stands is touched.
  have hkept : ∀ i ∈ l.id :: ((Node.partsBranches l.id l.finished).map Part.id ++
      ({ d with levels := ls } : Draft).numbers),
      (a₂.alloc (some l.id) tag (.ofGuard guard)).row? i = a₁.row? i := by
    intro i hi
    have hi' : i ∈ d.numbers := by
      refine (numbers_perm hl).mem_iff.mpr ?_
      simp only [Level.numbers, Level.parts, List.map_append, List.mem_cons,
        List.mem_append] at hi ⊢
      tauto
    have hlt : i < a₂.size := by
      rw [hsize₂]
      exact Nat.lt_of_lt_of_le (hn.lt_of_mem hi') (l.le_nextId d.nextId)
    rw [Arena.row?_alloc_of_lt hlt, Arena.row?_completeBranch (Level.notMem_ended hd hi)]
  have hstands := (hlaid.stand hl).1
  have houter := (hlaid.outer hl).congr fun i hi =>
    hkept i (List.mem_cons_of_mem _ (List.mem_append_right _ hi))
  refine ⟨houter.roots, ⟨?_, ?_, ?_, Arena.holds_nil _⟩, houter.levels⟩
  · obtain ⟨own, hown⟩ := hstands.own
    exact ⟨own, (hkept l.id List.mem_cons_self).trans hown⟩
  · rintro b ⟨⟩
    rw [← hsize₂]
    exact ⟨tag.stop, Arena.row?_alloc_size ..⟩
  · exact (hstands.endBranch hended hd tag.start).alloc _ _ _

end Draft

namespace Builder

/-- The arena and the draft of the same pieces. -/
structure Mirrors (b : Builder) (d : Draft) : Prop where
  pos : b.pos = d.pos
  text : b.text = d.pending
  textStart : d.pending ≠ [] → b.textStart + byteLength d.pending = d.pos
  blocks : b.blocks = opened none d.levels
  roots : b.roots = Node.ids d.roots ++ (outermost none d.levels).toList
  size : b.arena.size = d.nextId
  laidOut : d.LaidOut b.arena

namespace Mirrors

variable {b : Builder} {d : Draft} {l : Level} {ls : List Level}

theorem start : Builder.empty.Mirrors Draft.empty where
  pos := rfl
  text := rfl
  textStart h := absurd rfl h
  blocks := rfl
  roots := rfl
  size := rfl
  laidOut := ⟨Arena.holds_nil _, trivial⟩

theorem append (h : b.Mirrors d) (cs : List Char) : (b.append cs).Mirrors (d.append cs) where
  pos := congrArg (· + byteLength cs) h.pos
  text := congrArg (· ++ cs) h.text
  textStart _ := by
    simp only [Builder.append, Draft.append, byteLength_append, h.text, h.pos]
    by_cases hp : d.pending = []
    · simp [hp]
    · rw [if_neg hp, ← Nat.add_assoc, h.textStart hp]
  blocks := h.blocks
  roots := h.roots
  size := h.size
  laidOut := ⟨h.laidOut.roots, h.laidOut.levels⟩

theorem innermost (h : b.Mirrors d) (hl : d.levels = l :: ls) :
    b.blocks = l.asOpen none :: opened (some l.id) ls ∧
      b.roots = Node.ids d.roots ++ (outermost (some l.id) ls).toList := by
  rw [h.blocks, h.roots, hl]
  exact ⟨rfl, rfl⟩

theorem holder? (h : b.Mirrors d) : b.holder? = d.levels.head?.map Level.holder := by
  unfold Builder.holder?
  rw [h.blocks]
  cases d.levels <;> rfl

/-- A node that is made is a child of the innermost block, complete or not. -/
theorem attach_fields (h : b.Mirrors d) (span : Span) (content : Content) :
    (b.attach span content).blocks = opened (some d.nextId) d.levels ∧
      (b.attach span content).roots =
        Node.ids d.roots ++ (outermost (some d.nextId) d.levels).toList ∧
      (b.attach span content).arena =
        b.arena.alloc (d.levels.head?.map Level.holder) span content := by
  rw [← h.holder?]
  unfold Builder.attach
  cases hl : d.levels with
  | nil => simp [h.blocks, h.roots, h.size, hl, opened, outermost]
  | cons l ls => simp [h.blocks, h.roots, h.size, hl, opened, outermost, Level.asOpen]

@[simp] theorem attach_pos (b : Builder) (span : Span) (content : Content) :
    (b.attach span content).pos = b.pos := by
  unfold Builder.attach
  split <;> rfl

@[simp] theorem attach_text (b : Builder) (span : Span) (content : Content) :
    (b.attach span content).text = b.text := by
  unfold Builder.attach
  split <;> rfl

@[simp] theorem attach_textStart (b : Builder) (span : Span) (content : Content) :
    (b.attach span content).textStart = b.textStart := by
  unfold Builder.attach
  split <;> rfl

theorem attach (h : b.Mirrors d) (hn : d.Numbered) {n : Node} (span : Span) {content : Content}
    (hid : n.site.id = d.nextId)
    (hrows : ∀ parent, n.rows parent = [⟨d.nextId, parent, span, content⟩]) :
    (b.attach span content).Mirrors { d.attach n with nextId := d.nextId + 1 } where
  pos := by simpa using h.pos
  text := by simpa using h.text
  textStart := by simpa using h.textStart
  blocks := by rw [(h.attach_fields span content).1, Draft.opened_attach, hid]
  roots := by rw [(h.attach_fields span content).2.1, Draft.outermost_attach, hid]
  size := by rw [(h.attach_fields span content).2.2, Arena.size_alloc, h.size]
  laidOut := by
    rw [(h.attach_fields span content).2.2]
    have hlaid := h.laidOut.alloc hn h.size (d.levels.head?.map Level.holder) span content
    have ha := hlaid.attach (n := n) (by
      rw [hrows, ← h.size]
      exact List.forall_mem_singleton.mpr (Arena.row?_alloc_size ..))
    exact ⟨ha.roots, ha.levels⟩

theorem flush (h : b.Mirrors d) (hn : d.Numbered) : b.flush.Mirrors d.flush := by
  unfold Builder.flush Draft.flush
  rw [h.text]
  by_cases hp : d.pending = []
  · simpa only [hp, if_true] using h
  · have hs := h.textStart hp
    have hspan : (⟨b.textStart, b.textStart + byteLength d.pending⟩ : Span) =
        ⟨d.pos - byteLength d.pending, d.pos⟩ := by
      rw [hs, Span.mk.injEq]
      exact ⟨by omega, rfl⟩
    simp only [hp, if_false, hspan]
    have ha := h.attach hn (n := .text ⟨d.nextId, ⟨d.pos - byteLength d.pending, d.pos⟩⟩
      (String.ofList d.pending)) _ rfl fun _ => rfl
    exact ⟨ha.pos, rfl, fun hne => absurd rfl hne, ha.blocks, ha.roots, ha.size,
      ha.laidOut.roots, ha.laidOut.levels⟩

theorem leaf (h : b.Mirrors d) (hn : d.Numbered) {node : Site → Node} {content : Content}
    (hrows : ∀ site parent, (node site).rows parent = [⟨site.id, parent, site.span, content⟩])
    (stop : Nat) : (b.leaf stop content).Mirrors (d.leaf stop node) := by
  have hf := h.flush hn
  let site : Site := ⟨d.flush.nextId, ⟨d.flush.pos, stop⟩⟩
  have hid : (node site).site.id = d.flush.nextId := by
    have hr := hrows site none
    rw [Node.rows_eq] at hr
    exact congrArg Row.id (List.cons.inj hr).1
  have ha := hf.attach hn.flush ⟨b.flush.pos, stop⟩ hid fun parent => by
    rw [hrows, hf.pos]
  exact ⟨rfl, ha.text, fun hne => absurd (by simp [Draft.leaf]) hne, ha.blocks, ha.roots, ha.size,
    ha.laidOut.roots, ha.laidOut.levels⟩

theorem openBlock (h : b.Mirrors d) (hn : d.Numbered) (stop : Nat) (block : Block)
    (args : List String) : (b.openBlock stop block args).Mirrors (d.openBlock stop block args) := by
  have hf := h.flush hn
  obtain ⟨hblocks, hroots, harena⟩ := hf.attach_fields ⟨b.flush.pos, stop⟩ (.ofBlock args block)
  have hlaid := hf.laidOut.alloc hn.flush hf.size (d.flush.levels.head?.map Level.holder)
    ⟨b.flush.pos, stop⟩ (.ofBlock args block)
  rw [← harena] at hlaid
  refine ⟨rfl, ?_, fun hne => absurd (by simp [Draft.openBlock]) hne, ?_, hroots, ?_,
    hlaid.roots, ⟨?_, nofun, Arena.holds_nil _, Arena.holds_nil _⟩,
    hlaid.levels⟩
  · exact (attach_text ..).trans hf.text
  · show ⟨block, b.flush.arena.size, b.flush.pos, [], none, []⟩ :: _ =
      (⟨block, d.flush.nextId, d.flush.pos, [], none, []⟩ : OpenBlock) :: opened _ d.flush.levels
    rw [hblocks, hf.size, hf.pos]
  · simp [Builder.openBlock, Draft.openBlock, harena, hf.size]
  · refine ⟨stop, ?_⟩
    simp only [Builder.openBlock, harena, ← hf.size, ← hf.pos]
    exact Arena.row?_alloc_size ..

theorem inConditional (h : b.Mirrors d) : b.inConditional = d.inConditional := by
  unfold Builder.inConditional Draft.inConditional
  rw [h.blocks]
  cases d.levels <;> rfl

theorem startBranch (h : b.Mirrors d) (hn : d.Numbered) (hc : d.inConditional = true)
    (stop : Nat) (guard : Option (List String)) :
    (b.startBranch stop guard).Mirrors (d.startBranch stop guard) := by
  obtain ⟨l, ls, hl, hb⟩ := d.inConditional_iff.mp hc
  have hf := h.flush hn
  obtain ⟨arena, hsize, hlaid, harena⟩ :=
    hf.laidOut.startBranch hn.flush hf.size hl hb ⟨d.flush.pos, stop⟩ guard
  obtain ⟨hblocks, hroots⟩ := hf.innermost hl
  rw [Draft.startBranch_eq hl]
  simp only [Builder.startBranch, hblocks, hf.pos, harena]
  exact ⟨rfl, hf.text, fun hne => absurd (by simp) hne, rfl, hroots, hsize, hlaid.roots,
    hlaid.levels⟩

end Mirrors

end Builder

/-- Two computations that fail with the same error, or succeed with related results. -/
inductive Alike {ε α β : Type} (R : α → β → Prop) : Except ε α → Except ε β → Prop
  | ok {a : α} {b : β} (related : R a b) : Alike R (.ok a) (.ok b)
  | error (e : ε) : Alike R (.error e) (.error e)

theorem Alike.imp {ε α β : Type} {R S : α → β → Prop} {x : Except ε α} {y : Except ε β}
    (h : Alike R x y) (hi : ∀ a b, x = .ok a → y = .ok b → R a b → S a b) : Alike S x y := by
  cases h with
  | ok related => exact .ok (hi _ _ rfl rfl related)
  | error e => exact .error e

theorem Alike.bind {ε α β γ δ : Type} {R : α → β → Prop} {S : γ → δ → Prop} {x : Except ε α}
    {y : Except ε β} {f : α → Except ε γ} {g : β → Except ε δ} (h : Alike R x y)
    (hf : ∀ a b, R a b → Alike S (f a) (g b)) : Alike S (x >>= f) (y >>= g) := by
  cases h with
  | ok related => exact hf _ _ related
  | error e => exact .error e

namespace Builder.Mirrors

variable {b : Builder} {d : Draft}

theorem closeBlock (h : b.Mirrors d) (hn : d.Numbered) (stop : Nat) (name : String) :
    Alike Mirrors (b.closeBlock stop name) (d.closeBlock stop name) := by
  have hf := h.flush hn
  unfold Builder.closeBlock Draft.closeBlock
  by_cases hname : name = ""
  · simp only [hname, if_true, hf.pos]
    exact .error _
  · cases hl : d.flush.levels with
    | nil =>
      have hblocks : b.flush.blocks = [] := by rw [hf.blocks, hl]; rfl
      simp only [hname, if_false, hblocks, hl, hf.pos]
      exact .error _
    | cons l ls =>
      obtain ⟨hblocks, hroots⟩ := hf.innermost hl
      have hblock : (l.asOpen none).block = l.block := rfl
      have hstart : (l.asOpen none).start = l.start := rfl
      simp only [hname, if_false, hblocks, hl, hf.pos, hblock, hstart]
      by_cases hb : l.block.name = name
      · simp only [hb, if_true]
        have hlaid := hf.laidOut.closeBlock hn.flush hl ⟨d.flush.pos, stop⟩
        have hid := l.id_finish ⟨d.flush.pos, stop⟩
        refine .ok ⟨rfl, ?_, fun hne => absurd (by simp) hne, ?_, ?_, ?_, hlaid.roots, hlaid.levels⟩
        · simpa using hf.text
        · rw [Draft.opened_attach, hid]
        · rw [Draft.outermost_attach, hid]
          exact hroots
        · simpa [Arena.size_closeBlock] using hf.size
      · simp only [hb, if_false]
        exact .error _

theorem step (h : b.Mirrors d) (hn : d.Numbered) (p : Piece) :
    Alike Mirrors (b.step p) (d.step p) := by
  cases p with
  | text content => exact .ok (h.append content)
  | tag body =>
    have branch : ∀ guard stop, Alike Mirrors
        (.ok (if b.inConditional then b.startBranch stop guard
          else b.append (Piece.tag body).source) : Except NestingFault Builder)
        (.ok (if d.inConditional then d.startBranch stop guard
          else d.append (Piece.tag body).source)) := by
      intro guard stop
      rw [h.inConditional]
      by_cases hc : d.inConditional = true
      · rw [if_pos hc, if_pos hc]
        exact .ok (h.startBranch hn hc stop guard)
      · rw [if_neg hc, if_neg hc]
        exact .ok (h.append _)
    cases ht : Tag.ofBody body <;> simp only [Builder.step, Draft.step, ht, h.pos]
    case blank => exact .error _
    case close name => exact h.closeBlock hn _ name
    case fetch reference => exact .ok (h.leaf hn (fun _ _ => rfl) _)
    case localeText key => exact .ok (h.leaf hn (fun _ _ => rfl) _)
    case field args => exact .ok (h.leaf hn (fun _ _ => rfl) _)
    case openBlock block args => exact .ok (h.openBlock hn _ block args)
    case elseIf args => exact branch (some args) _
    case otherwise => exact branch none _
    case unknown => exact .ok (h.append _)

/-- The arena follows the draft through all pieces, up to the first error of both. -/
theorem ofPieces (h : b.Mirrors d) (hn : d.Numbered) (ps : List Piece) :
    Alike (fun b d => b.Mirrors d ∧ d.Numbered) (b.ofPieces ps) (d.ofPieces ps) := by
  induction ps generalizing b d with
  | nil => exact .ok ⟨h, hn⟩
  | cons p ps ih =>
    rw [Builder.ofPieces, Draft.ofPieces, List.foldlM_cons, List.foldlM_cons]
    refine Alike.bind (R := fun b d => b.Mirrors d ∧ d.Numbered) ?_ fun b d h => ih h.1 h.2
    exact (h.step hn p).imp fun _ _ _ hd hm => ⟨hm, hn.move (.of_step hd)⟩

theorem finish (h : b.Mirrors d) (hn : d.Numbered) :
    Alike (fun built roots => built.2 = Node.ids roots ∧
      built.1.Holds (Node.rowsAll none roots) ∧ built.1.size = Node.sizeAll roots)
      b.finish d.finish := by
  have hf := h.flush hn
  unfold Builder.finish Draft.finish
  simp only [hf.blocks]
  cases hl : d.flush.levels with
  | nil =>
    have hroots := hf.roots
    have hnumbers := hn.flush.perm
    simp only [Draft.numbers, hl, List.flatMap_nil, List.append_nil] at hnumbers
    refine .ok ⟨by simpa [hl, outermost] using hroots, hf.laidOut.roots, ?_⟩
    rw [hf.size]
    simpa [Node.length_partsAll] using hnumbers.length_eq.symm
  | cons l ls => exact .error _

end Builder.Mirrors

namespace Arena

/-- A source that is built into an arena is built into a tree, or fails in the same way; and the
arena holds the rows of the tree and no others. -/
theorem ofSource_alike (source : List Char) :
    Alike (fun built roots => built.2 = Node.ids roots ∧
      built.1.Holds (Node.rowsAll none roots) ∧ built.1.size = Node.sizeAll roots)
      (Arena.ofSource source) (Template.ofSource source) := by
  exact (Builder.Mirrors.start.ofPieces Draft.numbered_empty (pieces source)).bind
    fun _ _ h => h.1.finish h.2

theorem rows_eq_table {a : Arena} {t : Template} (h : a.Holds (Node.rowsAll none t.roots))
    (hs : a.size = t.size) (hp : (t.parts.map Part.id).Perm (List.range t.size)) :
    a.rows.toList = t.table := by
  apply List.ext_getElem?
  intro i
  rw [Array.getElem?_toList]
  show a.row? i = t.table[i]?
  cases hi : t.table[i]? with
  | none =>
    have hlength := List.getElem?_eq_none_iff.mp hi
    rw [Template.length_table hp, ← hs] at hlength
    exact Array.getElem?_eq_none hlength
  | some r =>
    have hr := h r (t.table_perm_rows.subset (List.mem_of_getElem? hi))
    rwa [Template.id_of_getElem?_table hp hi] at hr

end Arena

/-- A source that compiles is built into an arena of the nodes and branches of its tree, each at
its number, and no more. The children of its nodes are in range, each node but a root is a child
once, its parent is the node that holds it, no node is below itself, and branches stand where
they belong. -/
theorem compiled_arena_forest {source name : String} {t : Template}
    (h : Template.compile source name = .ok t) :
    ∃ arena roots, Arena.ofSource source.toList = .ok (arena, roots) ∧
      roots = Node.ids t.roots ∧ arena.rows.toList = t.table ∧ arena.size = t.size ∧
      (∀ i, (arena.row? i).map Row.content = (t.part? i).map Part.content) ∧
      Forest roots arena.rows.toList ∧ Branching arena.rows.toList := by
  have ht := (Template.compile_eq_ok_iff.mp h).2.2
  obtain ⟨hp, -⟩ := Template.numbered ht
  have ha := Arena.ofSource_alike source.toList
  rw [ht] at ha
  cases hs : Arena.ofSource source.toList with
  | error fault =>
    rw [hs] at ha
    cases ha
  | ok built =>
    rw [hs] at ha
    obtain ⟨arena, roots⟩ := built
    cases ha with
    | ok related =>
      obtain ⟨rfl, hholds, hsize⟩ := related
      have hrows := Arena.rows_eq_table hholds hsize hp
      refine ⟨arena, _, rfl, rfl, hrows, hsize, fun i => ?_, ?_, ?_⟩
      · have hi : arena.row? i = t.table[i]? := by
          rw [← hrows, Array.getElem?_toList]
          rfl
        rw [hi, Template.getElem?_table hp]
      · exact hrows ▸ Template.table_forest ht
      · exact hrows ▸ Template.table_branching ht

/-- The first branch of a conditional has number 2, its children 1; the conditional is 0. -/
theorem compiled_arena_forest_late_branch :
    ∃ t arena roots,
      Template.compile "{%if a}x{%else}{%foreach n in l}y{%/foreach}{%/if}" "page" = .ok t ∧
      Arena.ofSource "{%if a}x{%else}{%foreach n in l}y{%/foreach}{%/if}".toList =
        .ok (arena, roots) ∧
      arena.rows.toList.map (fun r => (r.parent, r.content.children)) =
        [(none, [2, 3]), (some 2, []), (some 0, [1]), (some 0, [4]), (some 3, [5]), (some 4, [])] ∧
      Forest roots arena.rows.toList ∧ Branching arena.rows.toList := by
  have hc : Template.compile "{%if a}x{%else}{%foreach n in l}y{%/foreach}{%/if}" "page" =
      .ok ⟨"page", "{%if a}x{%else}{%foreach n in l}y{%/foreach}{%/if}",
        [.choice ⟨0, ⟨0, 50⟩⟩ ["a"]
          [⟨⟨2, ⟨0, 8⟩⟩, some ["a"], [.text ⟨1, ⟨7, 8⟩⟩ "x"]⟩,
            ⟨⟨3, ⟨8, 44⟩⟩, none,
              [.loop ⟨4, ⟨15, 44⟩⟩ ["n", "in", "l"] [.text ⟨5, ⟨32, 33⟩⟩ "y"]]⟩]]⟩ := by cbv
  obtain ⟨arena, roots, hs, -, hrows, -, -, hforest, hbranching⟩ := compiled_arena_forest hc
  refine ⟨_, arena, roots, hc, hs, ?_, hforest, hbranching⟩
  rw [hrows]
  cbv

end TagTemplate
