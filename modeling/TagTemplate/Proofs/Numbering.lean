import TagTemplate.Proofs.Move

/-! The numbers of a draft are those below its next one, each given once. The branch that
holds what came before the first branching tag gets its number late, after its body. -/

namespace TagTemplate

/-- The branches of a conditional: the first has the guard of the conditional and a
number above all those in its body. -/
def FirstComesLate (args : List String) (bs : List (Branch Node)) : Prop :=
  ∃ first others, bs = first :: others ∧ first.guard = some args ∧
    ∀ q ∈ Node.partsAll first.body, q.id < first.site.id

theorem FirstComesLate.append {args : List String} {bs : List (Branch Node)}
    (h : FirstComesLate args bs) (cs : List (Branch Node)) : FirstComesLate args (bs ++ cs) := by
  obtain ⟨first, others, rfl, hg, hlt⟩ := h
  exact ⟨first, others ++ cs, rfl, hg, hlt⟩

def Part.Formed : Part → Prop
  | .node (.choice _ args bs) => FirstComesLate args bs ∧ 2 ≤ bs.length
  | _ => True

namespace Level

def Formed (l : Level) : Prop :=
  match l.current with
  | none => l.finished = []
  | some _ => l.block = .conditional ∧ FirstComesLate l.args l.finished

def numbers (l : Level) : List Nat :=
  l.id :: (l.current.toList.map OpenBranch.id ++ l.parts.map Part.id)

theorem numbers_finish {l : Level} (h : l.Formed) (closing : Span) :
    ((l.finish closing).parts.map Part.id).Perm l.numbers := by
  unfold Formed at h
  apply List.perm_iff_count.mpr
  intro a
  cases hc : l.current with
  | none =>
    rw [hc] at h
    cases hb : l.block <;>
      simp [finish, numbers, parts, hb, hc, h, Node.parts, Node.partsBranches, Node.site]
  | some b =>
    rw [hc] at h
    simp [finish, numbers, parts, h.1, hc, Node.parts, Node.partsBranches_append, Node.site,
      OpenBranch.finish, List.count_append, List.count_cons]
    omega

theorem formed_finish {l : Level} (h : l.Formed) (closing : Span) :
    (Part.node (l.finish closing)).Formed := by
  unfold Formed at h
  unfold finish
  split
  · trivial
  · rename_i b _ hc
    simp only [hc] at h
    obtain ⟨first, others, hf, -⟩ := h.2
    exact ⟨h.2.append _, by simp [hf]⟩
  · trivial

end Level

namespace Draft

def numbers (d : Draft) : List Nat :=
  (Node.partsAll d.roots).map Part.id ++ d.levels.flatMap Level.numbers

structure Numbered (d : Draft) : Prop where
  perm : d.numbers.Perm (List.range d.nextId)
  levels : ∀ l ∈ d.levels, l.Formed
  parts : ∀ q ∈ d.parts, q.Formed

theorem numbered_empty : empty.Numbered where
  perm := .refl _
  levels := nofun
  parts := nofun

theorem numbers_attach (d : Draft) (n : Node) :
    (d.attach n).numbers.Perm (d.numbers ++ n.parts.map Part.id) := by
  apply List.perm_iff_count.mpr
  intro a
  unfold attach numbers
  split
  · rename_i hl
    simp [hl, Node.partsAll_append]
  · rename_i l ls hl
    simp [hl, Level.numbers, Level.parts, Node.partsAll_append, List.count_append,
      List.count_cons]
    omega

/-- A node whose only new number is the next one can be attached. -/
theorem Numbered.attach {d : Draft} (h : d.Numbered) {n : Node}
    (hn : n.parts.map Part.id = [d.nextId]) (hq : ∀ q ∈ n.parts, q.Formed) :
    ({ d.attach n with nextId := d.nextId + 1 } : Draft).Numbered where
  perm := by
    have hp := numbers_attach d n
    rw [hn] at hp
    rw [List.range_succ]
    exact hp.trans (h.perm.append_right _)
  levels := (forall_levels_attach (fun _ _ => Iff.rfl) d n).mpr h.levels
  parts q hm := (mem_parts_attach.mp hm).elim (h.parts q) (hq q)

theorem Numbered.flush {d : Draft} (h : d.Numbered) : d.flush.Numbered := by
  unfold Draft.flush
  split
  · exact h
  · have ha := h.attach (n := .text ⟨d.nextId, ⟨d.pos - byteLength d.pending, d.pos⟩⟩
      (String.ofList d.pending)) rfl (by simp [Node.parts, Part.Formed])
    exact ⟨ha.perm, ha.levels, ha.parts⟩

theorem formed_leaf {raw : List Char} {tag : Tag} {node : Site → Node}
    (h : tag.leaf? raw = some node) (site : Site) :
    (node site).parts.map Part.id = [site.id] ∧ ∀ q ∈ (node site).parts, q.Formed := by
  cases tag <;> simp only [Tag.leaf?, Option.some.injEq, reduceCtorEq] at h <;>
    subst h <;> exact ⟨rfl, fun q hq => List.mem_singleton.mp hq ▸ trivial⟩

theorem Numbered.leaf {d : Draft} (h : d.Numbered) {raw : List Char} {tag : Tag}
    {node : Site → Node} (hn : tag.leaf? raw = some node) (stop : Nat) :
    (d.leaf stop node).Numbered := by
  obtain ⟨hi, hf⟩ := formed_leaf hn ⟨d.flush.nextId, ⟨d.flush.pos, stop⟩⟩
  have ha := h.flush.attach hi hf
  exact ⟨ha.perm, ha.levels, ha.parts⟩

theorem Numbered.openBlock {d : Draft} (h : d.Numbered) (stop : Nat) (block : Block)
    (args : List String) : (d.openBlock stop block args).Numbered where
  perm := by
    have hp := List.perm_iff_count.mp h.flush.perm
    apply List.perm_iff_count.mpr
    intro a
    have ha := hp a
    simp [numbers] at ha
    simp [Draft.openBlock, numbers, Level.numbers, Level.parts, Node.partsBranches, Node.partsAll,
      List.range_succ, List.count_cons]
    omega
  levels l hl := by
    rcases List.mem_cons.mp hl with rfl | hl
    · exact rfl
    · exact h.flush.levels l hl
  parts := h.flush.parts

theorem Numbered.lt_nextId {d : Draft} (h : d.Numbered) {q : Part} (hq : q ∈ d.parts) :
    q.id < d.nextId := by
  apply List.mem_range.mp
  apply h.perm.subset
  rcases List.mem_append.mp hq with hq | hq
  · exact List.mem_append_left _ (List.mem_map_of_mem hq)
  · obtain ⟨l, hl, hq⟩ := List.mem_flatMap.mp hq
    exact List.mem_append_right _ (List.mem_flatMap.mpr ⟨l, hl,
      List.mem_cons_of_mem _ (List.mem_append_right _ (List.mem_map_of_mem hq))⟩)

theorem Numbered.branched {d : Draft} (h : d.Numbered) {l : Level} (hl : l ∈ d.levels)
    (hb : l.block = .conditional) (pos : Nat) (guard : Option (List String)) :
    (l.branched d.nextId pos guard).Formed := by
  refine ⟨hb, ?_⟩
  change FirstComesLate l.args (l.finished ++ [_])
  have hf := h.levels l hl
  unfold Level.Formed at hf
  cases hc : l.current with
  | none =>
    rw [hc] at hf
    have hf : l.finished = [] := hf
    refine ⟨_, [], by rw [hf, List.nil_append], by simp [OpenBranch.finish, Level.ending, hc], ?_⟩
    intro q hq
    have hd : q ∈ d.parts :=
      List.mem_append_right _ (List.mem_flatMap.mpr ⟨l, hl, List.mem_append_right _ hq⟩)
    simpa [OpenBranch.finish, Level.ending, hc] using h.lt_nextId hd
  | some b =>
    rw [hc] at hf
    exact hf.2.append _

theorem Numbered.startBranch {d : Draft} (h : d.Numbered) {l : Level} {ls : List Level}
    (hl : d.levels = l :: ls) (hb : l.block = .conditional) (pos stop : Nat)
    (guard : Option (List String)) :
    ({ d with
        nextId := l.nextId d.nextId + 1
        pos := stop
        levels := l.branched d.nextId pos guard :: ls } : Draft).Numbered where
  perm := by
    apply List.perm_iff_count.mpr
    intro a
    have ha := List.perm_iff_count.mp h.perm a
    simp only [numbers, hl] at ha
    cases hc : l.current <;>
      simp [numbers, Level.numbers, Level.parts, Level.branched, Level.ending, Level.nextId, hc,
        Node.partsBranches_append, Node.partsAll, OpenBranch.finish, List.range_succ,
        List.count_cons] at ha ⊢ <;>
      omega
  levels m hm := by
    rcases List.mem_cons.mp hm with rfl | hm
    · exact h.branched (by simp [hl]) hb pos guard
    · exact h.levels m (by simp [hl, hm])
  parts q hq := by
    rcases (mem_parts_cons rfl).mp hq with hq | hq
    · rcases Level.mem_parts_branched.mp hq with hq | rfl
      · exact h.parts q ((mem_parts_cons hl).mpr (.inl hq))
      · trivial
    · exact h.parts q ((mem_parts_cons hl).mpr (.inr hq))

theorem Numbered.closeBlock {d : Draft} (h : d.Numbered) {l : Level} {ls : List Level}
    (hl : d.levels = l :: ls) (closing : Span) :
    (({ d with levels := ls } : Draft).attach (l.finish closing)).Numbered where
  perm := by
    have ha := numbers_attach { d with levels := ls } (l.finish closing)
    have hf := Level.numbers_finish (h.levels l (by simp [hl])) closing
    rw [attach_nextId]
    refine ha.trans ((hf.append_left _).trans (.trans ?_ h.perm))
    simp only [numbers, hl, List.flatMap_cons, List.append_assoc]
    exact List.perm_append_comm.append_left _
  levels := (forall_levels_attach (fun _ _ => Iff.rfl) _ _).mpr
    fun m hm => h.levels m (by simp [hl, hm])
  parts q hq := by
    rcases mem_parts_attach.mp hq with hq | hq
    · exact h.parts q ((mem_parts_cons hl).mpr (.inr hq))
    · rcases Level.mem_parts_finish hq 0 with rfl | hq | rfl
      · exact Level.formed_finish (h.levels l (by simp [hl])) closing
      · exact h.parts q ((mem_parts_cons hl).mpr (.inl hq))
      · trivial

theorem Numbered.move {d d' : Draft} {p : Piece} (h : d.Numbered) (hm : d.Move p d') :
    d'.Numbered := by
  cases hm with
  | append => exact ⟨h.perm, h.levels, h.parts⟩
  | leaf tag => exact h.leaf tag _
  | openBlock tag => exact h.openBlock _ _ _
  | startBranch tag levels block => exact h.flush.startBranch levels block _ _ _
  | @closeBlock body l ls tag levels =>
    have hc := h.flush.closeBlock levels ⟨d.flush.pos, d.stop (.tag body)⟩
    exact ⟨hc.perm, hc.levels, hc.parts⟩

end Draft

namespace Template

theorem numbered {source : List Char} {roots : List Node}
    (h : ofSource source = .ok roots) :
    ((Node.partsAll roots).map Part.id).Perm (List.range (Node.sizeAll roots)) ∧
      ∀ q ∈ Node.partsAll roots, q.Formed := by
  obtain ⟨d, hd, hl, rfl⟩ := Draft.ofSource_induction (P := fun _ d => d.Numbered)
    Draft.numbered_empty (fun _ _ _ _ _ _ _ h hm => h.move hm) h
  have hf := hd.flush
  have hp := hf.perm
  simp only [Draft.numbers, hl, List.flatMap_nil, List.append_nil] at hp
  have hn : d.flush.nextId = Node.sizeAll d.flush.roots := by
    simpa [Node.length_partsAll] using hp.length_eq.symm
  exact ⟨hn ▸ hp, fun q hq => hf.parts q (List.mem_append_left _ hq)⟩

theorem nodup_parts {source : List Char} {roots : List Node} (h : ofSource source = .ok roots) :
    ((Node.partsAll roots).map Part.id).Nodup :=
  (numbered h).1.nodup_iff.mpr List.nodup_range

theorem part?_of_mem {t : Template} (hd : (t.parts.map Part.id).Nodup) {q : Part}
    (hq : q ∈ t.parts) : t.part? q.id = some q := by
  obtain ⟨before, after, hp⟩ := List.append_of_mem hq
  rw [hp, List.map_append, List.map_cons] at hd
  refine List.find?_eq_some_iff_append.mpr ⟨beq_self_eq_true _, before, after, hp, fun r hr => ?_⟩
  have hne : r.id ≠ q.id :=
    (List.nodup_append.mp hd).2.2 r.id (List.mem_map_of_mem hr) q.id (by simp)
  simpa [Part.id] using hne

end Template

end TagTemplate
