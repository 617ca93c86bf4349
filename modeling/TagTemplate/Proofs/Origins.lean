import TagTemplate.Proofs.Descent
import TagTemplate.Proofs.TagScan

/-! The tags that parts come from. What a part asks is what a tag of the source says, and the
part starts where that tag does. The branch before the first branching tag has none of its
own; it starts with its conditional and asks what the tag of that says. -/

namespace TagTemplate

/-- Among the tags is one at the offset that says the given thing. -/
def Scanned (ts : List PlacedTag) (offset : Nat) (tag : Tag) : Prop :=
  ∃ t ∈ ts, t.offset = offset ∧ Tag.ofBody t.body = tag

/-- Branches by their tags, the first by that of the conditional. -/
def Arms (ts : List PlacedTag) (start : Nat) (args : List String)
    (bs : List (Branch Node)) : Prop :=
  ∃ first others, bs = first :: others ∧ first.site.span.start = start ∧
    first.guard = some args ∧
    ∀ b ∈ others, ∃ tag, Scanned ts b.site.span.start tag ∧ tag.guard? = some b.guard

theorem Arms.snoc {ts : List PlacedTag} {start : Nat} {args : List String} {b : Branch Node}
    {bs : List (Branch Node)} {tag : Tag} (h : Arms ts start args bs)
    (scanned : Scanned ts b.site.span.start tag) (guard : tag.guard? = some b.guard) :
    Arms ts start args (bs ++ [b]) := by
  obtain ⟨first, others, rfl, hs, hg, ho⟩ := h
  refine ⟨first, others ++ [b], rfl, hs, hg, fun c hc => ?_⟩
  rcases List.mem_append.mp hc with hc | hc
  · exact ho c hc
  · obtain rfl := List.mem_singleton.mp hc
    exact ⟨tag, scanned, guard⟩

def Part.Stamped (ts : List PlacedTag) : Part → Prop
  | .node (.fetch site reference) => Scanned ts site.span.start (.fetch reference)
  | .node (.localeText site key _) => Scanned ts site.span.start (.localeText key)
  | .node (.field site args) => Scanned ts site.span.start (.field args)
  | .node (.conditional site args _) => Scanned ts site.span.start (.openBlock .conditional args)
  | .node (.choice site args bs) =>
    Scanned ts site.span.start (.openBlock .conditional args) ∧ Arms ts site.span.start args bs
  | .node (.loop site args _) => Scanned ts site.span.start (.openBlock .loop args)
  | .node (.text ..) | .branch .. => True

/-- An open block by its tags. The branch that receives children is one of them. -/
structure Level.Stamped (ts : List PlacedTag) (l : Level) : Prop where
  tag : Scanned ts l.start (.openBlock l.block l.args)
  arms : ∀ id stop children,
    Arms ts l.start l.args (l.finished ++ [(l.ending id).finish stop children])

namespace Level.Stamped

variable {ts : List PlacedTag} {l : Level}

theorem branched (h : l.Stamped ts) (id : Nat) {pos : Nat} {guard : Option (List String)}
    {tag : Tag} (scanned : Scanned ts pos tag) (hg : tag.guard? = some guard) :
    (l.branched id pos guard).Stamped ts :=
  ⟨h.tag, fun _ _ _ => (h.arms id pos l.children).snoc scanned hg⟩

theorem finish (h : l.Stamped ts) (closing : Span) : (Part.node (l.finish closing)).Stamped ts := by
  have htag := h.tag
  have harms := h.arms 0 closing.start l.children
  cases hb : l.block <;> cases hc : l.current <;> rw [hb] at htag <;>
    simp only [Level.finish, hb, hc]
  · exact htag
  · exact ⟨htag, by simpa [Level.ending, hc] using harms⟩
  · exact htag
  · exact htag

end Level.Stamped

namespace Draft

structure Stamped (ts : List PlacedTag) (d : Draft) : Prop where
  levels : ∀ l ∈ d.levels, l.Stamped ts
  parts : ∀ q ∈ d.parts, q.Stamped ts

namespace Stamped

variable {ts : List PlacedTag} {d d' : Draft}

theorem attach (h : d.Stamped ts) {n : Node} (hn : ∀ q ∈ n.parts, q.Stamped ts) :
    (d.attach n).Stamped ts where
  levels := (forall_levels_attach (fun _ _ => ⟨fun h => ⟨h.tag, h.arms⟩, fun h => ⟨h.tag, h.arms⟩⟩)
    d n).mpr h.levels
  parts q hq := (mem_parts_attach.mp hq).elim (h.parts q) (hn q)

theorem flush (h : d.Stamped ts) : d.flush.Stamped ts := by
  unfold Draft.flush
  split
  · exact h
  · have ha := h.attach (n := .text ⟨d.nextId, ⟨d.pos - byteLength d.pending, d.pos⟩⟩
      (String.ofList d.pending)) fun q hq => List.mem_singleton.mp hq ▸ trivial
    exact ⟨ha.levels, ha.parts⟩

theorem leaf (h : d.Stamped ts) {body : List Char} (hb : ⟨d.pos, body⟩ ∈ ts) {node : Site → Node}
    {raw : List Char} (tag : (Tag.ofBody body).leaf? raw = some node) (stop : Nat) :
    (d.leaf stop node).Stamped ts := by
  have hscan : Scanned ts d.flush.pos (Tag.ofBody body) := ⟨_, hb, d.flush_pos.symm, rfl⟩
  have hn : ∀ q ∈ (node ⟨d.flush.nextId, ⟨d.flush.pos, stop⟩⟩).parts, q.Stamped ts := by
    cases hof : Tag.ofBody body <;> rw [hof] at tag hscan <;>
      simp only [Tag.leaf?, Option.some.injEq, reduceCtorEq] at tag <;> subst tag <;>
      exact fun q hq => List.mem_singleton.mp hq ▸ hscan
  have ha := h.flush.attach hn
  exact ⟨ha.levels, ha.parts⟩

theorem openBlock (h : d.Stamped ts) {body : List Char} (hb : ⟨d.pos, body⟩ ∈ ts) {block : Block}
    {args : List String} (tag : Tag.ofBody body = .openBlock block args) (stop : Nat) :
    (d.openBlock stop block args).Stamped ts where
  levels l hl := by
    rcases List.mem_cons.mp hl with rfl | hl
    · exact ⟨⟨_, hb, d.flush_pos.symm, tag⟩, fun _ _ _ => ⟨_, [], rfl, rfl, rfl, by simp⟩⟩
    · exact h.flush.levels l hl
  parts q hq := by
    rcases (mem_parts_cons rfl).mp hq with hq | hq
    · simp [Level.parts, Node.partsBranches, Node.partsAll] at hq
    · exact h.flush.parts q hq

/-- Every part that a move adds has the tag that is read, or a level has it. -/
theorem move (h : d.Stamped ts) {p : Piece} (hm : d.Move p d')
    (hp : ∀ body, p = .tag body → ⟨d.pos, body⟩ ∈ ts) : d'.Stamped ts := by
  cases hm with
  | append => exact ⟨h.levels, h.parts⟩
  | leaf tag => exact h.leaf (hp _ rfl) tag _
  | openBlock tag => exact h.openBlock (hp _ rfl) tag _
  | @startBranch body guard l ls tag levels block =>
    have hscan : Scanned ts d.flush.pos (Tag.ofBody body) := ⟨_, hp _ rfl, d.flush_pos.symm, rfl⟩
    have hl := h.flush.levels l (by simp [levels])
    refine ⟨fun m hm => ?_, fun q hq => ?_⟩
    · rcases List.mem_cons.mp hm with rfl | hm
      · exact hl.branched _ hscan tag
      · exact h.flush.levels m (by simp [levels, hm])
    · rcases (mem_parts_cons rfl).mp hq with hq | hq
      · rcases Level.mem_parts_branched.mp hq with hq | rfl
        · exact h.flush.parts q ((mem_parts_cons levels).mpr (.inl hq))
        · trivial
      · exact h.flush.parts q ((mem_parts_cons levels).mpr (.inr hq))
  | @closeBlock body l ls tag levels =>
    have hl := h.flush.levels l (by simp [levels])
    have hd : ({ d.flush with levels := ls } : Draft).Stamped ts :=
      ⟨fun m hm => h.flush.levels m (by simp [levels, hm]),
        fun q hq => h.flush.parts q ((mem_parts_cons levels).mpr (.inr hq))⟩
    have ha := hd.attach (n := l.finish ⟨d.flush.pos, d.stop (.tag body)⟩) fun q hq => by
      -- The branch that ends here is stamped by the node over it.
      rcases Level.mem_parts_finish hq 0 with rfl | hq | rfl
      · exact hl.finish _
      · exact h.flush.parts q ((mem_parts_cons levels).mpr (.inl hq))
      · trivial
    exact ⟨ha.levels, ha.parts⟩

theorem ofPieces {ps : List Piece} (h : d.Stamped ts) (hts : placedTags d.pos ps ⊆ ts)
    (hd : d.ofPieces ps = .ok d') : d'.Stamped ts := by
  induction ps generalizing d with
  | nil => exact Except.ok.inj hd ▸ h
  | cons p ps ih =>
    rw [Draft.ofPieces, List.foldlM_cons] at hd
    obtain ⟨d₁, hp, hrest⟩ := exists_of_bind_eq_ok hd
    have hm := Move.of_step hp
    have hpos : d₁.pos = d.stop p := hm.pos
    cases p with
    | text content =>
      have ht : ∀ body, Piece.text content ≠ .tag body := by simp
      exact ih (h.move hm fun b he => absurd he (ht b)) (by rw [hpos]; exact hts) hrest
    | tag body =>
      obtain ⟨hb, hts⟩ := List.cons_subset.mp hts
      refine ih (h.move hm fun b he => ?_) (by rw [hpos]; exact hts) hrest
      obtain rfl := Piece.tag.inj he
      exact hb

end Stamped

end Draft

theorem Template.stamped {source : List Char} {roots : List Node}
    (h : ofSource source = .ok roots) :
    ∀ q ∈ Node.partsAll roots, q.Stamped (placedTags 0 (pieces source)) := by
  obtain ⟨d, hd, hf⟩ := exists_of_bind_eq_ok h
  have hs := Draft.Stamped.ofPieces (d := .empty)
    ⟨by simp [Draft.empty], by simp [Draft.parts, Draft.empty, Node.partsAll]⟩
    (List.Subset.refl _) hd
  simp only [Draft.finish] at hf
  split at hf
  · obtain rfl := Except.ok.inj hf
    exact fun q hq => hs.flush.parts q (List.mem_append_left _ hq)
  · cases hf

/-- The tag that says what a part asks, given the parts around it. A first branch asks what
the tag of its conditional says, and a later one what its own does. -/
inductive Part.AsksFor (ps : List Part) : Part → Tag → Prop where
  | fetch (site : Site) (reference : String) :
      AsksFor ps (.node (.fetch site reference)) (.fetch reference)
  | field (site : Site) (args : List String) : AsksFor ps (.node (.field site args)) (.field args)
  | conditional (site : Site) (args : List String) (body : List Node) :
      AsksFor ps (.node (.conditional site args body)) (.openBlock .conditional args)
  | loop (site : Site) (args : List String) (body : List Node) :
      AsksFor ps (.node (.loop site args body)) (.openBlock .loop args)
  | firstBranch {site : Site} {args : List String} {b : Branch Node} {bs : List (Branch Node)}
      (choice : .node (.choice site args (b :: bs)) ∈ ps) (guard : b.guard = some args) :
      AsksFor ps (.branch site.id b) (.openBlock .conditional args)
  | laterBranch {site : Site} {args : List String} {a b : Branch Node} {bs : List (Branch Node)}
      {tag : Tag} (choice : .node (.choice site args (a :: bs)) ∈ ps) (mem : b ∈ bs)
      (guard : tag.guard? = some b.guard) : AsksFor ps (.branch site.id b) tag

theorem Part.Stamped.branch {ts : List PlacedTag} {ps : List Part} {site : Site}
    {args : List String} {b : Branch Node} {bs : List (Branch Node)}
    (hm : .node (.choice site args bs) ∈ ps) (h : (Part.node (.choice site args bs)).Stamped ts)
    (hb : b ∈ bs) :
    ∃ tag, Scanned ts b.site.span.start tag ∧ (Part.branch site.id b).AsksFor ps tag := by
  obtain ⟨hscan, first, others, rfl, hstart, hguard, hothers⟩ := h
  rcases List.mem_cons.mp hb with rfl | hb
  · exact ⟨_, hstart ▸ hscan, .firstBranch hm hguard⟩
  · obtain ⟨tag, hscan, hg⟩ := hothers b hb
    exact ⟨tag, hscan, .laterBranch hm hb hg⟩

end TagTemplate
