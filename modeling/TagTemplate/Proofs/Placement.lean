import Mathlib
import TagTemplate.Proofs.Tiling

/-! A draft tiles what it has read: the innermost siblings reach up to the text that
waits, and the siblings around an open block reach up to its opening tag. -/

namespace TagTemplate

namespace Level

/-- What an open block has under it: its opening tag, its complete branches, and the
children up to an offset, from the opening tag or from the last branching tag on. -/
inductive Reaches (source : List Char) (l : Level) (stop : Nat) : Prop where
  | whole {inner : Nat} (opening : TagAt source l.start inner (.openBlock l.block l.args))
      (current : l.current = none) (finished : l.finished = [])
      (children : Siblings inner stop l.children)
  | branched {inner own : Nat} {b : OpenBranch} {tag : Tag}
      (opening : TagAt source l.start inner (.openBlock l.block l.args))
      (block : l.block = .conditional) (current : l.current = some b)
      (tiles : Tiles l.start b.start (l.finished.map fun b => b.site.span))
      (branches : Branches source inner l.finished)
      (branching : TagAt source b.start own tag) (guard : tag.guard? = some b.guard)
      (children : Siblings own stop l.children)

variable {source : List Char} {l : Level} {middle stop : Nat}

theorem Reaches.start_lt (h : l.Reaches source middle) : l.start < middle := by
  cases h with
  | whole opening _ _ children => exact Nat.lt_of_lt_of_le opening.lt children.tiles.le
  | branched _ _ _ tiles _ branching _ children =>
    exact Nat.lt_of_le_of_lt tiles.le (Nat.lt_of_lt_of_le branching.lt children.tiles.le)

theorem Reaches.snoc (h : l.Reaches source middle) {n : Node} (hn : n.site.span.start = middle)
    (hlt : middle < n.site.span.stop)
    (ht : n.isText = true → ∀ m ∈ l.children.getLast?, m.isText = false) :
    Reaches source { l with children := l.children ++ [n] } n.site.span.stop := by
  cases h with
  | whole opening current finished children =>
    exact .whole opening current finished (children.snoc hn hlt ht)
  | branched opening block current tiles branches branching guard children =>
    exact .branched opening block current tiles branches branching guard (children.snoc hn hlt ht)

/-- The branch that ends here follows on the complete ones. -/
theorem Reaches.ending (h : l.Reaches source middle) (id : Nat) :
    ∃ inner, TagAt source l.start inner (.openBlock l.block l.args) ∧
      Boundary source (l.ending id).start ∧
      Tiles l.start middle
        ((l.finished ++ [(l.ending id).finish middle l.children]).map fun b => b.site.span) ∧
      Branches source inner (l.finished ++ [(l.ending id).finish middle l.children]) := by
  have hlt := h.start_lt
  cases h with
  | @whole inner opening current finished children =>
    simp only [Level.ending, current, finished, Option.getD_none, List.nil_append]
    exact ⟨inner, opening, opening.left, ⟨rfl, hlt, rfl⟩, _, [], rfl, children, by simp⟩
  | @branched inner own b tag opening _ current tiles branches branching guard children =>
    obtain ⟨first, others, hf, hfirst, hothers⟩ := branches
    simp only [Level.ending, current, Option.getD_some, List.map_append, List.map_cons,
      List.map_nil]
    refine ⟨inner, opening, branching.left, tiles.snoc (s := ⟨b.start, middle⟩) rfl
      (Nat.lt_of_lt_of_le branching.lt children.tiles.le),
      first, others ++ [b.finish middle l.children], by simp [hf], hfirst, fun c hm => ?_⟩
    rcases List.mem_append.mp hm with hm | hm
    · exact hothers c hm
    · obtain rfl := List.mem_singleton.mp hm
      exact ⟨tag, own, branching, guard, children⟩

theorem Reaches.startBranch (h : l.Reaches source middle) (hb : l.block = .conditional) (id : Nat)
    {tag : Tag} {guard : Option (List String)} (ht : TagAt source middle stop tag)
    (hg : tag.guard? = some guard) : (l.branched id middle guard).Reaches source stop := by
  obtain ⟨inner, ho, -, htl, hbs⟩ := h.ending id
  exact .branched ho hb rfl htl hbs ht hg (.nil _)

theorem isText_finish (l : Level) (closing : Span) : (l.finish closing).isText = false := by
  unfold finish
  split <;> rfl

theorem span_finish (l : Level) (closing : Span) :
    (l.finish closing).site.span = ⟨l.start, closing.stop⟩ := by
  unfold finish
  split <;> rfl

theorem Reaches.finish (h : l.Reaches source middle)
    (ht : TagAt source middle stop (.close l.block.name)) :
    (Part.node (l.finish ⟨middle, stop⟩)).Placed source := by
  obtain ⟨inner, ho, -, htl, hbs⟩ := h.ending 0
  cases h with
  | whole opening current _ children =>
    cases hb : l.block <;> rw [hb] at ht opening <;> simp only [Level.finish, hb, current]
    · exact ⟨_, middle, opening, children, ht⟩
    · exact ⟨_, middle, opening, children, ht⟩
  | branched _ block current =>
    simp only [Level.ending, current, Option.getD_some] at htl hbs
    rw [block] at ht ho
    simp only [Level.finish, block, current]
    exact ⟨inner, middle, ho, ⟨htl, hbs⟩, ht⟩

end Level

/-- Open blocks one in the other, each reaching up to the start of the next. -/
def Nest (source : List Char) (stop : Nat) : List Level → List Node → Prop
  | [], roots => Siblings 0 stop roots
  | l :: ls, roots => l.Reaches source stop ∧ Nest source l.start ls roots

namespace Draft

/-- The nodes that a new node would stand beside. -/
def siblings (d : Draft) : List Node :=
  match d.levels with
  | [] => d.roots
  | l :: _ => l.children

structure Reaches (source : List Char) (d : Draft) (stop : Nat) : Prop where
  nest : Nest source stop d.levels d.roots
  parts : ∀ q ∈ d.parts, q.Placed source

/-- A draft that has read the given text: complete nodes reach up to the text that waits,
and the last of them is no text that should have grown instead. -/
structure Placed (source before : List Char) (d : Draft) : Prop where
  pos : d.pos = byteLength before
  reaches : ∃ head, before = head ++ d.pending ∧ d.Reaches source (byteLength head)
  last : ∀ m ∈ d.siblings.getLast?, m.isText = false

theorem siblings_attach (d : Draft) (n : Node) : (d.attach n).siblings = d.siblings ++ [n] := by
  cases hl : d.levels <;> simp [attach, siblings, hl]

theorem last_attach {d : Draft} {n : Node} (h : n.isText = false) :
    ∀ m ∈ (d.attach n).siblings.getLast?, m.isText = false := by
  intro m hm
  rw [siblings_attach, List.getLast?_concat] at hm
  obtain rfl : n = m := by simpa using hm
  exact h

variable {source : List Char} {d : Draft}

theorem Reaches.attach {middle : Nat} (h : d.Reaches source middle) {n : Node}
    (hn : n.site.span.start = middle) (hlt : middle < n.site.span.stop)
    (ht : n.isText = true → ∀ m ∈ d.siblings.getLast?, m.isText = false)
    (hp : ∀ q ∈ n.parts, q.Placed source) :
    (d.attach n).Reaches source n.site.span.stop where
  nest := by
    have hd := h.nest
    unfold Draft.attach
    split
    · rename_i hl
      rw [hl] at hd
      rw [siblings, hl] at ht
      simp only [hl]
      exact Siblings.snoc hd hn hlt ht
    · rename_i l ls hl
      rw [hl] at hd
      rw [siblings, hl] at ht
      exact ⟨hd.1.snoc hn hlt ht, hd.2⟩
  parts q hq := (mem_parts_attach.mp hq).elim (h.parts q) (hp q)

theorem Placed.covers_pending {before after : List Char} (h : d.Placed source before)
    (hs : source = before ++ after) :
    Covers source ⟨d.pos - byteLength d.pending, d.pos⟩ d.pending := by
  obtain ⟨head, hb, -⟩ := h.reaches
  have hpos := h.pos
  refine ⟨head, after, by rw [hs, hb, List.append_assoc], ?_, by rw [← hb, hpos]⟩
  show _ = d.pos - _
  rw [hpos, hb, byteLength_append]
  omega

theorem Placed.flush {before after : List Char} (h : d.Placed source before)
    (hs : source = before ++ after) : d.flush.Reaches source (byteLength before) := by
  obtain ⟨head, hb, hr⟩ := h.reaches
  unfold Draft.flush
  split
  · rename_i hp
    rw [hp, List.append_nil] at hb
    rwa [hb]
  · rename_i hp
    have hpos := h.pos
    have hlt := byteLength_pos hp
    have hl : byteLength before = byteLength head + byteLength d.pending := by
      rw [hb, byteLength_append]
    let n : Node := .text ⟨d.nextId, ⟨d.pos - byteLength d.pending, d.pos⟩⟩
      (String.ofList d.pending)
    have hn : ∀ q ∈ n.parts, q.Placed source := by
      intro q hq
      obtain rfl := List.mem_singleton.mp hq
      exact ⟨by simpa using hp, by simpa using h.covers_pending hs⟩
    have ha := hr.attach (n := n) (by show d.pos - _ = _; omega) (by show _ < d.pos; omega)
      (fun _ => h.last) hn
    rw [← hpos]
    exact ⟨ha.nest, ha.parts⟩

theorem Placed.stop_eq {before : List Char} (h : d.Placed source before) (p : Piece) :
    d.stop p = byteLength (before ++ p.source) := by
  rw [stop, h.pos, byteLength_append]

theorem Placed.flush_pos {before : List Char} (h : d.Placed source before) :
    d.flush.pos = byteLength before :=
  (Draft.flush_pos d).trans h.pos

theorem Reaches.placed {before : List Char} (h : d.Reaches source (byteLength before))
    (hpos : d.pos = byteLength before) (hp : d.pending = [])
    (hl : ∀ m ∈ d.siblings.getLast?, m.isText = false) : d.Placed source before :=
  ⟨hpos, ⟨before, by rw [hp, List.append_nil], h⟩, hl⟩

section

variable {before after body : List Char}
  (hs : source = before ++ ((Piece.tag body).source ++ after)) (hb : '}' ∉ body)

include hs hb

theorem tagAt_of_append : TagAt source (byteLength before)
    (byteLength (before ++ (Piece.tag body).source)) (Tag.ofBody body) :=
  ⟨body, hb, rfl, before, after, hs, rfl, rfl⟩

theorem placed_leaf {node : Site → Node}
    (ht : (Tag.ofBody body).leaf? (Piece.tag body).source = some node) {site : Site}
    (hstart : site.span.start = byteLength before)
    (hstop : site.span.stop = byteLength (before ++ (Piece.tag body).source)) :
    (node site).site = site ∧ (node site).isText = false ∧
      ∀ q ∈ (node site).parts, q.Placed source := by
  have htag := tagAt_of_append hs hb
  rw [← hstart, ← hstop] at htag
  cases hof : Tag.ofBody body <;> rw [hof] at ht htag <;>
    simp only [Tag.leaf?, Option.some.injEq, reduceCtorEq] at ht <;> subst ht <;>
    refine ⟨rfl, rfl, fun q hq => ?_⟩ <;> obtain rfl := List.mem_singleton.mp hq
  · exact htag
  · exact ⟨htag, before, after, by simpa using hs, hstart.symm, by simpa using hstop.symm⟩
  · exact htag

theorem Placed.leaf (h : d.Placed source before) {node : Site → Node}
    (ht : (Tag.ofBody body).leaf? (Piece.tag body).source = some node) :
    (d.leaf (d.stop (.tag body)) node).Placed source (before ++ (Piece.tag body).source) := by
  have hpos := h.flush_pos
  have hstop := h.stop_eq (.tag body)
  let site : Site := ⟨d.flush.nextId, ⟨d.flush.pos, d.stop (.tag body)⟩⟩
  obtain ⟨hsite, htext, hparts⟩ : (node site).site = site ∧ _ := placed_leaf hs hb ht hpos hstop
  have hlt := (tagAt_of_append hs hb).lt
  have ha := (h.flush hs).attach (by rw [hsite]; exact hpos) (by rw [hsite]; rwa [← hstop] at hlt)
    (fun hx => by rw [htext] at hx; exact nomatch hx) hparts
  rw [hsite] at ha
  refine Reaches.placed ?_ hstop ((attach_pending _ _).trans (flush_pending _))
    (last_attach htext)
  rw [← hstop]
  exact ⟨ha.nest, ha.parts⟩

theorem Placed.openBlock (h : d.Placed source before) {block : Block} {args : List String}
    (ht : Tag.ofBody body = .openBlock block args) :
    (d.openBlock (d.stop (.tag body)) block args).Placed source
      (before ++ (Piece.tag body).source) := by
  have hpos := h.flush_pos
  have hstop := h.stop_eq (.tag body)
  have htag := tagAt_of_append hs hb
  have hf := h.flush hs
  rw [ht, ← hpos] at htag
  rw [← hpos] at hf
  refine Reaches.placed ⟨⟨.whole htag rfl rfl (.nil _), hf.nest⟩, fun q hq => ?_⟩ hstop
    (flush_pending _) (by simp [siblings, Draft.openBlock])
  rcases (mem_parts_cons rfl).mp hq with hq | hq
  · simp [Level.parts, Node.partsBranches, Node.partsAll] at hq
  · exact hf.parts q hq

theorem Placed.startBranch (h : d.Placed source before) {guard : Option (List String)}
    {l : Level} {ls : List Level} (ht : (Tag.ofBody body).guard? = some guard)
    (hl : d.flush.levels = l :: ls) (hblock : l.block = .conditional) :
    Placed source (before ++ (Piece.tag body).source)
      { d.flush with
        nextId := l.nextId d.flush.nextId + 1
        pos := d.stop (.tag body)
        levels := l.branched d.flush.nextId d.flush.pos guard :: ls } := by
  have hf := h.flush hs
  have hn := hf.nest
  rw [hl, ← h.flush_pos] at hn
  have htag := tagAt_of_append hs hb
  rw [← h.flush_pos, ← h.stop_eq] at htag
  refine Reaches.placed ?_ (h.stop_eq _) (flush_pending _) (by simp [siblings, Level.branched])
  rw [← h.stop_eq]
  refine ⟨⟨hn.1.startBranch hblock _ htag ht, hn.2⟩, fun q hq => ?_⟩
  rcases (mem_parts_cons rfl).mp hq with hq | hq
  · rcases Level.mem_parts_branched.mp hq with hq | rfl
    · exact hf.parts q ((mem_parts_cons hl).mpr (.inl hq))
    · obtain ⟨-, -, hstart, -⟩ := hn.1.ending d.flush.nextId
      exact ⟨hstart, htag.left⟩
  · exact hf.parts q ((mem_parts_cons hl).mpr (.inr hq))

theorem Placed.closeBlock (h : d.Placed source before) {l : Level} {ls : List Level}
    (ht : Tag.ofBody body = .close l.block.name) (hl : d.flush.levels = l :: ls) :
    Placed source (before ++ (Piece.tag body).source)
      { ({ d.flush with levels := ls } : Draft).attach
          (l.finish ⟨d.flush.pos, d.stop (.tag body)⟩) with
        pos := d.stop (.tag body) } := by
  have hf := h.flush hs
  have hn := hf.nest
  rw [hl, ← h.flush_pos] at hn
  have htag := tagAt_of_append hs hb
  rw [ht, ← h.flush_pos, ← h.stop_eq] at htag
  have hd : ({ d.flush with levels := ls } : Draft).Reaches source l.start :=
    ⟨hn.2, fun q hq => hf.parts q ((mem_parts_cons hl).mpr (.inr hq))⟩
  have hfin := hn.1.finish htag
  have htext := Level.isText_finish l ⟨d.flush.pos, d.stop (.tag body)⟩
  have hspan := Level.span_finish l ⟨d.flush.pos, d.stop (.tag body)⟩
  have hlt := Nat.lt_trans hn.1.start_lt htag.lt
  have hparts : ∀ q ∈ (l.finish ⟨d.flush.pos, d.stop (.tag body)⟩).parts, q.Placed source := by
    intro q hq
    rcases Level.mem_parts_finish hq d.flush.nextId with rfl | hq | rfl
    · exact hfin
    · exact hf.parts q ((mem_parts_cons hl).mpr (.inl hq))
    -- The last branch ends where the closing tag starts.
    · obtain ⟨-, -, hstart, -⟩ := hn.1.ending d.flush.nextId
      exact ⟨hstart, htag.left⟩
  have ha := hd.attach (by rw [hspan]) (by rw [hspan]; exact hlt)
    (fun hx => by rw [htext] at hx; exact nomatch hx) hparts
  rw [hspan] at ha
  refine Reaches.placed ?_ (h.stop_eq _) ((attach_pending _ _).trans (flush_pending _))
    (last_attach htext)
  rw [← h.stop_eq]
  exact ⟨ha.nest, ha.parts⟩

end

theorem Placed.move {before after : List Char} {p : Piece} {d' : Draft}
    (hs : source = before ++ (p.source ++ after)) (hp : p.Proper) (h : d.Placed source before)
    (hm : d.Move p d') : d'.Placed source (before ++ p.source) := by
  cases hm with
  | append =>
    obtain ⟨head, hb, hr⟩ := h.reaches
    refine ⟨h.stop_eq p, ⟨head, ?_, hr.nest, hr.parts⟩, h.last⟩
    rw [hb, List.append_assoc]
    rfl
  | leaf tag => exact h.leaf hs hp tag
  | openBlock tag => exact h.openBlock hs hp tag
  | startBranch tag levels block => exact h.startBranch hs hp tag levels block
  | closeBlock tag levels => exact h.closeBlock hs hp tag levels

end Draft

/-- The spans of a compiled template tile its source: the roots cover it from end to end,
and what is under the span of each part is that part, with its children side by side
between the tags that enclose them. -/
theorem compiled_spans_tile {source name : String} {t : Template}
    (h : Template.compile source name = .ok t) :
    Siblings 0 (byteLength source.toList) t.roots ∧
      ∀ q ∈ t.parts, q.Placed source.toList ∧ Boundary source.toList q.site.span.start ∧
        Boundary source.toList q.site.span.stop := by
  have start : Draft.empty.Placed source.toList [] :=
    ⟨rfl, ⟨[], rfl, .nil 0, by simp [Draft.parts, Draft.empty, Node.partsAll]⟩,
      by simp [Draft.siblings, Draft.empty]⟩
  obtain ⟨d, hd, hl, hr⟩ := Draft.ofSource_induction start
    (fun _ _ _ _ _ hs hp h hm => h.move hs hp hm) (Template.compile_eq_ok_iff.mp h).2.2
  have hf := hd.flush (List.append_nil _).symm
  have hn := hf.nest
  rw [hl, hr] at hn
  refine ⟨hn, fun q hq => ?_⟩
  have hp := hf.parts q (List.mem_append_left _ (by rwa [hr]))
  exact ⟨hp, hp.boundaries⟩

/-- A text of a two-byte character and an unknown tag, a conditional with an empty last
branch, and an opening mark that nothing closes. -/
theorem compiled_spans_tile_around_branches :
    ∃ t, Template.compile "é{%x}{%if a}b{%else}{%/if}\x7b%" "page" = .ok t ∧
      t.roots.map (fun n => n.site.span) = [⟨0, 6⟩, ⟨6, 27⟩, ⟨27, 29⟩] ∧
      Siblings 0 29 t.roots ∧
      ∀ q ∈ t.parts, q.Placed t.source.toList ∧ Boundary t.source.toList q.site.span.start ∧
        Boundary t.source.toList q.site.span.stop := by
  have hc : Template.compile "é{%x}{%if a}b{%else}{%/if}\x7b%" "page" =
      .ok ⟨"page", "é{%x}{%if a}b{%else}{%/if}\x7b%",
        [.text ⟨0, ⟨0, 6⟩⟩ "é{%x}",
          .choice ⟨1, ⟨6, 27⟩⟩ ["a"]
            [⟨⟨3, ⟨6, 14⟩⟩, some ["a"], [.text ⟨2, ⟨13, 14⟩⟩ "b"]⟩, ⟨⟨4, ⟨14, 21⟩⟩, none, []⟩],
          .text ⟨5, ⟨27, 29⟩⟩ "\x7b%"]⟩ := by cbv
  exact ⟨_, hc, rfl, compiled_spans_tile hc⟩

end TagTemplate
