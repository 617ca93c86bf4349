import Mathlib.Data.List.Chain
import TagTemplate.Proofs.Move

/-! Spans tile the source. Siblings lie side by side from the end of the tag before them
to the start of the tag after them, and texts are the source under their spans. -/

namespace TagTemplate

/-- An offset between two characters, or at an end. -/
def Boundary (source : List Char) (offset : Nat) : Prop :=
  ∃ before after, source = before ++ after ∧ byteLength before = offset

/-- The text under a range of a source. -/
def Covers (source : List Char) (span : Span) (cs : List Char) : Prop :=
  ∃ before after, source = before ++ (cs ++ after) ∧ byteLength before = span.start ∧
    byteLength (before ++ cs) = span.stop

/-- From one offset to another stands a tag that says the given thing. -/
def TagAt (source : List Char) (start stop : Nat) (tag : Tag) : Prop :=
  ∃ body, '}' ∉ body ∧ Tag.ofBody body = tag ∧ Covers source ⟨start, stop⟩ (Piece.tag body).source

def Tiles (start stop : Nat) : List Span → Prop
  | [] => start = stop
  | s :: ss => s.start = start ∧ start < s.stop ∧ Tiles s.stop stop ss

def Node.isText : Node → Bool
  | text .. => true
  | _ => false

/-- Siblings side by side, no two texts next to each other. -/
structure Siblings (start stop : Nat) (ns : List Node) : Prop where
  tiles : Tiles start stop (ns.map fun n => n.site.span)
  texts : ns.IsChain fun m n => ¬ (m.isText = true ∧ n.isText = true)

/-- A branch from its own tag on. -/
def LaterBranch (source : List Char) (b : Branch Node) : Prop :=
  ∃ tag inner, TagAt source b.site.span.start inner tag ∧ tag.guard? = some b.guard ∧
    Siblings inner b.site.span.stop b.body

/-- Branches of which the first has its children from a given offset on, and the others
from the end of their own tags. -/
def Branches (source : List Char) (inner : Nat) (bs : List (Branch Node)) : Prop :=
  ∃ first others, bs = first :: others ∧ Siblings inner first.site.span.stop first.body ∧
    ∀ b ∈ others, LaterBranch source b

/-- A block that has its opening and its closing tag, and something between the two. -/
def Enclosed (source : List Char) (span : Span) (block : Block) (args : List String)
    (between : Nat → Nat → Prop) : Prop :=
  ∃ inner outer, TagAt source span.start inner (.openBlock block args) ∧ between inner outer ∧
    TagAt source outer span.stop (.close block.name)

/-- What lies under the span of a part. -/
def Part.Placed (source : List Char) : Part → Prop
  | .node (.text site content) => content ≠ "" ∧ Covers source site.span content.toList
  | .node (.fetch site reference) => TagAt source site.span.start site.span.stop (.fetch reference)
  | .node (.localeText site key raw) =>
    TagAt source site.span.start site.span.stop (.localeText key) ∧
      Covers source site.span raw.toList
  | .node (.field site args) => TagAt source site.span.start site.span.stop (.field args)
  | .node (.conditional site args body) =>
    Enclosed source site.span .conditional args fun inner outer => Siblings inner outer body
  | .node (.loop site args body) =>
    Enclosed source site.span .loop args fun inner outer => Siblings inner outer body
  | .node (.choice site args bs) =>
    Enclosed source site.span .conditional args fun inner outer =>
      Tiles site.span.start outer (bs.map fun b => b.site.span) ∧ Branches source inner bs
  | .branch _ b => Boundary source b.site.span.start ∧ Boundary source b.site.span.stop

theorem byteLength_pos {cs : List Char} (h : cs ≠ []) : 0 < byteLength cs := by
  obtain ⟨c, cs, rfl⟩ := List.exists_cons_of_ne_nil h
  have hc := c.utf8Size_pos
  rw [byteLength_cons]
  omega

theorem Covers.start {source : List Char} {span : Span} {cs : List Char}
    (h : Covers source span cs) : Boundary source span.start := by
  obtain ⟨before, after, hs, hb, -⟩ := h
  exact ⟨before, cs ++ after, hs, hb⟩

theorem Covers.stop {source : List Char} {span : Span} {cs : List Char}
    (h : Covers source span cs) : Boundary source span.stop := by
  obtain ⟨before, after, hs, -, hb⟩ := h
  exact ⟨before ++ cs, after, by rw [hs, List.append_assoc], hb⟩

namespace TagAt

variable {source : List Char} {start stop : Nat} {tag : Tag}

theorem left (h : TagAt source start stop tag) : Boundary source start := by
  obtain ⟨body, -, -, hc⟩ := h
  exact hc.start

theorem right (h : TagAt source start stop tag) : Boundary source stop := by
  obtain ⟨body, -, -, hc⟩ := h
  exact hc.stop

theorem lt (h : TagAt source start stop tag) : start < stop := by
  obtain ⟨body, -, -, before, after, -, hb, he⟩ := h
  have hb : byteLength before = start := hb
  have he : byteLength (before ++ (Piece.tag body).source) = stop := he
  have hp : 0 < byteLength (Piece.tag body).source := byteLength_pos (by simp [Piece.source])
  rw [byteLength_append] at he
  omega

end TagAt

theorem Tiles.le {start stop : Nat} {ss : List Span} (h : Tiles start stop ss) : start ≤ stop := by
  induction ss generalizing start with
  | nil => exact Nat.le_of_eq h
  | cons s ss ih =>
    obtain ⟨-, hlt, ht⟩ := h
    have hh := ih ht
    omega

theorem Tiles.snoc {start middle : Nat} {ss : List Span} (h : Tiles start middle ss) {s : Span}
    (hs : s.start = middle) (hlt : middle < s.stop) : Tiles start s.stop (ss ++ [s]) := by
  induction ss generalizing start with
  | nil =>
    obtain rfl : start = middle := h
    exact ⟨hs, hlt, rfl⟩
  | cons r ss ih =>
    obtain ⟨hr, hl, ht⟩ := h
    exact ⟨hr, hl, ih ht⟩

namespace Siblings

theorem nil (offset : Nat) : Siblings offset offset [] :=
  ⟨rfl, .nil⟩

theorem snoc {start middle : Nat} {ns : List Node} {n : Node} (h : Siblings start middle ns)
    (hn : n.site.span.start = middle) (hlt : middle < n.site.span.stop)
    (ht : n.isText = true → ∀ m ∈ ns.getLast?, m.isText = false) :
    Siblings start n.site.span.stop (ns ++ [n]) where
  tiles := by
    rw [List.map_append]
    exact h.tiles.snoc hn hlt
  texts := by
    refine List.isChain_append.mpr ⟨h.texts, .singleton _, fun m hm k hk => ?_⟩
    obtain rfl : n = k := by simpa using hk
    rintro ⟨hmt, hnt⟩
    have hf := ht hnt m hm
    rw [hmt] at hf
    exact nomatch hf

end Siblings

theorem Part.Placed.boundaries {source : List Char} {q : Part} (h : q.Placed source) :
    Boundary source q.site.span.start ∧ Boundary source q.site.span.stop := by
  cases q with
  | branch owner b => exact h
  | node n =>
    cases n with
    | text => exact ⟨h.2.start, h.2.stop⟩
    | fetch => exact ⟨TagAt.left h, TagAt.right h⟩
    | localeText => exact ⟨h.2.start, h.2.stop⟩
    | field => exact ⟨TagAt.left h, TagAt.right h⟩
    | conditional | loop | choice =>
      obtain ⟨inner, outer, ho, -, hc⟩ := h
      exact ⟨ho.left, hc.right⟩

end TagTemplate
