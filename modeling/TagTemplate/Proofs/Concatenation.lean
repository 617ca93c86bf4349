import TagTemplate.Proofs.Grafting

/-! Sources one after the other. If the first compiles and leaves no opening mark behind,
the two together fail to compile where the second does, and otherwise render the one
text after the other. -/

namespace TagTemplate

namespace Outline

theorem scan_start {cs : List Char} {m : Outline} (h : scan step start cs = .ok m) :
    m.pos = byteLength cs := by
  have hs := Draft.empty.outline_ofPieces (pieces cs)
  rw [show (pieces cs).foldlM step Draft.empty.outline = .ok m from h] at hs
  cases hd : Draft.empty.ofPieces (pieces cs) with
  | error f => simp [hd, Except.map] at hs
  | ok d =>
    obtain rfl : d.outline = m := by simpa [hd, Except.map] using hs
    rw [Draft.outline_pos]
    have hs : cs = [] ++ (pieces cs).flatMap Piece.source := (flatMap_source_pieces cs).symm
    refine Draft.ofPieces_induction (P := fun before d => d.pos = byteLength before) ?_
      (fun p hp => proper_of_mem_pieces hp) hs rfl hd
    intro before p after d d' _ _ hpos hm
    rw [hm.pos, Draft.stop, hpos, byteLength_append]

theorem finish_graft {b : Outline} (hb : b.stages = []) (m : Outline) :
    (b.graft m).finish = match m.finish with
      | .ok r => .ok fun v => (b.roots v).andThen ((r v).mapOffset (· + b.pos))
      | .error f => .error (f.moved b.pos) := by
  obtain ⟨pos, stages, roots⟩ := m
  cases stages with
  | nil => simp [finish, graft_of_stages, say, hb]
  | cons st ss => rfl

/-- A source that nests leaves no stage behind. -/
theorem exists_scan {cs : List Char} {p : Prose} (h : ofSource cs = .ok p) :
    ∃ m, scan step start cs = .ok m ∧ m.stages = [] ∧ m.roots = p ∧ m.pos = byteLength cs := by
  obtain ⟨m, hscan, hfin⟩ := exists_of_bind_eq_ok h
  unfold finish at hfin
  split at hfin
  · rename_i hm
    exact ⟨m, hscan, hm, Except.ok.inj hfin, scan_start hscan⟩
  · exact nomatch hfin

/-- What two sources read together: the first, then the second moved behind it. -/
theorem ofSource_append {s t : List Char} {p : Prose} (hs : Sealed s) (ha : Apart s t)
    (h : ofSource s = .ok p) :
    ofSource (s ++ t) = match ofSource t with
      | .ok q => .ok fun v => (p v).andThen ((q v).mapOffset (· + byteLength s))
      | .error f => .error (f.moved (byteLength s)) := by
  obtain ⟨b, hscan, hb, rfl, hpos⟩ := exists_scan h
  -- The base has no block open that a branching tag of the second source could reach.
  have hg := b.foldlM_graft start (pieces t) fun _ _ _ _ _ _ _ =>
    .inr (by simp [inConditional, hb])
  rw [graft_start] at hg
  have ht : ofSource t = (pieces t).foldlM step start >>= finish := rfl
  have hst : ofSource (s ++ t) = (pieces t).foldlM step b >>= finish := by
    rw [ofSource, scan_append takesText hs ha, hscan]
    rfl
  rw [hst, ht, ← hpos]
  cases hm : (pieces t).foldlM step start with
  | error f =>
    rw [hm] at hg
    rw [hg hb]
    rfl
  | ok m =>
    rw [hm] at hg
    rw [hg]
    exact finish_graft hb m

end Outline

/-- A failure to render, so many bytes further on. -/
def TemplateError.moved (n : Nat) : TemplateError → TemplateError
  | .evaluation template offset fault => .evaluation template (offset + n) fault
  | e => e

theorem Reading.outcome_andThen (r s : Reading) (n : Nat) (name : String) :
    (r.andThen (s.mapOffset (· + n))).outcome name = do
      let a ← r.outcome name
      let b ← (s.outcome name).mapError (·.moved n)
      return a ++ b := by
  obtain ⟨a, f⟩ := r
  obtain ⟨b, g⟩ := s
  cases f <;> cases g <;> rfl

theorem Template.outline_of_compile {source name : String} {t : Template}
    (h : compile source name = .ok t) : ∃ prose, Outline.ofSource source.toList = .ok prose ∧
      ∀ inputs, t.render inputs = (prose ⟨inputs, []⟩).outcome name := by
  obtain ⟨rfl, -, hr⟩ := compile_eq_ok_iff.mp h
  refine ⟨fun v => Node.readAll v t.roots, ?_, render_eq_outcome hr⟩
  rw [← ofSource_reads, hr]
  rfl

theorem Template.compile_error_iff {source name : String} {e : TemplateError} :
    compile source name = .error e ↔ ∃ f, Outline.ofSource source.toList = .error f ∧
      e = f.toError source.toList name := by
  rw [← ofSource_reads, compile]
  cases ofSource source.toList with
  | ok roots => simp [Except.map]
  | error f => simp [Except.map, eq_comm]

/-- Compiling and rendering take one source after the other. The first must compile and
leave no opening mark without a brace, and none may arise where the two meet. -/
theorem concatenation_renders {s₁ s₂ name : String} {t₁ : Template}
    (h : Template.compile s₁ name = .ok t₁) (hs : Sealed s₁.toList)
    (ha : Apart s₁.toList s₂.toList) :
    (∀ e, Template.compile s₂ name = .error e →
      ∃ offset line column line' column' reason,
        e = .misnested name offset line column reason ∧
        Template.compile (s₁ ++ s₂) name =
          .error (.misnested name (offset + byteLength s₁.toList) line' column' reason)) ∧
    ∀ t₂, Template.compile s₂ name = .ok t₂ →
      ∃ t, Template.compile (s₁ ++ s₂) name = .ok t ∧ ∀ inputs, t.render inputs = do
        let a ← t₁.render inputs
        let b ← (t₂.render inputs).mapError (·.moved (byteLength s₁.toList))
        return a ++ b := by
  obtain ⟨p, hp, hrender⟩ := Template.outline_of_compile h
  have hst := Outline.ofSource_append hs ha hp
  rw [← String.toList_append] at hst
  constructor
  · intro e he
    obtain ⟨f, hf, rfl⟩ := Template.compile_error_iff.mp he
    rw [hf] at hst
    exact ⟨f.offset, _, _, _, _, _, rfl, Template.compile_error_iff.mpr ⟨_, hst, rfl⟩⟩
  · intro t₂ h₂
    obtain ⟨q, hq, hrender₂⟩ := Template.outline_of_compile h₂
    rw [hq] at hst
    obtain ⟨t, ht, hr⟩ := Template.compile_of_outline hst name
    refine ⟨t, ht, fun inputs => ?_⟩
    rw [hr, hrender, hrender₂, Reading.outcome_andThen]

/-- The texts where the two meet become one, the branching tag stays text, and the second
failure is charged to its own tag. -/
theorem concatenation_renders_second_failure :
    ∃ t₁ t₂ t, Template.compile "é{%?a} \x7b" "page" = .ok t₁ ∧
      Template.compile "{%else}{%?b}" "page" = .ok t₂ ∧
      Template.compile ("é{%?a} \x7b" ++ "{%else}{%?b}") "page" = .ok t ∧
      t.roots.length = 4 ∧
      t.render ⟨[], [("a", .text "x")], none, none⟩ =
        .error (.evaluation "page" 16 (.variableNotFound "b")) := by
  have h₁ : Template.compile "é{%?a} \x7b" "page" = .ok ⟨"page", "é{%?a} \x7b",
      [.text ⟨0, ⟨0, 2⟩⟩ "é", .fetch ⟨1, ⟨2, 7⟩⟩ "a", .text ⟨2, ⟨7, 9⟩⟩ " \x7b"]⟩ := by cbv
  have h₂ : Template.compile "{%else}{%?b}" "page" = .ok ⟨"page", "{%else}{%?b}",
      [.text ⟨0, ⟨0, 7⟩⟩ "{%else}", .fetch ⟨1, ⟨7, 12⟩⟩ "b"]⟩ := by cbv
  have h : Template.compile ("é{%?a} \x7b" ++ "{%else}{%?b}") "page" = .ok ⟨"page",
      "é{%?a} \x7b" ++ "{%else}{%?b}",
      [.text ⟨0, ⟨0, 2⟩⟩ "é", .fetch ⟨1, ⟨2, 7⟩⟩ "a", .text ⟨2, ⟨7, 16⟩⟩ " \x7b{%else}",
        .fetch ⟨3, ⟨16, 21⟩⟩ "b"]⟩ := by cbv
  obtain ⟨t, ht, hr⟩ := (concatenation_renders h₁ (by decide) (by simp [Apart])).2 _ h₂
  rw [h] at ht
  obtain rfl := Except.ok.inj ht
  refine ⟨_, _, _, h₁, h₂, h, rfl, (hr _).trans ?_⟩
  decide +kernel

end TagTemplate
