import TagTemplate.Proofs.Concatenation
import TagTemplate.Proofs.Openings

/-! Sources that may stand in a block. Wherever a fragment is read it says what its own
template reads, moved to that place. -/

namespace TagTemplate

/-- A tag that starts a branch wherever it stands directly in a conditional. -/
def PlacedTag.IsBranching (t : PlacedTag) : Prop :=
  ∃ w ws, words t.body = w :: ws ∧ (String.ofList w = "elseif" ∨ String.ofList w = "else")

/-- A source that compiles by itself, leaves no opening mark behind, and has its branching
tags inside blocks of its own. -/
structure Fragment where
  source : String
  template : Template
  compiles : Template.compile source Template.anonymous = .ok template
  closed : Sealed source.toList
  inward : ∀ before t after, TagScan 0 source.toList (before ++ t :: after) → t.IsBranching →
    ∃ o os, LeavesOpen before (o :: os)

/-- An else may stand in a conditional of the fragment. -/
theorem exists_branching_fragment :
    ∃ F : Fragment, F.source = "{%if c}{%else}{%/if}" := by
  have hc : Template.compile "{%if c}{%else}{%/if}" Template.anonymous =
      .ok ⟨Template.anonymous, "{%if c}{%else}{%/if}",
        [.choice ⟨0, ⟨0, 20⟩⟩ ["c"]
          [⟨⟨1, ⟨0, 7⟩⟩, some ["c"], []⟩, ⟨⟨2, ⟨7, 14⟩⟩, none, []⟩]]⟩ := by cbv
  refine ⟨⟨"{%if c}{%else}{%/if}", _, hc, by decide, ?_⟩, rfl⟩
  intro before t after hscan ht
  have he : before ++ t :: after =
      [⟨0, "if c".toList⟩, ⟨7, "else".toList⟩, ⟨14, "/if".toList⟩] := by
    rw [hscan.eq]
    cbv
  rcases before with _ | ⟨b, _ | ⟨c, _ | ⟨d, before⟩⟩⟩
  · obtain ⟨rfl, -⟩ := List.cons.inj he
    obtain ⟨w, ws, hw, hb⟩ := ht
    obtain ⟨rfl, -⟩ := List.cons.inj (show ["if".toList, "c".toList] = w :: ws from hw)
    simp at hb
  · obtain ⟨rfl, -⟩ := List.cons.inj he
    exact ⟨_, [], nestAll_eq_ok_iff.mp rfl⟩
  · obtain ⟨rfl, rfl, rfl, -⟩ := by simpa using he
    obtain ⟨w, ws, hw, hb⟩ := ht
    obtain ⟨rfl, -⟩ := List.cons.inj (show ["/if".toList] = w :: ws from hw)
    simp at hb
  · simp at he

theorem PlacedTag.isBranching_of_guard? {t : PlacedTag} {guard : Option (List String)}
    (h : (Tag.ofBody t.body).guard? = some guard) : t.IsBranching := by
  unfold Tag.ofBody at h
  unfold IsBranching
  cases hw : words t.body with
  | nil => simp [hw, Tag.ofWords, Tag.guard?] at h
  | cons w ws =>
    refine ⟨w, ws, rfl, ?_⟩
    simp only [hw, Tag.ofWords] at h
    split at h
    · simp [Tag.guard?] at h
    · simp [Tag.guard?] at h
    · simp [Tag.guard?] at h
    · split at h <;> simp_all [Tag.guard?]

theorem placedTags_append (n : Nat) (ps qs : List Piece) : placedTags n (ps ++ qs) =
    placedTags n ps ++ placedTags (n + byteLength (ps.flatMap Piece.source)) qs := by
  induction ps generalizing n with
  | nil => rfl
  | cons p ps ih => cases p <;> simp [placedTags, ih, Piece.source, Nat.add_assoc]

namespace Outline

theorem stages_of_leavesOpen {ps : List Piece} {o : Opening} {os : List Opening} {m : Outline}
    (h : LeavesOpen (placedTags 0 ps) (o :: os)) (hm : ps.foldlM step start = .ok m) :
    m.stages ≠ [] := by
  have hd := Draft.empty.outline_ofPieces ps
  have ho := Draft.empty.openings_ofPieces ps
  rw [show ps.foldlM step Draft.empty.outline = .ok m from hm] at hd
  rw [show nestAll Draft.empty.openings (placedTags Draft.empty.pos ps) = _ from h.nestAll_eq] at ho
  cases hps : Draft.empty.ofPieces ps with
  | error f => simp [hps, Except.map] at hd
  | ok d =>
    obtain rfl : d.outline = m := by simpa [hps, Except.map] using hd
    have hos : d.flush.openings = o :: os := by
      rw [Draft.openings_flush]
      simpa [hps, Except.map] using ho
    rw [Draft.outline_stages]
    intro hs
    simp [Draft.openings, List.map_eq_nil_iff.mp hs] at hos

end Outline

namespace Fragment

def prose (F : Fragment) : Prose :=
  fun v => Node.readAll v F.template.roots

theorem branches_inside (F : Fragment) {before after : List Piece} {p : Piece}
    (hps : pieces F.source.toList = before ++ p :: after) (hp : p.Branches) {m : Outline}
    (hm : before.foldlM Outline.step Outline.start = .ok m) : m.stages ≠ [] := by
  cases p with
  | text content => exact hp.elim
  | tag body =>
    -- Before a branching tag some block of the fragment is open, so the base is out of reach.
    obtain ⟨guard, hg⟩ := hp
    have hscan := tagScan_pieces 0 F.source.toList
    rw [hps, placedTags_append, placedTags] at hscan
    obtain ⟨o, os, ho⟩ := F.inward _ _ _ hscan (PlacedTag.isBranching_of_guard? hg)
    exact Outline.stages_of_leavesOpen ho hm

theorem reads (F : Fragment) (b : Outline) : Reads Outline.step b F.source.toList
    { b.say fun v => (F.prose v).mapOffset (· + b.pos) with
      pos := byteLength F.source.toList + b.pos } := by
  have hs : Outline.ofSource F.source.toList = .ok F.prose := by
    rw [← Template.ofSource_reads, (Template.compile_eq_ok_iff.mp F.compiles).2.2]
    rfl
  obtain ⟨m, hscan, hstages, hroots, hpos⟩ := Outline.exists_scan hs
  refine .of_scan Outline.takesText F.closed ?_
  have hg := b.foldlM_graft Outline.start (pieces F.source.toList)
    fun before p after hps hp m' hm => .inl (F.branches_inside hps hp hm)
  rw [show (pieces F.source.toList).foldlM Outline.step Outline.start = _ from hscan,
    Outline.graft_start] at hg
  rw [← hpos, ← hroots, ← Outline.graft_of_stages hstages]
  exact hg

end Fragment

end TagTemplate
