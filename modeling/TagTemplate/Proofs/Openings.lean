import TagTemplate.Proofs.Nesting

/-! A draft keeps its open blocks as the tags alone would have it; what it does with
texts, leaves and branches does not touch them. So a source compiles when its tags are
well nested, and fails with their fault otherwise. -/

namespace TagTemplate

/-- What a tag is to the nesting, by what it says. -/
def Tag.mark : Tag → Mark
  | .blank => .undetermined
  | .close name => if name = "" then .undetermined else .closing name
  | .openBlock block _ => .opening block
  | _ => .plain

theorem Mark.ofWord_eq (w : List Char) (h : ∀ cs, w ≠ '/' :: cs) : Mark.ofWord w =
    if String.ofList w = Block.conditional.name then opening .conditional
    else if String.ofList w = Block.loop.name then opening .loop
    else plain := by
  unfold ofWord
  split
  · exact absurd rfl (h [])
  · exact absurd rfl (h _)
  · rfl

theorem Mark.ofWord_short {c : Char} (hc : c = '?' ∨ c = '!') (cs : List Char) :
    Mark.ofWord (c :: cs) = plain := by
  have hne : ∀ name : String, name.toList.head? = some 'i' ∨ name.toList.head? = some 'f' →
      String.ofList (c :: cs) ≠ name := by
    rintro name hn rfl
    rcases hc with rfl | rfl <;> simp at hn
  rw [ofWord_eq _ (by rcases hc with rfl | rfl <;> simp), if_neg (hne _ (.inl rfl)),
    if_neg (hne _ (.inr rfl))]

theorem mark_ofWords (w : List Char) (ws : List (List Char)) :
    (Tag.ofWords (w :: ws)).mark = .ofWord w := by
  simp only [Tag.ofWords]
  split
  · rename_i name
    cases name with
    | nil => rfl
    | cons c cs =>
      have hne : String.ofList (c :: cs) ≠ "" := by simp
      simp only [Tag.mark, if_neg hne, Mark.ofWord]
  · exact (Mark.ofWord_short (.inl rfl) _).symm
  · exact (Mark.ofWord_short (.inr rfl) _).symm
  · rename_i hw _ _
    rw [Mark.ofWord_eq w fun cs he => hw cs he]
    split <;> rename_i h <;> simp_all [Tag.mark, Block.name]

theorem PlacedTag.mark_eq (t : PlacedTag) : t.mark = (Tag.ofBody t.body).mark := by
  unfold mark Tag.ofBody
  cases words t.body with
  | nil => rfl
  | cons w ws => exact (mark_ofWords w ws).symm

namespace Draft

def openings (d : Draft) : List Opening :=
  d.levels.map fun l => ⟨l.start, l.block⟩

theorem openings_flush (d : Draft) : d.flush.openings = d.openings :=
  d.flush_levels_map _ fun _ _ => rfl

theorem openings_attach (d : Draft) (n : Node) : (d.attach n).openings = d.openings :=
  attach_levels_map _ (fun _ _ => rfl) d n

theorem openings_leaf (d : Draft) (stop : Nat) (node : Site → Node) :
    (d.leaf stop node).openings = d.openings :=
  (openings_attach _ _).trans d.openings_flush

theorem openings_openBlock (d : Draft) (stop : Nat) (block : Block) (args : List String) :
    (d.openBlock stop block args).openings = ⟨d.pos, block⟩ :: d.openings := by
  have h := d.openings_flush
  simp only [openings] at h
  simp [openings, openBlock, h]

theorem openings_startBranch (d : Draft) (stop : Nat) (guard : Option (List String)) :
    (d.startBranch stop guard).openings = d.openings := by
  rw [← d.openings_flush]
  cases hl : d.flush.levels with
  | nil => simp [startBranch, hl]
  | cons l ls => simp [startBranch_eq hl, openings, hl, Level.branched]

theorem openings_closeBlock (d : Draft) (stop : Nat) (name : String) :
    (d.closeBlock stop name).map openings =
      if name = "" then .error ⟨d.pos, .undetermined⟩
      else match d.openings with
        | [] => .error ⟨d.pos, .unopened name⟩
        | o :: os => if o.block.name = name then .ok os
          else .error ⟨o.offset, .misclosed o.block name⟩ := by
  rw [← d.openings_flush, ← d.flush_pos]
  simp only [closeBlock]
  split
  · rfl
  · cases hl : d.flush.levels with
    | nil =>
      simp only [openings, hl, List.map_nil]
      rfl
    | cons l ls =>
      simp only [openings, hl, List.map_cons]
      split
      · exact congrArg Except.ok (openings_attach { d.flush with levels := ls } _)
      · rfl

theorem openings_step_tag (d : Draft) (body : List Char) :
    (d.step (.tag body)).map openings = nest d.openings ⟨d.pos, body⟩ := by
  have hm := PlacedTag.mark_eq ⟨d.pos, body⟩
  have branch : ∀ stop guard, (if d.inConditional = true then d.startBranch stop guard
      else d.append (Piece.tag body).source).openings = d.openings := by
    intro stop guard
    split
    · exact d.openings_startBranch stop guard
    · rfl
  simp only [step]
  cases ht : Tag.ofBody body with
  | close name =>
    rw [openings_closeBlock]
    by_cases hn : name = ""
    · simp [nest, hm, ht, Tag.mark, hn]
    · simp only [nest, hm, ht, Tag.mark, if_neg hn]
      cases d.openings <;> rfl
  | blank => simp [nest, hm, ht, Tag.mark]; rfl
  | openBlock block args =>
    simp only [nest, hm, ht, Tag.mark]
    exact congrArg Except.ok (d.openings_openBlock _ block args)
  | elseIf args =>
    simp only [nest, hm, ht, Tag.mark]
    exact congrArg Except.ok (branch _ _)
  | otherwise =>
    simp only [nest, hm, ht, Tag.mark]
    exact congrArg Except.ok (branch _ _)
  | unknown => simp only [nest, hm, ht, Tag.mark]; rfl
  | fetch | localeText | field =>
    simp only [nest, hm, ht, Tag.mark]
    exact congrArg Except.ok (d.openings_leaf _ _)

theorem openings_ofPieces (d : Draft) (ps : List Piece) :
    (d.ofPieces ps).map openings = nestAll d.openings (placedTags d.pos ps) := by
  induction ps generalizing d with
  | nil => rfl
  | cons p ps ih =>
    have rest : ∀ d', d.step p = .ok d' → (d.ofPieces (p :: ps)).map openings =
        nestAll d'.openings (placedTags (d.stop p) ps) := by
      intro d' hp
      rw [← (Move.of_step hp).pos, ← ih d', ofPieces, List.foldlM_cons, hp]
      rfl
    cases p with
    | text content => exact rest (d.append content) rfl
    | tag body =>
      have hs := d.openings_step_tag body
      rw [placedTags, nestAll_cons, ← hs]
      cases hp : d.step (.tag body) with
      | error f => simp [ofPieces, hp, bind, Except.bind, Except.map]
      | ok d' => exact rest d' hp

theorem finish_eq (d : Draft) :
    d.finish = match d.openings with
      | [] => .ok d.flush.roots
      | o :: _ => .error ⟨o.offset, .unclosed o.block⟩ := by
  rw [← d.openings_flush]
  simp only [finish, openings]
  cases d.flush.levels <;> rfl

end Draft

namespace Template

variable {source : List Char}

theorem ofSource_of_nestAll (source : List Char) :
    match nestAll [] (placedTags 0 (pieces source)) with
    | .error f => ofSource source = .error f
    | .ok (o :: _) => ofSource source = .error ⟨o.offset, .unclosed o.block⟩
    | .ok [] => ∃ roots, ofSource source = .ok roots := by
  have hp : _ = nestAll [] (placedTags 0 (pieces source)) :=
    Draft.empty.openings_ofPieces (pieces source)
  rw [← hp]
  cases hd : Draft.empty.ofPieces (pieces source) with
  | error f => simp [Except.map, ofSource, hd, bind, Except.bind]
  | ok d =>
    have hs : ofSource source = d.finish := by simp [ofSource, hd, bind, Except.bind]
    rw [hs, d.finish_eq]
    simp only [Except.map]
    cases d.openings with
    | nil => exact ⟨_, rfl⟩
    | cons o os => rfl

theorem ofSource_ok_iff :
    (∃ roots, ofSource source = .ok roots) ↔ WellNested (placedTags 0 (pieces source)) := by
  have h := ofSource_of_nestAll source
  rw [wellNested_iff]
  split at h <;> rename_i hn <;> simp [hn, h]

theorem ofSource_error_iff {f : NestingFault} :
    ofSource source = .error f ↔ Faulty (placedTags 0 (pieces source)) f := by
  have h := ofSource_of_nestAll source
  rw [faulty_iff]
  split at h <;> rename_i hn
  · simp [hn, h]
  · rename_i o os
    simp [hn, h, eq_comm]
  · obtain ⟨roots, h⟩ := h
    simp [hn, h]

end Template

/-- Every source scans into tags in one way, and compiles when they are well nested;
otherwise the error is their fault, at its offset, line and column. -/
theorem compile_judges_nesting (source name : String) :
    ∃ ts, (∀ us, TagScan 0 source.toList us ↔ us = ts) ∧
      ((∃ t, Template.compile source name = .ok t) ↔ WellNested ts) ∧
      ∀ e, Template.compile source name = .error e ↔
        ∃ f before after, Faulty ts f ∧ source.toList = before ++ after ∧
          byteLength before = f.offset ∧
          e = .misnested name f.offset (1 + before.count '\n')
            (1 + (before.reverse.takeWhile (· ≠ '\n')).length) f.cause.message := by
  have hscan := tagScan_pieces 0 source.toList
  refine ⟨_, fun us => ⟨TagScan.eq, fun hu => hu ▸ hscan⟩, ?_, fun e => ?_⟩
  · rw [← Template.ofSource_ok_iff]
    constructor
    · rintro ⟨t, ht⟩
      exact ⟨t.roots, (Template.compile_eq_ok_iff.mp ht).2.2⟩
    · rintro ⟨roots, hr⟩
      exact ⟨⟨name, source, roots⟩, Template.compile_eq_ok_iff.mpr ⟨rfl, rfl, hr⟩⟩
  · constructor
    · intro he
      cases hs : Template.ofSource source.toList with
      | ok roots => simp [Template.compile, hs] at he
      | error f =>
        have hf := Template.ofSource_error_iff.mp hs
        obtain ⟨t, ht, ho⟩ := hf.exists_tag
        obtain ⟨before, after, hb, hl⟩ := hscan.exists_append ht
        have hl : byteLength before = f.offset := by omega
        refine ⟨f, before, after, hf, hb, hl, ?_⟩
        rw [← NestingFault.toError_eq hb hl]
        simpa [Template.compile, hs] using he.symm
    · rintro ⟨f, before, after, hf, hb, hl, rfl⟩
      rw [← NestingFault.toError_eq hb hl]
      simp [Template.compile, Template.ofSource_error_iff.mpr hf]

end TagTemplate
