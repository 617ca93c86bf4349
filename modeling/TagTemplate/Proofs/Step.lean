import TagTemplate.Proofs.Move

/-! One step of a draft by the kind of its tag, with what decides whether it succeeds. -/

namespace TagTemplate

/-- The kinds of tags by what they do to a draft. -/
theorem Tag.cases_kind (tag : Tag) (raw : List Char) :
    tag = .blank ∨ (∃ name, tag = .close name) ∨ (∃ node, tag.leaf? raw = some node) ∨
      (∃ block args, tag = .openBlock block args) ∨ (∃ guard, tag.guard? = some guard) ∨
      tag = .unknown := by
  cases tag <;> simp [leaf?, guard?]

namespace Draft

variable {d : Draft} {body : List Char}

theorem step_blank (h : Tag.ofBody body = .blank) :
    d.step (.tag body) = .error ⟨d.pos, .undetermined⟩ := by
  simp only [step, h]
  rfl

theorem step_close {name : String} (h : Tag.ofBody body = .close name) :
    d.step (.tag body) = d.closeBlock (d.stop (.tag body)) name := by
  simp only [step, h]
  rfl

theorem step_leaf {node : Site → Node}
    (h : (Tag.ofBody body).leaf? (Piece.tag body).source = some node) :
    d.step (.tag body) = .ok (d.leaf (d.stop (.tag body)) node) := by
  cases ht : Tag.ofBody body <;> simp only [ht, Tag.leaf?, Option.some.injEq, reduceCtorEq] at h <;>
    subst h <;> simp only [step, ht] <;> rfl

theorem step_openBlock {block : Block} {args : List String}
    (h : Tag.ofBody body = .openBlock block args) :
    d.step (.tag body) = .ok (d.openBlock (d.stop (.tag body)) block args) := by
  simp only [step, h]
  rfl

theorem step_guard {guard : Option (List String)} (h : (Tag.ofBody body).guard? = some guard) :
    d.step (.tag body) = .ok (if d.inConditional then d.startBranch (d.stop (.tag body)) guard
      else d.append (Piece.tag body).source) := by
  cases ht : Tag.ofBody body <;>
    simp only [ht, Tag.guard?, Option.some.injEq, reduceCtorEq] at h <;>
    subst h <;> simp only [step, ht] <;> rfl

theorem step_unknown (h : Tag.ofBody body = .unknown) :
    d.step (.tag body) = .ok (d.append (Piece.tag body).source) := by
  simp only [step, h]
  rfl

theorem closeBlock_of_levels {l : Level} {ls : List Level} (h : d.flush.levels = l :: ls)
    (stop : Nat) : d.closeBlock stop l.block.name =
      .ok { ({ d.flush with levels := ls } : Draft).attach (l.finish ⟨d.flush.pos, stop⟩) with
        pos := stop } := by
  have hn : l.block.name ≠ "" := by cases l.block <;> decide
  simp only [closeBlock, if_neg hn, h, if_true]
  rfl

end Draft

end TagTemplate
