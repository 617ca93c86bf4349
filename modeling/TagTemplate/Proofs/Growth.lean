import TagTemplate.Proofs.Joining
import TagTemplate.Proofs.Spelling
import TagTemplate.Proofs.Step

/-! What a draft has built, whatever text waits: each tag that is read adds a node beside
the last one, or opens, splits or closes a block. -/

namespace TagTemplate

def texts (args : List Argument) : List String :=
  args.map Argument.text

theorem texts_eq (args : List Argument) :
    (args.map fun a => a.word.chars).map String.ofList = texts args := by
  simp [texts, Argument.text]

namespace Margins

variable (m : Margins)

theorem ofBody_short (mark : Char) (w : Word) (hm : isBlank mark = false) :
    Tag.ofBody (m.body (mark :: w.chars) []) = Tag.ofWords [mark :: w.chars] := by
  refine m.ofBody_body (by simp) (fun c hc => ?_) []
  rcases List.mem_cons.mp hc with rfl | hc
  · exact hm
  · exact w.solid c hc

theorem ofBody_fetch (w : Word) :
    Tag.ofBody (m.body ('?' :: w.chars) []) = .fetch (String.ofList w.chars) := by
  obtain ⟨c, cs, hw⟩ := List.exists_cons_of_ne_nil w.ne_nil
  rw [m.ofBody_short _ w (by decide), hw]
  rfl

theorem ofBody_localeText (w : Word) :
    Tag.ofBody (m.body ('!' :: w.chars) []) = .localeText (String.ofList w.chars) := by
  obtain ⟨c, cs, hw⟩ := List.exists_cons_of_ne_nil w.ne_nil
  rw [m.ofBody_short _ w (by decide), hw]
  rfl

theorem ofBody_input (args : List Argument) :
    Tag.ofBody (m.body "input".toList args) = .field (texts args) := by
  rw [m.ofBody_body (by simp) (by simp; decide), ← texts_eq]
  rfl

theorem ofBody_block (block : Block) (args : List Argument) :
    Tag.ofBody (m.body block.name.toList args) = .openBlock block (texts args) := by
  cases block <;> rw [m.ofBody_body (by simp [Block.name]) (by simp [Block.name]; decide),
    ← texts_eq] <;> rfl

theorem ofBody_endBlock (block : Block) :
    Tag.ofBody (m.body ('/' :: block.name.toList) []) = .close block.name := by
  cases block <;> rw [m.ofBody_body (by simp) (by simp [Block.name]; decide)] <;> rfl

theorem ofBody_elseIf (args : List Argument) :
    Tag.ofBody (m.body "elseif".toList args) = .elseIf (texts args) := by
  rw [m.ofBody_body (by simp) (by simp; decide), ← texts_eq]
  rfl

theorem ofBody_else : Tag.ofBody (m.body "else".toList []) = .otherwise := by
  rw [m.ofBody_body (by simp) (by simp; decide)]
  rfl

end Margins

/-- Puts nodes where the next child belongs. -/
def grow (ns : List Node) : List Level × List Node → List Level × List Node
  | (l :: ls, roots) => ({ l with children := l.children ++ ns } :: ls, roots)
  | ([], roots) => ([], roots ++ ns)

theorem grow_nil (b : List Level × List Node) : grow [] b = b := by
  obtain ⟨levels, roots⟩ := b
  cases levels <;> simp [grow]

theorem grow_append (ns ms : List Node) (b : List Level × List Node) :
    grow (ns ++ ms) b = grow ms (grow ns b) := by
  obtain ⟨levels, roots⟩ := b
  cases levels <;> simp [grow]

namespace Draft

/-- The open blocks and the roots, with the text that waits among them. -/
def built (d : Draft) : List Level × List Node :=
  (d.flush.levels, d.flush.roots)

theorem built_of_pending {d : Draft} (h : d.pending = []) : d.built = (d.levels, d.roots) := by
  simp [built, flush, h]

theorem grow_of_attach (d : Draft) (n : Node) :
    ((d.attach n).levels, (d.attach n).roots) = grow [n] (d.levels, d.roots) := by
  unfold attach
  cases d.levels <;> rfl

theorem built_leaf (d : Draft) (stop : Nat) (node : Site → Node) :
    (d.leaf stop node).built = grow [node ⟨d.flush.nextId, ⟨d.flush.pos, stop⟩⟩] d.built := by
  rw [built_of_pending (by simp [leaf])]
  exact d.flush.grow_of_attach _

theorem built_append {d : Draft} (h : d.pending = []) {cs : List Char} (hne : cs ≠ []) :
    ∃ site, (d.append cs).built = grow [.text site (String.ofList cs)] d.built := by
  have hcs : (d.append cs).pending = cs := by simp [append, h]
  have hp : (d.append cs).pending ≠ [] := hcs.symm ▸ hne
  rw [built_of_pending h, built, flush, if_neg hp, hcs]
  exact ⟨_, (d.append cs).grow_of_attach _⟩

theorem built_openBlock (d : Draft) (stop : Nat) (block : Block) (args : List String) :
    (d.openBlock stop block args).built =
      (⟨block, d.flush.nextId, d.flush.pos, args, [], none, []⟩ :: d.built.1, d.built.2) := by
  rw [built_of_pending (by simp [openBlock])]
  rfl

theorem built_startBranch {d : Draft} {l : Level} {ls : List Level} {roots : List Node}
    (h : d.built = (l :: ls, roots)) (stop : Nat) (guard : Option (List String)) :
    (d.startBranch stop guard).pending = [] ∧ (d.startBranch stop guard).built =
      (l.branched d.flush.nextId d.flush.pos guard :: ls, roots) := by
  obtain ⟨hl, rfl⟩ := Prod.mk.inj h
  rw [startBranch_eq hl]
  exact ⟨by simp, built_of_pending (by simp)⟩

/-- A block that is closed is a node beside the last one around it. -/
theorem built_closeBlock {d : Draft} {l : Level} {ls : List Level} {roots : List Node}
    (h : d.built = (l :: ls, roots)) (stop : Nat) :
    ∃ d', d.closeBlock stop l.block.name = .ok d' ∧ d'.pending = [] ∧
      d'.built = grow [l.finish ⟨d.flush.pos, stop⟩] (ls, roots) := by
  obtain ⟨hl, rfl⟩ := Prod.mk.inj h
  refine ⟨_, closeBlock_of_levels hl stop, by simp, ?_⟩
  rw [built_of_pending (by simp)]
  exact ({ d.flush with levels := ls } : Draft).grow_of_attach _

variable {d : Draft}

theorem reads_opening (d : Draft) (m : Margins) (block : Block) (args : List Argument) :
    ∃ d' id start, Reads step d (m.opening block args) d' ∧ d'.pending = [] ∧
      d'.built = (⟨block, id, start, texts args, [], none, []⟩ :: d.built.1, d.built.2) := by
  have hb : '}' ∉ block.name.toList := by cases block <;> simp [Block.name]
  exact ⟨_, _, _, .tag takesText (m.unclosed_body hb args)
    (step_openBlock (m.ofBody_block block args)), by simp [openBlock],
    d.built_openBlock _ block (texts args)⟩

theorem reads_closing {l : Level} {ls : List Level} {roots : List Node}
    (h : d.built = (l :: ls, roots)) (m : Margins) :
    ∃ d' closing, Reads step d (m.closing l.block) d' ∧ d'.pending = [] ∧
      d'.built = grow [l.finish closing] (ls, roots) := by
  have hb : '}' ∉ '/' :: l.block.name.toList := by cases l.block <;> simp [Block.name]
  obtain ⟨d', hd, hp, hbuilt⟩ :=
    built_closeBlock h (d.stop (.tag (m.body ('/' :: l.block.name.toList) [])))
  exact ⟨d', _, .tag takesText (m.unclosed_body hb [])
    ((step_close (m.ofBody_endBlock l.block)).trans hd), hp, hbuilt⟩

theorem reads_branching {l : Level} {ls : List Level} {roots : List Node}
    (h : d.built = (l :: ls, roots)) (hl : l.block = .conditional) (m : Margins)
    (guard : Option (List Argument)) :
    ∃ d' id pos, Reads step d (m.branching guard) d' ∧ d'.pending = [] ∧
      d'.built = (l.branched id pos (guard.map texts) :: ls, roots) := by
  have hc : d.inConditional = true :=
    d.inConditional_iff.mpr ⟨l, ls, congrArg Prod.fst h, hl⟩
  have tag : ∀ {head args}, '}' ∉ head →
      (Tag.ofBody (m.body head args)).guard? = some (guard.map texts) →
      ∃ d' id pos, Reads step d (m.tag head args) d' ∧ d'.pending = [] ∧
        d'.built = (l.branched id pos (guard.map texts) :: ls, roots) := by
    intro head args hb hg
    have hs := step_guard (d := d) hg
    rw [if_pos hc] at hs
    obtain ⟨hp, hbuilt⟩ :=
      built_startBranch h (d.stop (.tag (m.body head args))) (guard.map texts)
    exact ⟨_, _, _, .tag takesText (m.unclosed_body hb args) hs, hp, hbuilt⟩
  cases guard with
  | none => exact tag (by simp) (congrArg Tag.guard? m.ofBody_else)
  | some args => exact tag (by simp) (congrArg Tag.guard? (m.ofBody_elseIf args))

end Draft

end TagTemplate
