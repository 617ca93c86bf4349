import Mathlib
import TagTemplate.Proofs.Joining
import TagTemplate.Proofs.Reading
import TagTemplate.Proofs.Step

/-! What a source reads, found while it is scanned. An outline has readings where a draft
has nodes, so it knows no numbers and no text that waits. Each step of a draft is a step
of its outline, and a source compiles to a tree that reads what its outline reads. -/

namespace TagTemplate

/-- What is read under each view. -/
abbrev Prose := View → Reading

namespace Reading

variable {r s t : Reading}

@[simp] theorem silent_andThen (r : Reading) : silent.andThen r = r := by
  simp [andThen, silent]

@[simp] theorem andThen_silent (r : Reading) : r.andThen silent = r := by
  obtain ⟨output, failure⟩ := r
  cases failure <;> simp [andThen, silent]

theorem andThen_assoc (r s t : Reading) : (r.andThen s).andThen t = r.andThen (s.andThen t) := by
  obtain ⟨a, f⟩ := r
  obtain ⟨b, g⟩ := s
  cases f <;> cases g <;> simp [andThen, String.append_assoc]

theorem text_append (a b : List Char) :
    text (String.ofList (a ++ b)) = (text (String.ofList a)).andThen (text (String.ofList b)) := by
  simp [andThen, text]

@[simp] theorem text_empty : text "" = silent := rfl

/-- Reads on with an answer; a fault is a failure at the offset. -/
def charging {α : Type} (offset : Nat) (answer : Except RenderFault α) (next : α → Reading) :
    Reading :=
  match answer with
  | .ok a => next a
  | .error fault => ⟨"", some ⟨offset, fault⟩⟩

theorem asking_eq {α : Type} (site : Site) (answer : Except RenderFault α) (next : α → Reading) :
    asking site answer next = charging site.span.start answer next := rfl

end Reading

theorem Node.readAll_append (v : View) (ns ms : List Node) :
    readAll v (ns ++ ms) = (readAll v ns).andThen (readAll v ms) := by
  induction ns with
  | nil => simp [readAll]
  | cons n ns ih => rw [List.cons_append, readAll, readAll, ih, Reading.andThen_assoc]

@[simp] theorem Node.readAll_singleton (v : View) (n : Node) : readAll v [n] = n.read v := by
  simp [readAll]

/-- A branch by what it reads. -/
structure Offer where
  offset : Nat
  guard : Option (List String)
  reading : Prose

/-- The first offer whose guard holds; those after it are not looked at. -/
def Offer.first (v : View) : List Offer → Reading
  | [] => .silent
  | o :: os =>
    match o.guard with
    | none => o.reading v
    | some args =>
      .charging o.offset (v.scope.holds args) fun holds =>
        if holds then o.reading v else first v os

def Branch.offer (b : Branch Node) : Offer :=
  ⟨b.site.span.start, b.guard, fun v => Node.readAll v b.body⟩

theorem Node.readFirst_eq (v : View) (bs : List (Branch Node)) :
    readFirst v bs = Offer.first v (bs.map Branch.offer) := by
  induction bs with
  | nil => rfl
  | cons b bs ih =>
    obtain ⟨site, guard, body⟩ := b
    cases guard with
    | none => rfl
    | some args => rw [readFirst, ih]; rfl

/-- An open block, by what its complete branches and its children read. The current
branch is known by its offset and its guard. -/
structure Stage where
  block : Block
  start : Nat
  args : List String
  finished : List Offer
  current : Option (Nat × Option (List String))
  children : Prose

namespace Stage

/-- The branch that ends next. -/
def ending (st : Stage) : Offer :=
  match st.current with
  | none => ⟨st.start, some st.args, st.children⟩
  | some (offset, guard) => ⟨offset, guard, st.children⟩

/-- The branches of a conditional that would be closed now. -/
def offers (st : Stage) : List Offer :=
  match st.current with
  | none => [st.ending]
  | some _ => st.finished ++ [st.ending]

def branched (st : Stage) (pos : Nat) (guard : Option (List String)) : Stage :=
  { st with
    finished := st.finished ++ [st.ending]
    current := some (pos, guard)
    children := fun _ => .silent }

/-- What a block reads that is closed now. -/
def prose (st : Stage) : Prose := fun v =>
  match st.block with
  | .conditional => Offer.first v st.offers
  | .loop =>
    .charging st.start (v.looped st.args) fun (name, collection) =>
      .each (fun item => st.children (v.bind name item)) collection

end Stage

structure Outline where
  pos : Nat
  stages : List Stage
  roots : Prose

namespace Outline

def start : Outline :=
  ⟨0, [], fun _ => .silent⟩

/-- Reads on where the next child belongs. -/
def say (m : Outline) (r : Prose) : Outline :=
  match m.stages with
  | [] => { m with roots := fun v => (m.roots v).andThen (r v) }
  | st :: ss =>
    { m with stages := { st with children := fun v => (st.children v).andThen (r v) } :: ss }

def append (m : Outline) (cs : List Char) : Outline :=
  { m.say fun _ => .text (String.ofList cs) with pos := m.pos + byteLength cs }

def leaf (m : Outline) (stop : Nat) (node : Site → Node) : Outline :=
  { m.say fun v => (node ⟨0, ⟨m.pos, stop⟩⟩).read v with pos := stop }

def openBlock (m : Outline) (stop : Nat) (block : Block) (args : List String) : Outline :=
  { m with pos := stop, stages := ⟨block, m.pos, args, [], none, fun _ => .silent⟩ :: m.stages }

def startBranch (m : Outline) (stop : Nat) (guard : Option (List String)) : Outline :=
  match m.stages with
  | [] => m
  | st :: ss => { m with pos := stop, stages := st.branched m.pos guard :: ss }

def closeBlock (m : Outline) (stop : Nat) (name : String) : Except NestingFault Outline :=
  if name = "" then .error ⟨m.pos, .undetermined⟩
  else
    match m.stages with
    | [] => .error ⟨m.pos, .unopened name⟩
    | st :: ss =>
      if st.block.name = name then
        .ok { ({ m with stages := ss } : Outline).say st.prose with pos := stop }
      else .error ⟨st.start, .misclosed st.block name⟩

def inConditional (m : Outline) : Bool :=
  match m.stages with
  | st :: _ => st.block == .conditional
  | [] => false

def stop (m : Outline) (p : Piece) : Nat :=
  m.pos + byteLength p.source

def step (m : Outline) : Piece → Except NestingFault Outline
  | .text content => .ok (m.append content)
  | .tag body =>
    let raw := (Piece.tag body).source
    match Tag.ofBody body with
    | .blank => .error ⟨m.pos, .undetermined⟩
    | .close name => m.closeBlock (m.stop (.tag body)) name
    | .openBlock block args => .ok (m.openBlock (m.stop (.tag body)) block args)
    | tag =>
      match tag.leaf? raw, tag.guard? with
      | some node, _ => .ok (m.leaf (m.stop (.tag body)) node)
      | none, some guard =>
        .ok (if m.inConditional then m.startBranch (m.stop (.tag body)) guard else m.append raw)
      | none, none => .ok (m.append raw)

/-- What the whole source reads; no block may be open any more. -/
def finish (m : Outline) : Except NestingFault Prose :=
  match m.stages with
  | [] => .ok m.roots
  | st :: _ => .error ⟨st.start, .unclosed st.block⟩

theorem say_say (m : Outline) (r s : Prose) :
    (m.say r).say s = m.say fun v => (r v).andThen (s v) := by
  obtain ⟨pos, stages, roots⟩ := m
  cases stages <;> simp [say, Reading.andThen_assoc]

@[simp] theorem say_silent (m : Outline) : (m.say fun _ => .silent) = m := by
  obtain ⟨pos, stages, roots⟩ := m
  cases stages <;> simp [say]

@[simp] theorem say_pos (m : Outline) (r : Prose) : (m.say r).pos = m.pos := by
  unfold say
  split <;> rfl

theorem say_with_pos (m : Outline) (r : Prose) (pos : Nat) :
    ({ m with pos } : Outline).say r = { m.say r with pos } := by
  unfold say
  split <;> simp_all

theorem append_nil (m : Outline) : m.append [] = m := by
  simp [append]

theorem append_append (m : Outline) (s t : List Char) :
    m.append (s ++ t) = (m.append s).append t := by
  simp only [append, Reading.text_append, say_with_pos, say_say, byteLength_append, Nat.add_assoc]

theorem takesText : TakesText step where
  nil m := congrArg Except.ok m.append_nil
  append m s t := congrArg Except.ok (m.append_append s t)

section

variable {m : Outline} {body : List Char}

theorem step_openBlock {block : Block} {args : List String}
    (h : Tag.ofBody body = .openBlock block args) :
    m.step (.tag body) = .ok (m.openBlock (m.stop (.tag body)) block args) := by
  simp only [step, h]

theorem step_close {name : String} (h : Tag.ofBody body = .close name) :
    m.step (.tag body) = m.closeBlock (m.stop (.tag body)) name := by
  simp only [step, h]

theorem step_guard {guard : Option (List String)} (h : (Tag.ofBody body).guard? = some guard)
    (hm : m.inConditional = true) :
    m.step (.tag body) = .ok (m.startBranch (m.stop (.tag body)) guard) := by
  cases ht : Tag.ofBody body <;> simp_all [step, Tag.guard?, Tag.leaf?]

end

end Outline

def Level.stage (l : Level) : Stage :=
  ⟨l.block, l.start, l.args, l.finished.map Branch.offer,
    l.current.map fun b => (b.start, b.guard), fun v => Node.readAll v l.children⟩

theorem Level.stage_branched (l : Level) (id pos : Nat) (guard : Option (List String)) :
    (l.branched id pos guard).stage = l.stage.branched pos guard := by
  cases hc : l.current <;>
    simp [stage, branched, Stage.branched, Stage.ending, ending, hc, OpenBranch.finish,
      Branch.offer, Node.readAll]

theorem Level.read_finish (l : Level) (closing : Span) (v : View) :
    (l.finish closing).read v = l.stage.prose v := by
  unfold finish
  split
  · rename_i hb hc
    simp [Node.read, stage, Stage.prose, Stage.offers, Stage.ending, hb, hc, Offer.first,
      Reading.asking_eq]
  · rename_i b hb hc
    simp [Node.read, Node.readFirst_eq, stage, Stage.prose, Stage.offers, Stage.ending, hb, hc,
      OpenBranch.finish, Branch.offer]
  · rename_i hb
    simp [Node.read, stage, Stage.prose, hb, Reading.asking_eq]

namespace Draft

/-- The outline without the text that waits. -/
def settled (d : Draft) : Outline :=
  ⟨d.pos, d.levels.map Level.stage, fun v => Node.readAll v d.roots⟩

def outline (d : Draft) : Outline :=
  d.settled.say fun _ => .text (String.ofList d.pending)

theorem settled_attach (d : Draft) (n : Node) :
    (d.attach n).settled = d.settled.say fun v => n.read v := by
  cases hl : d.levels <;>
    simp [attach, settled, Outline.say, hl, Level.stage, Node.readAll_append]

theorem settled_flush (d : Draft) : d.flush.settled = d.outline := by
  unfold flush outline
  split
  · rename_i hp
    simp [hp]
  · exact d.settled_attach _

theorem outline_of_pending {d : Draft} (h : d.pending = []) : d.outline = d.settled := by
  simp [outline, h]

@[simp] theorem outline_pos (d : Draft) : d.outline.pos = d.pos := by
  simp [outline, settled]

theorem outline_stages (d : Draft) : d.outline.stages = d.flush.levels.map Level.stage := by
  rw [← settled_flush]
  rfl

theorem outline_append (d : Draft) (cs : List Char) :
    (d.append cs).outline = d.outline.append cs := by
  unfold outline Outline.append append
  rw [Outline.say_say]
  simp only [Reading.text_append, Outline.say_pos]
  exact Outline.say_with_pos d.settled _ _

theorem read_leaf {raw : List Char} {tag : Tag} {node : Site → Node}
    (h : tag.leaf? raw = some node) (v : View) (id : Nat) (span : Span) :
    (node ⟨id, span⟩).read v = (node ⟨0, ⟨span.start, 0⟩⟩).read v := by
  cases tag <;> simp only [Tag.leaf?, Option.some.injEq, reduceCtorEq] at h <;> subst h <;> rfl

theorem outline_leaf (d : Draft) (stop : Nat) {raw : List Char} {tag : Tag} {node : Site → Node}
    (h : tag.leaf? raw = some node) : (d.leaf stop node).outline = d.outline.leaf stop node := by
  have hp : (d.leaf stop node).pending = [] := by simp [leaf]
  rw [outline_of_pending hp, Outline.leaf, ← settled_flush]
  have ha := d.flush.settled_attach (node ⟨d.flush.nextId, ⟨d.flush.pos, stop⟩⟩)
  simp only [read_leaf h _ d.flush.nextId] at ha
  simp only [read_leaf h _ 0]
  exact congrArg (fun m : Outline => { m with pos := stop }) ha

theorem outline_openBlock (d : Draft) (stop : Nat) (block : Block) (args : List String) :
    (d.openBlock stop block args).outline = d.outline.openBlock stop block args := by
  have hp : (d.openBlock stop block args).pending = [] := by simp [openBlock]
  rw [outline_of_pending hp, Outline.openBlock, ← settled_flush]
  rfl

theorem inConditional_outline (d : Draft) : d.outline.inConditional = d.inConditional := by
  have h := d.flush_levels_map Level.block fun _ _ => rfl
  unfold Outline.inConditional inConditional
  rw [outline_stages]
  cases hd : d.levels <;> cases hf : d.flush.levels <;> simp_all [Level.stage]

theorem outline_startBranch (d : Draft) (stop : Nat) (guard : Option (List String)) {l : Level}
    {ls : List Level} (h : d.flush.levels = l :: ls) :
    (d.startBranch stop guard).outline = d.outline.startBranch stop guard := by
  have hp : (d.startBranch stop guard).pending = [] := by simp [startBranch_eq h]
  rw [outline_of_pending hp, startBranch_eq h, Outline.startBranch, ← settled_flush]
  simp [settled, h, Level.stage_branched]

theorem outline_closeBlock (d : Draft) (stop : Nat) (name : String) :
    (d.closeBlock stop name).map outline = d.outline.closeBlock stop name := by
  simp only [closeBlock, Outline.closeBlock, outline_stages, outline_pos, flush_pos]
  split
  · rfl
  · cases hl : d.flush.levels with
    | nil => rfl
    | cons l ls =>
      simp only [List.map_cons]
      by_cases hn : l.block.name = name
      · have hs : l.stage.block.name = name := hn
        rw [if_pos hn, if_pos hs]
        refine congrArg Except.ok ?_
        have ha := ({ d.flush with levels := ls } : Draft).settled_attach
          (l.finish ⟨d.flush.pos, stop⟩)
        simp only [Level.read_finish, flush_pos] at ha
        rw [outline_of_pending (by simp), ← settled_flush]
        exact congrArg (fun m : Outline => { m with pos := stop }) ha
      · have hs : ¬ l.stage.block.name = name := hn
        rw [if_neg hn, if_neg hs]
        rfl

theorem outline_step (d : Draft) (p : Piece) : (d.step p).map outline = d.outline.step p := by
  cases p with
  | text content => exact congrArg Except.ok (d.outline_append content)
  | tag body =>
    have hstop : d.outline.stop (.tag body) = d.stop (.tag body) := by
      simp [Outline.stop, stop]
    rcases (Tag.ofBody body).cases_kind (Piece.tag body).source with
      ht | ⟨name, ht⟩ | ⟨node, ht⟩ | ⟨block, args, ht⟩ | ⟨guard, ht⟩ | ht
    · simp [step_blank ht, Outline.step, ht, Except.map]
    · rw [step_close ht, outline_closeBlock]
      simp [Outline.step, ht, hstop]
    · rw [step_leaf ht, Except.map, d.outline_leaf _ ht, ← hstop]
      cases hk : Tag.ofBody body <;> simp_all [Outline.step, Tag.leaf?]
    · rw [step_openBlock ht, Except.map, outline_openBlock]
      simp [Outline.step, ht, hstop]
    · rw [step_guard ht, Except.map]
      have hg : (if d.inConditional then d.startBranch (d.stop (.tag body)) guard
          else d.append (Piece.tag body).source).outline =
          if d.outline.inConditional then d.outline.startBranch (d.outline.stop (.tag body)) guard
          else d.outline.append (Piece.tag body).source := by
        rw [inConditional_outline, hstop]
        split
        · rename_i hc
          obtain ⟨l, ls, hl, -⟩ := d.inConditional_iff.mp hc
          exact d.outline_startBranch _ guard hl
        · exact d.outline_append _
      rw [hg]
      cases hk : Tag.ofBody body <;> simp_all [Outline.step, Tag.guard?, Tag.leaf?]
    · rw [step_unknown ht, Except.map, outline_append]
      simp [Outline.step, ht, Tag.leaf?, Tag.guard?]

theorem outline_ofPieces (d : Draft) (ps : List Piece) :
    (d.ofPieces ps).map outline = ps.foldlM Outline.step d.outline := by
  induction ps generalizing d with
  | nil => rfl
  | cons p ps ih =>
    rw [ofPieces, List.foldlM_cons, List.foldlM_cons, ← d.outline_step p]
    cases d.step p with
    | error f => rfl
    | ok d' => exact ih d'

theorem finish_outline (d : Draft) :
    (d.finish).map (fun roots v => Node.readAll v roots) = d.outline.finish := by
  rw [finish, Outline.finish, outline_stages]
  cases hl : d.flush.levels with
  | nil =>
    rw [← settled_flush]
    rfl
  | cons l ls => rfl

end Draft

/-- What a source reads, or where its blocks do not nest. -/
def Outline.ofSource (cs : List Char) : Except NestingFault Prose :=
  scan step start cs >>= finish

namespace Template

theorem ofSource_reads (cs : List Char) :
    (ofSource cs).map (fun roots v => Node.readAll v roots) = Outline.ofSource cs := by
  have hs := Draft.empty.outline_ofPieces (pieces cs)
  have hstart : Draft.empty.outline = Outline.start := rfl
  rw [Outline.ofSource, scan, ← hstart, ← hs]
  have ho : ofSource cs = Draft.empty.ofPieces (pieces cs) >>= Draft.finish := rfl
  rw [ho]
  cases Draft.empty.ofPieces (pieces cs) with
  | error f => rfl
  | ok d => exact d.finish_outline

/-- A render is what the roots read with nothing bound. -/
theorem render_eq_outcome {source : List Char} {t : Template} (h : ofSource source = .ok t.roots)
    (inputs : Inputs) :
    t.render inputs = (Node.readAll ⟨inputs, []⟩ t.roots).outcome t.name := by
  obtain ⟨marks, hx, -⟩ := Node.runAll_writes t.roots (marksAlone h) ⟨"", .ofInputs inputs⟩
  have hr : (Node.runAll t.roots).run ⟨"", .ofInputs inputs⟩ =
      ((Node.readAll ⟨inputs, []⟩ t.roots).result,
        ⟨"" ++ (Node.readAll ⟨inputs, []⟩ t.roots).output, _⟩) := hx
  rw [render, hr]
  unfold Reading.result Reading.outcome
  cases (Node.readAll ⟨inputs, []⟩ t.roots).failure <;> simp

/-- A template renders what the outline of its source reads. -/
theorem compile_of_outline {source : String} {prose : Prose}
    (h : Outline.ofSource source.toList = .ok prose) (name : String) :
    ∃ t, compile source name = .ok t ∧
      ∀ inputs, t.render inputs = (prose ⟨inputs, []⟩).outcome name := by
  rw [← ofSource_reads] at h
  cases hr : ofSource source.toList with
  | error f => simp [hr, Except.map] at h
  | ok roots =>
    obtain rfl : (fun v => Node.readAll v roots) = prose := by simpa [hr, Except.map] using h
    exact ⟨⟨name, source, roots⟩, by simp [compile, hr], render_eq_outcome hr⟩

end Template

end TagTemplate
