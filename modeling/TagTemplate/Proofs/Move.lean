import Mathlib.Tactic.Common
import TagTemplate.Proofs.Parts
import TagTemplate.Template.Basic

/-! What one piece can do to a draft that accepts it. Every property of a finished
template is a property that these moves preserve, so the dispatch over tags is opened
here and nowhere else. -/

namespace TagTemplate

theorem exists_of_bind_eq_ok {ε α β : Type} {x : Except ε α} {f : α → Except ε β} {b : β}
    (h : x >>= f = .ok b) : ∃ a, x = .ok a ∧ f a = .ok b := by
  cases x with
  | error e => exact nomatch h
  | ok a => exact ⟨a, rfl, h⟩

/-- The node of a tag that is complete with itself. -/
def Tag.leaf? (raw : List Char) : Tag → Option (Site → Node)
  | fetch reference => some (.fetch · reference)
  | localeText key => some (.localeText · key (String.ofList raw))
  | field args => some (.field · args)
  | _ => none

/-- The guard of the branch that a branching tag starts. -/
def Tag.guard? : Tag → Option (Option (List String))
  | elseIf args => some (some args)
  | otherwise => some none
  | _ => none

/-- A body that holds no closing brace, as the bodies of tags do. -/
def Piece.Proper : Piece → Prop
  | .text _ => True
  | .tag body => '}' ∉ body

theorem proper_of_mem_pieces {cs : List Char} {p : Piece} (h : p ∈ pieces cs) : p.Proper := by
  fun_induction pieces cs with
  | case1 cs hc =>
    obtain rfl := List.mem_singleton.mp h
    trivial
  | case2 cs before body rest ht ih =>
    simp only [firstTag?, Option.bind_eq_bind, Option.bind_eq_some_iff, Prod.exists,
      Option.pure_def, Option.some.injEq, Prod.mk.injEq] at ht
    obtain ⟨b, r, -, b', r', hb, -, rfl, rfl⟩ := ht
    rcases List.mem_cons.mp h with rfl | h
    · trivial
    · rcases List.mem_cons.mp h with rfl | h
      · exact notMem_of_cutAt? hb
      · exact ih h

/-- The branch that a branching tag or the closing tag ends: the current one, or under
the block's own condition the one that holds what came before any branching tag. -/
def Level.ending (l : Level) (id : Nat) : OpenBranch :=
  l.current.getD ⟨id, l.start, some l.args⟩

/-- The number of the branch that follows the one that ends. -/
def Level.nextId (l : Level) (id : Nat) : Nat :=
  if l.current.isSome then id else id + 1

/-- The level in which one branch has ended and another has started. -/
def Level.branched (l : Level) (id pos : Nat) (guard : Option (List String)) : Level :=
  { l with
    finished := l.finished ++ [(l.ending id).finish pos l.children]
    current := some ⟨l.nextId id, pos, guard⟩
    children := [] }

def Level.parts (l : Level) : List Part :=
  Node.partsBranches l.id l.finished ++ Node.partsAll l.children

theorem Level.mem_parts_branched {l : Level} {id pos : Nat} {guard : Option (List String)}
    {q : Part} : q ∈ (l.branched id pos guard).parts ↔
      q ∈ l.parts ∨ q = .branch l.id ((l.ending id).finish pos l.children) := by
  simp only [branched, parts, Node.partsBranches_append, Node.partsBranches_singleton,
    OpenBranch.finish, Node.partsAll, List.append_nil, List.mem_append, List.mem_cons]
  tauto

/-- A block that closes becomes a node over the parts it had, and ends its last branch. -/
theorem Level.mem_parts_finish {l : Level} {closing : Span} {q : Part}
    (h : q ∈ (l.finish closing).parts) (id : Nat) : q = .node (l.finish closing) ∨ q ∈ l.parts ∨
      q = .branch l.id ((l.ending id).finish closing.start l.children) := by
  unfold finish at h ⊢
  split at h
  · rcases List.mem_cons.mp h with h | h
    · exact .inl h
    · exact .inr (.inl (List.mem_append_right _ h))
  · rename_i b _ hb
    rcases List.mem_cons.mp h with h | h
    · exact .inl h
    · simp only [Node.partsBranches_append, Node.partsBranches_singleton, List.mem_append,
        List.mem_cons] at h
      rcases h with h | h | h
      · exact .inr (.inl (List.mem_append_left _ h))
      · exact .inr (.inr (by simpa [ending, hb] using h))
      · exact .inr (.inl (List.mem_append_right _ h))
  · rcases List.mem_cons.mp h with h | h
    · exact .inl h
    · exact .inr (.inl (List.mem_append_right _ h))

namespace Draft

def stop (d : Draft) (p : Piece) : Nat :=
  d.pos + byteLength p.source

inductive Move (d : Draft) : Piece → Draft → Prop where
  | append (p : Piece) : Move d p (d.append p.source)
  | leaf {body : List Char} {node : Site → Node}
      (tag : (Tag.ofBody body).leaf? (Piece.tag body).source = some node) :
      Move d (.tag body) (d.leaf (d.stop (.tag body)) node)
  | openBlock {body : List Char} {block : Block} {args : List String}
      (tag : Tag.ofBody body = .openBlock block args) :
      Move d (.tag body) (d.openBlock (d.stop (.tag body)) block args)
  | startBranch {body : List Char} {guard : Option (List String)} {l : Level} {ls : List Level}
      (tag : (Tag.ofBody body).guard? = some guard) (levels : d.flush.levels = l :: ls)
      (block : l.block = .conditional) :
      Move d (.tag body)
        { d.flush with
          nextId := l.nextId d.flush.nextId + 1
          pos := d.stop (.tag body)
          levels := l.branched d.flush.nextId d.flush.pos guard :: ls }
  | closeBlock {body : List Char} {l : Level} {ls : List Level}
      (tag : Tag.ofBody body = .close l.block.name) (levels : d.flush.levels = l :: ls) :
      Move d (.tag body)
        { ({ d.flush with levels := ls } : Draft).attach
            (l.finish ⟨d.flush.pos, d.stop (.tag body)⟩) with
          pos := d.stop (.tag body) }

@[simp] theorem attach_pos (d : Draft) (n : Node) : (d.attach n).pos = d.pos := by
  unfold attach; split <;> rfl

@[simp] theorem attach_nextId (d : Draft) (n : Node) : (d.attach n).nextId = d.nextId := by
  unfold attach; split <;> rfl

@[simp] theorem attach_pending (d : Draft) (n : Node) : (d.attach n).pending = d.pending := by
  unfold attach; split <;> rfl

@[simp] theorem flush_pos (d : Draft) : d.flush.pos = d.pos := by
  unfold flush; split <;> simp

@[simp] theorem flush_pending (d : Draft) : d.flush.pending = [] := by
  unfold flush
  split
  · assumption
  · rfl

theorem attach_levels_map {α : Type} (f : Level → α)
    (hf : ∀ l ns, f { l with children := ns } = f l) (d : Draft) (n : Node) :
    (d.attach n).levels.map f = d.levels.map f := by
  unfold attach
  split
  · rfl
  · rename_i l ls hl
    simp [hl, hf]

theorem flush_levels_map {α : Type} (f : Level → α)
    (hf : ∀ l ns, f { l with children := ns } = f l) (d : Draft) :
    d.flush.levels.map f = d.levels.map f := by
  unfold flush
  split
  · rfl
  · exact attach_levels_map f hf d _

theorem inConditional_iff (d : Draft) :
    d.inConditional = true ↔ ∃ l ls, d.flush.levels = l :: ls ∧ l.block = .conditional := by
  have h := flush_levels_map Level.block (fun _ _ => rfl) d
  cases hd : d.levels with
  | nil => simp_all [inConditional]
  | cons l ls =>
    cases hf : d.flush.levels with
    | nil => simp_all
    | cons l' ls' => simp_all [inConditional]

theorem startBranch_eq {d : Draft} {l : Level} {ls : List Level} (h : d.flush.levels = l :: ls)
    (stop : Nat) (guard : Option (List String)) :
    d.startBranch stop guard =
      { d.flush with
        nextId := l.nextId d.flush.nextId + 1
        pos := stop
        levels := l.branched d.flush.nextId d.flush.pos guard :: ls } := by
  unfold startBranch
  simp only [h]
  cases hc : l.current <;> simp [Level.branched, Level.ending, Level.nextId, hc]

theorem closeBlock_eq_ok {d d' : Draft} {stop : Nat} {name : String}
    (h : d.closeBlock stop name = .ok d') :
    ∃ l ls, d.flush.levels = l :: ls ∧ l.block.name = name ∧
      d' = { ({ d.flush with levels := ls } : Draft).attach (l.finish ⟨d.flush.pos, stop⟩) with
        pos := stop } := by
  simp only [closeBlock] at h
  split at h
  · exact nomatch h
  · split at h
    · exact nomatch h
    · rename_i l ls hl
      split at h
      · rename_i hname
        exact ⟨l, ls, hl, hname, (Except.ok.inj h).symm⟩
      · exact nomatch h

theorem Move.of_step {d d' : Draft} {p : Piece} (h : d.step p = .ok d') : d.Move p d' := by
  cases p with
  | text content => exact Except.ok.inj h ▸ .append (.text content)
  | tag body =>
    have branch : ∀ guard, (Tag.ofBody body).guard? = some guard → d' =
        (if d.inConditional then d.startBranch (d.stop (.tag body)) guard
          else d.append (Piece.tag body).source) → d.Move (.tag body) d' := by
      intro guard hg he
      by_cases hc : d.inConditional = true
      · obtain ⟨l, ls, hl, hb⟩ := d.inConditional_iff.mp hc
        rw [if_pos hc, startBranch_eq hl] at he
        exact he ▸ .startBranch hg hl hb
      · rw [if_neg hc] at he
        exact he ▸ .append (.tag body)
    simp only [step] at h
    split at h
    next => exact nomatch h
    next name ht =>
      obtain ⟨l, ls, hl, hn, rfl⟩ := closeBlock_eq_ok h
      exact .closeBlock (hn ▸ ht) hl
    next reference ht => exact Except.ok.inj h ▸ .leaf (by rw [ht]; rfl)
    next key ht => exact Except.ok.inj h ▸ .leaf (by rw [ht]; rfl)
    next args ht => exact Except.ok.inj h ▸ .leaf (by rw [ht]; rfl)
    next block args ht => exact Except.ok.inj h ▸ .openBlock ht
    next args ht => exact branch (some args) (by rw [ht]; rfl) (Except.ok.inj h).symm
    next ht => exact branch none (by rw [ht]; rfl) (Except.ok.inj h).symm
    next => exact Except.ok.inj h ▸ .append (.tag body)

theorem Move.pos {d d' : Draft} {p : Piece} (h : d.Move p d') : d'.pos = d.stop p := by
  cases h <;> simp [Draft.append, Draft.leaf, Draft.openBlock, stop]

theorem forall_levels_attach {Q : Level → Prop}
    (hQ : ∀ l ns, Q { l with children := ns } ↔ Q l) (d : Draft) (n : Node) :
    (∀ l ∈ (d.attach n).levels, Q l) ↔ ∀ l ∈ d.levels, Q l := by
  unfold attach
  split
  · rfl
  · rename_i l ls hl
    simp [hl, hQ]

def parts (d : Draft) : List Part :=
  Node.partsAll d.roots ++ d.levels.flatMap Level.parts

theorem mem_parts_cons {d : Draft} {l : Level} {ls : List Level} (hl : d.levels = l :: ls)
    {q : Part} : q ∈ d.parts ↔ q ∈ l.parts ∨ q ∈ ({ d with levels := ls } : Draft).parts := by
  simp only [parts, hl, List.flatMap_cons, List.mem_append]
  tauto

theorem mem_parts_attach {d : Draft} {n : Node} {q : Part} :
    q ∈ (d.attach n).parts ↔ q ∈ d.parts ∨ q ∈ n.parts := by
  unfold attach parts
  split
  · rename_i hl
    simp [hl, Node.partsAll_append]
  · rename_i l ls hl
    simp only [hl, List.flatMap_cons, List.mem_append, Level.parts, Node.partsAll_append,
      Node.partsAll_singleton]
    tauto

section

variable {P : List Char → Draft → Prop} {source : List Char}

/-- What the moves preserve holds of a whole run. `before` is what has been read. -/
theorem ofPieces_induction
    (move : ∀ before p after d d', source = before ++ (p.source ++ after) → p.Proper →
      P before d → d.Move p d' → P (before ++ p.source) d')
    {ps : List Piece} (proper : ∀ p ∈ ps, p.Proper) {before : List Char} {d d' : Draft}
    (hs : source = before ++ ps.flatMap Piece.source) (hd : P before d)
    (h : d.ofPieces ps = .ok d') : P source d' := by
  induction ps generalizing before d with
  | nil =>
    obtain rfl := Except.ok.inj h
    simpa [hs] using hd
  | cons p ps ih =>
    have hs' : source = before ++ (p.source ++ ps.flatMap Piece.source) := by simpa using hs
    rw [ofPieces, List.foldlM_cons] at h
    obtain ⟨d₁, hp, h₁⟩ := exists_of_bind_eq_ok h
    have hm := move before p _ d d₁ hs' (proper p (by simp)) hd (.of_step hp)
    exact ih (fun q hq => proper q (by simp [hq])) (by simpa using hs') hm h₁

/-- A finished template is the row of roots of a draft in which no block is open. -/
theorem ofSource_induction
    (start : P [] empty)
    (move : ∀ before p after d d', source = before ++ (p.source ++ after) → p.Proper →
      P before d → d.Move p d' → P (before ++ p.source) d')
    {roots : List Node} (h : Template.ofSource source = .ok roots) :
    ∃ d, P source d ∧ d.flush.levels = [] ∧ d.flush.roots = roots := by
  obtain ⟨d, hd, hf⟩ := exists_of_bind_eq_ok h
  have hP : P source d := ofPieces_induction move (fun p hp => proper_of_mem_pieces hp)
    (by simp [flatMap_source_pieces]) start hd
  simp only [finish] at hf
  split at hf
  · rename_i hl
    exact ⟨d, hP, hl, Except.ok.inj hf⟩
  · exact nomatch hf

end

end Draft

theorem Template.compile_eq_ok_iff {source name : String} {t : Template} :
    compile source name = .ok t ↔
      t.name = name ∧ t.source = source ∧ ofSource source.toList = .ok t.roots := by
  unfold compile
  split
  · rename_i roots h
    obtain ⟨n, s, r⟩ := t
    simp only [Except.ok.injEq, mk.injEq, h]
    exact ⟨fun ⟨h₁, h₂, h₃⟩ => ⟨h₁.symm, h₂.symm, h₃⟩, fun ⟨h₁, h₂, h₃⟩ => ⟨h₁.symm, h₂.symm, h₃⟩⟩
  · rename_i fault h
    simp [h]

end TagTemplate
