import Mathlib
import TagTemplate.Proofs.Numbering

/-! The table of a template as a forest. Its rows are the parts by number; parents and
children agree, no row is below itself, and branches stand only where they may. -/

namespace TagTemplate

def Content.isBranch : Content → Bool
  | elseIf .. | otherwise .. => true
  | _ => false

def Content.isBranched : Content → Bool
  | conditional _ branched _ => branched
  | _ => false

/-- Rows that form a forest with the given roots: row `i` has the number `i`, each number
is a root or a child once and not both, and the links up are the links down reversed. -/
structure Forest (roots : List Nat) (rows : List Row) : Prop where
  ids : rows.map Row.id = List.range rows.length
  once : (roots ++ rows.flatMap fun r => r.content.children).Perm (List.range rows.length)
  root : ∀ r ∈ rows, r.parent = none ↔ r.id ∈ roots
  parent : ∀ r ∈ rows, ∀ p, r.parent = some p ↔ ∃ q ∈ rows, q.id = p ∧ r.id ∈ q.content.children
  acyclic : WellFounded fun child parent =>
    ∃ r ∈ rows, r.id = parent ∧ child ∈ r.content.children

/-- A branch stands directly in a conditional that has branches, and nothing else does. The
first branch repeats the arguments of its conditional, and its number is above those of
its children. -/
structure Branching (rows : List Row) : Prop where
  owner : ∀ r ∈ rows, r.content.isBranch = true →
    ∃ q ∈ rows, r.parent = some q.id ∧ q.content.isBranched = true
  child : ∀ q ∈ rows, ∀ r ∈ rows, r.id ∈ q.content.children →
    r.content.isBranch = q.content.isBranched
  first : ∀ q ∈ rows, ∀ args children, q.content = .conditional args true children →
    2 ≤ children.length ∧ ∃ r ∈ rows, children.head? = some r.id ∧
      ∃ inner, r.content = .elseIf args inner ∧ ∀ c ∈ inner, c < r.id

/-- Every child has a row further on. -/
def Descends : List Row → Prop
  | [] => True
  | r :: rs => (∀ c ∈ r.content.children, c ∈ rs.map Row.id) ∧ Descends rs

theorem Descends.append {rs ss : List Row} (hr : Descends rs) (hs : Descends ss) :
    Descends (rs ++ ss) := by
  induction rs with
  | nil => exact hs
  | cons r rs ih =>
    refine ⟨fun c hc => ?_, ih hr.2⟩
    show c ∈ (rs ++ ss).map Row.id
    rw [List.map_append]
    exact List.mem_append_left _ (hr.1 c hc)

theorem Descends.idxOf_lt {rows : List Row} (h : Descends rows) (hd : (rows.map Row.id).Nodup)
    {r : Row} {c : Nat} (hr : r ∈ rows) (hc : c ∈ r.content.children) :
    (rows.map Row.id).idxOf r.id < (rows.map Row.id).idxOf c ∧ c ∈ rows.map Row.id := by
  induction rows with
  | nil => exact nomatch hr
  | cons s rows ih =>
    rw [List.map_cons, List.nodup_cons] at hd
    have later : ∀ {i}, i ∈ rows.map Row.id →
        (s.id :: rows.map Row.id).idxOf i = (rows.map Row.id).idxOf i + 1 :=
      fun {i} hi => List.idxOf_cons_ne _ fun he => hd.1 (he ▸ hi)
    rw [List.map_cons]
    rcases List.mem_cons.mp hr with rfl | hr
    · have hm := h.1 c hc
      rw [List.idxOf_cons_self, later hm]
      exact ⟨Nat.succ_pos _, List.mem_cons_of_mem _ hm⟩
    · obtain ⟨hlt, hm⟩ := ih h.2 hd.2 hr
      rw [later (List.mem_map_of_mem hr), later hm]
      exact ⟨Nat.succ_lt_succ hlt, List.mem_cons_of_mem _ hm⟩

theorem Descends.wellFounded {rows : List Row} (h : Descends rows)
    (hd : (rows.map Row.id).Nodup) :
    WellFounded fun child parent => ∃ r ∈ rows, r.id = parent ∧ child ∈ r.content.children := by
  -- The relation goes up the tree, so the rank counts from the end of the list.
  let rank := fun i => (rows.map Row.id).length - (rows.map Row.id).idxOf i
  refine Subrelation.wf (r := InvImage (· < ·) rank) ?_ (InvImage.wf rank Nat.lt_wfRel.wf)
  rintro child _ ⟨r, hr, rfl, hc⟩
  obtain ⟨hlt, hm⟩ := h.idxOf_lt hd hr hc
  have hl := List.idxOf_lt_length_of_mem hm
  show rank child < rank r.id
  simp only [rank]
  omega

/-- Rows that hang from one parent: those at the top, and below them only rows held by
other rows of the list. -/
structure Hang (parent : Option Nat) (branches : Bool) (tops : List Nat) (rows : List Row) :
    Prop where
  once : (tops ++ rows.flatMap fun r => r.content.children).Perm (rows.map Row.id)
  held : ∀ r ∈ rows, (r.parent = parent ∧ r.id ∈ tops ∧ r.content.isBranch = branches) ∨
    ∃ q ∈ rows, r.parent = some q.id ∧ r.id ∈ q.content.children ∧
      r.content.isBranch = q.content.isBranched
  descends : Descends rows

namespace Hang

variable {parent : Option Nat} {branches : Bool} {tops others : List Nat} {rows more : List Row}

theorem nil : Hang parent branches [] [] :=
  ⟨.refl _, by simp, trivial⟩

theorem append (h : Hang parent branches tops rows) (h' : Hang parent branches others more) :
    Hang parent branches (tops ++ others) (rows ++ more) where
  once := by
    have hp := h.once.append h'.once
    apply List.perm_iff_count.mpr
    intro a
    have ha := List.perm_iff_count.mp hp a
    simp only [List.flatMap_append, List.map_append, List.count_append] at ha ⊢
    omega
  held r hr := by
    rcases List.mem_append.mp hr with hr | hr
    · rcases h.held r hr with ⟨hp, ht, hb⟩ | ⟨q, hq, hh⟩
      · exact .inl ⟨hp, List.mem_append_left _ ht, hb⟩
      · exact .inr ⟨q, List.mem_append_left _ hq, hh⟩
    · rcases h'.held r hr with ⟨hp, ht, hb⟩ | ⟨q, hq, hh⟩
      · exact .inl ⟨hp, List.mem_append_right _ ht, hb⟩
      · exact .inr ⟨q, List.mem_append_right _ hq, hh⟩
  descends := h.descends.append h'.descends

theorem cons {r : Row}
    (h : Hang (some r.id) r.content.isBranched r.content.children rows) :
    Hang r.parent r.content.isBranch [r.id] (r :: rows) where
  once := by
    simpa using h.once.cons r.id
  held s hs := by
    rcases List.mem_cons.mp hs with rfl | hs
    · exact .inl ⟨rfl, List.mem_singleton_self _, rfl⟩
    · rcases h.held s hs with ⟨hp, ht, hb⟩ | ⟨q, hq, hh⟩
      · exact .inr ⟨r, List.mem_cons_self, hp, ht, hb⟩
      · exact .inr ⟨q, List.mem_cons_of_mem _ hq, hh⟩
  descends := ⟨fun _ hc => h.once.subset (List.mem_append_left _ hc), h.descends⟩

end Hang

namespace Node

mutual

theorem hang_rows (parent : Option Nat) (n : Node) :
    Hang parent false [n.site.id] (n.rows parent) := by
  cases n with
  | conditional site args body =>
    exact Hang.cons (r := (conditional site args body).row parent) (hang_rowsAll _ body)
  | loop site args body =>
    exact Hang.cons (r := (loop site args body).row parent) (hang_rowsAll _ body)
  | choice site args bs =>
    exact Hang.cons (r := (choice site args bs).row parent) (hang_rowsBranches site.id bs)
  | text site content => exact Hang.cons (r := (text site content).row parent) .nil
  | fetch site reference => exact Hang.cons (r := (fetch site reference).row parent) .nil
  | localeText site key raw => exact Hang.cons (r := (localeText site key raw).row parent) .nil
  | field site args => exact Hang.cons (r := (field site args).row parent) .nil

theorem hang_rowsAll (parent : Option Nat) (ns : List Node) :
    Hang parent false (ids ns) (rowsAll parent ns) := by
  cases ns with
  | nil => exact .nil
  | cons n ns => exact (hang_rows parent n).append (hang_rowsAll parent ns)

theorem hang_rowsBranches (owner : Nat) (bs : List (Branch Node)) :
    Hang (some owner) true (bs.map fun b => b.site.id) (rowsBranches owner bs) := by
  cases bs with
  | nil => exact .nil
  | cons b bs =>
    obtain ⟨site, guard, body⟩ := b
    have hb := hang_rowsAll (some site.id) body
    have hh : Hang (some owner) true [site.id] (rowsBranch owner ⟨site, guard, body⟩) := by
      cases guard with
      | some args => exact Hang.cons (r := branchRow owner ⟨site, some args, body⟩) hb
      | none => exact Hang.cons (r := branchRow owner ⟨site, none, body⟩) hb
    exact hh.append (hang_rowsBranches owner bs)

end

end Node

namespace Hang

variable {roots : List Nat} {rows table : List Row}

theorem not_held_of_root (h : Hang none false roots rows) (hd : (rows.map Row.id).Nodup)
    {q : Row} (hq : q ∈ rows) {i : Nat} (hi : i ∈ roots) : i ∉ q.content.children := by
  intro hc
  have hn := (h.once.nodup_iff.mpr hd)
  exact (List.nodup_append.mp hn).2.2 i hi i (List.mem_flatMap.mpr ⟨q, hq, hc⟩) rfl

theorem holder_unique (h : Hang none false roots rows) (hd : (rows.map Row.id).Nodup)
    {q r : Row} (hq : q ∈ rows) (hr : r ∈ rows) {i : Nat} (hiq : i ∈ q.content.children)
    (hir : i ∈ r.content.children) : q = r := by
  have hn := (List.nodup_append.mp (h.once.nodup_iff.mpr hd)).2.1
  by_contra hne
  have hp := (List.nodup_flatMap.mp hn).2
  have : Std.Symm (Function.onFun List.Disjoint fun r : Row => r.content.children) :=
    ⟨fun _ _ hx _ ha hb => hx hb ha⟩
  exact hp.forall hq hr hne hiq hir

theorem parent_eq_none_iff (h : Hang none false roots rows) (hd : (rows.map Row.id).Nodup)
    {r : Row} (hr : r ∈ rows) : r.parent = none ↔ r.id ∈ roots := by
  rcases h.held r hr with ⟨hn, ht, -⟩ | ⟨q, hq, hs, hc, -⟩
  · exact ⟨fun _ => ht, fun _ => hn⟩
  · constructor
    · intro hn
      rw [hn] at hs
      exact nomatch hs
    · intro hm
      exact absurd hc (h.not_held_of_root hd hq hm)

theorem parent_eq_some_iff (h : Hang none false roots rows) (hd : (rows.map Row.id).Nodup)
    {r : Row} (hr : r ∈ rows) {p : Nat} :
    r.parent = some p ↔ ∃ q ∈ rows, q.id = p ∧ r.id ∈ q.content.children := by
  constructor
  · intro hp
    rcases h.held r hr with ⟨hn, -⟩ | ⟨q, hq, hs, hc, -⟩
    · rw [hn] at hp
      exact nomatch hp
    · exact ⟨q, hq, Option.some.inj (hs.symm.trans hp), hc⟩
  · rintro ⟨q, hq, rfl, hc⟩
    rcases h.held r hr with ⟨-, ht, -⟩ | ⟨q', hq', hs, hc', -⟩
    · exact absurd hc (h.not_held_of_root hd hq ht)
    · rw [hs, h.holder_unique hd hq' hq hc' hc]

theorem forest (h : Hang none false roots rows) (hp : table.Perm rows)
    (hi : table.map Row.id = List.range table.length) : Forest roots table := by
  have hd : (rows.map Row.id).Nodup :=
    (hp.map Row.id).nodup_iff.mp (hi ▸ List.nodup_range)
  have hids : (rows.map Row.id).Perm (List.range table.length) :=
    hi ▸ (hp.map Row.id).symm
  have hc := (hp.flatMap_right fun r => r.content.children).append_left roots
  refine ⟨hi, hc.trans (h.once.trans hids), fun r hr => ?_, fun r hr p => ?_, ?_⟩
  · exact h.parent_eq_none_iff hd (hp.mem_iff.mp hr)
  · simpa only [hp.mem_iff] using h.parent_eq_some_iff hd (hp.mem_iff.mp hr)
  · simpa only [hp.mem_iff] using h.descends.wellFounded hd

theorem exists_owner (h : Hang none false roots rows) {r : Row} (hr : r ∈ rows)
    (hb : r.content.isBranch = true) :
    ∃ q ∈ rows, r.parent = some q.id ∧ q.content.isBranched = true := by
  rcases h.held r hr with ⟨-, -, hf⟩ | ⟨q, hq, hp, -, he⟩
  · rw [hb] at hf
    exact nomatch hf
  · exact ⟨q, hq, hp, he ▸ hb⟩

theorem isBranch_child (h : Hang none false roots rows) (hd : (rows.map Row.id).Nodup)
    {q r : Row} (hq : q ∈ rows) (hr : r ∈ rows) (hc : r.id ∈ q.content.children) :
    r.content.isBranch = q.content.isBranched := by
  rcases h.held r hr with ⟨-, ht, -⟩ | ⟨q', hq', -, hc', hb⟩
  · exact absurd hc (h.not_held_of_root hd hq ht)
  · rw [hb, h.holder_unique hd hq' hq hc' hc]

end Hang

/-- What the row of a part says apart from numbers and places. -/
def Part.content : Part → Content
  | node n => (n.row none).content
  | branch owner b => (Node.branchRow owner b).content

namespace Node

mutual

/-- Rows and parts are the same things in the same order. -/
theorem map_rows (parent : Option Nat) (n : Node) :
    (n.rows parent).map (fun r => (r.id, r.content)) = n.parts.map fun q => (q.id, q.content) := by
  cases n with
  | conditional site args body => exact congrArg (_ :: ·) (map_rowsAll _ body)
  | loop site args body => exact congrArg (_ :: ·) (map_rowsAll _ body)
  | choice site args bs => exact congrArg (_ :: ·) (map_rowsBranches site.id bs)
  | _ => rfl

theorem map_rowsAll (parent : Option Nat) (ns : List Node) :
    (rowsAll parent ns).map (fun r => (r.id, r.content)) =
      (partsAll ns).map fun q => (q.id, q.content) := by
  cases ns with
  | nil => rfl
  | cons n ns =>
    rw [rowsAll, partsAll, List.map_append, List.map_append, map_rows parent n,
      map_rowsAll parent ns]

theorem map_rowsBranches (owner : Nat) (bs : List (Branch Node)) :
    (rowsBranches owner bs).map (fun r => (r.id, r.content)) =
      (partsBranches owner bs).map fun q => (q.id, q.content) := by
  cases bs with
  | nil => rfl
  | cons b bs =>
    obtain ⟨site, guard, body⟩ := b
    rw [rowsBranches, partsBranches, List.map_append, List.map_append, map_rowsBranches owner bs]
    refine congrArg (· ++ _) ?_
    exact congrArg (_ :: ·) (map_rowsAll _ body)

end

end Node

namespace Template

theorem table_perm_rows (t : Template) : t.table.Perm (Node.rowsAll none t.roots) :=
  List.mergeSort_perm _ _

/-- The rows of the table are those of the parts, at their numbers. -/
theorem table_perm (t : Template) :
    (t.table.map fun r => (r.id, r.content)).Perm (t.parts.map fun q => (q.id, q.content)) := by
  have hp := t.table_perm_rows.map fun r => (r.id, r.content)
  rwa [Node.map_rowsAll] at hp

theorem map_id_table {t : Template} (h : (t.parts.map Part.id).Perm (List.range t.size)) :
    t.table.map Row.id = List.range t.size := by
  have hp : (t.table.map Row.id).Perm (List.range t.size) := by
    have hf := t.table_perm.map Prod.fst
    simp only [List.map_map, Function.comp_def] at hf
    exact hf.trans h
  have hs : t.table.Pairwise fun a b => decide (a.id ≤ b.id) = true :=
    List.pairwise_mergeSort
      (fun a b c hab hbc => by simp only [decide_eq_true_eq] at hab hbc ⊢; omega)
      (fun a b => by simp only [Bool.or_eq_true, decide_eq_true_eq]; omega) _
  have hs : (t.table.map Row.id).Pairwise (· ≤ ·) :=
    List.pairwise_map.mpr (hs.imp fun hab => of_decide_eq_true hab)
  exact hp.eq_of_pairwise (fun a b _ _ hab hba => Nat.le_antisymm hab hba) hs
    (List.pairwise_lt_range.imp Nat.le_of_lt)

theorem mem_table_of_mem {t : Template} {q : Part} (h : q ∈ t.parts) :
    ∃ r ∈ t.table, r.id = q.id ∧ r.content = q.content := by
  have hm := t.table_perm.mem_iff.mpr (List.mem_map_of_mem h)
  obtain ⟨r, hr, he⟩ := List.mem_map.mp hm
  exact ⟨r, hr, congrArg Prod.fst he, congrArg Prod.snd he⟩

theorem mem_of_mem_table {t : Template} {r : Row} (h : r ∈ t.table) :
    ∃ q ∈ t.parts, q.id = r.id ∧ q.content = r.content := by
  have hm := t.table_perm.mem_iff.mp (List.mem_map_of_mem h)
  obtain ⟨q, hq, he⟩ := List.mem_map.mp hm
  exact ⟨q, hq, congrArg Prod.fst he, congrArg Prod.snd he⟩

theorem length_table {t : Template} (h : (t.parts.map Part.id).Perm (List.range t.size)) :
    t.table.length = t.size := by
  simpa using congrArg List.length (map_id_table h)

theorem id_of_getElem?_table {t : Template} (h : (t.parts.map Part.id).Perm (List.range t.size))
    {i : Nat} {r : Row} (hr : t.table[i]? = some r) : r.id = i := by
  have hg : (t.table.map Row.id)[i]? = some r.id := by rw [List.getElem?_map, hr]; rfl
  rw [map_id_table h] at hg
  exact (List.getElem?_eq_some_iff.mp hg).2.symm.trans (List.getElem_range _)

/-- The row with a number is the row of the part that is found under it. -/
theorem getElem?_table {t : Template} (h : (t.parts.map Part.id).Perm (List.range t.size))
    (i : Nat) : t.table[i]?.map Row.content = (t.part? i).map Part.content := by
  cases hr : t.table[i]? with
  | some r =>
    obtain ⟨q, hq, hn, hc⟩ := mem_of_mem_table (List.mem_of_getElem? hr)
    have hp := part?_of_mem (h.nodup_iff.mpr List.nodup_range) hq
    rw [hn, id_of_getElem?_table h hr] at hp
    rw [hp, Option.map_some, Option.map_some, hc]
  | none =>
    have hlength := List.getElem?_eq_none_iff.mp hr
    have hnone : t.part? i = none := by
      refine List.find?_eq_none.mpr fun q hq he => ?_
      have hm := h.subset (List.mem_map_of_mem hq)
      rw [← length_table h, List.mem_range] at hm
      exact absurd (eq_of_beq he ▸ hm) (Nat.not_lt.mpr hlength)
    rw [hnone]
    rfl

theorem first_branch {t : Template} (h : ∀ q ∈ t.parts, q.Formed) {q : Row} (hq : q ∈ t.table)
    {args : List String} {children : List Nat} (hc : q.content = .conditional args true children) :
    2 ≤ children.length ∧ ∃ r ∈ t.table, children.head? = some r.id ∧
      ∃ inner, r.content = .elseIf args inner ∧ ∀ c ∈ inner, c < r.id := by
  obtain ⟨p, hp, -, he⟩ := mem_of_mem_table hq
  rw [hc] at he
  cases p with
  | branch owner b => cases hg : b.guard <;> simp [Part.content, Node.branchRow, hg] at he
  | node n =>
    cases n <;> simp only [Part.content, Node.row, Content.conditional.injEq, reduceCtorEq,
      Bool.false_eq_true, false_and, and_false] at he
    rename_i site args' bs
    obtain ⟨rfl, -, rfl⟩ := he
    obtain ⟨⟨first, others, rfl, hg, hlt⟩, hlen⟩ := h _ hp
    have hb : Part.branch site.id first ∈ t.parts := by
      refine (Node.parts_sublist_all hp).subset (List.mem_cons_of_mem _ ?_)
      rw [Node.partsBranches_cons]
      exact List.mem_cons_self
    obtain ⟨r, hr, hid, hcontent⟩ := mem_table_of_mem hb
    refine ⟨by simpa using hlen, r, hr, by simp [hid], Node.ids first.body, ?_, fun c hc => ?_⟩
    · simpa [Part.content, Node.branchRow, hg] using hcontent
    · obtain ⟨n, hn, rfl⟩ := List.mem_map.mp hc
      rw [hid]
      refine hlt (.node n) ?_
      rw [Node.partsAll_eq_flatMap]
      exact List.mem_flatMap.mpr ⟨n, hn, n.node_mem_parts⟩

section

variable {source : List Char} {t : Template}

theorem table_forest (h : ofSource source = .ok t.roots) :
    Forest (Node.ids t.roots) t.table := by
  obtain ⟨hp, -⟩ := numbered h
  refine (Node.hang_rowsAll none t.roots).forest t.table_perm_rows ?_
  rw [map_id_table hp, length_table hp]

theorem table_branching (h : ofSource source = .ok t.roots) : Branching t.table := by
  obtain ⟨hp, hf⟩ := numbered h
  have hh := Node.hang_rowsAll none t.roots
  have hs := t.table_perm_rows
  have hd : ((Node.rowsAll none t.roots).map Row.id).Nodup :=
    (hs.map Row.id).nodup_iff.mp (map_id_table hp ▸ List.nodup_range)
  refine ⟨fun r hr hb => ?_, fun q hq r hr => ?_, fun q hq args children hc => ?_⟩
  · simpa only [hs.mem_iff] using hh.exists_owner (hs.mem_iff.mp hr) hb
  · exact hh.isBranch_child hd (hs.mem_iff.mp hq) (hs.mem_iff.mp hr)
  · exact first_branch hf hq hc

end

end Template

end TagTemplate
