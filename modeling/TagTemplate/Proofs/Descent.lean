import TagTemplate.Proofs.Forest

/-! Going down and up in the table of a template. What lies in the subtree of a part is
below it by the links to children, and on the way up from a row lies one line of rows. -/

namespace TagTemplate

/-- A part and all that lies under it. -/
def Part.subtree : Part → List Part
  | node n => n.parts
  | branch owner b => Node.partsBranch owner b

/-- Whether one number is another or stands below it in a table. -/
def Below (rows : List Row) : Nat → Nat → Prop :=
  Relation.ReflTransGen fun lower upper => ∃ r ∈ rows, r.id = upper ∧ lower ∈ r.content.children

/-- The rows that the parent links lead to, the nearest first. -/
inductive Lineage (rows : List Row) : Option Nat → List Row → Prop where
  | root : Lineage rows none []
  | up {r : Row} {rs : List Row} (mem : r ∈ rows) (above : Lineage rows r.parent rs) :
      Lineage rows (some r.id) (r :: rs)

theorem eq_of_mem_rows {rows : List Row} (hd : (rows.map Row.id).Nodup) {r s : Row}
    (hr : r ∈ rows) (hs : s ∈ rows) (h : r.id = s.id) : r = s :=
  List.inj_on_of_nodup_map hd hr hs h

theorem Lineage.unique {rows : List Row} (hd : (rows.map Row.id).Nodup) {link : Option Nat}
    {rs rs' : List Row} (h : Lineage rows link rs) (h' : Lineage rows link rs') : rs = rs' := by
  induction h generalizing rs' with
  | root => cases h'; rfl
  | @up r rs mem above ih =>
    generalize hl : some r.id = link at h'
    cases h' with
    | root => exact nomatch hl
    | @up s ss mem' above' =>
      obtain rfl := eq_of_mem_rows hd mem mem' (Option.some.inj hl)
      rw [ih above']

namespace Node

theorem partsBranches_eq_flatMap (owner : Nat) (bs : List (Branch Node)) :
    partsBranches owner bs = bs.flatMap (partsBranch owner) := by
  induction bs with
  | nil => rfl
  | cons b bs ih => rw [partsBranches, ih, List.flatMap_cons]

mutual

theorem exists_choice {n : Node} {owner : Nat} {b : Branch Node}
    (h : Part.branch owner b ∈ n.parts) : ∃ site args bs,
      Part.node (choice site args bs) ∈ n.parts ∧ site.id = owner ∧ b ∈ bs := by
  cases n with
  | conditional site args body =>
    obtain ⟨s, as, bs, hm, hb⟩ := exists_choice_all ((List.mem_cons.mp h).resolve_left (by simp))
    exact ⟨s, as, bs, List.mem_cons_of_mem _ hm, hb⟩
  | loop site args body =>
    obtain ⟨s, as, bs, hm, hb⟩ := exists_choice_all ((List.mem_cons.mp h).resolve_left (by simp))
    exact ⟨s, as, bs, List.mem_cons_of_mem _ hm, hb⟩
  | choice site args branches =>
    rcases exists_choice_branches ((List.mem_cons.mp h).resolve_left (by simp)) with
      ⟨rfl, hb⟩ | ⟨s, as, bs, hm, hb⟩
    · exact ⟨site, args, branches, List.mem_cons_self, rfl, hb⟩
    · exact ⟨s, as, bs, List.mem_cons_of_mem _ hm, hb⟩
  | _ => exact nomatch List.mem_singleton.mp h

theorem exists_choice_all {ns : List Node} {owner : Nat} {b : Branch Node}
    (h : Part.branch owner b ∈ partsAll ns) : ∃ site args bs,
      Part.node (choice site args bs) ∈ partsAll ns ∧ site.id = owner ∧ b ∈ bs := by
  cases ns with
  | nil => exact nomatch h
  | cons n ns =>
    rcases List.mem_append.mp h with h | h
    · obtain ⟨s, as, bs, hm, hb⟩ := exists_choice h
      exact ⟨s, as, bs, List.mem_append_left _ hm, hb⟩
    · obtain ⟨s, as, bs, hm, hb⟩ := exists_choice_all h
      exact ⟨s, as, bs, List.mem_append_right _ hm, hb⟩

theorem exists_choice_branches {bs : List (Branch Node)} {owner owner' : Nat} {b : Branch Node}
    (h : Part.branch owner b ∈ partsBranches owner' bs) : (owner' = owner ∧ b ∈ bs) ∨
      ∃ site args cs, Part.node (choice site args cs) ∈ partsBranches owner' bs ∧
        site.id = owner ∧ b ∈ cs := by
  cases bs with
  | nil => exact nomatch h
  | cons c bs =>
    obtain ⟨site, guard, body⟩ := c
    rw [partsBranches_cons] at h ⊢
    rcases List.mem_cons.mp h with he | h
    · obtain ⟨rfl, rfl⟩ := by simpa using he
      exact .inl ⟨rfl, List.mem_cons_self⟩
    · rcases List.mem_append.mp h with h | h
      · obtain ⟨s, as, cs, hm, hb⟩ := exists_choice_all h
        exact .inr ⟨s, as, cs, by simp [hm], hb⟩
      · rcases exists_choice_branches h with ⟨rfl, hb⟩ | ⟨s, as, cs, hm, hb⟩
        · exact .inl ⟨rfl, List.mem_cons_of_mem _ hb⟩
        · exact .inr ⟨s, as, cs, by simp [hm], hb⟩

end

end Node

theorem Part.subtree_subset {ns : List Node} {q : Part} (h : q ∈ Node.partsAll ns) :
    q.subtree ⊆ Node.partsAll ns := by
  cases q with
  | node n => exact (Node.parts_sublist_all h).subset
  | branch owner b =>
    obtain ⟨site, args, bs, hm, rfl, hb⟩ := Node.exists_choice_all h
    intro r hr
    refine (Node.parts_sublist_all hm).subset (List.mem_cons_of_mem _ ?_)
    rw [Node.partsBranches_eq_flatMap]
    exact List.mem_flatMap.mpr ⟨b, hb, hr⟩

section

variable {t : Template}

theorem below_child {q : Part} (hq : q ∈ t.parts) {i j : Nat} (hj : j ∈ q.content.children)
    (h : Below t.table i j) : Below t.table i q.id := by
  obtain ⟨r, hr, hid, hc⟩ := Template.mem_table_of_mem hq
  exact h.tail ⟨r, hr, hid, hc ▸ hj⟩

namespace Node

mutual

theorem below_of_mem_parts {n : Node} (h : ∀ q ∈ n.parts, q ∈ t.parts) {q : Part}
    (hq : q ∈ n.parts) : Below t.table q.id n.site.id := by
  cases n with
  | conditional site args body =>
    rcases List.mem_cons.mp hq with rfl | hq
    · exact .refl
    · obtain ⟨m, hm, hb⟩ := below_of_mem_partsAll (fun r hr => h r (List.mem_cons_of_mem _ hr)) hq
      exact below_child (h _ List.mem_cons_self) (List.mem_map_of_mem hm) hb
  | loop site args body =>
    rcases List.mem_cons.mp hq with rfl | hq
    · exact .refl
    · obtain ⟨m, hm, hb⟩ := below_of_mem_partsAll (fun r hr => h r (List.mem_cons_of_mem _ hr)) hq
      exact below_child (h _ List.mem_cons_self) (List.mem_map_of_mem hm) hb
  | choice site args bs =>
    rcases List.mem_cons.mp hq with rfl | hq
    · exact .refl
    · obtain ⟨b, hb, hbelow⟩ :=
        below_of_mem_partsBranches (fun r hr => h r (List.mem_cons_of_mem _ hr)) hq
      exact below_child (h _ List.mem_cons_self) (List.mem_map_of_mem hb) hbelow
  | _ =>
    obtain rfl := List.mem_singleton.mp hq
    exact .refl

theorem below_of_mem_partsAll {ns : List Node} (h : ∀ q ∈ partsAll ns, q ∈ t.parts) {q : Part}
    (hq : q ∈ partsAll ns) : ∃ n ∈ ns, Below t.table q.id n.site.id := by
  cases ns with
  | nil => exact nomatch hq
  | cons n ns =>
    rcases List.mem_append.mp hq with hq | hq
    · exact ⟨n, List.mem_cons_self,
        below_of_mem_parts (fun r hr => h r (List.mem_append_left _ hr)) hq⟩
    · obtain ⟨m, hm, hb⟩ := below_of_mem_partsAll (fun r hr => h r (List.mem_append_right _ hr)) hq
      exact ⟨m, List.mem_cons_of_mem _ hm, hb⟩

theorem below_of_mem_partsBranch {owner : Nat} {b : Branch Node}
    (h : ∀ q ∈ partsBranch owner b, q ∈ t.parts) {q : Part} (hq : q ∈ partsBranch owner b) :
    Below t.table q.id b.site.id := by
  obtain ⟨site, guard, body⟩ := b
  rcases List.mem_cons.mp hq with rfl | hq
  · exact .refl
  · obtain ⟨m, hm, hb⟩ := below_of_mem_partsAll (fun r hr => h r (List.mem_cons_of_mem _ hr)) hq
    refine below_child (h _ List.mem_cons_self) ?_ hb
    cases guard <;> exact List.mem_map_of_mem hm

theorem below_of_mem_partsBranches {owner : Nat} {bs : List (Branch Node)}
    (h : ∀ q ∈ partsBranches owner bs, q ∈ t.parts) {q : Part}
    (hq : q ∈ partsBranches owner bs) : ∃ b ∈ bs, Below t.table q.id b.site.id := by
  cases bs with
  | nil => exact nomatch hq
  | cons b bs =>
    rcases List.mem_append.mp hq with hq | hq
    · exact ⟨b, List.mem_cons_self,
        below_of_mem_partsBranch (fun r hr => h r (List.mem_append_left _ hr)) hq⟩
    · obtain ⟨c, hc, hb⟩ :=
        below_of_mem_partsBranches (fun r hr => h r (List.mem_append_right _ hr)) hq
      exact ⟨c, List.mem_cons_of_mem _ hc, hb⟩

end

end Node

theorem below_of_mem_subtree {q r : Part} (hq : q ∈ t.parts) (hr : r ∈ q.subtree) :
    Below t.table r.id q.id := by
  have hs := Part.subtree_subset hq
  cases q with
  | node n => exact Node.below_of_mem_parts (fun _ h => hs h) hr
  | branch owner b => exact Node.below_of_mem_partsBranch (fun _ h => hs h) hr

end

namespace Template

variable {source name : String} {t : Template}

theorem nodup_table (h : compile source name = .ok t) : (t.table.map Row.id).Nodup := by
  rw [map_id_table (numbered (compile_eq_ok_iff.mp h).2.2).1]
  exact List.nodup_range

theorem nodup_rows (h : compile source name = .ok t) :
    ((Node.rowsAll none t.roots).map Row.id).Nodup :=
  (t.table_perm_rows.map Row.id).nodup_iff.mp (nodup_table h)

theorem parent_of_child (h : compile source name = .ok t) {q r : Row} (hq : q ∈ t.table)
    (hr : r ∈ t.table) (hc : r.id ∈ q.content.children) : r.parent = some q.id := by
  have hp := t.table_perm_rows
  have hh := Node.hang_rowsAll none t.roots
  exact (hh.parent_eq_some_iff (nodup_rows h) (hp.mem_iff.mp hr)).mpr
    ⟨q, hp.mem_iff.mp hq, rfl, hc⟩

theorem parent_of_root (h : compile source name = .ok t) {r : Row} (hr : r ∈ t.table)
    (hroot : r.id ∈ Node.ids t.roots) : r.parent = none := by
  have hp := t.table_perm_rows
  have hh := Node.hang_rowsAll none t.roots
  exact (hh.parent_eq_none_iff (nodup_rows h) (hp.mem_iff.mp hr)).mpr hroot

/-- Every number of a template is that of one of its parts. -/
theorem exists_parts (h : compile source name = .ok t) {ids : List Nat}
    (hids : ∀ i ∈ ids, i < t.size) :
    ∃ qs, ids.mapM t.part? = some qs ∧ qs.map Part.id = ids ∧ ∀ q ∈ qs, q ∈ t.parts := by
  have hp := (numbered (compile_eq_ok_iff.mp h).2.2).1
  induction ids with
  | nil => exact ⟨[], rfl, rfl, by simp⟩
  | cons i ids ih =>
    obtain ⟨qs, hm, hqs, hmem⟩ := ih fun j hj => hids j (by simp [hj])
    have hi := hp.mem_iff.mpr (List.mem_range.mpr (hids i (by simp)))
    obtain ⟨q, hq, rfl⟩ := List.mem_map.mp hi
    have hpart := part?_of_mem (hp.nodup_iff.mpr List.nodup_range) hq
    refine ⟨q :: qs, by simp [hpart, hm], by simp [hqs], fun r hr => ?_⟩
    rcases List.mem_cons.mp hr with rfl | hr
    · exact hq
    · exact hmem r hr

/-- The row of a branch has the conditional of the branch as its parent. -/
theorem parent_of_branch (h : compile source name = .ok t) {owner : Nat} {b : Branch Node}
    (hb : Part.branch owner b ∈ t.parts) :
    ∃ r ∈ t.table, r.id = b.site.id ∧ r.content.isBranch = true ∧ r.parent = some owner := by
  obtain ⟨site, args, bs, hm, rfl, hmem⟩ := Node.exists_choice_all hb
  obtain ⟨q, hq, hqid, hqc⟩ := mem_table_of_mem hm
  obtain ⟨r, hr, hrid, hrc⟩ := mem_table_of_mem hb
  have hchild : r.id ∈ q.content.children := by
    rw [hqc, hrid]
    exact List.mem_map_of_mem hmem
  refine ⟨r, hr, hrid, ?_, (parent_of_child h hq hr hchild).trans (congrArg some hqid)⟩
  obtain ⟨_, guard, _⟩ := b
  rw [hrc]
  cases guard <;> rfl

end Template

end TagTemplate
