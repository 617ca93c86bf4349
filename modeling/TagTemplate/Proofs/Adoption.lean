import TagTemplate.Proofs.Forest
import TagTemplate.Template.Arena

/-! Rows of a tree that stand in an arena at their numbers. A holder that is given its
children takes them over from whatever they were made under, and nothing else changes. -/

namespace TagTemplate

namespace Node

variable {parent : Option Nat}

/-- The rows of what lies below a node. -/
def inner : Node → List Row
  | conditional site _ body | loop site _ body => rowsAll (some site.id) body
  | choice site _ branches => rowsBranches site.id branches
  | _ => []

theorem rows_eq (parent : Option Nat) (n : Node) : n.rows parent = n.row parent :: n.inner := by
  cases n <;> rfl

theorem rowsAll_append (parent : Option Nat) (ns ms : List Node) :
    rowsAll parent (ns ++ ms) = rowsAll parent ns ++ rowsAll parent ms := by
  induction ns with
  | nil => rfl
  | cons n ns ih => rw [List.cons_append, rowsAll, rowsAll, ih, List.append_assoc]

theorem rowsBranches_append (owner : Nat) (bs cs : List (Branch Node)) :
    rowsBranches owner (bs ++ cs) = rowsBranches owner bs ++ rowsBranches owner cs := by
  induction bs with
  | nil => rfl
  | cons b bs ih => rw [List.cons_append, rowsBranches, rowsBranches, ih, List.append_assoc]

@[simp] theorem rowsAll_singleton (n : Node) : rowsAll parent [n] = n.rows parent := by
  simp [rowsAll]

@[simp] theorem rowsBranches_singleton (owner : Nat) (b : Branch Node) :
    rowsBranches owner [b] = rowsBranch owner b := by
  simp [rowsBranches]

theorem rowsBranch_eq (owner : Nat) (b : Branch Node) :
    rowsBranch owner b = branchRow owner b :: rowsAll (some b.site.id) b.body := by
  cases b
  rw [rowsBranch]

theorem map_id_rowsAll (parent : Option Nat) (ns : List Node) :
    (rowsAll parent ns).map Row.id = (partsAll ns).map Part.id := by
  simpa [Function.comp_def] using congrArg (List.map Prod.fst) (map_rowsAll parent ns)

theorem map_id_rowsBranches (owner : Nat) (bs : List (Branch Node)) :
    (rowsBranches owner bs).map Row.id = (partsBranches owner bs).map Part.id := by
  simpa [Function.comp_def] using congrArg (List.map Prod.fst) (map_rowsBranches owner bs)

theorem ids_subset {ns : List Node} : ids ns ⊆ (partsAll ns).map Part.id := by
  intro i hi
  obtain ⟨n, hn, rfl⟩ := List.mem_map.mp hi
  rw [partsAll_eq_flatMap]
  exact List.mem_map.mpr ⟨.node n, List.mem_flatMap.mpr ⟨n, hn, n.node_mem_parts⟩, rfl⟩

theorem branchIds_subset (owner : Nat) {bs : List (Branch Node)} :
    (bs.map fun b => b.site.id) ⊆ (partsBranches owner bs).map Part.id := by
  induction bs with
  | nil => exact List.Subset.refl _
  | cons b bs ih =>
    rw [partsBranches_cons, List.map_cons, List.map_cons, List.map_append]
    exact List.cons_subset_cons _ (List.Subset.trans ih (List.subset_append_right _ _))

/-- The rows at the top can be put before all those below them. -/
theorem rowsAll_perm (parent : Option Nat) (ns : List Node) :
    (rowsAll parent ns).Perm (ns.map (row parent) ++ ns.flatMap inner) := by
  induction ns with
  | nil => exact .refl _
  | cons n ns ih =>
    rw [rowsAll, rows_eq, List.map_cons, List.flatMap_cons]
    exact ((ih.append_left n.inner).trans (List.perm_append_comm_assoc ..)).cons _

theorem rowsBranches_perm (owner : Nat) (bs : List (Branch Node)) :
    (rowsBranches owner bs).Perm
      (bs.map (branchRow owner) ++ bs.flatMap fun b => rowsAll (some b.site.id) b.body) := by
  induction bs with
  | nil => exact .refl _
  | cons b bs ih =>
    rw [rowsBranches, rowsBranch_eq, List.map_cons, List.flatMap_cons]
    exact ((ih.append_left _).trans (List.perm_append_comm_assoc ..)).cons _

end Node

namespace Arena

variable {a a' : Arena} {rows tops below : List Row} {r : Row} {id i : Nat} {children : List Nat}

/-- The rows stand in the arena at their numbers. -/
def Holds (a : Arena) (rows : List Row) : Prop :=
  ∀ r ∈ rows, a.row? r.id = some r

theorem holds_nil (a : Arena) : a.Holds [] :=
  fun _ hr => absurd hr List.not_mem_nil

theorem holds_append : a.Holds (rows ++ tops) ↔ a.Holds rows ∧ a.Holds tops :=
  List.forall_mem_append

theorem holds_cons : a.Holds (r :: rows) ↔ a.row? r.id = some r ∧ a.Holds rows :=
  List.forall_mem_cons

theorem Holds.subset (h : a.Holds rows) (hs : tops ⊆ rows) : a.Holds tops :=
  fun r hr => h r (hs hr)

/-- Rows are held on in an arena that answers alike under their numbers. -/
theorem Holds.congr (h : a.Holds rows) (hs : ∀ i ∈ rows.map Row.id, a'.row? i = a.row? i) :
    a'.Holds rows :=
  fun r hr => (hs r.id (List.mem_map_of_mem hr)).trans (h r hr)

theorem row?_alloc_of_lt (h : i < a.size) (parent : Option Nat) (span : Span)
    (content : Content) : (a.alloc parent span content).row? i = a.row? i := by
  rw [row?_alloc, if_neg (Nat.ne_of_lt h)]

theorem row?_alloc_size (a : Arena) (parent : Option Nat) (span : Span) (content : Content) :
    (a.alloc parent span content).row? a.size = some ⟨a.size, parent, span, content⟩ := by
  rw [row?_alloc, if_pos rfl]

theorem lt_size_of_row? (h : a.row? i = some r) : i < a.size :=
  (Array.getElem?_eq_some_iff.mp h).1

theorem Holds.alloc (h : a.Holds rows) (parent : Option Nat) (span : Span) (content : Content) :
    (a.alloc parent span content).Holds rows :=
  fun r hr => (row?_alloc_of_lt (lt_size_of_row? (h r hr)) parent span content).trans (h r hr)

theorem row?_modify_of_ne (h : i ≠ id) (f : Row → Row) : (a.modify id f).row? i = a.row? i := by
  rw [row?_modify, if_neg (Ne.symm h)]

theorem row?_setChildren_of_notMem (h : i ∉ id :: children) :
    (a.setChildren id children).row? i = a.row? i := by
  obtain ⟨hne, hc⟩ := not_or.mp (mt List.mem_cons.mpr h)
  rw [setChildren, row?_modify_of_ne hne, row?_foldl_setParent, if_neg hc]

theorem row?_setChildren_of_mem (h : i ∈ children) (hne : i ≠ id) :
    (a.setChildren id children).row? i = (a.row? i).map fun r => { r with parent := some id } := by
  rw [setChildren, row?_modify_of_ne hne, row?_foldl_setParent, if_pos h]

theorem row?_setChildren_self (h : id ∉ children) : (a.setChildren id children).row? id =
    (a.row? id).map fun r => { r with content := r.content.withChildren children } := by
  rw [setChildren, row?_modify, if_pos rfl, row?_foldl_setParent, if_neg h]

/-- A change of one row leaves the others as they are. -/
theorem Holds.modify (h : a.Holds (r :: rows)) (hr : r.id ∉ rows.map Row.id) {f : Row → Row}
    (hf : (f r).id = r.id) : (a.modify r.id f).Holds (f r :: rows) := by
  rw [holds_cons] at h ⊢
  constructor
  · rw [hf, row?_modify, if_pos rfl, h.1]
    rfl
  · refine h.2.congr fun i hi => row?_modify_of_ne ?_ f
    rintro rfl
    exact hr hi

theorem Holds.setStop (h : a.Holds (r :: rows)) (hr : r.id ∉ rows.map Row.id) (stop : Nat) :
    (a.setStop r.id stop).Holds ({ r with span := ⟨r.span.start, stop⟩ } :: rows) :=
  h.modify hr rfl

theorem Holds.setBranched (h : a.Holds (r :: rows)) (hr : r.id ∉ rows.map Row.id) :
    (a.setBranched r.id).Holds ({ r with content := r.content.asBranched } :: rows) :=
  h.modify hr rfl

/-- A holder gets children that had other parents, or none. -/
theorem Holds.adopt (h : a.Holds (r :: (tops ++ below)))
    (hd : ((r :: (tops ++ below)).map Row.id).Nodup) :
    (a.setChildren r.id (tops.map Row.id)).Holds
      ({ r with content := r.content.withChildren (tops.map Row.id) } ::
        (tops.map (fun top => { top with parent := some r.id }) ++ below)) := by
  rw [List.map_cons, List.nodup_cons, List.map_append] at hd
  obtain ⟨hr, hd⟩ := hd
  obtain ⟨htop, hbelow⟩ := not_or.mp (mt List.mem_append.mpr hr)
  rw [holds_cons, holds_append] at h ⊢
  refine ⟨?_, fun top ht => ?_, ?_⟩
  · rw [row?_setChildren_self htop, h.1]
    rfl
  · obtain ⟨top, hm, rfl⟩ := List.mem_map.mp ht
    have hid : top.id ∈ tops.map Row.id := List.mem_map_of_mem hm
    have hne : top.id ≠ r.id := fun he => htop (he ▸ hid)
    rw [row?_setChildren_of_mem hid hne, h.2.1 top hm]
    rfl
  · refine h.2.2.congr fun i hi => row?_setChildren_of_notMem fun hc => ?_
    rcases List.mem_cons.mp hc with rfl | hc
    · exact hbelow hi
    · exact (List.nodup_append.mp hd).2.2 i hc i hi rfl

/-- A row that is given the nodes of a row of trees as its children. -/
theorem Holds.enclose {parent : Option Nat} {ns : List Node} (own : a.row? r.id = some r)
    (h : a.Holds (Node.rowsAll parent ns))
    (hd : (r.id :: (Node.partsAll ns).map Part.id).Nodup) :
    (a.setChildren r.id (Node.ids ns)).Holds
      ({ r with content := r.content.withChildren (Node.ids ns) } ::
        Node.rowsAll (some r.id) ns) := by
  have hp := Node.rowsAll_perm parent ns
  have hids : (ns.map (Node.row parent)).map Row.id = Node.ids ns := List.map_map
  have hd : ((r :: (ns.map (Node.row parent) ++ ns.flatMap Node.inner)).map Row.id).Nodup := by
    rw [← Node.map_id_rowsAll parent] at hd
    exact ((hp.map Row.id).cons r.id).nodup_iff.mp hd
  have ha := Holds.adopt (holds_cons.mpr ⟨own, h.subset hp.symm.subset⟩) hd
  rw [hids, List.map_map] at ha
  exact ha.subset (List.cons_subset_cons _ (Node.rowsAll_perm (some r.id) ns).subset)

/-- A row that is given branches as its children; they were made under it. -/
theorem Holds.encloseBranches {bs : List (Branch Node)} (own : a.row? r.id = some r)
    (h : a.Holds (Node.rowsBranches r.id bs))
    (hd : (r.id :: (Node.partsBranches r.id bs).map Part.id).Nodup) :
    (a.setChildren r.id (bs.map fun b => b.site.id)).Holds
      ({ r with content := r.content.withChildren (bs.map fun b => b.site.id) } ::
        Node.rowsBranches r.id bs) := by
  have hp := Node.rowsBranches_perm r.id bs
  have hids : (bs.map (Node.branchRow r.id)).map Row.id = bs.map fun b => b.site.id := List.map_map
  have hd : ((r :: (bs.map (Node.branchRow r.id) ++
      bs.flatMap fun b => Node.rowsAll (some b.site.id) b.body)).map Row.id).Nodup := by
    rw [← Node.map_id_rowsBranches r.id] at hd
    exact ((hp.map Row.id).cons r.id).nodup_iff.mp hd
  have ha := Holds.adopt (holds_cons.mpr ⟨own, h.subset hp.symm.subset⟩) hd
  rw [hids, List.map_map] at ha
  exact ha.subset (List.cons_subset_cons _ hp.subset)

/-- A branch that is complete stands in the arena with all it holds. -/
theorem Holds.completeBranch {owner stop : Nat} {b : OpenBranch} {parent : Option Nat}
    {ns : List Node}
    (own : a.row? b.id = some ⟨b.id, some owner, ⟨b.start, stop⟩, .ofGuard b.guard⟩)
    (h : a.Holds (Node.rowsAll parent ns)) (hd : (b.id :: (Node.partsAll ns).map Part.id).Nodup)
    (pos : Nat) :
    (a.completeBranch b.id (Node.ids ns) pos).Holds (Node.rowsBranch owner (b.finish pos ns)) := by
  have he := Holds.enclose (r := ⟨b.id, some owner, ⟨b.start, stop⟩, .ofGuard b.guard⟩) own h hd
  have hid : b.id ∉ (Node.rowsAll (some b.id) ns).map Row.id := by
    rw [Node.map_id_rowsAll]
    exact (List.nodup_cons.mp hd).1
  have hs := he.setStop hid pos
  rw [Node.rowsBranch_eq]
  obtain ⟨id, start, guard⟩ := b
  cases guard <;> exact hs

theorem row?_completeBranch {branch stop : Nat} (h : i ∉ branch :: children) :
    (a.completeBranch branch children stop).row? i = a.row? i := by
  rw [Arena.completeBranch, setStop, row?_modify_of_ne fun he => h (by simp [he]),
    row?_setChildren_of_notMem h]

theorem row?_closeBlock {l : OpenBlock} {closing : Span} (h : i ≠ l.id)
    (hc : i ∉ l.children) (hb : i ∉ l.branches) (hr : i ∉ l.branch) :
    (a.closeBlock l closing).row? i = a.row? i := by
  cases hl : l.branch with
  | none =>
    simp only [Arena.closeBlock, hl]
    rw [setStop, row?_modify_of_ne h, row?_setChildren_of_notMem (by simp [h, hc])]
  | some branch =>
    have hne : i ≠ branch := fun he => hr (by simp [hl, he])
    simp only [Arena.closeBlock, hl]
    rw [setStop, row?_modify_of_ne h, setBranched, row?_modify_of_ne h,
      row?_setChildren_of_notMem (by simp [h, hb, hne]), row?_completeBranch (by simp [hne, hc])]

end Arena

end TagTemplate
