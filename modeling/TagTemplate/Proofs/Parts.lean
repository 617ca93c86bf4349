import Mathlib.Tactic.Common
import TagTemplate.Template.Table

/-! The parts of a tree as one list. Its length is the size of the tree, and the parts of
an inner node are a sublist of it. -/

namespace TagTemplate

def Part.id (p : Part) : Nat :=
  p.site.id

@[simp] theorem Part.id_node (n : Node) : (Part.node n).id = n.site.id := rfl

@[simp] theorem Part.id_branch (owner : Nat) (b : Branch Node) :
    (Part.branch owner b).id = b.site.id := rfl

namespace Node

theorem partsAll_eq_flatMap (ns : List Node) : partsAll ns = ns.flatMap parts := by
  induction ns with
  | nil => rfl
  | cons n ns ih => rw [partsAll, ih, List.flatMap_cons]

theorem partsAll_append (ns ms : List Node) : partsAll (ns ++ ms) = partsAll ns ++ partsAll ms := by
  simp only [partsAll_eq_flatMap, List.flatMap_append]

theorem partsBranches_append (owner : Nat) (bs cs : List (Branch Node)) :
    partsBranches owner (bs ++ cs) = partsBranches owner bs ++ partsBranches owner cs := by
  induction bs with
  | nil => rfl
  | cons b bs ih => simp only [List.cons_append, partsBranches, ih, List.append_assoc]

@[simp] theorem partsAll_singleton (n : Node) : partsAll [n] = n.parts := by
  simp [partsAll]

theorem node_mem_parts (n : Node) : Part.node n ∈ n.parts := by
  cases n <;> exact List.mem_cons_self

theorem partsBranch_eq (owner : Nat) (b : Branch Node) :
    partsBranch owner b = .branch owner b :: partsAll b.body := by
  cases b
  rw [partsBranch]

theorem partsBranches_cons (owner : Nat) (b : Branch Node) (bs : List (Branch Node)) :
    partsBranches owner (b :: bs) =
      .branch owner b :: (partsAll b.body ++ partsBranches owner bs) := by
  rw [partsBranches, partsBranch_eq, List.cons_append]

@[simp] theorem partsBranches_singleton (owner : Nat) (b : Branch Node) :
    partsBranches owner [b] = .branch owner b :: partsAll b.body := by
  simp [partsBranches, partsBranch_eq]

mutual

theorem length_parts (n : Node) : n.parts.length = n.size := by
  cases n with
  | conditional _ _ body => simp [parts, size, length_partsAll body]
  | loop _ _ body => simp [parts, size, length_partsAll body]
  | choice site _ branches => simp [parts, size, length_partsBranches site.id branches]
  | _ => rfl

theorem length_partsAll (ns : List Node) : (partsAll ns).length = sizeAll ns := by
  cases ns with
  | nil => rfl
  | cons n ns => simp [partsAll, sizeAll, length_parts n, length_partsAll ns]

theorem length_partsBranches (owner : Nat) (bs : List (Branch Node)) :
    (partsBranches owner bs).length = sizeBranches bs := by
  cases bs with
  | nil => rfl
  | cons b bs =>
    obtain ⟨_, _, body⟩ := b
    have hb := length_partsAll body
    have hs := length_partsBranches owner bs
    simp only [partsBranches, partsBranch, List.cons_append, List.length_cons, List.length_append,
      sizeBranches, sizeBranch, hb, hs]
    omega

end

mutual

/-- What lies below an inner node lies below every tree around it. -/
theorem parts_sublist {n m : Node} (h : Part.node m ∈ n.parts) : m.parts.Sublist n.parts := by
  cases n with
  | conditional site args body =>
    rcases List.mem_cons.mp h with he | h
    · cases he; exact .refl _
    · exact (parts_sublist_all h).cons _
  | loop site args body =>
    rcases List.mem_cons.mp h with he | h
    · cases he; exact .refl _
    · exact (parts_sublist_all h).cons _
  | choice site args branches =>
    rcases List.mem_cons.mp h with he | h
    · cases he; exact .refl _
    · exact (parts_sublist_branches h).cons _
  | _ =>
    cases List.mem_singleton.mp h
    exact .refl _

theorem parts_sublist_all {ns : List Node} {m : Node} (h : Part.node m ∈ partsAll ns) :
    m.parts.Sublist (partsAll ns) := by
  cases ns with
  | nil => simp [partsAll] at h
  | cons n ns =>
    rcases List.mem_append.mp h with h | h
    · exact (parts_sublist h).trans (List.sublist_append_left _ _)
    · exact (parts_sublist_all h).trans (List.sublist_append_right _ _)

theorem parts_sublist_branches {owner : Nat} {bs : List (Branch Node)} {m : Node}
    (h : Part.node m ∈ partsBranches owner bs) : m.parts.Sublist (partsBranches owner bs) := by
  cases bs with
  | nil => simp [partsBranches] at h
  | cons b bs =>
    obtain ⟨site, guard, body⟩ := b
    rcases List.mem_append.mp h with h | h
    · have hb := parts_sublist_all ((List.mem_cons.mp h).resolve_left (by simp))
      exact (hb.cons _).trans (List.sublist_append_left _ _)
    · exact (parts_sublist_branches h).trans (List.sublist_append_right _ _)

end

end Node

end TagTemplate
