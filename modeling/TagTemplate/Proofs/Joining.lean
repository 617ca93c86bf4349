import Mathlib.Data.List.Infix
import TagTemplate.Proofs.TagScan

/-! Scanning a source that is joined from two. A machine that may take a text in bit by
bit reads the first source, if that leaves no opening mark behind, and then the second. -/

namespace TagTemplate

/-- Every opening mark has a closing brace somewhere after it. -/
def Sealed (cs : List Char) : Prop :=
  ∀ before rest, cs = before ++ '{' :: '%' :: rest → '}' ∈ rest

/-- No opening mark arises where two texts meet. -/
def Apart (s t : List Char) : Prop :=
  ¬ (s.getLast? = some '{' ∧ t.head? = some '%')

@[simp] theorem Piece.head?_tag (body : List Char) : (tag body).source.head? = some '{' := rfl

@[simp] theorem Piece.getLast?_tag (body : List Char) :
    (tag body).source.getLast? = some '}' :=
  List.getLast?_concat

theorem apart_of_getLast? {s t : List Char} (h : s.getLast? ≠ some '{') : Apart s t :=
  fun ha => h ha.1

theorem apart_tag (body t : List Char) : Apart (Piece.tag body).source t :=
  apart_of_getLast? (by simp)

theorem apart_of_head? {s t : List Char} (h : t.head? ≠ some '%') : Apart s t :=
  fun ha => h ha.2

theorem sealed_iff_tails {cs : List Char} :
    Sealed cs ↔ ∀ t ∈ cs.tails, ['{', '%'] <+: t → '}' ∈ t := by
  constructor
  · rintro h t ht ⟨rest, rfl⟩
    obtain ⟨before, rfl⟩ := (List.mem_tails _ _).mp ht
    exact List.mem_append_right _ (h before rest rfl)
  · rintro h before rest rfl
    have hm := h ('{' :: '%' :: rest) ((List.mem_tails _ _).mpr (List.suffix_append _ _))
      (List.prefix_append ['{', '%'] rest)
    simpa using hm

instance : DecidablePred Sealed :=
  fun _ => decidable_of_iff _ sealed_iff_tails.symm

theorem sealed_of_getLast? {cs : List Char} (h : cs.getLast? = some '}') : Sealed cs := by
  rintro before rest rfl
  cases rest with
  | nil => simp at h
  | cons c rest => exact List.mem_of_mem_getLast? (by simpa using h)

theorem sealed_of_unopened {cs : List Char} (h : ¬ ['{', '%'] <:+: cs) : Sealed cs := by
  rintro before rest rfl
  exact absurd ⟨before, rest, by simp⟩ h

theorem Sealed.right {s t : List Char} (h : Sealed (s ++ t)) : Sealed t := by
  rintro before rest rfl
  exact h (s ++ before) rest (by simp)

theorem Sealed.unopened {cs : List Char} (h : Sealed cs) (hf : firstTag? cs = none) :
    ¬ ['{', '%'] <:+: cs := by
  rintro ⟨before, rest, hcs⟩
  have he : cs = before ++ '{' :: '%' :: rest := by simpa using hcs.symm
  exact firstTag?_eq_none_iff.mp hf before rest he (h before rest he)

/-- An opening mark in a joined text lies in the second part if none lies in the first. -/
theorem opening_of_append {s t before rest : List Char} (hs : ¬ ['{', '%'] <:+: s)
    (ha : Apart s t) (h : s ++ t = before ++ '{' :: '%' :: rest) :
    ∃ middle, before = s ++ middle ∧ t = middle ++ '{' :: '%' :: rest := by
  rcases List.append_eq_append_iff.mp h with ⟨middle, hb, ht⟩ | ⟨cut, hs', ht⟩
  · exact ⟨middle, hb, ht⟩
  -- The seam may lie before the mark, inside it or behind it.
  · match cut with
    | [] => exact ⟨[], by simpa using hs'.symm, ht.symm⟩
    | [c] =>
      obtain ⟨rfl, rfl⟩ := List.cons.inj ht
      exact absurd ⟨by simp [hs'], rfl⟩ ha
    | c :: d :: cut =>
      obtain ⟨rfl, rfl, -⟩ : '{' = c ∧ '%' = d ∧ _ := by simpa using ht
      exact absurd ⟨before, cut, by simp [hs']⟩ hs

theorem unopened_append {s t : List Char} (hs : ¬ ['{', '%'] <:+: s)
    (ht : ¬ ['{', '%'] <:+: t) (ha : Apart s t) : ¬ ['{', '%'] <:+: s ++ t := by
  rintro ⟨before, rest, h⟩
  have he : s ++ t = before ++ '{' :: '%' :: rest := by simpa using h.symm
  obtain ⟨middle, -, rfl⟩ := opening_of_append hs ha he
  exact ht ⟨middle, rest, by simp⟩

theorem pieces_of_none {cs : List Char} (h : firstTag? cs = none) : pieces cs = [.text cs] := by
  unfold pieces
  split
  · rfl
  · simp_all

theorem pieces_of_some {cs before body rest : List Char}
    (h : firstTag? cs = some (before, body, rest)) :
    pieces cs = .text before :: .tag body :: pieces rest := by
  rw [pieces]
  split
  · simp_all
  · rename_i hs
    obtain ⟨rfl, rfl, rfl⟩ := by simpa [h] using hs
    rfl

/-- Text in front of a source goes into its first piece. -/
theorem exists_pieces_append (t : List Char) :
    ∃ first others, pieces t = .text first :: others ∧
      ∀ s, ¬ ['{', '%'] <:+: s → Apart s t → pieces (s ++ t) = .text (s ++ first) :: others := by
  cases hf : firstTag? t with
  | none =>
    refine ⟨t, [], pieces_of_none hf, fun s hs ha => pieces_of_none ?_⟩
    refine firstTag?_eq_none_iff.mpr fun before rest h => ?_
    obtain ⟨middle, -, ht⟩ := opening_of_append hs ha h
    exact firstTag?_eq_none_iff.mp hf middle rest ht
  | some r =>
    obtain ⟨before, body, rest⟩ := r
    obtain ⟨ht, hl, hb⟩ := firstTag?_eq_some_iff.mp hf
    refine ⟨before, _, pieces_of_some hf, fun s hs ha => pieces_of_some ?_⟩
    refine firstTag?_eq_some_iff.mpr ⟨by simp [ht], unopened_append hs hl ?_, hb⟩
    rintro ⟨hlast, hhead⟩
    refine ha ⟨hlast, ?_⟩
    rw [ht, List.append_assoc, List.head?_append, hhead]
    rfl

section

variable {σ ε : Type} {step : σ → Piece → Except ε σ}

/-- Whether a machine may take a text in bit by bit. -/
structure TakesText (step : σ → Piece → Except ε σ) : Prop where
  nil : ∀ m, step m (.text []) = .ok m
  append : ∀ m s t, step m (.text (s ++ t)) = step m (.text s) >>= fun m' => step m' (.text t)

/-- Takes in the pieces of a source. -/
def scan (step : σ → Piece → Except ε σ) (m : σ) (cs : List Char) : Except ε σ :=
  (pieces cs).foldlM step m

theorem scan_append (h : TakesText step) {s t : List Char} (hs : Sealed s) (ha : Apart s t)
    (m : σ) : scan step m (s ++ t) = scan step m s >>= fun m' => scan step m' t := by
  unfold scan
  fun_induction pieces s generalizing m with
  | case1 s hf =>
    obtain ⟨first, others, ht, hst⟩ := exists_pieces_append t
    rw [hst s (hs.unopened hf) ha, ht, List.foldlM_cons, h.append, bind_assoc]
    simp only [List.foldlM_cons, List.foldlM_nil, bind_pure]
  | case2 s before body rest hf ih =>
    obtain ⟨rfl, hl, hb⟩ := firstTag?_eq_some_iff.mp hf
    have hst : firstTag? (before ++ (Piece.tag body).source ++ rest ++ t) =
        some (before, body, rest ++ t) :=
      firstTag?_eq_some_iff.mpr ⟨by simp, hl, hb⟩
    have hr : Apart rest t := by
      rintro ⟨hlast, hhead⟩
      exact ha ⟨by simp [hlast], hhead⟩
    rw [pieces_of_some hst]
    simp only [List.foldlM_cons, bind_assoc, ih hs.right hr]

/-- From one state a text leads to another, whatever follows it. -/
def Reads (step : σ → Piece → Except ε σ) (m : σ) (cs : List Char) (m' : σ) : Prop :=
  ∀ rest, Apart cs rest → scan step m (cs ++ rest) = scan step m' rest

namespace Reads

variable {m m' m'' : σ} {s t : List Char}

theorem of_scan (h : TakesText step) (hs : Sealed s) (hm : scan step m s = .ok m') :
    Reads step m s m' := by
  intro rest ha
  rw [scan_append h hs ha, hm]
  rfl

theorem scan_eq (h : TakesText step) (hr : Reads step m s m') : scan step m s = .ok m' := by
  have hs := hr [] (by simp [Apart])
  rw [List.append_nil] at hs
  rw [hs, scan, pieces_of_none rfl, List.foldlM_cons, h.nil]
  rfl

theorem nil (m : σ) : Reads step m [] m :=
  fun _ _ => rfl

theorem trans (hs : Reads step m s m') (ht : Reads step m' t m'') (ha : Apart s t) :
    Reads step m (s ++ t) m'' := by
  intro rest hr
  cases t with
  | nil =>
    rw [List.append_nil] at hr ⊢
    rw [hs rest hr]
    exact ht rest (by simp [Apart])
  | cons c t =>
    have hr' : Apart (c :: t) rest := by simpa [Apart, List.getLast?_append] using hr
    rw [List.append_assoc, hs (c :: t ++ rest) ha, ht rest hr']

theorem text (h : TakesText step) (hs : ¬ ['{', '%'] <:+: s) (hm : step m (.text s) = .ok m') :
    Reads step m s m' := by
  refine of_scan h (sealed_of_unopened hs) ?_
  have hf : firstTag? s = none :=
    firstTag?_eq_none_iff.mpr fun before rest he => absurd ⟨before, rest, by simp [he]⟩ hs
  rw [scan, pieces_of_none hf, List.foldlM_cons, hm]
  rfl

theorem tag (h : TakesText step) {body : List Char} (hb : '}' ∉ body)
    (hm : step m (.tag body) = .ok m') : Reads step m (Piece.tag body).source m' := by
  refine of_scan h (sealed_of_getLast? (Piece.getLast?_tag body)) ?_
  have hf : firstTag? (Piece.tag body).source = some ([], body, []) :=
    firstTag?_eq_some_iff.mpr ⟨by simp, by simp, hb⟩
  rw [scan, pieces_of_some hf, pieces_of_none rfl]
  simp only [List.foldlM_cons, List.foldlM_nil, h.nil, hm, bind, Except.bind, pure, Except.pure]

end Reads

end

namespace Draft

theorem append_nil (d : Draft) : d.append [] = d := by
  simp [append]

theorem append_append (d : Draft) (s t : List Char) :
    d.append (s ++ t) = (d.append s).append t := by
  simp [append, Nat.add_assoc]

theorem takesText : TakesText step where
  nil d := congrArg Except.ok d.append_nil
  append d s t := congrArg Except.ok (d.append_append s t)

end Draft

end TagTemplate
