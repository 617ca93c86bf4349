import Mathlib.Data.List.Induction
import TagTemplate.Proofs.Move

/-! The tags of a source as a scan from the left meets them, and the line and column of
an offset counted out on the text before it. -/

namespace TagTemplate

structure PlacedTag where
  offset : Nat
  body : List Char

/-- The tags of a text that starts at an offset. A tag starts at the leftmost opening mark
and ends at the next closing brace, where the scan goes on; without one it ends. -/
inductive TagScan : Nat → List Char → List PlacedTag → Prop where
  | done {offset : Nat} {cs : List Char}
      (unclosed : ∀ before rest, cs = before ++ '{' :: '%' :: rest → '}' ∉ rest) :
      TagScan offset cs []
  | tag {offset : Nat} {before body rest : List Char} {ts : List PlacedTag}
      (leftmost : ¬ ['{', '%'] <:+: before) (next : '}' ∉ body)
      (later : TagScan (offset + byteLength before + byteLength (Piece.tag body).source) rest ts) :
      TagScan offset (before ++ (Piece.tag body).source ++ rest)
        (⟨offset + byteLength before, body⟩ :: ts)

theorem cutAtOpening?_append {before : List Char} (h : ¬ ['{', '%'] <:+: before)
    (rest : List Char) : cutAtOpening? (before ++ '{' :: '%' :: rest) = some (before, rest) := by
  induction before with
  | nil => rfl
  | cons c cs ih =>
    have hcs := ih fun hi => h (hi.trans (List.infix_cons (List.infix_refl cs)))
    rw [List.cons_append]
    unfold cutAtOpening?
    split
    · rename_i hc hr
      cases cs with
      | nil => exact absurd hr (by simp)
      | cons d ds =>
        obtain ⟨rfl, -⟩ := List.cons.inj hr
        exact absurd (List.prefix_append ['{', '%'] ds).isInfix h
    · rw [hcs]
      rfl

theorem leftmost_of_cutAtOpening? {cs before rest : List Char}
    (h : cutAtOpening? cs = some (before, rest)) : ¬ ['{', '%'] <:+: before := by
  fun_induction cutAtOpening? cs generalizing before with
  | case1 => simp at h
  | case2 rest' =>
    obtain ⟨rfl, rfl⟩ := by simpa using h
    simp
  | case3 c cs hne ih =>
    obtain ⟨⟨b, r⟩, hr, hp⟩ := Option.map_eq_some_iff.mp h
    obtain ⟨rfl, rfl⟩ := by simpa using hp
    intro hi
    rcases List.infix_cons_iff.mp hi with hx | hx
    · obtain ⟨rfl, t, rfl⟩ := List.cons_prefix_cons.mp hx
      exact hne _ rfl (eq_of_cutAtOpening? hr)
    · exact ih hr hx

theorem firstTag?_eq_some_iff {cs before body rest : List Char} :
    firstTag? cs = some (before, body, rest) ↔
      cs = before ++ (Piece.tag body).source ++ rest ∧ ¬ ['{', '%'] <:+: before ∧ '}' ∉ body := by
  constructor
  · intro h
    refine ⟨eq_of_firstTag? h, ?_⟩
    simp only [firstTag?, Option.bind_eq_bind, Option.bind_eq_some_iff, Prod.exists,
      Option.pure_def, Option.some.injEq, Prod.mk.injEq] at h
    obtain ⟨b, r, ho, b', r', hc, rfl, rfl, rfl⟩ := h
    exact ⟨leftmost_of_cutAtOpening? ho, notMem_of_cutAt? hc⟩
  · rintro ⟨rfl, hl, hn⟩
    have ho := cutAtOpening?_append hl (body ++ '}' :: rest)
    have hc := cutAt?_append hn rest
    simp [firstTag?, Piece.source, ho, hc]

theorem unclosed_of_cutAtOpening? {cs : List Char}
    (h : ∀ b r, cutAtOpening? cs = some (b, r) → '}' ∉ r) {before rest : List Char}
    (hcs : cs = before ++ '{' :: '%' :: rest) : '}' ∉ rest := by
  fun_induction cutAtOpening? cs generalizing before with
  | case1 => simp at hcs
  | case2 rest' =>
    have hr := h [] rest' rfl
    cases before with
    | nil =>
      obtain rfl : rest' = rest := by simpa using hcs
      exact hr
    | cons c before =>
      cases before with
      | nil => simp at hcs
      | cons d before =>
        obtain ⟨-, -, rfl⟩ := by simpa using hcs
        simp only [List.mem_append, List.mem_cons, not_or] at hr
        exact hr.2.2.2
  | case3 c cs hne ih =>
    cases before with
    | nil =>
      obtain ⟨rfl, rfl⟩ := by simpa using hcs
      exact absurd rfl (hne rest rfl)
    | cons d before =>
      obtain ⟨rfl, hr⟩ := List.cons.inj hcs
      exact ih (fun b r hb => h (c :: b) r (by simp [hb])) hr

theorem firstTag?_eq_none_iff {cs : List Char} :
    firstTag? cs = none ↔ ∀ before rest, cs = before ++ '{' :: '%' :: rest → '}' ∉ rest := by
  constructor
  · intro h before rest hcs
    refine unclosed_of_cutAtOpening? (fun b r hb => ?_) hcs
    cases hc : cutAt? '}' r with
    | none => exact cutAt?_eq_none_iff.mp hc
    | some _ => simp [firstTag?, hb, hc] at h
  · intro h
    cases hf : firstTag? cs with
    | none => rfl
    | some r =>
      obtain ⟨before, body, rest⟩ := r
      have hcs := (firstTag?_eq_some_iff.mp hf).1
      have hn := h before (body ++ '}' :: rest) (by simpa [Piece.source] using hcs)
      simp at hn

/-- The tags among the pieces of a text that starts at an offset. -/
def placedTags (offset : Nat) : List Piece → List PlacedTag
  | [] => []
  | .text content :: ps => placedTags (offset + byteLength content) ps
  | .tag body :: ps => ⟨offset, body⟩ :: placedTags (offset + byteLength (Piece.tag body).source) ps

theorem tagScan_pieces (offset : Nat) (cs : List Char) :
    TagScan offset cs (placedTags offset (pieces cs)) := by
  fun_induction pieces cs generalizing offset with
  | case1 cs h => exact .done (firstTag?_eq_none_iff.mp h)
  | case2 cs before body rest h ih =>
    obtain ⟨rfl, hl, hn⟩ := firstTag?_eq_some_iff.mp h
    exact .tag hl hn (ih _)

theorem TagScan.eq {offset : Nat} {cs : List Char} {ts : List PlacedTag}
    (h : TagScan offset cs ts) : ts = placedTags offset (pieces cs) := by
  induction h with
  | done unclosed =>
    have hf := firstTag?_eq_none_iff.mpr unclosed
    unfold pieces
    split
    · rfl
    · simp_all
  | @tag offset before body rest ts leftmost next later ih =>
    have hf := firstTag?_eq_some_iff.mpr ⟨(rfl : _ = _ ++ rest), leftmost, next⟩
    unfold pieces
    split
    · simp_all
    · rename_i hs
      rw [hf] at hs
      obtain ⟨rfl, rfl, rfl⟩ := by simpa using hs
      rw [ih]
      rfl

theorem TagScan.exists_tag {offset : Nat} {cs : List Char} {ts : List PlacedTag}
    (h : TagScan offset cs ts) {t : PlacedTag} (ht : t ∈ ts) :
    '}' ∉ t.body ∧ ∃ before after, cs = before ++ ((Piece.tag t.body).source ++ after) ∧
      offset + byteLength before = t.offset := by
  induction h with
  | done => exact nomatch ht
  | @tag offset before body rest ts _ next _ ih =>
    rcases List.mem_cons.mp ht with rfl | ht
    · exact ⟨next, before, rest, List.append_assoc _ _ _, rfl⟩
    · obtain ⟨hn, b, a, rfl, hb⟩ := ih ht
      refine ⟨hn, before ++ (Piece.tag body).source ++ b, a, by simp, ?_⟩
      rw [← hb]
      simp only [byteLength_append]
      omega

theorem TagScan.exists_append {offset : Nat} {cs : List Char} {ts : List PlacedTag}
    (h : TagScan offset cs ts) {t : PlacedTag} (ht : t ∈ ts) :
    ∃ before after, cs = before ++ after ∧ offset + byteLength before = t.offset := by
  obtain ⟨-, before, after, hcs, hb⟩ := h.exists_tag ht
  exact ⟨before, _, hcs, hb⟩

theorem byteLength_cons_succ (c : Char) (cs : List Char) : ∃ n, byteLength (c :: cs) = n + 1 ∧
    c.utf8Size ≤ n + 1 ∧ n + 1 - c.utf8Size = byteLength cs := by
  have hc := c.utf8Size_pos
  have hl := byteLength_cons c cs
  exact ⟨c.utf8Size + byteLength cs - 1, by omega, by omega, by omega⟩

theorem charsBefore_append (before after : List Char) :
    charsBefore (byteLength before) (before ++ after) = before := by
  induction before with
  | nil => simp [charsBefore]
  | cons c cs ih =>
    obtain ⟨n, hn, -, hr⟩ := byteLength_cons_succ c cs
    rw [hn, List.cons_append, charsBefore, hr, ih]

theorem dropBytes?_append (before after : List Char) :
    dropBytes? (byteLength before) (before ++ after) = some after := by
  induction before with
  | nil => simp [dropBytes?]
  | cons c cs ih =>
    obtain ⟨n, hn, hle, hr⟩ := byteLength_cons_succ c cs
    rw [hn, List.cons_append, dropBytes?, if_pos hle, hr, ih]

/-- Rows count line feeds, and columns what follows the last of them. -/
theorem foldl_stepOver (cs : List Char) :
    cs.foldl stepOver (0, 0) = (cs.count '\n', (cs.reverse.takeWhile (· ≠ '\n')).length) := by
  induction cs using List.reverseRecOn with
  | nil => rfl
  | append_singleton cs c ih =>
    rw [List.foldl_append, ih]
    by_cases hc : c = '\n' <;> simp [stepOver, hc, List.count_append]

theorem NestingFault.toError_eq {f : NestingFault} {source before after : List Char}
    (hs : source = before ++ after) (hf : byteLength before = f.offset) (name : String) :
    f.toError source name = .misnested name f.offset (1 + before.count '\n')
      (1 + (before.reverse.takeWhile (· ≠ '\n')).length) f.cause.message := by
  have hl : locate? source f.offset =
      some ⟨f.offset, before.count '\n', (before.reverse.takeWhile (· ≠ '\n')).length⟩ := by
    have hle : ¬ byteLength source < f.offset := by
      rw [hs, byteLength_append]
      omega
    rw [locate?, if_neg hle, ← hf, hs, charsBefore_append, foldl_stepOver]
  rw [toError, hl]
  simp only [Option.map_some, Option.getD_some, Nat.add_comm]

end TagTemplate
