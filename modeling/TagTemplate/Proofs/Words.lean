import TagTemplate.Proofs.Joining
import TagTemplate.Template.Tag

/-! Cutting into words undoes writing words with blanks between them, and what that makes
of the bodies of tags. -/

namespace TagTemplate

theorem words_of_blank {c : Char} (h : isBlank c = true) (cs : List Char) :
    words (c :: cs) = words cs := by
  rw [words.eq_def]
  exact if_pos h

theorem words_of_solid {c : Char} (h : isBlank c = false) (cs : List Char) :
    words (c :: cs) = match cs with
      | [] => [[c]]
      | d :: _ => if isBlank d then [c] :: words cs else growFirst c (words cs) := by
  rw [words.eq_def]
  exact if_neg (by simp [h])

theorem words_gap {gap : List Char} (h : ∀ c ∈ gap, isBlank c = true) (cs : List Char) :
    words (gap ++ cs) = words cs := by
  induction gap with
  | nil => rfl
  | cons c gap ih =>
    rw [List.cons_append, words_of_blank (h c (by simp))]
    exact ih fun d hd => h d (by simp [hd])

theorem words_of_gap {gap : List Char} (h : ∀ c ∈ gap, isBlank c = true) : words gap = [] := by
  have hg := words_gap h []
  rwa [List.append_nil] at hg

/-- A word ends where a blank or nothing follows it. -/
theorem words_word {w rest : List Char} (hne : w ≠ []) (hw : ∀ c ∈ w, isBlank c = false)
    (hr : ∀ c ∈ rest.head?, isBlank c = true) : words (w ++ rest) = w :: words rest := by
  induction w with
  | nil => exact absurd rfl hne
  | cons c w ih =>
    rw [List.cons_append, words_of_solid (hw c (by simp))]
    cases w with
    | nil =>
      cases rest with
      | nil => rfl
      | cons d rest => exact if_pos (hr d (by simp))
    | cons d w =>
      have hd : ¬ isBlank d = true := by simp [hw d (by simp)]
      have hrest := ih (by simp) fun e he => hw e (by simp [he])
      rw [List.cons_append] at hrest ⊢
      simp only [if_neg hd, hrest, growFirst]

theorem words_word_blank {w : List Char} (hne : w ≠ []) (hw : ∀ c ∈ w, isBlank c = false)
    (cs : List Char) : words (w ++ ' ' :: cs) = w :: words cs := by
  have hb : ∀ c ∈ [' '], isBlank c = true := by
    intro c hc
    obtain rfl := List.mem_singleton.mp hc
    decide
  rw [words_word hne hw (by simp; decide), ← words_gap hb cs]
  rfl

end TagTemplate
