/-! Cutting a text at a character that marks its parts. -/

namespace TagTemplate

/-- What stands before the first occurrence of a character, and what after it. -/
def cutAt? (mark : Char) : List Char → Option (List Char × List Char)
  | [] => none
  | c :: cs => if c = mark then some ([], cs) else (cutAt? mark cs).map fun r => (c :: r.1, r.2)

/-- The text without the character it ends in. -/
def dropEnd? (mark : Char) (cs : List Char) : Option (List Char) :=
  if cs.getLast? = some mark then some cs.dropLast else none

theorem eq_of_cutAt? {mark : Char} {cs before rest : List Char}
    (h : cutAt? mark cs = some (before, rest)) : cs = before ++ mark :: rest := by
  induction cs generalizing before with
  | nil => simp [cutAt?] at h
  | cons c cs ih =>
    by_cases hc : c = mark
    · obtain ⟨rfl, rfl⟩ := by simpa [cutAt?, hc] using h
      simp [hc]
    · rw [cutAt?, if_neg hc, Option.map_eq_some_iff] at h
      obtain ⟨⟨b, r⟩, hr, hp⟩ := h
      obtain ⟨rfl, rfl⟩ := by simpa using hp
      rw [ih hr]
      rfl

theorem notMem_of_cutAt? {mark : Char} {cs before rest : List Char}
    (h : cutAt? mark cs = some (before, rest)) : mark ∉ before := by
  induction cs generalizing before with
  | nil => simp [cutAt?] at h
  | cons c cs ih =>
    by_cases hc : c = mark
    · obtain ⟨rfl, rfl⟩ := by simpa [cutAt?, hc] using h
      simp
    · rw [cutAt?, if_neg hc, Option.map_eq_some_iff] at h
      obtain ⟨⟨b, r⟩, hr, hp⟩ := h
      obtain ⟨rfl, rfl⟩ := by simpa using hp
      simpa [Ne.symm hc] using ih hr

theorem cutAt?_eq_none_iff {mark : Char} {cs : List Char} :
    cutAt? mark cs = none ↔ mark ∉ cs := by
  induction cs with
  | nil => simp [cutAt?]
  | cons c cs ih =>
    by_cases hc : c = mark
    · simp [cutAt?, hc]
    · simp [cutAt?, hc, ih, Ne.symm hc]

theorem cutAt?_append {mark : Char} {before : List Char} (h : mark ∉ before) (rest : List Char) :
    cutAt? mark (before ++ mark :: rest) = some (before, rest) := by
  induction before with
  | nil => simp [cutAt?]
  | cons c cs ih =>
    simp only [List.mem_cons, not_or] at h
    simp [cutAt?, Ne.symm h.1, ih h.2]

theorem cutAt?_eq_some_iff {mark : Char} {cs before rest : List Char} :
    cutAt? mark cs = some (before, rest) ↔ cs = before ++ mark :: rest ∧ mark ∉ before := by
  constructor
  · intro h
    exact ⟨eq_of_cutAt? h, notMem_of_cutAt? h⟩
  · rintro ⟨rfl, h⟩
    exact cutAt?_append h rest

theorem eq_of_dropEnd? {mark : Char} {cs inner : List Char}
    (h : dropEnd? mark cs = some inner) : cs = inner ++ [mark] := by
  unfold dropEnd? at h
  split at h
  · rename_i hl
    obtain ⟨ys, rfl⟩ := List.getLast?_eq_some_iff.mp hl
    obtain rfl := by simpa using h
    rfl
  · simp at h

theorem dropEnd?_eq_some_iff {mark : Char} {cs inner : List Char} :
    dropEnd? mark cs = some inner ↔ cs = inner ++ [mark] := by
  constructor
  · exact eq_of_dropEnd?
  · rintro rfl
    simp [dropEnd?]

section

variable {p : Char → Bool} {run rest : List Char}

theorem takeWhile_run (h : ∀ c ∈ run, p c = true) (hr : ∀ c ∈ rest.head?, p c = false) :
    (run ++ rest).takeWhile p = run := by
  have hnil : rest.takeWhile p = [] := by
    cases rest with
    | nil => rfl
    | cons c cs => simp [hr c rfl]
  rw [List.takeWhile_append_of_pos h, hnil, List.append_nil]

theorem dropWhile_run (h : ∀ c ∈ run, p c = true) (hr : ∀ c ∈ rest.head?, p c = false) :
    (run ++ rest).dropWhile p = rest := by
  have hself : rest.dropWhile p = rest := by
    cases rest with
    | nil => rfl
    | cons c cs => simp [hr c rfl]
  rw [List.dropWhile_append_of_pos h, hself]

end

end TagTemplate
