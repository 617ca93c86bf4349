import TagTemplate.Text.Cut

/-! A template source as a row of pieces: plain text and tags. A tag starts at an
opening mark and ends at the first closing brace after it, and pieces written one
after the other give the source back. -/

namespace TagTemplate

inductive Piece where
  | text (content : List Char)
  | tag (body : List Char)
  deriving DecidableEq

/-- The characters a piece takes up in the source. -/
def Piece.source : Piece → List Char
  | .text content => content
  | .tag body => '{' :: '%' :: body ++ ['}']

/-- The text before the first opening mark, and what follows the mark. -/
def cutAtOpening? : List Char → Option (List Char × List Char)
  | [] => none
  | c :: cs =>
    match c, cs with
    | '{', '%' :: rest => some ([], rest)
    | c, cs => (cutAtOpening? cs).map fun r => (c :: r.1, r.2)

theorem eq_of_cutAtOpening? {cs before rest : List Char}
    (h : cutAtOpening? cs = some (before, rest)) : cs = before ++ '{' :: '%' :: rest := by
  fun_induction cutAtOpening? cs generalizing before with
  | case1 => simp at h
  | case2 rest' =>
    obtain ⟨rfl, rfl⟩ := by simpa using h
    rfl
  | case3 c cs _ ih =>
    obtain ⟨⟨b, r⟩, hr, hp⟩ := Option.map_eq_some_iff.mp h
    obtain ⟨rfl, rfl⟩ := by simpa using hp
    rw [ih hr]
    rfl

/-- The text before the first tag, its body, and what follows it. An opening mark
without a closing brace after it starts no tag. -/
def firstTag? (cs : List Char) : Option (List Char × List Char × List Char) := do
  let (before, rest) ← cutAtOpening? cs
  let (body, rest) ← cutAt? '}' rest
  return (before, body, rest)

theorem eq_of_firstTag? {cs before body rest : List Char}
    (h : firstTag? cs = some (before, body, rest)) :
    cs = before ++ (Piece.tag body).source ++ rest := by
  simp only [firstTag?, Option.bind_eq_bind, Option.bind_eq_some_iff, Prod.exists,
    Option.pure_def, Option.some.injEq, Prod.mk.injEq] at h
  obtain ⟨b, r, ho, b', r', hc, rfl, rfl, rfl⟩ := h
  rw [eq_of_cutAtOpening? ho, eq_of_cutAt? hc]
  simp [Piece.source]

theorem length_lt_of_firstTag? {cs before body rest : List Char}
    (h : firstTag? cs = some (before, body, rest)) : rest.length < cs.length := by
  rw [eq_of_firstTag? h]
  simp [Piece.source]
  omega

/-- The pieces of a source. Texts may be empty, and a tag always stands between two. -/
def pieces (cs : List Char) : List Piece :=
  match _h : firstTag? cs with
  | none => [.text cs]
  | some (before, body, rest) => .text before :: .tag body :: pieces rest
termination_by cs.length
decreasing_by exact length_lt_of_firstTag? _h

/-- No character of the source is lost. -/
theorem flatMap_source_pieces (cs : List Char) : (pieces cs).flatMap Piece.source = cs := by
  fun_induction pieces cs with
  | case1 cs h => simp [Piece.source]
  | case2 cs before body rest h ih =>
    rw [eq_of_firstTag? h]
    simp [ih, Piece.source]

end TagTemplate
