import TagTemplate.Text.Blank

/-! Paths as text, with `/` between their components. Repeated slashes and a dot that
does not open a path say nothing. -/

namespace TagTemplate

inductive Component where
  | root
  | here
  | up
  | name (text : List Char)
  deriving DecidableEq, Repr

namespace Path

/-- The stretches between the slashes, empty ones included. -/
def segments : List Char → List (List Char)
  | [] => [[]]
  | c :: cs => if c = '/' then [] :: segments cs else growFirst c (segments cs)

/-- What a segment contributes wherever it stands. -/
def component? (segment : List Char) : Option Component :=
  if segment = [] ∨ segment = ['.'] then none
  else if segment = ['.', '.'] then some .up
  else some (.name segment)

/-- What a path opens with beyond the components of its segments. -/
def opening : List (List Char) → List Component
  | [] :: _ :: _ => [.root]
  | ['.'] :: _ => [.here]
  | _ => []

def components (path : List Char) : List Component :=
  opening (segments path) ++ (segments path).filterMap component?

/-- A relative path taken from a base directory. -/
def join (base path : List Char) : List Char :=
  match base.getLast? with
  | none => path
  | some c => if c = '/' then base ++ path else base ++ '/' :: path

theorem segments_ne_nil (path : List Char) : segments path ≠ [] := by
  cases path with
  | nil => simp [segments]
  | cons c cs =>
    by_cases h : c = '/'
    · simp [segments, h]
    · simpa [segments, h] using growFirst_ne_nil c (segments cs)

end Path

/-- Whether two paths have the same components. -/
def samePath (a b : String) : Bool :=
  Path.components a.toList == Path.components b.toList

end TagTemplate
