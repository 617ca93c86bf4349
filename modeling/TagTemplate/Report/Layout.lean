import TagTemplate.Report.Snippet
import TagTemplate.Text.Width

/-! Snippets laid out for a terminal. Rows under a line of text are drawn column by
column, each column as wide as the character above it. -/

namespace TagTemplate

namespace Line

/-- The line without its end and the blanks before that. -/
def visible (l : Line) : List Char :=
  (l.content.reverse.dropWhile isBlank).reverse

def text (l : Line) : String :=
  String.ofList (l.visible.zipIdx.flatMap fun p => shown p.2 p.1)

/-- Columns past the visible text are one cell wide. -/
def columnWidth (l : Line) (column : Nat) : Nat :=
  match l.visible[column]? with
  | some c => shownWidth column c
  | none => 1

/-- Draws the first `n` columns: each shows its first character once and fills the
cells that are left with its second. -/
def draw (l : Line) (n : Nat) (pen : Nat → Char × Char) : String :=
  String.ofList ((List.range n).flatMap fun column =>
    match l.columnWidth column with
    | 0 => []
    | w + 1 => (pen column).1 :: List.replicate w (pen column).2)

end Line

namespace Snippet

/-- The blank margin beside rows that have no line number. -/
def margin (width : Nat) : String :=
  String.ofList (List.replicate (width + 2) ' ')

/-- A line of the source behind its number, which is set flush right. -/
def numbered (width : Nat) (l : Line) (bracket : String) : String :=
  let number := Nat.toDigits 10 (l.index + 1)
  let pad := List.replicate (width - number.length) ' '
  let flush := String.ofList (pad ++ number)
  s!" {flush} │ {bracket}{l.text}\n"

/-- One line, with the marked columns underlined and the note under their middle. -/
def renderSingle (s : Snippet) (width : Nat) (l : Line) : String :=
  let a := s.start - l.start
  let z := s.stop - l.start
  let middle := (s.start + s.stop) / 2 - l.start
  let underline (column : Nat) : Char × Char :=
    if column = middle then if a ≤ middle ∧ middle < z then ('┬', '─') else ('│', ' ')
    else if a ≤ column ∧ column < z then ('─', '─')
    else (' ', ' ')
  let arrow (column : Nat) : Char × Char :=
    if column = middle then ('╰', '─')
    else if middle < column then ('─', '─')
    else (' ', ' ')
  numbered width l "" ++
    s!"{margin width}│ {l.draw (z + 2) underline}\n" ++
    s!"{margin width}│ {l.draw (z + 2) arrow} {s.note}\n"

/-- The first and the last of several lines, joined by a bracket that ends in the note. -/
def renderSpread (s : Snippet) (width : Nat) (first last : Line) : String :=
  let n := last.content.length + 2
  let blank := last.draw n fun _ => (' ', ' ')
  let dashes := last.draw n fun _ => ('─', '─')
  numbered width first "╭─▶ " ++
    (if first.index + 1 < last.index then s!"{margin width}┆ ┆   \n" else "") ++
    numbered width last "├─▶ " ++
    s!"{margin width}│ │   {blank}\n{margin width}│ ╰───{dashes} {s.note}\n"

/-- An empty source shows the title alone. -/
def render (s : Snippet) : String :=
  let title := s!"Error: {s.title}\n"
  match s.firstLine?, s.lastLine?, s.heading? with
  | some first, some last, some heading =>
    let width := (Nat.toDigits 10 (last.index + 1)).length
    let body :=
      if first.index = last.index then s.renderSingle width first
      else s.renderSpread width first last
    let rule := String.ofList (List.replicate (width + 2) '─')
    s!"{title}{margin width}╭─[{heading}]\n{margin width}│\n{body}{rule}╯\n"
  | _, _, _ => title

end Snippet

/-- The annotated source of an error, if the error has a place in it. -/
def report? (e : TemplateError) (source : String) : Option String :=
  (Snippet.ofError? e source.toList).map Snippet.render

end TagTemplate
