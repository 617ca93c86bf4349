import TagTemplate.Text.Blank
import TagTemplate.Text.Combining
import TagTemplate.Text.Wide

/-! How many terminal cells a character takes: two if it is wide, none if it sits on
the character before it, else one. -/

namespace TagTemplate

/-- Characters whose width their properties do not tell: the Khmer vowel qaa and sign
beyyal, which stand for more than one letter, and the Tifinagh joiner, which is shown
where it joins nothing. -/
def exceptionalWidths : List (Nat × Nat) :=
  [(0x17A4, 2), (0x17D8, 3), (0x2D7F, 1)]

def cellWidth (c : Char) : Nat :=
  let within (r : Nat × Nat) : Bool := r.1 ≤ c.toNat && c.toNat ≤ r.2
  match exceptionalWidths.lookup c.toNat with
  | some width => width
  | none => if combiningRanges.any within then 0 else if wideRanges.any within then 2 else 1

/-- Tab stops are four columns apart. -/
def tabStop : Nat := 4

/-- The cells of a character that stands in a column of its line. A tab reaches to the
next tab stop, and every other blank counts as one space. -/
def shownWidth (column : Nat) (c : Char) : Nat :=
  if c = '\t' then tabStop - column % tabStop
  else if isBlank c then 1
  else cellWidth c

/-- A character as it is shown in a column of its line. -/
def shown (column : Nat) (c : Char) : List Char :=
  if isBlank c then List.replicate (shownWidth column c) ' ' else [c]

end TagTemplate
