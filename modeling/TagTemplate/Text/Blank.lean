/-! White space is what Unicode's White_Space property names. A text is cut into
words at it, and trimmed of it at both ends. -/

namespace TagTemplate

/-- The code points with the White_Space property, as ranges in increasing order. -/
def blankRanges : List (Nat × Nat) :=
  [(0x09, 0x0D), (0x20, 0x20), (0x85, 0x85), (0xA0, 0xA0), (0x1680, 0x1680),
   (0x2000, 0x200A), (0x2028, 0x2029), (0x202F, 0x202F), (0x205F, 0x205F), (0x3000, 0x3000)]

def isBlank (c : Char) : Bool :=
  blankRanges.any fun r => r.1 ≤ c.toNat && c.toNat ≤ r.2

/-- Puts a character in front of the first word. -/
def growFirst (c : Char) : List (List Char) → List (List Char)
  | [] => [[c]]
  | w :: ws => (c :: w) :: ws

/-- The maximal runs of characters that are not blank, in order. -/
def words : List Char → List (List Char)
  | [] => []
  | c :: cs =>
    if isBlank c then words cs
    else match cs with
      | [] => [[c]]
      | d :: _ => if isBlank d then [c] :: words cs else growFirst c (words cs)

def trimBlank (cs : List Char) : List Char :=
  ((cs.dropWhile isBlank).reverse.dropWhile isBlank).reverse

theorem growFirst_ne_nil (c : Char) (ws : List (List Char)) : growFirst c ws ≠ [] := by
  cases ws <;> simp [growFirst]

theorem flatten_growFirst (c : Char) (ws : List (List Char)) :
    (growFirst c ws).flatten = c :: ws.flatten := by
  cases ws <;> simp [growFirst]

end TagTemplate
