/-! Places in a text. Offsets and spans count UTF-8 bytes; rows and columns count
characters from zero, and only a line feed ends a row. -/

namespace TagTemplate

/-- A byte range, its end excluded. -/
structure Span where
  start : Nat
  stop : Nat
  deriving DecidableEq, Repr

/-- A range that ends before it starts has length zero. -/
def Span.length (s : Span) : Nat :=
  s.stop - s.start

def Span.isEmpty (s : Span) : Bool :=
  s.length == 0

def byteLength : List Char → Nat
  | [] => 0
  | c :: cs => c.utf8Size + byteLength cs

/-- The characters whose first byte lies before the offset. -/
def charsBefore : Nat → List Char → List Char
  | 0, _ => []
  | _, [] => []
  | offset + 1, c :: cs => c :: charsBefore (offset + 1 - c.utf8Size) cs

/-- What follows the first `offset` bytes, if they end between two characters. -/
def dropBytes? : Nat → List Char → Option (List Char)
  | 0, cs => some cs
  | _, [] => none
  | offset + 1, c :: cs =>
    if c.utf8Size ≤ offset + 1 then dropBytes? (offset + 1 - c.utf8Size) cs else none

structure Location where
  offset : Nat
  row : Nat
  column : Nat
  deriving DecidableEq, Repr

/-- Row and column one character further on. -/
def stepOver (place : Nat × Nat) (c : Char) : Nat × Nat :=
  if c = '\n' then (place.1 + 1, 0) else (place.1, place.2 + 1)

/-- The row and column at a byte offset; an offset past the end has none. -/
def locate? (source : List Char) (offset : Nat) : Option Location :=
  if byteLength source < offset then none
  else
    let place := (charsBefore offset source).foldl stepOver (0, 0)
    some ⟨offset, place.1, place.2⟩

/-- The number of characters that start before a byte offset. -/
def charOffset (source : List Char) (offset : Nat) : Nat :=
  (charsBefore offset source).length

@[simp] theorem byteLength_nil : byteLength [] = 0 := rfl

@[simp] theorem byteLength_cons (c : Char) (cs : List Char) :
    byteLength (c :: cs) = c.utf8Size + byteLength cs := rfl

@[simp] theorem byteLength_append (s t : List Char) :
    byteLength (s ++ t) = byteLength s + byteLength t := by
  induction s with
  | nil => simp
  | cons c cs ih => rw [List.cons_append, byteLength_cons, ih, byteLength_cons, Nat.add_assoc]

theorem charsBefore_isPrefix (offset : Nat) (cs : List Char) : charsBefore offset cs <+: cs := by
  fun_induction charsBefore offset cs with
  | case1 cs => exact List.nil_prefix
  | case2 => exact List.nil_prefix
  | case3 offset c cs ih => exact (List.prefix_cons_inj c).mpr ih

end TagTemplate
