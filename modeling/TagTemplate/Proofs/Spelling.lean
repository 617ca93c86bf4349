import TagTemplate.Proofs.Words
import TagTemplate.Template.Piece

/-! Forests of constructs as they may be written. A tag is a row of words with blanks
before, between and after them, and what it says does not depend on the blanks. -/

namespace TagTemplate

structure Blanks where
  chars : List Char
  blank : ∀ c ∈ chars, isBlank c = true

def Blanks.nothing : Blanks :=
  ⟨[], by simp⟩

def Blanks.ofChar (c : Char) (h : isBlank c = true) : Blanks :=
  ⟨[c], by simpa using h⟩

structure Word where
  chars : List Char
  ne_nil : chars ≠ []
  solid : ∀ c ∈ chars, isBlank c = false
  unclosed : '}' ∉ chars

def Word.ofChar (c : Char) (h : isBlank c = false) (hc : '}' ≠ c) : Word :=
  ⟨[c], by simp, by simpa using h, by simpa using hc⟩

/-- A word that is set off from the one before it. -/
structure Argument where
  gap : Blanks
  apart : gap.chars ≠ []
  word : Word

/-- The blanks around the words of a tag. -/
structure Margins where
  before : Blanks
  after : Blanks

/-- A text that stands between tags. -/
structure Run where
  chars : List Char
  ne_nil : chars ≠ []
  unopened : ¬ ['{', '%'] <:+: chars

structure Alternative (τ : Type) where
  margins : Margins
  guard : Option (List Argument)
  body : List τ

inductive Construct where
  | text (run : Run)
  | fetch (margins : Margins) (reference : Word)
  | localeText (margins : Margins) (key : Word)
  | field (margins : Margins) (args : List Argument)
  | conditional (opening : Margins) (args : List Argument) (body : List Construct)
      (later : List (Alternative Construct)) (closing : Margins)
  | loop (opening : Margins) (args : List Argument) (body : List Construct) (closing : Margins)

def Argument.chars (a : Argument) : List Char :=
  a.gap.chars ++ a.word.chars

def Argument.text (a : Argument) : String :=
  String.ofList a.word.chars

/-- The body of a tag, from its first word on and with its blanks. -/
def Margins.body (m : Margins) (head : List Char) (args : List Argument) : List Char :=
  m.before.chars ++ (head ++ (args.flatMap Argument.chars ++ m.after.chars))

def Margins.tag (m : Margins) (head : List Char) (args : List Argument) : List Char :=
  (Piece.tag (m.body head args)).source

def Margins.opening (m : Margins) (block : Block) (args : List Argument) : List Char :=
  m.tag block.name.toList args

def Margins.branching (m : Margins) : Option (List Argument) → List Char
  | some args => m.tag "elseif".toList args
  | none => m.tag "else".toList []

def Margins.closing (m : Margins) (block : Block) : List Char :=
  m.tag ('/' :: block.name.toList) []

namespace Construct

def isText : Construct → Bool
  | text _ => true
  | _ => false

mutual

/-- The source of a construct. -/
def spell : Construct → List Char
  | text run => run.chars
  | fetch margins reference => margins.tag ('?' :: reference.chars) []
  | localeText margins key => margins.tag ('!' :: key.chars) []
  | field margins args => margins.tag "input".toList args
  | conditional opening args body later closing =>
    opening.opening .conditional args ++ (spellAll body ++ spellLater later ++
      closing.closing .conditional)
  | loop opening args body closing =>
    opening.opening .loop args ++ (spellAll body ++ closing.closing .loop)

def spellAll : List Construct → List Char
  | [] => []
  | c :: cs => c.spell ++ spellAll cs

def spellLater : List (Alternative Construct) → List Char
  | [] => []
  | a :: as => spellAlternative a ++ spellLater as

def spellAlternative : Alternative Construct → List Char
  | ⟨margins, guard, body⟩ => margins.branching guard ++ spellAll body

end

mutual

/-- No two texts stand side by side. -/
def separated : Construct → Bool
  | conditional _ _ body later _ => separatedAll body && separatedLater later
  | loop _ _ body _ => separatedAll body
  | _ => true

def separatedAll : List Construct → Bool
  | [] => true
  | c :: cs => c.separated && !(c.isText && cs.head?.any isText) && separatedAll cs

def separatedLater : List (Alternative Construct) → Bool
  | [] => true
  | a :: as => separatedAlternative a && separatedLater as

def separatedAlternative : Alternative Construct → Bool
  | ⟨_, _, body⟩ => separatedAll body

end

end Construct

theorem isBlank_brace : isBlank '}' = false := by decide

theorem Blanks.unclosed (g : Blanks) : '}' ∉ g.chars := by
  intro h
  have hb := g.blank _ h
  rw [isBlank_brace] at hb
  exact nomatch hb

theorem isBlank_head_arguments (args : List Argument) (after : Blanks) :
    ∀ c ∈ (args.flatMap Argument.chars ++ after.chars).head?, isBlank c = true := by
  intro c hc
  cases args with
  | nil => exact after.blank c (List.mem_of_mem_head? hc)
  | cons a args =>
    refine a.gap.blank c (List.mem_of_mem_head? ?_)
    simpa [Argument.chars, List.append_assoc, a.apart] using hc

theorem words_arguments (args : List Argument) (after : Blanks) :
    words (args.flatMap Argument.chars ++ after.chars) = args.map fun a => a.word.chars := by
  induction args with
  | nil => exact words_of_gap after.blank
  | cons a args ih =>
    rw [List.flatMap_cons, Argument.chars, List.append_assoc, List.append_assoc,
      words_gap a.gap.blank,
      words_word a.word.ne_nil a.word.solid (isBlank_head_arguments args after), ih, List.map_cons]

namespace Margins

variable (m : Margins) {head : List Char}

theorem words_body (hne : head ≠ []) (hs : ∀ c ∈ head, isBlank c = false)
    (args : List Argument) :
    words (m.body head args) = head :: args.map fun a => a.word.chars := by
  rw [body, words_gap m.before.blank,
    words_word hne hs (isBlank_head_arguments args m.after), words_arguments]

/-- The arguments of a tag that is written with blanks. -/
theorem ofBody_body (hne : head ≠ []) (hs : ∀ c ∈ head, isBlank c = false)
    (args : List Argument) :
    Tag.ofBody (m.body head args) = Tag.ofWords (head :: args.map fun a => a.word.chars) := by
  rw [Tag.ofBody, m.words_body hne hs]

theorem unclosed_body (h : '}' ∉ head) (args : List Argument) : '}' ∉ m.body head args := by
  have ha : '}' ∉ args.flatMap Argument.chars := by
    intro hm
    obtain ⟨a, -, hm⟩ := List.mem_flatMap.mp hm
    rcases List.mem_append.mp hm with hm | hm
    · exact a.gap.unclosed hm
    · exact a.word.unclosed hm
  simp [body, h, ha, m.before.unclosed, m.after.unclosed]

end Margins

end TagTemplate
