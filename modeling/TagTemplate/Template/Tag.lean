import TagTemplate.Text.Blank

/-! What a tag says. Its body is cut into words; the first word names the construct,
and the others are its arguments. -/

namespace TagTemplate

inductive Block where
  | conditional
  | loop
  deriving DecidableEq, Repr

/-- The word that opens a block, and after a slash closes it. -/
def Block.name : Block → String
  | conditional => "if"
  | loop => "foreach"

inductive Tag where
  | blank
  | close (name : String)
  | fetch (reference : String)
  | localeText (key : String)
  | field (args : List String)
  | openBlock (block : Block) (args : List String)
  | elseIf (args : List String)
  | otherwise
  | unknown
  deriving DecidableEq

/-- The short marks need something after them in the same word, the long names stand
alone in theirs. -/
def Tag.ofWords : List (List Char) → Tag
  | [] => .blank
  | w :: ws =>
    let args := ws.map String.ofList
    match w with
    | '/' :: name => .close (String.ofList name)
    | '?' :: c :: cs => .fetch (String.ofList (c :: cs))
    | '!' :: c :: cs => .localeText (String.ofList (c :: cs))
    | w =>
      match String.ofList w with
      | "input" => .field args
      | "if" => .openBlock .conditional args
      | "foreach" => .openBlock .loop args
      | "elseif" => .elseIf args
      | "else" => .otherwise
      | _ => .unknown

def Tag.ofBody (body : List Char) : Tag :=
  ofWords (words body)

end TagTemplate
