import TagTemplate.Text.Unseen

/-! Text between double quotes, as it is shown in messages: what cannot be seen is
written by its code point. -/

namespace TagTemplate

def isUnseen (c : Char) : Bool :=
  unseenRanges.any fun r => r.1 ≤ c.toNat && c.toNat ≤ r.2

def showChar (c : Char) : List Char :=
  match c with
  | '\x00' => ['\\', '0']
  | '\t' => ['\\', 't']
  | '\r' => ['\\', 'r']
  | '\n' => ['\\', 'n']
  | '"' => ['\\', '"']
  | '\\' => ['\\', '\\']
  | c =>
    if isUnseen c then ['\\', 'u', '\x7b'] ++ Nat.toDigits 16 c.toNat ++ ['\x7d'] else [c]

def showQuoted (s : String) : String :=
  String.ofList ('"' :: (s.toList.flatMap showChar ++ ['"']))

end TagTemplate
