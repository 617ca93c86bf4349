import TagTemplate.Text.Hex

/-! Tags are byte strings: an escape in one names a byte. Each character that is written
in escapes has as many bytes as its first byte announces; otherwise the bytes are free,
so a tag need not be the encoding of a text. -/

namespace TagTemplate.Yaml

abbrev Bytes := List UInt8

/-- How many bytes follow the first byte of a character. -/
def trailingBytes? (first : Nat) : Option Nat :=
  if first < 0x80 then some 0
  else if 0xC0 ≤ first ∧ first < 0xE0 then some 1
  else if 0xE0 ≤ first ∧ first < 0xF0 then some 2
  else if 0xF0 ≤ first ∧ first < 0xF8 then some 3
  else none

/-- The bytes that ASCII characters and escapes stand for, `due` of which are still to
come as escapes to complete a character. -/
def escapedBytes? (due : Nat) : List Char → Option Bytes
  | [] => if due = 0 then some [] else none
  | '%' :: a :: b :: cs => do
    let n ← hexNumber? [a, b]
    match due with
    | 0 => return n.toUInt8 :: (← escapedBytes? (← trailingBytes? n) cs)
    | due + 1 =>
      if 0x80 ≤ n ∧ n < 0xC0 then return n.toUInt8 :: (← escapedBytes? due cs) else none
  | c :: cs =>
    if due = 0 ∧ c ≠ '%' then do return c.toNat.toUInt8 :: (← escapedBytes? 0 cs) else none

/-- A tag, or a part of one, ends in front of its first zero byte. -/
def tagBytes? (cs : List Char) : Option Bytes :=
  (escapedBytes? 0 cs).map fun bytes => bytes.takeWhile (· != 0)

def asciiBytes (s : String) : Bytes :=
  s.toList.map fun c => c.toNat.toUInt8

/-- The handles that every document knows, and what they stand for. -/
def standardHandles : List (String × Bytes) :=
  [("!", asciiBytes "!"), ("!!", asciiBytes "tag:yaml.org,2002:")]

/-- What a tag says about a node: the type of a scalar, or that the node belongs to an
application. -/
inductive Demand where
  | nothing
  | bool
  | int
  | float
  | null
  | text
  | foreign
  deriving DecidableEq, Repr

namespace Demand

/-- The tags that ask for a reading of their own; all others take a scalar as text. -/
def standard : List (Bytes × Demand) :=
  [("bool", bool), ("int", int), ("float", float), ("null", null)].map fun e =>
    (asciiBytes ("tag:yaml.org,2002:" ++ e.1), e.2)

/-- A foreign tag starts with an exclamation mark. If what follows it is no text, the
tag says nothing. -/
def ofTag (tag : Bytes) : Demand :=
  match tag with
  | 0x21 :: name => if (String.fromUTF8? ⟨name.toArray⟩).isSome then foreign else nothing
  | _ => (standard.lookup tag).getD text

end Demand

end TagTemplate.Yaml
