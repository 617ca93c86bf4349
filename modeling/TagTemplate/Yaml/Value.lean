import TagTemplate.Yaml.Node
import TagTemplate.Yaml.Scalar

/-! The values that documents spell. A mention of an anchor spells what its node does, as
often as it is come by; a bound on that and on the nesting of collections ends the
walk through a node that mentions itself. -/

namespace TagTemplate.Yaml

/-- A walk through a document, with the number of mentions that may still be followed. -/
abbrev Walk := StateT Nat Option

namespace Document

/-- In a walk the mentions are at most this many times as many as the parts. -/
def mentionLimit : Nat := 100

/-- The result of a walk through the whole document. -/
def walk? {α : Type} (d : Document) (w : Walk α) : Option α :=
  (w.run (mentionLimit * d.parts)).map (·.1)

/-- The node that an anchor names: the last to start of those with its number. -/
def named? (d : Document) (anchor : Nat) : Option Yaml :=
  d.anchored.reverse.lookup anchor

/-- A node itself, or the one that it mentions. -/
def follow (d : Document) : Yaml → Walk Yaml
  | mention anchor => do
    match ← get, d.named? anchor with
    | left + 1, some y =>
      set left
      return y
    | _, _ => failure
  | y => return y

/-- The value at a place where so many collections may still nest. Keys have to be
text. -/
def value (d : Document) (depth : Nat) (y : Yaml) : Walk Value := do
  match ← d.follow y, depth with
  | scalar demand plain s, _ => liftM (scalarValue? demand plain s)
  | sequence demand items, depth + 1 =>
    if demand = .foreign then failure
    return .list (← items.mapM (d.value depth))
  | mapping demand members, depth + 1 =>
    if demand = .foreign then failure
    let pairs ← members.mapM fun m => do
      match ← d.value depth m.1 with
      | .text key => return (key, ← d.value depth m.2)
      | _ => failure
    return .map (Entries.ofPairs pairs)
  | _, _ => failure

/-- The text of a scalar as it is written, whatever its value. -/
def text (d : Document) (y : Yaml) : Walk String := do
  match ← d.follow y with
  | scalar _ _ s => return s
  | _ => failure

/-- The members of a mapping; where nothing is written, there are none. -/
def members (d : Document) (y : Yaml) : Walk (List (Yaml × Yaml)) := do
  match ← d.follow y with
  | mapping _ members => return members
  | scalar _ true "" => return []
  | _ => failure

end Document

end TagTemplate.Yaml
