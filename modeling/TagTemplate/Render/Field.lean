import TagTemplate.Expr.Condition
import TagTemplate.Render.Scope

/-! Form fields: the attributes an input tag spells out, and the element it becomes. -/

namespace TagTemplate

def escapeChar : Char → List Char
  | '&' => "&amp;".toList
  | '<' => "&lt;".toList
  | '>' => "&gt;".toList
  | '"' => "&quot;".toList
  | '\'' => "&#39;".toList
  | c => [c]

/-- Text that can stand in an attribute value. -/
def escapeHtml (s : String) : String :=
  String.ofList (s.toList.flatMap escapeChar)

/-- An attribute name starts with an ASCII letter or an underscore. -/
def startsName (c : Char) : Bool :=
  c.isAlpha || c == '_'

def continuesName (c : Char) : Bool :=
  c.isAlphanum || c == '_' || c == ':' || c == '-'

/-- A name, an equals sign and a quoted value at the start of a text, and what follows. -/
def attribute? : List Char → Option ((List Char × List Char) × List Char)
  | [] => none
  | c :: cs =>
    if startsName c then
      match cs.dropWhile continuesName with
      | '=' :: '"' :: rest =>
        (cutAt? '"' rest).map fun r => ((c :: cs.takeWhile continuesName, r.1), r.2)
      | _ => none
    else none

theorem length_lt_of_attribute? {cs : List Char} {kv : List Char × List Char} {rest : List Char}
    (h : attribute? cs = some (kv, rest)) : rest.length < cs.length := by
  cases cs with
  | nil => simp [attribute?] at h
  | cons c cs =>
    simp only [attribute?] at h
    split at h
    · split at h
      · rename_i rest' hd
        obtain ⟨⟨v, r⟩, hr, hp⟩ := Option.map_eq_some_iff.mp h
        obtain ⟨-, rfl⟩ := by simpa using hp
        have hl := congrArg List.length hd
        have hle := (List.dropWhile_sublist continuesName (l := cs)).length_le
        rw [eq_of_cutAt? hr] at hl
        simp only [List.length_cons, List.length_append] at hl ⊢
        omega
      · simp at h
    · simp at h

/-- The attributes found from left to right, none overlapping another. -/
def attributes (cs : List Char) : List (List Char × List Char) :=
  match _h : attribute? cs with
  | some (kv, rest) => kv :: attributes rest
  | none =>
    match cs with
    | [] => []
    | _ :: cs => attributes cs
termination_by cs.length
decreasing_by
  · exact length_lt_of_attribute? _h
  · simp

/-- What an input tag asks for; of a repeated attribute the last one counts. -/
structure Field where
  name : Option String
  kind : String
  value : String
  group : String
  others : List (String × String)

namespace Field

def set (f : Field) (key value : String) : Field :=
  match key with
  | "name" => { f with name := some value }
  | "type" => { f with kind := value }
  | "value" => { f with value := value }
  | "group" => { f with group := value }
  | key => { f with others := f.others ++ [(key, value)] }

def ofArgs (args : List String) : Field :=
  (attributes (joinWords args).toList).foldl
    (fun f kv => f.set (String.ofList kv.1) (String.ofList kv.2)) ⟨none, "text", "", "general", []⟩

def othersText (others : List (String × String)) : String :=
  String.join (others.map fun kv => s!" {kv.1}=\"{kv.2}\"")

/-- The element; a submitted value takes the place of the written one. -/
def render (s : Scope) (args : List String) : Except RenderFault String :=
  let f := ofArgs args
  match f.name with
  | none => .error .missingFieldName
  | some name =>
    let value := match s.submitted? name with
      | some submitted => escapeHtml submitted
      | none => f.value
    .ok (s!"<input type=\"{f.kind}\" id=\"form_{f.group}_{name}\" name=\"{name}\" " ++
      s!"value=\"{value}\"{othersText f.others}>")

end Field

end TagTemplate
