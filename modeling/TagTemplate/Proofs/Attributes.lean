import TagTemplate.Proofs.TagScan
import TagTemplate.Render.Field

/-! Attributes are read back from what spells them. The search for names with quoted values
is in step with the spelling at every attribute, whatever the values hold, and a field takes
the last value of each attribute it knows and carries the others through. -/

namespace TagTemplate

/-- A letter or an underscore, and then letters, digits, underscores, colons and hyphens. -/
def isAttributeName : List Char → Bool
  | [] => false
  | c :: cs => (c.isAlpha || c == '_') && cs.all fun d => d.isAlphanum || ['_', ':', '-'].contains d

/-- Names with values in quotes, with spaces between them. -/
inductive Spells : List Char → List (String × String) → Prop
  | nothing : Spells [] []
  | space {cs : List Char} {pairs : List (String × String)} (later : Spells cs pairs) :
      Spells (' ' :: cs) pairs
  | pair {key value : String} {cs : List Char} {pairs : List (String × String)}
      (name : isAttributeName key.toList = true) (closed : '"' ∉ value.toList)
      (apart : ∀ c ∈ cs.head?, c = ' ') (later : Spells cs pairs) :
      Spells (key.toList ++ '=' :: '"' :: (value.toList ++ '"' :: cs)) ((key, value) :: pairs)

theorem continuesName_iff (c : Char) : continuesName c = true ↔
    (c.isAlphanum || ['_', ':', '-'].contains c) = true := by
  simp [continuesName, or_assoc]

theorem attribute?_spelled {key value : List Char} (hk : isAttributeName key = true)
    (hv : '"' ∉ value) (rest : List Char) :
    attribute? (key ++ '=' :: '"' :: (value ++ '"' :: rest)) = some ((key, value), rest) := by
  cases key with
  | nil => cases hk
  | cons c cs =>
    obtain ⟨hc, hcs⟩ := Bool.and_eq_true_iff.mp hk
    have hstart : startsName c = true := hc
    have hname : ∀ d ∈ cs, continuesName d = true := by
      intro d hd
      exact (continuesName_iff d).mpr (List.all_eq_true.mp hcs d hd)
    -- The equals sign is where the name has to end.
    have hend : ∀ d ∈ ('=' :: '"' :: (value ++ '"' :: rest)).head?, continuesName d = false := by
      intro d hd
      obtain rfl := Option.some.inj hd
      decide
    rw [List.cons_append]
    simp only [attribute?, hstart, if_true, takeWhile_run hname hend, dropWhile_run hname hend,
      cutAt?_append hv, Option.map_some]

theorem attributes_of_some {cs rest : List Char} {kv : List Char × List Char}
    (h : attribute? cs = some (kv, rest)) : attributes cs = kv :: attributes rest := by
  rw [attributes.eq_def]
  split
  · rename_i hs
    rw [h] at hs
    obtain ⟨rfl, rfl⟩ := by simpa using hs
    rfl
  · simp_all

theorem attributes_space (cs : List Char) : attributes (' ' :: cs) = attributes cs := by
  have hn : attribute? (' ' :: cs) = none := by
    have hs : startsName ' ' = false := by decide
    simp [attribute?, hs]
  rw [attributes.eq_def]
  split
  · simp_all
  · rfl

theorem attributes_nil : attributes [] = [] := by
  rw [attributes.eq_def]
  split
  · rename_i h
    cases h
  · rfl

/-- The search finds what is spelled, and nothing else. -/
theorem attributes_of_spells {cs : List Char} {pairs : List (String × String)}
    (h : Spells cs pairs) : attributes cs = pairs.map fun kv => (kv.1.toList, kv.2.toList) := by
  induction h with
  | nothing => exact attributes_nil
  | space _ ih => rw [attributes_space, ih]
  | pair name closed _ _ ih =>
    rw [attributes_of_some (attribute?_spelled name closed _), ih]
    rfl

/-- The value that is written last for a key. -/
def lastValue? (pairs : List (String × String)) (key : String) : Option String :=
  ((pairs.filter fun kv => kv.1 == key).map Prod.snd).getLast?

theorem lastValue?_concat (pairs : List (String × String)) (key value k : String) :
    lastValue? (pairs ++ [(key, value)]) k = if key = k then some value else lastValue? pairs k := by
  by_cases hk : key = k <;> simp [lastValue?, hk]

theorem lastValue?_eq_none_iff {pairs : List (String × String)} {key : String} :
    lastValue? pairs key = none ↔ key ∉ pairs.map Prod.fst := by
  simp only [lastValue?, List.getLast?_eq_none_iff, List.map_eq_nil_iff, List.filter_eq_nil_iff,
    beq_iff_eq, List.mem_map, not_exists, not_and]

namespace Field

/-- The attributes with a meaning of their own. -/
def known : List String := ["type", "group", "name", "value"]

/-- The field that pairs of names and values describe. -/
def described (pairs : List (String × String)) : Field where
  name := lastValue? pairs "name"
  kind := (lastValue? pairs "type").getD "text"
  value := (lastValue? pairs "value").getD ""
  group := (lastValue? pairs "group").getD "general"
  others := pairs.filter fun kv => kv.1 ∉ known

theorem set_described (pairs : List (String × String)) (key value : String) :
    (described pairs).set key value = described (pairs ++ [(key, value)]) := by
  unfold set
  split <;> simp_all [described, known, lastValue?_concat, eq_comm]

theorem ofArgs_of_spells {args : List String} {pairs : List (String × String)}
    (h : Spells (joinWords args).toList pairs) : ofArgs args = described pairs := by
  have hfold : ∀ ps : List (String × String),
      ps.foldl (fun f kv => f.set kv.1 kv.2) ⟨none, "text", "", "general", []⟩ = described ps := by
    intro ps
    induction ps using List.reverseRecOn with
    | nil => rfl
    | append_singleton ps kv ih =>
      rw [List.foldl_append, ih]
      exact set_described ps kv.1 kv.2
  rw [ofArgs, attributes_of_spells h, List.foldl_map]
  simpa only [String.ofList_toList] using hfold pairs

end Field

/-- An input tag whose arguments spell pairs is read as these pairs in their order. Without a
name it fails; otherwise the element has the last type, group, name and value, or what stands
for them, and then every other pair as it was written. -/
theorem spelled_attributes_read_back {args : List String} {pairs : List (String × String)}
    (h : Spells (joinWords args).toList pairs) (s : Scope) :
    attributes (joinWords args).toList = pairs.map (fun kv => (kv.1.toList, kv.2.toList)) ∧
    (Field.render s args = .error .missingFieldName ↔ "name" ∉ pairs.map Prod.fst) ∧
    ("name" ∈ pairs.map Prod.fst → ∃ name, lastValue? pairs "name" = some name ∧
      let kind := (lastValue? pairs "type").getD "text"
      let group := (lastValue? pairs "group").getD "general"
      let value := match s.submitted? name with
        | some submitted => escapeHtml submitted
        | none => (lastValue? pairs "value").getD ""
      let others := pairs.filter fun kv => kv.1 ∉ ["type", "group", "name", "value"]
      let written := String.join (others.map fun kv => s!" {kv.1}=\"{kv.2}\"")
      Field.render s args = .ok
        (s!"<input type=\"{kind}\" id=\"form_{group}_{name}\" name=\"{name}\" " ++
          s!"value=\"{value}\"{written}>")) := by
  have hf := Field.ofArgs_of_spells h
  refine ⟨attributes_of_spells h, ?_, fun hname => ?_⟩
  · rw [← lastValue?_eq_none_iff]
    cases hn : lastValue? pairs "name" <;> simp [Field.render, hf, Field.described, hn]
  · have hsome : lastValue? pairs "name" ≠ none := fun hn => lastValue?_eq_none_iff.mp hn hname
    obtain ⟨name, hn⟩ := Option.ne_none_iff_exists'.mp hsome
    refine ⟨name, hn, ?_⟩
    simp only [Field.render, hf, Field.described, hn]
    rfl

/-- A value with spaces, an equals sign and a name in it, and a name that is given twice, the
second time for a field that has been submitted. -/
theorem spelled_attributes_read_back_reworded :
    let args := ["name=\"old\"", "", "title=\"a", "name=b\"", "name=\"q\""]
    let pairs := [("name", "old"), ("title", "a name=b"), ("name", "q")]
    let s : Scope := .ofInputs ⟨[], [], none, some [("q", "<1>")]⟩
    Spells (joinWords args).toList pairs ∧ Field.render s args = .ok
      ("<input type=\"text\" id=\"form_general_q\" name=\"q\" value=\"&lt;1&gt;\" " ++
        "title=\"a name=b\">") := by
  intro args pairs s
  have hs : Spells (joinWords args).toList pairs := by
    have hname := @Spells.pair "name" "q" _ _ rfl (by decide) (by simp) .nothing
    have htitle := @Spells.pair "title" "a name=b" _ _ rfl (by decide) (by simp) hname.space
    have hold := @Spells.pair "name" "old" _ _ rfl (by decide) (by simp) htitle.space.space
    have htext : (joinWords args).toList =
        "name=\"old\"  title=\"a name=b\" name=\"q\"".toList := by decide +kernel
    rw [htext]
    simpa using hold
  obtain ⟨name, hn, h⟩ := (spelled_attributes_read_back hs s).2.2 (by decide)
  obtain rfl : "q" = name := Option.some.inj hn
  exact ⟨hs, h⟩

end TagTemplate
