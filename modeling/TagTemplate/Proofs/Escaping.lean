import TagTemplate.Render.Field

/-! Submitted text stays inside the attribute it is written into. Escaping leaves no
character that could end the attribute or the tag, and nothing else of a field element
depends on what was submitted. -/

namespace TagTemplate

/-- The characters that are not written as they are, each with what is written for it. -/
def entities : List (Char × List Char) :=
  [('&', "&amp;".toList), ('<', "&lt;".toList), ('>', "&gt;".toList),
   ('"', "&quot;".toList), ('\'', "&#39;".toList)]

/-- The characters that end attribute values, open tags or close them. -/
def markup : List Char := ['<', '>', '"', '\'']

/-- Puts the characters of entities back in one pass, so that what an entity stands for is
not read again. -/
def unescape : List Char → List Char
  | '&' :: 'a' :: 'm' :: 'p' :: ';' :: cs => '&' :: unescape cs
  | '&' :: 'l' :: 't' :: ';' :: cs => '<' :: unescape cs
  | '&' :: 'g' :: 't' :: ';' :: cs => '>' :: unescape cs
  | '&' :: 'q' :: 'u' :: 'o' :: 't' :: ';' :: cs => '"' :: unescape cs
  | '&' :: '#' :: '3' :: '9' :: ';' :: cs => '\'' :: unescape cs
  | c :: cs => c :: unescape cs
  | [] => []

def unescapeHtml (s : String) : String :=
  String.ofList (unescape s.toList)

theorem escapeChar_cases (c : Char) :
    (c, escapeChar c) ∈ entities ∨ escapeChar c = [c] ∧ c ∉ entities.map Prod.fst := by
  unfold escapeChar
  split
  · exact .inl (by decide)
  · exact .inl (by decide)
  · exact .inl (by decide)
  · exact .inl (by decide)
  · exact .inl (by decide)
  · exact .inr ⟨rfl, by simp_all [entities]⟩

section

variable {e : Char × List Char}

theorem unescape_entity (he : e ∈ entities) (cs : List Char) :
    unescape (e.2 ++ cs) = e.1 :: unescape cs := by
  simp only [entities, List.mem_cons, List.not_mem_nil, or_false] at he
  rcases he with rfl | rfl | rfl | rfl | rfl <;> rfl

theorem notMem_entity (he : e ∈ entities) : ∀ c ∈ markup, c ∉ e.2 := by
  simp only [entities, List.mem_cons, List.not_mem_nil, or_false] at he
  rcases he with rfl | rfl | rfl | rfl | rfl <;> simp [markup]

/-- An ampersand stands at the start of an entity and nowhere else in it. -/
theorem exists_of_entity (he : e ∈ entities) : ∃ tail, e.2 = '&' :: tail ∧ '&' ∉ tail := by
  simp only [entities, List.mem_cons, List.not_mem_nil, or_false] at he
  rcases he with rfl | rfl | rfl | rfl | rfl <;> exact ⟨_, rfl, by decide⟩

end

theorem unescape_cons {c : Char} (h : c ≠ '&') (cs : List Char) :
    unescape (c :: cs) = c :: unescape cs := by
  rw [unescape.eq_def]
  split <;> simp_all

theorem unescape_escapeChar (c : Char) (cs : List Char) :
    unescape (escapeChar c ++ cs) = c :: unescape cs := by
  obtain he | ⟨hc, hn⟩ := escapeChar_cases c
  · exact unescape_entity he cs
  · have hamp : c ≠ '&' := by
      rintro rfl
      exact hn (by decide)
    rw [hc]
    exact unescape_cons hamp cs

theorem unescape_escape (cs : List Char) : unescape (cs.flatMap escapeChar) = cs := by
  induction cs with
  | nil => rfl
  | cons c cs ih => rw [List.flatMap_cons, unescape_escapeChar, ih]

theorem notMem_escape {c : Char} (hc : c ∈ markup) (cs : List Char) :
    c ∉ cs.flatMap escapeChar := by
  intro h
  obtain ⟨d, -, hd⟩ := List.mem_flatMap.mp h
  obtain he | ⟨hd', hn⟩ := escapeChar_cases d
  · exact notMem_entity he c hc hd
  · obtain rfl : c = d := by simpa [hd'] using hd
    have hsub : markup ⊆ entities.map Prod.fst := by decide
    exact hn (hsub hc)

theorem entity_of_ampersand {cs before rest : List Char}
    (h : cs.flatMap escapeChar = before ++ '&' :: rest) :
    ∃ e ∈ entities, e.2 <+: '&' :: rest := by
  induction cs generalizing before with
  | nil => simp at h
  | cons c cs ih =>
    rw [List.flatMap_cons] at h
    obtain ⟨m, hb, hr⟩ | ⟨m, hc, hr⟩ := List.append_eq_append_iff.mp h
    · exact ih hr
    · cases m with
      | nil =>
        have hstart : cs.flatMap escapeChar = [] ++ '&' :: rest := hr.symm
        exact ih hstart
      | cons d m =>
        obtain ⟨rfl, hm⟩ := List.cons_eq_cons.mp hr
        -- The ampersand lies in what is written for one character, so it is where that begins.
        obtain he | ⟨hone, hn⟩ := escapeChar_cases c
        · obtain ⟨tail, htail, hfree⟩ := exists_of_entity he
          cases before with
          | nil => exact ⟨_, he, cs.flatMap escapeChar, by simp [hc, hm]⟩
          | cons b before =>
            rw [show escapeChar c = _ from htail] at hc
            have : '&' ∈ tail := by simp [(List.cons_eq_cons.mp hc).2]
            exact absurd this hfree
        · rw [hone] at hc
          have hm : '&' ∈ [c] := by simp [hc]
          obtain rfl := List.mem_singleton.mp hm
          exact absurd (by decide) hn

theorem escapeHtml_append (s t : String) : escapeHtml (s ++ t) = escapeHtml s ++ escapeHtml t := by
  simp [escapeHtml]

theorem unescapeHtml_escapeHtml (s : String) : unescapeHtml (escapeHtml s) = s := by
  simp [unescapeHtml, escapeHtml, unescape_escape]

theorem escapeHtml_injective : Function.Injective escapeHtml := by
  intro s t h
  have hu := congrArg unescapeHtml h
  rwa [unescapeHtml_escapeHtml, unescapeHtml_escapeHtml] at hu

theorem count_escapeHtml {c : Char} (hc : c ∈ markup) (s : String) :
    (escapeHtml s).toList.count c = 0 := by
  rw [escapeHtml, String.toList_ofList]
  exact List.count_eq_zero.mpr (notMem_escape hc s.toList)

namespace Field

/-- The element up to its value. -/
def opening (f : Field) (name : String) : String :=
  s!"<input type=\"{f.kind}\" id=\"form_{f.group}_{name}\" name=\"{name}\" " ++ "value=\""

/-- The element from the end of its value. -/
def closing (f : Field) : String :=
  "\"" ++ (othersText f.others ++ ">")

theorem render_of_submitted {s : Scope} {args : List String} {name u : String}
    (hn : (ofArgs args).name = some name) (hu : s.submitted? name = some u) :
    render s args = .ok ((ofArgs args).opening name ++ escapeHtml u ++ (ofArgs args).closing) := by
  have hregroup : ∀ a b c d e f : String,
      a ++ (b ++ c ++ d ++ e ++ f) = a ++ b ++ c ++ (d ++ (e ++ f)) := by
    intro a b c d e f
    simp only [String.append_assoc]
  simp only [render, hn, hu]
  exact congrArg Except.ok (hregroup _ _ _ _ _ _)

end Field

/-- Escaped text holds no markup, every ampersand in it begins an entity, and reading the
entities back gives the text again; escaping goes piece by piece. A field whose value is
submitted is the escaped value between an opening and a closing that the arguments alone
decide, so the markup in it can be counted without the value. -/
theorem submitted_values_stay_inside :
    (∀ s, (∀ c ∈ markup, c ∉ (escapeHtml s).toList) ∧
      (∀ before rest, (escapeHtml s).toList = before ++ '&' :: rest →
        ∃ e ∈ entities, e.2 <+: '&' :: rest) ∧
      unescapeHtml (escapeHtml s) = s) ∧
    Function.Injective escapeHtml ∧
    (∀ s t, escapeHtml (s ++ t) = escapeHtml s ++ escapeHtml t) ∧
    ∀ args name, (Field.ofArgs args).name = some name → ∃ opening closing : String,
      (∃ before, opening = before ++ "value=\"") ∧ (∃ after, closing = "\"" ++ after) ∧
      ∀ (s : Scope) (u : String), s.submitted? name = some u →
        Field.render s args = .ok (opening ++ escapeHtml u ++ closing) ∧
        ∀ c ∈ markup, (opening ++ escapeHtml u ++ closing).toList.count c =
          (opening ++ closing).toList.count c := by
  refine ⟨fun s => ⟨fun c hc => ?_, fun before rest h => ?_, unescapeHtml_escapeHtml s⟩,
    escapeHtml_injective, escapeHtml_append, fun args name hn => ?_⟩
  · rw [escapeHtml, String.toList_ofList]
    exact notMem_escape hc s.toList
  · rw [escapeHtml, String.toList_ofList] at h
    exact entity_of_ampersand h
  · refine ⟨(Field.ofArgs args).opening name, (Field.ofArgs args).closing, ⟨_, rfl⟩, ⟨_, rfl⟩,
      fun s u hu => ⟨Field.render_of_submitted hn hu, fun c hc => ?_⟩⟩
    simp only [String.toList_append, List.count_append, count_escapeHtml hc, Nat.add_zero]

/-- A value that tries to end its attribute and holds an entity already. The default that is
written for the field, and the value of an argument that comes later, are not touched. -/
theorem submitted_values_stay_inside_hostile :
    let args := ["value=\"a>b\"", "name=\"q\"", "class=\"w", "x\""]
    let s : Scope := .ofInputs ⟨[], [], none, some [("q", "\"><b>&lt;'")]⟩
    (Field.ofArgs args).name = some "q" ∧ s.submitted? "q" = some "\"><b>&lt;'" ∧
    ∃ opening closing : String, (∃ before, opening = before ++ "value=\"") ∧
      (∃ after, closing = "\"" ++ after) ∧
      Field.render s args = .ok (opening ++ "&quot;&gt;&lt;b&gt;&amp;lt;&#39;" ++ closing) := by
  intro args s
  have hn : (Field.ofArgs args).name = some "q" := by decide +kernel
  have hu : s.submitted? "q" = some "\"><b>&lt;'" := by decide +kernel
  obtain ⟨opening, closing, hopening, hclosing, h⟩ :=
    submitted_values_stay_inside.2.2.2 args "q" hn
  exact ⟨hn, hu, opening, closing, hopening, hclosing, (h s _ hu).1⟩

end TagTemplate
