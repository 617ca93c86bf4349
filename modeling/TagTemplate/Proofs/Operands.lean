import TagTemplate.Expr.Condition

/-! Conditions say what their tokens say. They are cut at the one operator among the tokens, and
the texts on both sides of it can be read off what is parsed. -/

namespace TagTemplate

namespace Comparison

/-- The tokens that are operators, each with what it asks for. -/
def spellings : List (String × Comparison) :=
  [("=", eq), ("==", eq), ("!=", ne), ("<", lt), (">", gt), ("<=", le), (">=", ge)]

variable {t : String} {c : Comparison}

theorem ofToken?_eq_some_iff : ofToken? t = some c ↔ (t, c) ∈ spellings := by
  unfold ofToken?
  split <;> cases c <;> simp_all [spellings]

theorem ofToken?_eq_none_iff : ofToken? t = none ↔ t ∉ spellings.map Prod.fst := by
  simp only [Option.eq_none_iff_forall_ne_some, ne_eq, ofToken?_eq_some_iff, List.mem_map,
    Prod.exists, exists_and_right, exists_eq_right, not_exists]

end Comparison

/-- The operators among tokens, in their order. -/
def operators (tokens : List String) : List String :=
  tokens.filter (· ∈ Comparison.spellings.map Prod.fst)

theorem operators_cons_eq_nil_iff {t : String} {ts : List String} : operators (t :: ts) = [] ↔
    t ∉ Comparison.spellings.map Prod.fst ∧ operators ts = [] := by
  simp [operators]

theorem exists_of_operators {tokens rest : List String} {token : String}
    (h : operators tokens = token :: rest) : ∃ before after c,
      tokens = before ++ token :: after ∧ (token, c) ∈ Comparison.spellings ∧
        operators before = [] ∧ operators after = rest := by
  obtain ⟨before, after, rfl, hb, ht, ha⟩ := List.filter_eq_cons_iff.mp h
  obtain ⟨⟨t, c⟩, hc, rfl⟩ := List.mem_map.mp (of_decide_eq_true ht)
  exact ⟨before, after, c, rfl, hc, List.filter_eq_nil_iff.mpr hb, ha⟩

/-- A text that starts with a quote and ends with another one. -/
def InQuotes (s : String) : Prop :=
  s.toList.head? = some '"' ∧ s.toList.getLast? = some '"' ∧ 2 ≤ s.length

instance (s : String) : Decidable (InQuotes s) :=
  inferInstanceAs (Decidable (_ ∧ _ ∧ _))

section

variable {s inner : String}

theorem inQuotes_iff : InQuotes s ↔ ∃ inner, s = "\"" ++ inner ++ "\"" := by
  constructor
  · rintro ⟨hfirst, hlast, hlen⟩
    obtain ⟨cs, hcs⟩ := List.head?_eq_some_iff.mp hfirst
    rw [← String.length_toList, hcs] at hlen
    have hne : cs ≠ [] := by
      rintro rfl
      exact absurd hlen (by decide)
    rw [hcs, List.getLast?_cons_of_ne_nil hne] at hlast
    obtain ⟨middle, rfl⟩ := List.getLast?_eq_some_iff.mp hlast
    exact ⟨String.ofList middle, String.toList_injective (by simpa using hcs)⟩
  · rintro ⟨inner, rfl⟩
    refine ⟨by simp, ?_, ?_⟩
    · rw [String.toList_append]
      exact List.getLast?_concat
    · rw [String.length_append, String.length_append]
      show 2 ≤ 1 + inner.length + 1
      omega

theorem unquote?_eq_some_iff : unquote? s = some inner ↔ s = "\"" ++ inner ++ "\"" := by
  constructor
  · intro h
    unfold unquote? at h
    split at h
    · rename_i cs hcs
      obtain ⟨middle, hm, rfl⟩ := Option.map_eq_some_iff.mp h
      rw [dropEnd?_eq_some_iff] at hm
      exact String.toList_injective (by simpa [hm] using hcs)
    · cases h
  · rintro rfl
    have hcs : ("\"" ++ inner ++ "\"").toList = '"' :: (inner.toList ++ ['"']) := by simp
    have hd : dropEnd? '"' (inner.toList ++ ['"']) = some inner.toList :=
      dropEnd?_eq_some_iff.mpr rfl
    simp only [unquote?, hcs, hd, Option.map_some, String.ofList_toList]

theorem unquote?_eq_none_iff : unquote? s = none ↔ ¬ InQuotes s := by
  simp [Option.eq_none_iff_forall_ne_some, unquote?_eq_some_iff, inQuotes_iff]

end

def Operand.spelling : Operand → String
  | literal text => "\"" ++ text ++ "\""
  | reference raw => raw

namespace Condition

/-- A condition that says what an operator says with the tokens before and after it. On its
right, quotes around the whole text are no part of it. -/
structure Reads (c : Condition) (token : String) (before after : List String) : Prop where
  operator : (token, c.operator) ∈ Comparison.spellings
  left : c.left.spelling = joinWords before
  literal : (∃ text, c.left = .literal text) ↔ InQuotes (joinWords before)
  quoted : InQuotes (joinWords after) → "\"" ++ c.right ++ "\"" = joinWords after
  plain : ¬ InQuotes (joinWords after) → c.right = joinWords after

variable {tokens before after : List String} {token : String} {o : Comparison}

theorem split?_of_none (h : operators tokens = []) : split? tokens = none := by
  induction tokens with
  | nil => rfl
  | cons t ts ih =>
    obtain ⟨ht, hts⟩ := operators_cons_eq_nil_iff.mp h
    simp only [split?, Comparison.ofToken?_eq_none_iff.mpr ht, ih hts, Option.map_none]

theorem split?_of_operator (h : (token, o) ∈ Comparison.spellings) (hb : operators before = [])
    (after : List String) : split? (before ++ token :: after) = some (before, o, after) := by
  induction before with
  | nil => simp only [List.nil_append, split?, Comparison.ofToken?_eq_some_iff.mpr h]
  | cons t ts ih =>
    obtain ⟨ht, hts⟩ := operators_cons_eq_nil_iff.mp hb
    simp only [List.cons_append, split?, Comparison.ofToken?_eq_none_iff.mpr ht, ih hts,
      Option.map_some]

theorem parse_of_none (h : operators tokens = []) :
    parse tokens = .error (.malformedExpression (joinWords tokens)) := by
  simp only [parse, split?_of_none h]

theorem parse_of_many (h : (token, o) ∈ Comparison.spellings) (hb : operators before = [])
    (ha : operators after ≠ []) : parse (before ++ token :: after) =
      .error (.multipleOperators (joinWords (before ++ token :: after))) := by
  cases hafter : operators after with
  | nil => exact absurd hafter ha
  | cons second rest =>
    obtain ⟨between, last, o', rfl, hc, hbetween, -⟩ := exists_of_operators hafter
    simp only [parse, split?_of_operator h hb, split?_of_operator hc hbetween, Option.isSome_some,
      if_true]

theorem parse_of_first (h : (token, o) ∈ Comparison.spellings) (ha : operators after = []) :
    parse (token :: after) = .error (.malformedExpression (joinWords (token :: after))) := by
  have hs := @split?_of_operator [] token o h rfl after
  rw [List.nil_append] at hs
  simp [parse, hs, split?_of_none ha]

theorem parse_of_one (h : (token, o) ∈ Comparison.spellings) (hb : operators before = [])
    (hne : before ≠ []) (ha : operators after = []) :
    ∃ c, parse (before ++ token :: after) = .ok c ∧ c.Reads token before after := by
  have hone : ¬(split? after).isSome = true := by simp [split?_of_none ha]
  have hparse : parse (before ++ token :: after) = .ok
      { left := (unquote? (joinWords before)).elim (.reference (joinWords before)) .literal
        operator := o
        right := (unquote? (joinWords after)).getD (joinWords after) } := by
    rw [parse, split?_of_operator h hb]
    refine ((if_neg hone).trans (if_neg hne)).trans ?_
    dsimp only
    cases unquote? (joinWords before) <;> rfl
  refine ⟨_, hparse, h, ?_, ?_, fun hq => ?_, fun hq => ?_⟩
  · cases hu : unquote? (joinWords before) with
    | none => rfl
    | some text => exact (unquote?_eq_some_iff.mp hu).symm
  · cases hu : unquote? (joinWords before) with
    | none => simp [unquote?_eq_none_iff.mp hu]
    | some text => simp [inQuotes_iff.mpr ⟨text, unquote?_eq_some_iff.mp hu⟩]
  · obtain ⟨text, ht⟩ := inQuotes_iff.mp hq
    rw [unquote?_eq_some_iff.mpr ht]
    exact ht.symm
  · rw [unquote?_eq_none_iff.mpr hq]
    rfl

/-- What parsing comes to depends on how many operators there are, and on whether the only one
comes first. -/
theorem parse_cases (tokens : List String) :
    operators tokens = [] ∧ parse tokens = .error (.malformedExpression (joinWords tokens)) ∨
    (∃ token, operators tokens = [token] ∧ tokens.head? = some token ∧
      parse tokens = .error (.malformedExpression (joinWords tokens))) ∨
    2 ≤ (operators tokens).length ∧
      parse tokens = .error (.multipleOperators (joinWords tokens)) ∨
    ∃ token before after c, operators tokens = [token] ∧ tokens.head? ≠ some token ∧
      tokens = before ++ token :: after ∧ parse tokens = .ok c ∧ c.Reads token before after := by
  cases hops : operators tokens with
  | nil => exact .inl ⟨rfl, parse_of_none hops⟩
  | cons token rest =>
    obtain ⟨before, after, o, rfl, ho, hb, ha⟩ := exists_of_operators hops
    cases rest with
    | cons second rest =>
      have hmany := parse_of_many ho hb (by rw [ha]; exact List.cons_ne_nil second rest)
      exact .inr (.inr (.inl ⟨by simp, hmany⟩))
    | nil =>
      cases before with
      | nil => exact .inr (.inl ⟨token, rfl, rfl, parse_of_first ho ha⟩)
      | cons t before =>
        obtain ⟨c, hparse, hreads⟩ := parse_of_one ho hb (List.cons_ne_nil t before) ha
        have hhead : t ≠ token := by
          rintro rfl
          exact (operators_cons_eq_nil_iff.mp hb).1 (List.mem_map_of_mem ho)
        refine .inr (.inr (.inr ⟨token, t :: before, after, c, rfl, ?_, rfl, hparse, hreads⟩))
        simpa using hhead

end Condition

/-- Tokens make no condition if two or more of them are operators, if none is, or if the only
one comes first. Otherwise they do, and the condition tells the text before the operator, and
whether that stands in quotes, and the text after it without the quotes it stands in. -/
theorem conditions_split_at_operator (tokens : List String) :
    (Condition.parse tokens = .error (.multipleOperators (joinWords tokens)) ↔
      2 ≤ (operators tokens).length) ∧
    (Condition.parse tokens = .error (.malformedExpression (joinWords tokens)) ↔
      operators tokens = [] ∨ ∃ token, operators tokens = [token] ∧ tokens.head? = some token) ∧
    (∀ fault, Condition.parse tokens = .error fault →
      fault = .multipleOperators (joinWords tokens) ∨
        fault = .malformedExpression (joinWords tokens)) ∧
    ∀ token, operators tokens = [token] → tokens.head? ≠ some token →
      ∃ before after c, tokens = before ++ token :: after ∧
        Condition.parse tokens = .ok c ∧ c.Reads token before after := by
  obtain ⟨hops, h⟩ | ⟨t, hops, hhead, h⟩ | ⟨hlen, h⟩ |
    ⟨t, before, after, c, hops, hhead, hs, h, hr⟩ := Condition.parse_cases tokens
  · simp [hops, h]
  · refine ⟨by simp [hops, h], by simp [hops, hhead, h], by simp [h], fun t' hops' hhead' => ?_⟩
    obtain rfl : t = t' := by simpa [hops] using hops'
    exact absurd hhead hhead'
  · have hnil : operators tokens ≠ [] := fun hn => by simp [hn] at hlen
    have hone : ∀ t, operators tokens ≠ [t] := fun t hn => by simp [hn] at hlen
    simp [h, hlen, hnil, hone]
  · refine ⟨by simp [hops, h], by simp [hops, hhead, h, Ne.symm], by simp [h], fun t' hops' _ => ?_⟩
    obtain rfl : t = t' := by simpa [hops] using hops'
    exact ⟨before, after, c, hs, h, hr⟩

/-- A literal over two tokens that holds the signs of operators, and a quote with no partner. -/
theorem conditions_split_at_operator_lone_quote :
    let tokens := ["\"a", "=b>=\"", "<=", "\""]
    operators tokens = ["<="] ∧ tokens.head? ≠ some "<=" ∧
    (∃ before after c, tokens = before ++ "<=" :: after ∧ Condition.parse tokens = .ok c ∧
      c.Reads "<=" before after) ∧
    Condition.parse tokens = .ok ⟨.literal "a =b>=", .le, "\""⟩ := by
  intro tokens
  have hops : operators tokens = ["<="] := by decide
  have hhead : tokens.head? ≠ some "<=" := by decide
  exact ⟨hops, hhead, (conditions_split_at_operator tokens).2.2.2 "<=" hops hhead, rfl⟩

end TagTemplate
