import TagTemplate.Expr.Reference

/-! References are written back as they were read. No text is lost between the operation, the
name and the key, and what is written for a reference is read in one way only. -/

namespace TagTemplate

def Operation.opening : Operation → String
  | fetch => ""
  | isSet => "isset|"
  | isEmpty => "isempty|"

namespace Reference

def keyText : Option String → String
  | none => ""
  | some key => "[" ++ key ++ "]"

def spelling (r : Reference) : String :=
  r.operation.opening ++ (r.name ++ keyText r.key)

/-- A text that ends in a closing bracket and has an opening one, but not first of all. -/
def Indexed (text : String) : Prop :=
  text.toList.getLast? = some ']' ∧ '[' ∈ text.toList ∧ text.toList.head? ≠ some '['

section

variable {text name key : String}

theorem toList_keyed (name key : String) :
    (name ++ keyText (some key)).toList = name.toList ++ '[' :: (key.toList ++ [']']) := by
  simp [keyText]

theorem indexed_iff : Indexed text ↔
    ∃ name key, name ≠ "" ∧ '[' ∉ name.toList ∧ text = name ++ keyText (some key) := by
  constructor
  · rintro ⟨hlast, hmem, hhead⟩
    obtain ⟨front, hfront⟩ := List.getLast?_eq_some_iff.mp hlast
    have hopen : '[' ∈ front := by simpa [hfront] using hmem
    obtain ⟨⟨name, key⟩, hcut⟩ :=
      Option.ne_none_iff_exists'.mp fun hn => cutAt?_eq_none_iff.mp hn hopen
    obtain ⟨rfl, hname⟩ := cutAt?_eq_some_iff.mp hcut
    refine ⟨String.ofList name, String.ofList key, ?_, by simpa using hname, ?_⟩
    · intro hnil
      obtain rfl : name = [] := by simpa using congrArg String.toList hnil
      exact hhead (by simp [hfront])
    · exact String.toList_injective (by simp [hfront, keyText])
  · rintro ⟨name, key, hne, hname, rfl⟩
    obtain ⟨c, cs, hcs⟩ := List.exists_cons_of_ne_nil (mt String.toList_eq_nil_iff.mp hne)
    rw [Indexed, toList_keyed]
    refine ⟨?_, by simp, ?_⟩
    · rw [← List.cons_append, ← List.append_assoc]
      exact List.getLast?_concat
    · have hc : c ≠ '[' := by
        rintro rfl
        exact hname (by simp [hcs])
      simpa [hcs] using hc

theorem target_of_indexed (hne : name ≠ "") (h : '[' ∉ name.toList) (key : String) :
    target (name ++ keyText (some key)).toList = (name, some key) := by
  obtain ⟨c, cs, hcs⟩ := List.exists_cons_of_ne_nil (mt String.toList_eq_nil_iff.mp hne)
  have hend : dropEnd? ']' (name.toList ++ '[' :: (key.toList ++ [']'])) =
      some (name.toList ++ '[' :: key.toList) := dropEnd?_eq_some_iff.mpr (by simp)
  have hcut := cutAt?_append h key.toList
  rw [toList_keyed, target, hend, Option.bind_some, hcut, hcs]
  simp only [← hcs, String.ofList_toList]

theorem target_of_not_indexed (h : ¬ Indexed text) : target text.toList = (text, none) := by
  unfold target
  split
  · rename_i c name key heq
    obtain ⟨front, hfront, hcut⟩ := Option.bind_eq_some_iff.mp heq
    obtain ⟨rfl, hname⟩ := cutAt?_eq_some_iff.mp hcut
    have htext := dropEnd?_eq_some_iff.mp hfront
    refine absurd (indexed_iff.mpr ⟨String.ofList (c :: name), String.ofList key, ?_, ?_, ?_⟩) h
    · intro hnil
      simpa using congrArg String.toList hnil
    · simpa using hname
    · exact String.toList_injective (by simp [htext, keyText])
  · rw [String.ofList_toList]

end

/-- An operation on what a text names. -/
def ofTarget (operation : Operation) (text : String) : Reference :=
  ⟨operation, (target text.toList).1, (target text.toList).2⟩

theorem ofTarget_cases (operation : Operation) (text : String) :
    (∃ name key, name ≠ "" ∧ '[' ∉ name.toList ∧ text = name ++ keyText (some key) ∧
      ofTarget operation text = ⟨operation, name, some key⟩) ∨
    ¬ Indexed text ∧ ofTarget operation text = ⟨operation, text, none⟩ := by
  by_cases h : Indexed text
  · obtain ⟨name, key, hne, hname, rfl⟩ := indexed_iff.mp h
    exact .inl ⟨name, key, hne, hname, rfl, by rw [ofTarget, target_of_indexed hne hname]⟩
  · exact .inr ⟨h, by rw [ofTarget, target_of_not_indexed h]⟩

section

variable {operation : Operation} {raw text : String}

theorem spelling_ofTarget (operation : Operation) (text : String) :
    (ofTarget operation text).spelling = operation.opening ++ text := by
  obtain ⟨name, key, -, -, rfl, ht⟩ | ⟨-, ht⟩ := ofTarget_cases operation text
  · rw [ht, spelling]
  · rw [ht, spelling, keyText, String.append_empty]

theorem ofTarget_plain {name : String} (h : '[' ∉ name.toList) :
    ofTarget operation name = ⟨operation, name, none⟩ := by
  rw [ofTarget, target_of_not_indexed fun hi => h hi.2.1]

theorem parse_of_fetch (h : '|' ∉ raw.toList) : parse raw = .ok (ofTarget .fetch raw) := by
  simp only [parse, cutAt?_eq_none_iff.mpr h]
  rfl

theorem parse_of_test {operation : Operation} (h : operation ≠ .fetch) (text : String) :
    parse (operation.opening ++ text) = .ok (ofTarget operation text) := by
  cases operation with
  | fetch => exact absurd rfl h
  | isSet =>
    have hraw : (Operation.isSet.opening ++ text).toList =
        "isset".toList ++ '|' :: text.toList := by
      simp [Operation.opening]
    have hword : '|' ∉ "isset".toList := by decide
    simp only [parse, hraw, cutAt?_append hword, String.ofList_toList]
    rfl
  | isEmpty =>
    have hraw : (Operation.isEmpty.opening ++ text).toList =
        "isempty".toList ++ '|' :: text.toList := by
      simp [Operation.opening]
    have hword : '|' ∉ "isempty".toList := by decide
    simp only [parse, hraw, cutAt?_append hword, String.ofList_toList]
    rfl

theorem parse_of_unknown {word : String} (h : '|' ∉ word.toList) (hset : word ≠ "isset")
    (hempty : word ≠ "isempty") (rest : String) :
    parse (word ++ "|" ++ rest) = .error (.unknownOperation word) := by
  have hraw : (word ++ "|" ++ rest).toList = word.toList ++ '|' :: rest.toList := by simp
  simp only [parse, hraw, cutAt?_append h, String.ofList_toList]

/-- A text is a target, or has a test or a word that is none in front of its first bar. -/
theorem parse_cases (raw : String) :
    (∃ operation text, raw = operation.opening ++ text ∧
      (operation = .fetch ↔ '|' ∉ raw.toList) ∧ parse raw = .ok (ofTarget operation text)) ∨
    ∃ word rest : String, raw = word ++ "|" ++ rest ∧ '|' ∉ word.toList ∧ word ≠ "isset" ∧
      word ≠ "isempty" ∧ parse raw = .error (.unknownOperation word) := by
  by_cases hbar : '|' ∈ raw.toList
  · obtain ⟨⟨before, after⟩, hcut⟩ :=
      Option.ne_none_iff_exists'.mp fun hn => cutAt?_eq_none_iff.mp hn hbar
    obtain ⟨hsplit, hword⟩ := cutAt?_eq_some_iff.mp hcut
    obtain ⟨word, rfl⟩ : ∃ word : String, word.toList = before := ⟨String.ofList before, by simp⟩
    obtain ⟨rest, rfl⟩ : ∃ rest : String, rest.toList = after := ⟨String.ofList after, by simp⟩
    obtain rfl : raw = word ++ "|" ++ rest := String.toList_injective (by simpa using hsplit)
    have htest : ∀ operation : Operation, operation ≠ .fetch → operation.opening = word ++ "|" →
        ∃ operation text, word ++ "|" ++ rest = operation.opening ++ text ∧
          (operation = .fetch ↔ '|' ∉ (word ++ "|" ++ rest).toList) ∧
          parse (word ++ "|" ++ rest) = .ok (ofTarget operation text) := by
      intro operation hop hopening
      refine ⟨operation, rest, by rw [hopening], by simp [hop], ?_⟩
      rw [← hopening, parse_of_test hop]
    by_cases hset : word = "isset"
    · exact .inl (htest .isSet (by decide) (by rw [hset]; decide))
    by_cases hempty : word = "isempty"
    · exact .inl (htest .isEmpty (by decide) (by rw [hempty]; decide))
    · exact .inr ⟨word, rest, rfl, hword, hset, hempty, parse_of_unknown hword hset hempty rest⟩
  · exact .inl ⟨.fetch, raw, by simp [Operation.opening], by simp [hbar], parse_of_fetch hbar⟩

/-- What is written for a reference reads as that reference. -/
theorem parse_spelling {r : Reference} (hne : r.name ≠ "") (hname : '[' ∉ r.name.toList)
    (hbar : r.operation = .fetch → '|' ∉ (r.name ++ keyText r.key).toList) :
    parse r.spelling = .ok r := by
  obtain ⟨operation, name, key⟩ := r
  have htarget : ofTarget operation (name ++ keyText key) = ⟨operation, name, key⟩ := by
    cases key with
    | none =>
      rw [keyText, String.append_empty]
      exact ofTarget_plain hname
    | some key => rw [ofTarget, target_of_indexed hne hname]
  by_cases h : operation = .fetch
  · have hraw : (mk operation name key).spelling = name ++ keyText key := by
      simp [spelling, h, Operation.opening]
    rw [hraw, parse_of_fetch (hbar h), ← h, htarget]
  · rw [spelling, parse_of_test h, htarget]

end

end Reference

/-- A reference is refused for a word in front of its first bar that is no test, and for nothing
else. What is read is written back as the same text, and has a key where the text behind the
operation is indexed. A name that is not empty, with no bracket or bar in it, is read back under
every operation with every key, as long as no bar in the key of a plain fetch is taken for that
of an operation. -/
theorem references_spell_and_read_back :
    (∀ raw : String,
      (∀ fault, Reference.parse raw = .error fault ↔ ∃ word rest : String,
        raw = word ++ "|" ++ rest ∧ '|' ∉ word.toList ∧ word ≠ "isset" ∧ word ≠ "isempty" ∧
          fault = .unknownOperation word) ∧
      ∀ r, Reference.parse raw = .ok r → r.spelling = raw ∧
        (r.operation = .fetch ↔ '|' ∉ raw.toList) ∧
        ∃ text, raw = r.operation.opening ++ text ∧ (r.key ≠ none ↔ Reference.Indexed text) ∧
          ∀ key, r.key = some key → text = r.name ++ "[" ++ key ++ "]" ∧ '[' ∉ r.name.toList) ∧
    ∀ r : Reference, r.name ≠ "" → '[' ∉ r.name.toList → '|' ∉ r.name.toList →
      (r.operation = .fetch → ∀ key, r.key = some key → '|' ∉ key.toList) →
      Reference.parse r.spelling = .ok r := by
  refine ⟨fun raw => ⟨fun fault => ?_, fun r hr => ?_⟩, fun r hne hname hbar hkey => ?_⟩
  · constructor
    · intro h
      obtain ⟨operation, text, -, -, hok⟩ | ⟨word, rest, hsplit, hword, hset, hempty, herr⟩ :=
        Reference.parse_cases raw
      · cases hok.symm.trans h
      · exact ⟨word, rest, hsplit, hword, hset, hempty, Except.error.inj (h.symm.trans herr)⟩
    · rintro ⟨word, rest, rfl, hword, hset, hempty, rfl⟩
      exact Reference.parse_of_unknown hword hset hempty rest
  · obtain ⟨operation, text, hsplit, hfetch, hok⟩ | ⟨word, rest, -, -, -, -, herr⟩ :=
      Reference.parse_cases raw
    · obtain rfl : Reference.ofTarget operation text = r := Except.ok.inj (hok.symm.trans hr)
      refine ⟨by rw [Reference.spelling_ofTarget, hsplit], hfetch, text, hsplit, ?_⟩
      obtain ⟨name, key, hne, hname, htext, ht⟩ | ⟨hplain, ht⟩ :=
        Reference.ofTarget_cases operation text
      · have hindexed := Reference.indexed_iff.mpr ⟨name, key, hne, hname, htext⟩
        refine ⟨by simp [ht, hindexed], fun k hk => ?_⟩
        rw [ht] at hk ⊢
        obtain rfl := Option.some.inj hk
        exact ⟨by simpa [Reference.keyText, String.append_assoc] using htext, hname⟩
      · simp [ht, hplain]
    · cases herr.symm.trans hr
  · refine Reference.parse_spelling hne hname fun hf => ?_
    cases hk : r.key with
    | none => simpa [Reference.keyText] using hbar
    | some key => simpa [Reference.keyText, hbar] using hkey hf key hk

/-- A closing bracket in the name, and brackets and a bar in the key. -/
theorem references_spell_and_read_back_nested :
    let r : Reference := ⟨.isEmpty, "a]b", some "k[|]"⟩
    r.name ≠ "" ∧ '[' ∉ r.name.toList ∧ '|' ∉ r.name.toList ∧ r.operation ≠ .fetch ∧
    Reference.parse "isempty|a]b[k[|]]" = .ok r ∧ r.spelling = "isempty|a]b[k[|]]" ∧
    ∃ text, "isempty|a]b[k[|]]" = "isempty|" ++ text ∧ Reference.Indexed text := by
  intro r
  have hne : r.name ≠ "" := by decide
  have hname : '[' ∉ r.name.toList := by decide
  have hbar : '|' ∉ r.name.toList := by decide
  have hop : r.operation ≠ .fetch := by decide
  have hspelling : r.spelling = "isempty|a]b[k[|]]" := by decide +kernel
  obtain ⟨hread, hwrite⟩ := references_spell_and_read_back
  have hback := hwrite r hne hname hbar fun hf => absurd hf hop
  rw [hspelling] at hback
  obtain ⟨-, -, text, htext, hindexed, -⟩ := (hread _).2 r hback
  exact ⟨hne, hname, hbar, hop, hback, hspelling, text, htext, hindexed.mp (by decide)⟩

end TagTemplate
