import Mathlib
import TagTemplate.Expr.Scalar
import TagTemplate.Proofs.NearestDoubles
import TagTemplate.Text.Cut

/-! Which texts count as numbers. The reader of decimals accepts one grammar and gives each
numeral its value, so a text is a number if it is a numeral between blanks whose nearest double
is finite. -/

namespace TagTemplate

/-- A row of ASCII digits, which may be empty. -/
def Digits (cs : List Char) : Prop :=
  ∀ c ∈ cs, c.isDigit = true

def digitsValue (cs : List Char) : Nat :=
  Nat.ofDigitChars 10 cs 0

inductive SignText : List Char → Bool → Prop where
  | absent : SignText [] false
  | plus : SignText ['+'] false
  | minus : SignText ['-'] true

/-- Digits with or without a point, as the digits before the point and those after it. -/
inductive MantissaText : List Char → List Char → List Char → Prop where
  | whole {ds : List Char} (hne : ds ≠ []) (hd : Digits ds) : MantissaText ds ds []
  | point {ds fs : List Char} (hne : ds ≠ []) (hd : Digits ds) (hf : Digits fs) :
    MantissaText (ds ++ '.' :: fs) ds fs
  | leading {fs : List Char} (hne : fs ≠ []) (hf : Digits fs) : MantissaText ('.' :: fs) [] fs

inductive ExponentText : List Char → Int → Prop where
  | absent : ExponentText [] 0
  | power {mark : Char} {sign ds : List Char} {negative : Bool} (hmark : mark = 'e' ∨ mark = 'E')
    (hs : SignText sign negative) (hne : ds ≠ []) (hd : Digits ds) :
    ExponentText (mark :: (sign ++ ds)) (if negative then -digitsValue ds else digitsValue ds)

/-- A text that spells a decimal number, with the sign and the magnitude of that number. -/
inductive Numeral : List Char → Bool → ℚ → Prop where
  | spelled {sign mantissa exponent whole fraction : List Char} {negative : Bool} {e : Int}
    (hs : SignText sign negative) (hm : MantissaText mantissa whole fraction)
    (he : ExponentText exponent e) : Numeral (sign ++ mantissa ++ exponent) negative
      ((digitsValue whole + digitsValue fraction / 10 ^ fraction.length) * 10 ^ e)

/-- A text that is a numeral between blanks, and the double nearest to its number. -/
inductive SpellsDouble : String → Binary64 → Prop where
  | between {t : String} {before core after : List Char} {negative : Bool} {v : ℚ}
    {rank : Fin finiteRanks} (ht : t.toList = before ++ core ++ after)
    (hb : ∀ c ∈ before, isBlank c = true) (ha : ∀ c ∈ after, isBlank c = true)
    (hn : Numeral core negative v) (hr : Binary64.Rounds v rank) :
    SpellsDouble t (.finite negative rank)

/-- Characters of numerals other than digits. -/
def numeralMarks : List Char :=
  ['+', '-', '.', 'e', 'E']

namespace Scalar

/-- A word for a double that is not finite, in letters of either case. -/
def word? (cs : List Char) : Option Binary64 :=
  let (negative, rest) := Decimal.sign cs
  let word := rest.map Char.toLower
  if word = "nan".toList then some .nan
  else if word = "inf".toList ∨ word = "infinity".toList then some (.infinite negative)
  else none

/-- The finite number that a text spells, if it has a digit and no character that is not one of a
numeral, as a reader finds it that knows words too. -/
def screened? (s : String) : Option Binary64 :=
  let cs := trimBlank s.toList
  if !cs.any Char.isDigit then none
  else if !cs.all fun c => c.isDigit || numeralMarks.contains c then none
  else (((Decimal.read? cs).map Decimal.toBinary64).or (word? cs)).filter Binary64.isFinite

end Scalar

theorem trimBlank_between {before core after : List Char} (hb : ∀ c ∈ before, isBlank c = true)
    (ha : ∀ c ∈ after, isBlank c = true) (hc : ∀ c ∈ core, isBlank c = false) (hne : core ≠ []) :
    trimBlank (before ++ core ++ after) = core := by
  have hfront : ∀ c ∈ (core ++ after).head?, isBlank c = false := by
    rw [List.head?_append_of_ne_nil core hne]
    exact fun c h => hc c (List.mem_of_mem_head? h)
  have hback : ∀ c ∈ core.reverse.head?, isBlank c = false := fun c h =>
    hc c (List.mem_reverse.mp (List.mem_of_mem_head? h))
  have hafter : ∀ c ∈ after.reverse, isBlank c = true := fun c h =>
    ha c (List.mem_reverse.mp h)
  rw [trimBlank, List.append_assoc, dropWhile_run hb hfront, List.reverse_append,
    dropWhile_run hafter hback, List.reverse_reverse]

theorem exists_trimBlank (cs : List Char) : ∃ before after,
    cs = before ++ trimBlank cs ++ after ∧ (∀ c ∈ before, isBlank c = true) ∧
      ∀ c ∈ after, isBlank c = true := by
  refine ⟨cs.takeWhile isBlank, ((cs.dropWhile isBlank).reverse.takeWhile isBlank).reverse, ?_,
    fun c h => List.mem_takeWhile_imp h, fun c h =>
      List.mem_takeWhile_imp (List.mem_reverse.mp h)⟩
  rw [trimBlank, List.append_assoc, ← List.reverse_append, List.takeWhile_append_dropWhile,
    List.reverse_reverse, List.takeWhile_append_dropWhile]

namespace Decimal

section

variable {cs ds fs rest whole fractional : List Char} {negative : Bool} {e : Int} {v : ℚ}
  {d : Decimal}

theorem digits_takeWhile (cs : List Char) : Digits (cs.takeWhile Char.isDigit) :=
  fun _ hc => List.mem_takeWhile_imp hc

theorem digitsValue_append (ds fs : List Char) :
    digitsValue (ds ++ fs) = digitsValue ds * 10 ^ fs.length + digitsValue fs := by
  rw [digitsValue, Nat.ofDigitChars_append, Nat.ofDigitChars_eq_ofDigitChars_zero, Nat.mul_comm]
  rfl

/-- A sign is read if what follows it does not begin with one. -/
theorem sign_append (hs : SignText cs negative) (hr : ∀ c ∈ rest.head?, c ≠ '-' ∧ c ≠ '+') :
    sign (cs ++ rest) = (negative, rest) := by
  cases hs with
  | absent =>
    cases rest with
    | nil => rfl
    | cons c cs =>
      obtain ⟨hminus, hplus⟩ := hr c rfl
      show sign (c :: cs) = _
      unfold sign
      split <;> simp_all
  | plus => rfl
  | minus => rfl

theorem exists_sign (cs : List Char) : ∃ front, SignText front (sign cs).1 ∧
    cs = front ++ (sign cs).2 := by
  unfold sign
  split
  · exact ⟨_, .minus, rfl⟩
  · exact ⟨_, .plus, rfl⟩
  · exact ⟨_, .absent, rfl⟩

theorem unsigned_of_digits (hd : Digits ds) :
    ∀ c ∈ ds.head?, c ≠ '-' ∧ c ≠ '+' := by
  intro c hc
  have hdigit := hd c (List.mem_of_mem_head? hc)
  constructor <;> rintro rfl <;> exact absurd hdigit (by decide)

theorem ofDigits_eq (cs : List Char) : ofDigits cs = digitsValue cs :=
  Nat.ofDigitChars_eq_foldl.symm

theorem exponentPart?_cons (mark : Char) (cs : List Char) : exponentPart? (mark :: cs) =
    if (mark = 'e' ∨ mark = 'E') ∧ (sign cs).2 ≠ [] ∧
        (sign cs).2.all Char.isDigit = true then
      some (if (sign cs).1 then -(ofDigits (sign cs).2 : Int)
        else ofDigits (sign cs).2)
    else none := rfl

theorem exponentPart?_eq_some_iff : exponentPart? cs = some e ↔ ExponentText cs e := by
  constructor
  · intro h
    cases cs with
    | nil =>
      obtain rfl := Option.some.inj h
      exact .absent
    | cons mark cs =>
      rw [exponentPart?_cons, Option.ite_none_right_eq_some, ofDigits_eq] at h
      obtain ⟨⟨hmark, hne, hall⟩, he⟩ := h
      obtain ⟨front, hs, hcs⟩ := exists_sign cs
      have hpower := ExponentText.power hmark hs hne (List.all_eq_true.mp hall)
      rw [← hcs, Option.some.inj he] at hpower
      exact hpower
  · intro h
    cases h with
    | absent => rfl
    | power hmark hs hne hd =>
      have hsign := sign_append hs (unsigned_of_digits hd)
      rw [exponentPart?_cons, hsign, ofDigits_eq,
        if_pos ⟨hmark, hne, List.all_eq_true.mpr hd⟩]

theorem ends_of_exponentText (h : ExponentText cs e) :
    ∀ c ∈ cs.head?, c.isDigit = false ∧ c ≠ '.' := by
  cases h with
  | absent => simp
  | power hmark hs hne hd =>
    rintro c hc
    obtain rfl := Option.some.inj hc
    obtain rfl | rfl := hmark <;> decide

theorem fraction_point (hf : Digits fs) (hr : ∀ c ∈ rest.head?, c.isDigit = false) :
    fraction ('.' :: (fs ++ rest)) = (fs, rest) := by
  rw [fraction, takeWhile_run hf hr, dropWhile_run hf hr]

theorem fraction_of_head? (hr : ∀ c ∈ cs.head?, c ≠ '.') : fraction cs = ([], cs) := by
  unfold fraction
  split
  · exact absurd rfl (hr _ rfl)
  · rfl

/-- Reading without the sign: digits, digits after a point, and what follows them. -/
def mantissa (cs : List Char) : List Char × List Char × List Char :=
  (cs.takeWhile Char.isDigit, fraction (cs.dropWhile Char.isDigit))

theorem mantissa_append (hm : MantissaText cs whole fractional)
    (hr : ∀ c ∈ rest.head?, c.isDigit = false ∧ c ≠ '.') :
    mantissa (cs ++ rest) = (whole, fractional, rest) := by
  have hdigit : ∀ c ∈ rest.head?, c.isDigit = false := fun c hc => (hr c hc).1
  have hpoint : ∀ cs, ∀ c ∈ List.head? ('.' :: cs), c.isDigit = false := by
    intro cs c hc
    obtain rfl := Option.some.inj hc
    decide
  cases hm with
  | whole hne hd =>
    rw [mantissa, takeWhile_run hd hdigit, dropWhile_run hd hdigit,
      fraction_of_head? fun c hc => (hr c hc).2]
  | point hne hd hf =>
    rw [mantissa, List.append_assoc, List.cons_append, takeWhile_run hd (hpoint _),
      dropWhile_run hd (hpoint _), fraction_point hf hdigit]
  | leading hne hf =>
    have hnone : Digits [] := by simp [Digits]
    have ht := takeWhile_run hnone (hpoint (fractional ++ rest))
    have hdrop := dropWhile_run hnone (hpoint (fractional ++ rest))
    rw [List.nil_append] at ht hdrop
    rw [mantissa, List.cons_append, ht, hdrop, fraction_point hf hdigit]

theorem exists_mantissa (hne : (mantissa cs).1 ++ (mantissa cs).2.1 ≠ []) : ∃ text,
    MantissaText text (mantissa cs).1 (mantissa cs).2.1 ∧ cs = text ++ (mantissa cs).2.2 := by
  have hcs := @List.takeWhile_append_dropWhile _ Char.isDigit cs
  have hd := digits_takeWhile cs
  simp only [mantissa] at *
  generalize cs.takeWhile Char.isDigit = ds at *
  generalize cs.dropWhile Char.isDigit = tail at *
  unfold fraction at *
  split at hne
  · rename_i cs'
    have htail := @List.takeWhile_append_dropWhile _ Char.isDigit cs'
    have hf := digits_takeWhile cs'
    generalize cs'.takeWhile Char.isDigit = fs at *
    generalize cs'.dropWhile Char.isDigit = rest at *
    cases ds with
    | nil => exact ⟨_, .leading hne hf, by simp [← hcs, ← htail]⟩
    | cons d ds => exact ⟨_, .point (by simp) hd hf, by simp [← hcs, ← htail]⟩
  · rw [List.append_nil] at hne
    exact ⟨_, .whole hne hd, hcs.symm⟩

theorem read?_eq (cs : List Char) : read? cs =
    if (mantissa (sign cs).2).1 ++ (mantissa (sign cs).2).2.1 = [] then none
    else (exponentPart? (mantissa (sign cs).2).2.2).map fun e =>
      ⟨(sign cs).1, ofDigits ((mantissa (sign cs).2).1 ++ (mantissa (sign cs).2).2.1),
        e - (mantissa (sign cs).2).2.1.length⟩ := rfl

theorem magnitude_mk (negative : Bool) (whole fractional : List Char) (e : Int) :
    (mk negative (ofDigits (whole ++ fractional)) (e - fractional.length)).magnitude =
      (digitsValue whole + digitsValue fractional / 10 ^ fractional.length) * 10 ^ e := by
  have hten : (10 : ℚ) ≠ 0 := by norm_num
  rw [magnitude, ofDigits_eq, digitsValue_append, zpow_sub₀ hten, zpow_natCast]
  push_cast
  field_simp

theorem unsigned_of_mantissaText (hm : MantissaText cs whole fractional) :
    ∀ c ∈ (cs ++ rest).head?, c ≠ '-' ∧ c ≠ '+' := by
  cases hm with
  | whole hne hd =>
    rw [List.head?_append_of_ne_nil cs hne]
    exact unsigned_of_digits hd
  | point hne hd hf =>
    rw [List.append_assoc, List.head?_append_of_ne_nil whole hne]
    exact unsigned_of_digits hd
  | leading hne hf =>
    intro c hc
    obtain rfl := Option.some.inj hc
    decide

theorem ne_nil_of_mantissaText (hm : MantissaText cs whole fractional) :
    whole ++ fractional ≠ [] := by
  cases hm with
  | whole hne hd => simpa using hne
  | point hne hd hf => simp [hne]
  | leading hne hf => simpa using hne

/-- Numerals are read as what they spell. -/
theorem read?_of_numeral (h : Numeral cs negative v) :
    ∃ d, read? cs = some d ∧ d.negative = negative ∧ d.magnitude = v := by
  cases h with
  | @spelled front digits exponent whole fractional _ e hs hm he =>
    have hsign : sign (front ++ (digits ++ exponent)) = (negative, digits ++ exponent) :=
      sign_append hs (unsigned_of_mantissaText hm)
    have hmant := mantissa_append hm (ends_of_exponentText he)
    refine ⟨_, ?_, rfl, magnitude_mk _ _ _ _⟩
    rw [List.append_assoc, read?_eq, hsign, hmant, if_neg (ne_nil_of_mantissaText hm),
      exponentPart?_eq_some_iff.mpr he]
    rfl

/-- Only numerals are read. -/
theorem numeral_of_read? (h : read? cs = some d) : Numeral cs d.negative d.magnitude := by
  rw [read?_eq, Option.ite_none_left_eq_some, Option.map_eq_some_iff] at h
  obtain ⟨hne, e, he, rfl⟩ := h
  obtain ⟨front, hs, hcs⟩ := exists_sign cs
  obtain ⟨text, hm, hrest⟩ := exists_mantissa hne
  have hspelled := Numeral.spelled hs hm (exponentPart?_eq_some_iff.mp he)
  rw [List.append_assoc, ← hrest, ← hcs] at hspelled
  rw [magnitude_mk]
  exact hspelled

end

end Decimal

theorem isBlank_of_isDigit {c : Char} (h : c.isDigit = true) : isBlank c = false := by
  have hrange : 48 ≤ c.toNat ∧ c.toNat ≤ 57 := by
    simp only [Char.isDigit, Bool.and_eq_true, decide_eq_true_eq] at h
    exact ⟨UInt32.le_iff_toNat_le.mp h.1, UInt32.le_iff_toNat_le.mp h.2⟩
  simp [isBlank, blankRanges]
  omega

theorem isBlank_of_mem_numeralMarks {c : Char} (h : c ∈ numeralMarks) : isBlank c = false := by
  have hall : numeralMarks.all (fun c => !isBlank c) = true := by decide
  simpa using List.all_eq_true.mp hall c h

namespace Numeral

variable {cs : List Char} {negative : Bool} {v : ℚ}

theorem exists_digit (h : Numeral cs negative v) : ∃ c ∈ cs, c.isDigit = true := by
  have hfirst : ∀ ds : List Char, ds ≠ [] → Digits ds → ∃ c ∈ ds, c.isDigit = true := by
    intro ds hne hd
    obtain ⟨c, ds, rfl⟩ := List.exists_cons_of_ne_nil hne
    exact ⟨c, List.mem_cons_self, hd c List.mem_cons_self⟩
  cases h with
  | @spelled front digits _ _ _ _ _ hs hm he =>
    have hdigits : ∃ c ∈ digits, c.isDigit = true := by
      cases hm with
      | whole hne hd => exact hfirst _ hne hd
      | point hne hd hf =>
        obtain ⟨c, hc, hdigit⟩ := hfirst _ hne hd
        exact ⟨c, List.mem_append_left _ hc, hdigit⟩
      | leading hne hf =>
        obtain ⟨c, hc, hdigit⟩ := hfirst _ hne hf
        exact ⟨c, List.mem_cons_of_mem _ hc, hdigit⟩
    obtain ⟨c, hc, hdigit⟩ := hdigits
    exact ⟨c, List.mem_append_left _ (List.mem_append_right _ hc), hdigit⟩

theorem ne_nil (h : Numeral cs negative v) : cs ≠ [] := by
  obtain ⟨c, hc, -⟩ := h.exists_digit
  exact List.ne_nil_of_mem hc

theorem forall_mem (h : Numeral cs negative v) :
    ∀ c ∈ cs, c.isDigit = true ∨ c ∈ numeralMarks := by
  have hsign : ∀ sign negative, SignText sign negative →
      ∀ c ∈ sign, c.isDigit = true ∨ c ∈ numeralMarks := by
    intro sign negative hs
    cases hs <;> simp [numeralMarks]
  cases h with
  | @spelled front digits exponent _ _ _ _ hs hm he =>
    have hdigits : ∀ c ∈ digits, c.isDigit = true ∨ c ∈ numeralMarks := by
      intro c hc
      cases hm with
      | whole hne hd => exact .inl (hd c hc)
      | point hne hd hf =>
        obtain hc | rfl | hc := by simpa using hc
        · exact .inl (hd c hc)
        · exact .inr (by decide)
        · exact .inl (hf c hc)
      | leading hne hf =>
        obtain rfl | hc := by simpa using hc
        · exact .inr (by decide)
        · exact .inl (hf c hc)
    have hexponent : ∀ c ∈ exponent, c.isDigit = true ∨ c ∈ numeralMarks := by
      intro c hc
      cases he with
      | absent => cases hc
      | power hmark hs hne hd =>
        obtain rfl | hc | hc := by simpa using hc
        · obtain rfl | rfl := hmark <;> exact .inr (by decide)
        · exact hsign _ _ hs c hc
        · exact .inl (hd c hc)
    intro c hc
    obtain hc | hc := List.mem_append.mp hc
    · exact (List.mem_append.mp hc).elim (hsign _ _ hs c) (hdigits c)
    · exact hexponent c hc

theorem solid (h : Numeral cs negative v) : ∀ c ∈ cs, isBlank c = false := fun c hc =>
  (h.forall_mem c hc).elim isBlank_of_isDigit isBlank_of_mem_numeralMarks

end Numeral

namespace Scalar

theorem numeric?_eq_some_iff {t : String} {x : Binary64} :
    numeric? t = some x ↔ SpellsDouble t x := by
  constructor
  · intro h
    obtain ⟨hmap, hfin⟩ := Option.filter_eq_some_iff.mp h
    obtain ⟨d, hread, rfl⟩ := Option.map_eq_some_iff.mp hmap
    obtain ⟨before, after, ht, hb, ha⟩ := exists_trimBlank t.toList
    cases hx : d.toBinary64 with
    | nan => simp [hx, Binary64.isFinite] at hfin
    | infinite negative => simp [hx, Binary64.isFinite] at hfin
    | finite negative rank =>
      obtain ⟨rfl, hr⟩ := d.toBinary64_eq_finite_iff.mp hx
      exact .between ht hb ha (Decimal.numeral_of_read? hread) hr
  · intro h
    cases h with
    | between ht hb ha hn hr =>
      obtain ⟨d, hread, hneg, hv⟩ := Decimal.read?_of_numeral hn
      have hx := d.toBinary64_eq_finite_iff.mpr ⟨hneg, hv ▸ hr⟩
      rw [numeric?, ht, trimBlank_between hb ha hn.solid hn.ne_nil, hread, Option.map_some, hx]
      rfl

theorem isFinite_of_word? {cs : List Char} {x : Binary64} (h : word? cs = some x) :
    x.isFinite = false := by
  unfold word? at h
  dsimp only at h
  split_ifs at h <;> obtain rfl := Option.some.inj h <;> rfl

/-- The tests of the characters and the words make no difference. -/
theorem numeric?_eq_screened? (t : String) : numeric? t = screened? t := by
  have hwords : (word? (trimBlank t.toList)).filter Binary64.isFinite = none := by
    cases hw : word? (trimBlank t.toList) with
    | none => rfl
    | some x => simp [isFinite_of_word? hw]
  unfold numeric? screened?
  dsimp only
  cases hread : Decimal.read? (trimBlank t.toList) with
  | none =>
    rw [Option.map_none, Option.none_or, hwords]
    split_ifs <;> rfl
  | some d =>
    have hn := Decimal.numeral_of_read? hread
    have hany : (trimBlank t.toList).any Char.isDigit = true := List.any_eq_true.mpr hn.exists_digit
    have hall :
        ((trimBlank t.toList).all fun c => c.isDigit || numeralMarks.contains c) = true := by
      simpa using hn.forall_mem
    rw [hany, hall, Option.map_some, Option.some_or]
    rfl

theorem ofText_of_other {t : String} (h : t ∉ ["true", "false", "null"]) :
    ofText t = (numeric? t).elim (text t) number := by
  simp only [List.mem_cons, List.not_mem_nil, or_false, not_or] at h
  unfold ofText
  split
  · exact absurd rfl h.1
  · exact absurd rfl h.2.1
  · exact absurd rfl h.2.2
  · cases numeric? t <;> rfl

theorem ofText_cases (t : String) :
    t = "true" ∧ ofText t = bool true ∨ t = "false" ∧ ofText t = bool false ∨
      t = "null" ∧ ofText t = null ∨
      t ∉ ["true", "false", "null"] ∧ ofText t = (numeric? t).elim (text t) number := by
  by_cases htrue : t = "true"
  · exact .inl ⟨htrue, htrue ▸ rfl⟩
  by_cases hfalse : t = "false"
  · exact .inr (.inl ⟨hfalse, hfalse ▸ rfl⟩)
  by_cases hnull : t = "null"
  · exact .inr (.inr (.inl ⟨hnull, hnull ▸ rfl⟩))
  have hother : t ∉ ["true", "false", "null"] := by simp [htrue, hfalse, hnull]
  exact .inr (.inr (.inr ⟨hother, ofText_of_other hother⟩))

theorem numeric?_word : ∀ t ∈ ["true", "false", "null"], numeric? t = none := by
  decide +kernel

theorem ofText_eq_number_iff {t : String} {x : Binary64} :
    ofText t = number x ↔ SpellsDouble t x := by
  rw [← numeric?_eq_some_iff]
  by_cases h : t ∈ ["true", "false", "null"]
  · rw [numeric?_word t h]
    obtain ⟨-, hof⟩ | ⟨-, hof⟩ | ⟨-, hof⟩ | ⟨hother, -⟩ := ofText_cases t
    · simp [hof]
    · simp [hof]
    · simp [hof]
    · exact absurd h hother
  · rw [ofText_of_other h]
    cases numeric? t <;> simp

end Scalar

/-- A text counts as a number if it spells one whose nearest double is finite, and that is the
number. The bare words count as what they name, and every other text as itself. -/
theorem texts_spell_numbers (t : String) :
    (∀ x, Scalar.ofText t = .number x ↔ SpellsDouble t x) ∧
    (Scalar.ofText t = .bool true ↔ t = "true") ∧
    (Scalar.ofText t = .bool false ↔ t = "false") ∧
    (Scalar.ofText t = .null ↔ t = "null") ∧
    (Scalar.ofText t = .text t ↔
      t ∉ ["true", "false", "null"] ∧ ∀ x, ¬SpellsDouble t x) ∧
    Scalar.numeric? t = Scalar.screened? t := by
  have hspell : ∀ x, SpellsDouble t x ↔ Scalar.ofText t = .number x := fun x =>
    Scalar.ofText_eq_number_iff.symm
  have hscreened := Scalar.numeric?_eq_screened? t
  simp only [hspell, hscreened, List.mem_cons, List.not_mem_nil, not_or, and_true, or_false,
    iff_self, true_and, implies_true]
  obtain ⟨rfl, hof⟩ | ⟨rfl, hof⟩ | ⟨rfl, hof⟩ | ⟨hwords, hof⟩ := Scalar.ofText_cases t
  · simp [hof]
  · simp [hof]
  · simp [hof]
  · simp only [List.mem_cons, List.not_mem_nil, not_or, or_false] at hwords
    cases hx : Scalar.screened? t <;> simp [hof, hscreened, hx, hwords]

example : Scalar.ofText "\t-.25e+2 " = .number (.ofInt (-25)) := by
  decide +kernel

example : ∀ t ∈ ["inf", "-NaN", "0x1F", "1_000", "1.2.3", "+", "e5", " true", "1e400"],
    Scalar.ofText t = .text t := by
  decide +kernel

end TagTemplate
