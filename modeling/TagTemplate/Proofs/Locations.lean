import Mathlib.Data.List.DropRight
import Mathlib.Data.Prod.Lex
import TagTemplate.Proofs.TagScan
import TagTemplate.Proofs.Tiling
import TagTemplate.Text.Line

/-! Byte offsets as rows and columns and as numbers of characters. Both are read off the
characters that start before the offset, so they agree with each other and grow with it. -/

namespace TagTemplate

/-- The characters of a text that starts at an offset, each with the offset of its first byte. -/
def charIndices (start : Nat) : List Char → List (Nat × Char)
  | [] => []
  | c :: cs => (start, c) :: charIndices (start + c.utf8Size) cs

/-- The characters that start before an offset. -/
def startingBefore (offset : Nat) (cs : List Char) : List Char :=
  ((charIndices 0 cs).filter fun p => p.1 < offset).map Prod.snd

/-- The text cut after its line feeds. -/
def rows : List Char → List (List Char)
  | [] => []
  | c :: cs => if c = '\n' then ['\n'] :: rows cs else growFirst c (rows cs)

/-- Locations compare by rows, and in a row by columns. -/
def Location.place (l : Location) : Nat ×ₗ Nat :=
  toLex (l.row, l.column)

theorem byteLength_toList (s : String) : byteLength s.toList = s.utf8ByteSize := by
  have hlist : ∀ cs : List Char, byteLength cs = (String.ofList cs).utf8ByteSize := by
    intro cs
    induction cs with
    | nil => simp
    | cons c cs ih => simp [ih, String.ofList_cons]
  rw [hlist, String.ofList_toList]

section

variable {a b offset : Nat}

theorem filter_charIndices (start : Nat) (cs : List Char) :
    ((charIndices start cs).filter fun p => p.1 < offset).map Prod.snd =
      charsBefore (offset - start) cs := by
  induction cs generalizing start with
  | nil => cases h : offset - start <;> simp [charIndices, charsBefore]
  | cons c cs ih =>
    by_cases hlt : start < offset
    · obtain ⟨n, hn⟩ : ∃ n, offset - start = n + 1 := ⟨offset - start - 1, by omega⟩
      have hrest : n + 1 - c.utf8Size = offset - (start + c.utf8Size) := by omega
      rw [hn, charsBefore, hrest, ← ih]
      simp [charIndices, hlt]
    · -- No later character starts any earlier.
      have hzero : offset - start = 0 := by omega
      have hrest : offset - (start + c.utf8Size) = 0 := by omega
      have hlater := ih (start + c.utf8Size)
      rw [hrest, charsBefore] at hlater
      rw [hzero, charsBefore]
      simpa [charIndices, hlt] using hlater

theorem charsBefore_eq (offset : Nat) (cs : List Char) :
    charsBefore offset cs = startingBefore offset cs :=
  (filter_charIndices 0 cs).symm

theorem charsBefore_mono (h : a ≤ b) (cs : List Char) : charsBefore a cs <+: charsBefore b cs := by
  induction cs generalizing a b with
  | nil => cases a <;> simp [charsBefore]
  | cons c cs ih =>
    cases a with
    | zero => simp [charsBefore]
    | succ a =>
      obtain ⟨b, rfl⟩ : ∃ b', b = b' + 1 := ⟨b - 1, by omega⟩
      have hrest : a + 1 - c.utf8Size ≤ b + 1 - c.utf8Size := by omega
      exact (List.prefix_cons_inj c).mpr (ih hrest)

/-- A character counts as soon as the offset is past its first byte. -/
theorem charsBefore_inside {before : List Char} {c : Char} (hl : byteLength before < offset)
    (hr : offset ≤ byteLength before + c.utf8Size) (after : List Char) :
    charsBefore offset (before ++ c :: after) = before ++ [c] := by
  obtain ⟨offset, rfl⟩ : ∃ n, offset = n + 1 := ⟨offset - 1, by omega⟩
  induction before generalizing offset with
  | nil =>
    have hrest : offset + 1 - c.utf8Size = 0 := by
      rw [byteLength_nil] at hr
      omega
    rw [List.nil_append, charsBefore, hrest, charsBefore, List.nil_append]
  | cons d before ih =>
    rw [byteLength_cons] at hl hr
    obtain ⟨n, hn⟩ : ∃ n, offset + 1 - d.utf8Size = n + 1 :=
      ⟨offset + 1 - d.utf8Size - 1, by omega⟩
    rw [List.cons_append, charsBefore, hn, ih n (by omega) (by omega), List.cons_append]

theorem charsBefore_strictMono {source : List Char} (ha : Boundary source a)
    (hb : Boundary source b) (h : a < b) :
    ∃ more, more ≠ [] ∧ charsBefore b source = charsBefore a source ++ more := by
  obtain ⟨more, hmore⟩ := charsBefore_mono h.le source
  refine ⟨more, ?_, hmore.symm⟩
  rintro rfl
  obtain ⟨before, after, hs, rfl⟩ := ha
  obtain ⟨before', after', hs', rfl⟩ := hb
  have hbefore : charsBefore (byteLength before) source = before := by
    rw [hs, charsBefore_append]
  have hbefore' : charsBefore (byteLength before') source = before' := by
    rw [hs', charsBefore_append]
  rw [List.append_nil, hbefore, hbefore'] at hmore
  rw [hmore] at h
  exact Nat.lt_irrefl _ h

end

theorem lt_stepOver (place : Nat × Nat) (c : Char) : toLex place < toLex (stepOver place c) := by
  rw [Prod.Lex.toLex_lt_toLex]
  by_cases hc : c = '\n'
  · exact .inl (by simp [stepOver, hc])
  · exact .inr (by simp [stepOver, hc])

theorem le_foldl_stepOver (place : Nat × Nat) (cs : List Char) :
    toLex place ≤ toLex (cs.foldl stepOver place) := by
  induction cs generalizing place with
  | nil => exact le_rfl
  | cons c cs ih => exact (lt_stepOver place c).le.trans (ih _)

theorem lt_foldl_stepOver (place : Nat × Nat) {cs : List Char} (h : cs ≠ []) :
    toLex place < toLex (cs.foldl stepOver place) := by
  obtain ⟨c, cs, rfl⟩ := List.exists_cons_of_ne_nil h
  exact (lt_stepOver place c).trans_le (le_foldl_stepOver _ cs)

theorem flatten_rows (cs : List Char) : (rows cs).flatten = cs := by
  induction cs with
  | nil => rfl
  | cons c cs ih =>
    by_cases hc : c = '\n'
    · simp [rows, hc, ih]
    · rw [rows, if_neg hc, flatten_growFirst, ih]

theorem rows_ne_nil {cs : List Char} (h : cs ≠ []) : rows cs ≠ [] := by
  intro hr
  have hf := flatten_rows cs
  rw [hr] at hf
  exact h hf.symm

/-- Whole rows can be cut off the front. -/
theorem rows_append {cs : List Char} (h : ∀ c ∈ cs.getLast?, c = '\n') (rest : List Char) :
    rows (cs ++ rest) = rows cs ++ rows rest ∧ (rows cs).length = cs.count '\n' := by
  induction cs with
  | nil => exact ⟨rfl, rfl⟩
  | cons c cs ih =>
    have hlast : ∀ d ∈ cs.getLast?, d = '\n' := by
      intro d hd
      cases cs with
      | nil => exact nomatch hd
      | cons e cs => exact h d (by simpa using hd)
    obtain ⟨happ, hlen⟩ := ih hlast
    by_cases hc : c = '\n'
    · exact ⟨by simp [rows, hc, happ], by simp [rows, hc, hlen]⟩
    · have hcs : cs ≠ [] := by
        rintro rfl
        exact hc (h c (by simp))
      obtain ⟨r, rs, hr⟩ := List.exists_cons_of_ne_nil (rows_ne_nil hcs)
      rw [hr] at happ hlen
      exact ⟨by simp [rows, hc, happ, hr, growFirst], by simpa [rows, hc, hr, growFirst] using hlen⟩

/-- The rows that end before a place, and what stands before the place in its own row. -/
theorem take_rows (before after : List Char) :
    ((rows (before ++ after)).take (before.count '\n')).flatten ++
      before.rtakeWhile (· ≠ '\n') = before := by
  let complete := before.rdropWhile (· ≠ '\n')
  let tail := before.rtakeWhile (· ≠ '\n')
  have hsplit : complete ++ tail = before := List.rdropWhile_append_rtakeWhile
  have hlast : ∀ c ∈ complete.getLast?, c = '\n' := by
    intro c hc
    obtain ⟨hne, rfl⟩ := List.mem_getLast?_eq_getLast hc
    simpa [complete] using List.rdropWhile_last_not (fun c => decide (c ≠ '\n')) before hne
  have htail : tail.count '\n' = 0 := by
    apply List.count_eq_zero.mpr
    intro hm
    simpa using List.mem_rtakeWhile_imp hm
  have hcount : before.count '\n' = complete.count '\n' := by
    rw [← hsplit, List.count_append, htail, Nat.add_zero]
  obtain ⟨happ, hlen⟩ := rows_append hlast (tail ++ after)
  have htake : (rows (before ++ after)).take (before.count '\n') = rows complete := by
    rw [hcount, ← hlen, ← hsplit, List.append_assoc, happ, List.take_left]
  rw [htake, flatten_rows]
  exact hsplit

section

variable {source : List Char} {offset : Nat} {l : Location}

theorem locate?_eq_none_iff : locate? source offset = none ↔ byteLength source < offset := by
  unfold locate?
  split <;> simp_all

theorem locate?_eq_some (h : locate? source offset = some l) : l.offset = offset ∧
    (l.row, l.column) = (charsBefore offset source).foldl stepOver (0, 0) := by
  unfold locate? at h
  split at h
  · cases h
  · obtain rfl := Option.some.inj h
    exact ⟨rfl, rfl⟩

theorem place_of_locate? (h : locate? source offset = some l) :
    l.place = toLex ((charsBefore offset source).foldl stepOver (0, 0)) :=
  congrArg toLex (locate?_eq_some h).2

theorem exists_locate? (h : offset ≤ byteLength source) : ∃ l, locate? source offset = some l := by
  apply Option.ne_none_iff_exists'.mp
  intro hn
  exact Nat.not_lt.mpr h (locate?_eq_none_iff.mp hn)

/-- The rows before a location and its column make up the characters before it. -/
theorem charOffset_eq (h : locate? source offset = some l) :
    charOffset source offset = ((rows source).take l.row).flatten.length + l.column := by
  obtain ⟨after, hafter⟩ := charsBefore_isPrefix offset source
  have hplace := (locate?_eq_some h).2
  rw [foldl_stepOver] at hplace
  obtain ⟨hrow, hcolumn⟩ := Prod.mk.inj hplace
  have hlen := congrArg List.length (take_rows (charsBefore offset source) after)
  rw [List.length_append, hafter, ← hrow] at hlen
  rw [hcolumn, charOffset, ← hlen]
  simp [List.rtakeWhile]

end

section

variable {source : List Char} {a b : Nat} {l m : Location}

theorem place_mono (h : a ≤ b) (hl : locate? source a = some l) (hm : locate? source b = some m) :
    l.place ≤ m.place := by
  obtain ⟨more, hmore⟩ := charsBefore_mono h source
  rw [place_of_locate? hl, place_of_locate? hm, ← hmore, List.foldl_append]
  exact le_foldl_stepOver _ more

theorem place_strictMono (ha : Boundary source a) (hb : Boundary source b) (h : a < b)
    (hl : locate? source a = some l) (hm : locate? source b = some m) : l.place < m.place := by
  obtain ⟨more, hne, hmore⟩ := charsBefore_strictMono ha hb h
  rw [place_of_locate? hl, place_of_locate? hm, hmore, List.foldl_append]
  exact lt_foldl_stepOver _ hne

theorem place_injective (ha : Boundary source a) (hb : Boundary source b)
    (hl : locate? source a = some l) (hm : locate? source b = some m) (h : l.place = m.place) :
    a = b := by
  rcases Nat.lt_trichotomy a b with hlt | heq | hgt
  · exact absurd h (place_strictMono ha hb hlt hl hm).ne
  · exact heq
  · exact absurd h (place_strictMono hb ha hgt hm hl).ne'

theorem charOffset_mono (h : a ≤ b) : charOffset source a ≤ charOffset source b :=
  (charsBefore_mono h source).length_le

theorem charOffset_strictMono (ha : Boundary source a) (hb : Boundary source b) (h : a < b) :
    charOffset source a < charOffset source b := by
  obtain ⟨more, hne, hmore⟩ := charsBefore_strictMono ha hb h
  have hpos := List.length_pos_of_ne_nil hne
  rw [charOffset, charOffset, hmore, List.length_append]
  omega

end

/-- An offset has a location when it lies in the source or at its end. The location counts
line feeds and characters before the offset, and agrees with the number of characters; both
grow with the offset, strictly between boundaries, and inside a character they are what they
are behind it. -/
theorem offsets_locate (source : String) :
    (∀ offset, locate? source.toList offset = none ↔ source.utf8ByteSize < offset) ∧
    (∀ offset l, locate? source.toList offset = some l → l.offset = offset ∧
      l.row = (startingBefore offset source.toList).count '\n' ∧
      l.column = ((startingBefore offset source.toList).rtakeWhile (· ≠ '\n')).length ∧
      charOffset source.toList offset =
        ((rows source.toList).take l.row).flatten.length + l.column) ∧
    (∀ a b l m, locate? source.toList a = some l → locate? source.toList b = some m → a ≤ b →
      l.place ≤ m.place ∧ charOffset source.toList a ≤ charOffset source.toList b) ∧
    (∀ a b l m, locate? source.toList a = some l → locate? source.toList b = some m →
      Boundary source.toList a → Boundary source.toList b →
      (a < b → l.place < m.place ∧ charOffset source.toList a < charOffset source.toList b) ∧
      (l.place = m.place → a = b)) ∧
    ∀ before c after offset, source.toList = before ++ c :: after → byteLength before < offset →
      offset < byteLength (before ++ [c]) → ∃ l m, locate? source.toList offset = some l ∧
        locate? source.toList (byteLength (before ++ [c])) = some m ∧ l.place = m.place ∧
        charOffset source.toList offset =
          charOffset source.toList (byteLength (before ++ [c])) := by
  refine ⟨fun offset => ?_, fun offset l h => ?_, fun a b l m hl hm hab => ?_,
    fun a b l m hl hm ha hb => ?_, fun before c after offset hs hlt hgt => ?_⟩
  · rw [locate?_eq_none_iff, byteLength_toList]
  · obtain ⟨ho, hplace⟩ := locate?_eq_some h
    rw [foldl_stepOver, charsBefore_eq] at hplace
    obtain ⟨hrow, hcolumn⟩ := Prod.mk.inj hplace
    exact ⟨ho, hrow, by simp [hcolumn, List.rtakeWhile], charOffset_eq h⟩
  · exact ⟨place_mono hab hl hm, charOffset_mono hab⟩
  · exact ⟨fun hab => ⟨place_strictMono ha hb hab hl hm, charOffset_strictMono ha hb hab⟩,
      place_injective ha hb hl hm⟩
  · rw [byteLength_append, byteLength_cons, byteLength_nil, Nat.add_zero] at hgt ⊢
    have hle : byteLength before + c.utf8Size ≤ byteLength source.toList := by
      rw [hs, byteLength_append, byteLength_cons]
      omega
    have hchars : charsBefore offset source.toList =
        charsBefore (byteLength before + c.utf8Size) source.toList := by
      rw [hs, charsBefore_inside hlt hgt.le, charsBefore_inside (by omega) le_rfl]
    obtain ⟨l, hl⟩ := exists_locate? (hgt.le.trans hle)
    obtain ⟨m, hm⟩ := exists_locate? hle
    refine ⟨l, m, hl, hm, ?_, congrArg List.length hchars⟩
    rw [place_of_locate? hl, place_of_locate? hm, hchars]

/-- Behind a line feed, an offset in the middle of a character of two bytes. -/
theorem offsets_locate_inside_character :
    let source := "a\né\tb"
    ∃ l m k, locate? source.toList 3 = some l ∧ locate? source.toList 4 = some m ∧
      locate? source.toList 2 = some k ∧ k.place < m.place ∧ l.place = m.place ∧
      l.row = 1 ∧ charOffset source.toList 3 =
        ((rows source.toList).take 1).flatten.length + l.column ∧
      charOffset source.toList 3 = charOffset source.toList 4 := by
  intro source
  obtain ⟨-, hcount, -, hstrict, hinside⟩ := offsets_locate source
  obtain ⟨l, m, hl, hm, hplace, hchars⟩ :=
    hinside ['a', '\n'] 'é' ['\t', 'b'] 3 (by decide) (by decide) (by decide)
  have hk : locate? source.toList 2 = some ⟨2, 1, 0⟩ := by decide
  have ha : Boundary source.toList 2 := ⟨['a', '\n'], ['é', '\t', 'b'], by decide, by decide⟩
  have hb : Boundary source.toList 4 := ⟨['a', '\n', 'é'], ['\t', 'b'], by decide, by decide⟩
  obtain ⟨hlt, -⟩ := (hstrict 2 4 _ m hk hm ha hb).1 (by decide)
  have hrow : l.row = 1 := by
    obtain rfl : ⟨3, 1, 1⟩ = l := Option.some.inj (by rw [← hl]; decide)
    rfl
  have hsum := (hcount 3 l hl).2.2.2
  rw [hrow] at hsum
  exact ⟨l, m, _, hl, hm, hk, hlt, hplace, hrow, hsum, hchars⟩

end TagTemplate
