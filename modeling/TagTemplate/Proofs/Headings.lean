import Mathlib
import TagTemplate.Proofs.Openings
import TagTemplate.Proofs.Pointing

/-! The place an error names and the place in the head of its report. The one counts line feeds,
the other every end of a line, so they are the same place exactly when line feeds end all the
lines before the tag. -/

namespace TagTemplate

/-- Whether the lines that have ended in a text all ended in a line feed. -/
def feedsOnly : List Char → Bool
  | [] => true
  | '\r' :: '\n' :: cs => feedsOnly cs
  | c :: cs => (c == '\n' || !endsLine c) && feedsOnly cs

/-- The lines that have ended in a text, and what stands behind them. -/
def endedLines : List Char → List (List Char) × List Char
  | [] => ([], [])
  | '\r' :: '\n' :: cs => (['\r', '\n'] :: (endedLines cs).1, (endedLines cs).2)
  | c :: cs =>
    if endsLine c then ([c] :: (endedLines cs).1, (endedLines cs).2)
    else match endedLines cs with
      | ([], current) => ([], c :: current)
      | (l :: ls, current) => ((c :: l) :: ls, current)

theorem flatten_endedLines (cs : List Char) :
    (endedLines cs).1.flatten ++ (endedLines cs).2 = cs := by
  fun_induction endedLines cs with
  | case1 => rfl
  | case2 cs ih => simp [ih]
  | case3 c cs _ hc ih => simp [ih]
  | case4 c cs _ hc current h ih => simpa [h] using ih
  | case5 c cs _ hc l ls current h ih => simpa [h] using ih

theorem ne_feed_of_not_endsLine {c : Char} (h : ¬ endsLine c = true) : c ≠ '\n' := by
  rintro rfl
  exact h (by decide)

section

variable {c : Char} {cs : List Char} (hpair : ∀ ds, c = '\r' → cs = '\n' :: ds → False)

include hpair

theorem feedsOnly_cons :
    feedsOnly (c :: cs) = ((c == '\n' || !endsLine c) && feedsOnly cs) := by
  rw [feedsOnly.eq_def]
  split <;> simp_all

theorem feedsOnly_of_endsLine (h : endsLine c = true) :
    feedsOnly (c :: cs) = (c == '\n' && feedsOnly cs) := by
  rw [feedsOnly_cons hpair, h, Bool.not_true, Bool.or_false]

theorem feedsOnly_of_not_endsLine (h : ¬ endsLine c = true) :
    feedsOnly (c :: cs) = feedsOnly cs := by
  rw [feedsOnly_cons hpair, Bool.eq_false_iff.mpr h, Bool.not_false, Bool.or_true, Bool.true_and]

theorem cutLines_cons : cutLines (c :: cs) =
    if endsLine c then [c] :: cutLines cs else growFirst c (cutLines cs) := by
  rw [cutLines.eq_def]
  split <;> simp_all

end

/-- As long as line feeds end them, lines are rows. -/
theorem foldl_stepOver_of_feedsOnly {cs : List Char} (h : feedsOnly cs = true)
    (place : Nat × Nat) : cs.foldl stepOver place = (place.1 + (endedLines cs).1.length,
      if (endedLines cs).1 = [] then place.2 + (endedLines cs).2.length
      else (endedLines cs).2.length) := by
  fun_induction endedLines cs generalizing place with
  | case1 => rfl
  | case2 cs ih =>
    have hcs : feedsOnly cs = true := h
    simp [stepOver, ih hcs, Nat.add_assoc, Nat.add_comm]
  | case3 c cs hpair hc ih =>
    rw [feedsOnly_of_endsLine hpair hc, Bool.and_eq_true, beq_iff_eq] at h
    obtain ⟨rfl, hcs⟩ := h
    simp [stepOver, ih hcs, Nat.add_assoc, Nat.add_comm]
  | case4 c cs hpair hc current hl ih =>
    rw [feedsOnly_of_not_endsLine hpair hc] at h
    have hfeed := ne_feed_of_not_endsLine hc
    simp [stepOver, hfeed, ih h, hl, Nat.add_left_comm, Nat.add_comm]
  | case5 c cs hpair hc l ls current hl ih =>
    rw [feedsOnly_of_not_endsLine hpair hc] at h
    have hfeed := ne_feed_of_not_endsLine hc
    simp [stepOver, hfeed, ih h, hl]

/-- Every row that has ended is a line that has. -/
theorem count_le_endedLines (cs : List Char) : cs.count '\n' ≤ (endedLines cs).1.length := by
  fun_induction endedLines cs with
  | case1 => simp
  | case2 cs ih => simpa using ih
  | case3 c cs _ hc ih =>
    rw [List.count_cons, List.length_cons]
    split <;> omega
  | case4 c cs _ hc current hl ih =>
    simpa [hl, List.count_cons_of_ne (ne_feed_of_not_endsLine hc)] using ih
  | case5 c cs _ hc l ls current hl ih =>
    simpa [hl, List.count_cons_of_ne (ne_feed_of_not_endsLine hc)] using ih

theorem count_lt_endedLines {cs : List Char} (h : feedsOnly cs = false) :
    cs.count '\n' < (endedLines cs).1.length := by
  fun_induction endedLines cs with
  | case1 => cases h
  | case2 cs ih =>
    have hcs : feedsOnly cs = false := h
    simpa using ih hcs
  | case3 c cs hpair hc ih =>
    have hle := count_le_endedLines cs
    rw [feedsOnly_of_endsLine hpair hc] at h
    by_cases hfeed : c = '\n'
    · have hcs : feedsOnly cs = false := by simpa [hfeed] using h
      simpa [hfeed] using ih hcs
    · rw [List.count_cons_of_ne hfeed, List.length_cons]
      omega
  | case4 c cs hpair hc current hl ih =>
    rw [feedsOnly_of_not_endsLine hpair hc] at h
    simpa [hl, List.count_cons_of_ne (ne_feed_of_not_endsLine hc)] using ih h
  | case5 c cs hpair hc l ls current hl ih =>
    rw [feedsOnly_of_not_endsLine hpair hc] at h
    simpa [hl, List.count_cons_of_ne (ne_feed_of_not_endsLine hc)] using ih h

theorem exists_cutLines_cons (c : Char) (rest : List Char) :
    ∃ first more, cutLines (c :: rest) = (c :: first) :: more := by
  by_cases hpair : ∃ ds, c = '\r' ∧ rest = '\n' :: ds
  · obtain ⟨ds, rfl, rfl⟩ := hpair
    exact ⟨['\n'], cutLines ds, rfl⟩
  · rw [cutLines_cons fun ds hc hr => hpair ⟨ds, hc, hr⟩]
    split
    · exact ⟨[], cutLines rest, rfl⟩
    · cases cutLines rest with
      | nil => exact ⟨[], [], rfl⟩
      | cons l ls => exact ⟨l, ls, rfl⟩

/-- Behind a text, a character that does not complete the end of a line in it belongs to the line
that has not ended there. -/
theorem cutLines_append (before rest : List Char) {c : Char} (hc : c ≠ '\n') :
    ∃ first more, cutLines (before ++ c :: rest) =
      (endedLines before).1 ++ ((endedLines before).2 ++ c :: first) :: more := by
  have hnext : ∀ (d : Char) (cs : List Char), (∀ ds, d = '\r' → cs = '\n' :: ds → False) →
      ∀ ds, d = '\r' → cs ++ c :: rest = '\n' :: ds → False := by
    intro d cs hpair ds hd hcs
    cases cs with
    | nil => exact hc (List.cons.inj hcs).1
    | cons e cs => exact hpair cs hd (by rw [(List.cons.inj hcs).1])
  fun_induction endedLines before with
  | case1 => exact exists_cutLines_cons c rest
  | case2 cs ih =>
    obtain ⟨first, more, h⟩ := ih
    exact ⟨first, more, congrArg (['\r', '\n'] :: ·) h⟩
  | case3 d cs hpair hd ih =>
    obtain ⟨first, more, h⟩ := ih
    refine ⟨first, more, ?_⟩
    rw [List.cons_append, cutLines_cons (hnext d cs hpair), if_pos hd, h]
    rfl
  | case4 d cs hpair hd current hl ih =>
    obtain ⟨first, more, h⟩ := ih
    refine ⟨first, more, ?_⟩
    rw [List.cons_append, cutLines_cons (hnext d cs hpair), if_neg hd, h, hl]
    rfl
  | case5 d cs hpair hd l ls current hl ih =>
    obtain ⟨first, more, h⟩ := ih
    refine ⟨first, more, ?_⟩
    rw [List.cons_append, cutLines_cons (hnext d cs hpair), if_neg hd, h, hl]
    rfl

theorem numberLines_append (index start : Nat) (ls ms : List (List Char)) :
    numberLines index start (ls ++ ms) = numberLines index start ls ++
      numberLines (index + ls.length) (start + ls.flatten.length) ms := by
  induction ls generalizing index start with
  | nil => rfl
  | cons l ls ih =>
    have hindex : index + 1 + ls.length = index + (l :: ls).length := by
      rw [List.length_cons]
      omega
    have hstart : start + l.length + ls.flatten.length = start + (l :: ls).flatten.length := by
      rw [List.flatten_cons, List.length_append]
      omega
    rw [List.cons_append, numberLines, ih, hindex, hstart]
    rfl

theorem le_start_of_mem {index start : Nat} {ls : List (List Char)} {l : Line}
    (h : l ∈ numberLines index start ls) : start ≤ l.start := by
  induction ls generalizing index start with
  | nil => exact nomatch h
  | cons m ls ih =>
    rcases List.mem_cons.mp h with rfl | h
    · exact le_rfl
    · have hle := ih h
      omega

theorem lineAt?_append {ls ms : List Line} {l : Line} {place : Nat} (hl : l.start ≤ place)
    (hm : ∀ m ∈ ms, place < m.start) : lineAt? (ls ++ l :: ms) place = some l := by
  have hnone : ms.reverse.find? (fun m => m.start ≤ place) = none := by
    apply List.find?_eq_none.mpr
    intro m hmem
    have hlt := hm m (List.mem_reverse.mp hmem)
    simpa using hlt
  simp [lineAt?, List.find?_append, hnone, hl]

/-- The line of a place has as many lines before it as have ended there. -/
theorem lineAt?_lines (before rest : List Char) {c : Char} (hc : c ≠ '\n') :
    ∃ l, lineAt? (lines (before ++ c :: rest)) before.length = some l ∧
      l.index = (endedLines before).1.length ∧
      before.length = l.start + (endedLines before).2.length := by
  obtain ⟨first, more, hcut⟩ := cutLines_append before rest hc
  have hlen := congrArg List.length (flatten_endedLines before)
  rw [List.length_append] at hlen
  refine ⟨⟨(endedLines before).1.length, (endedLines before).1.flatten.length,
    (endedLines before).2 ++ c :: first⟩, ?_, rfl, hlen.symm⟩
  rw [lines, hcut, numberLines_append, Nat.zero_add, Nat.zero_add, numberLines]
  refine lineAt?_append ?_ fun m hm => ?_
  · show (endedLines before).1.flatten.length ≤ before.length
    omega
  · have hle := le_start_of_mem hm
    rw [List.length_append, List.length_cons] at hle
    omega

theorem exists_lineAt? {cs : List Char} (h : cs ≠ []) (place : Nat) :
    ∃ l, lineAt? (lines cs) place = some l := by
  obtain ⟨c, cs, rfl⟩ := List.exists_cons_of_ne_nil h
  obtain ⟨first, more, hcut⟩ := exists_cutLines_cons c cs
  apply Option.ne_none_iff_exists'.mp
  intro hn
  have hfirst : ⟨0, 0, c :: first⟩ ∈ (lines (c :: cs)).reverse := by
    simp [lines, hcut, numberLines]
  simpa using List.find?_eq_none.mp hn _ hfirst

/-- The line and the column in the head of the report of an error. -/
def TemplateError.headPlace? (e : TemplateError) (source : String) : Option (Nat × Nat) :=
  (Snippet.ofError? e source.toList).bind Snippet.place?

namespace Snippet

variable {s : Snippet}

theorem of_ofError? {e : TemplateError} {source : List Char} (h : ofError? e source = some s) :
    s.source = source ∧ s.title = e.title := by
  simp only [ofError?, Option.bind_eq_bind, Option.bind_eq_some_iff, Option.pure_def,
    Option.some.injEq] at h
  obtain ⟨offset, -, rest, -, rfl⟩ := h
  exact ⟨rfl, rfl⟩

/-- A report starts with its title, and its head stands in the second line, set in by blanks. -/
theorem render_of_place? {place : Nat × Nat} (hne : s.source ≠ []) (h : s.place? = some place) :
    ∃ indent rest : String, (∀ c ∈ indent.toList, c = ' ') ∧ s.render =
      s!"Error: {s.title}\n{indent}╭─[{s.template}:{place.1}:{place.2}]\n{rest}" := by
  obtain ⟨first, hfirst, hplace⟩ := Option.map_eq_some_iff.mp h
  obtain ⟨last, hlast⟩ : ∃ l, s.lastLine? = some l := by
    unfold lastLine?
    split
    · exact exists_lineAt? hne _
    · exact ⟨first, hfirst⟩
  have hheading : s.heading? = some s!"{s.template}:{place.1}:{place.2}" := by
    rw [heading?, h]
    rfl
  let width := (Nat.toDigits 10 (last.index + 1)).length
  let body := if first.index = last.index then s.renderSingle width first
    else s.renderSpread width first last
  let rule := String.ofList (List.replicate (width + 2) '─')
  refine ⟨margin width, s!"{margin width}│\n{body}{rule}╯\n", fun c hc => ?_, ?_⟩
  · rw [margin, String.toList_ofList] at hc
    exact List.eq_of_mem_replicate hc
  · simp only [render, hfirst, hlast, hheading]
    simp [toString, String.append_assoc, width, body, rule]

/-- Where a snippet starts with a character that completes no end of a line, its place counts the
lines that have ended before. -/
theorem place?_eq {before rest : List Char} {c : Char} (hc : c ≠ '\n')
    (hs : s.source = before ++ c :: rest) (hstart : s.start = before.length) :
    s.place? = some ((endedLines before).1.length + 1, (endedLines before).2.length + 1) := by
  obtain ⟨l, hl, hindex, hcolumn⟩ := lineAt?_lines before rest hc
  have hfirst : s.firstLine? = some l := by rw [firstLine?, hs, hstart, hl]
  have hrest : before.length - l.start = (endedLines before).2.length := by omega
  rw [place?, hfirst, Option.map_some, hindex, hstart, hrest]

end Snippet

/-- The place that a row and a column give is that of the head when line feeds end all lines. -/
theorem place_eq_of_feedsOnly {before : List Char} (h : feedsOnly before = true) :
    (1 + before.count '\n', 1 + (before.reverse.takeWhile (· ≠ '\n')).length) =
      ((endedLines before).1.length + 1, (endedLines before).2.length + 1) := by
  have hrows := foldl_stepOver before
  rw [foldl_stepOver_of_feedsOnly h (0, 0)] at hrows
  obtain ⟨hrow, hcolumn⟩ := Prod.mk.inj hrows
  have hcolumn' : (endedLines before).2.length = (before.reverse.takeWhile (· ≠ '\n')).length := by
    rw [← hcolumn]
    split <;> simp
  rw [← hrow, ← hcolumn', Nat.zero_add, Nat.add_comm 1, Nat.add_comm 1]

/-- The error of a source that does not compile names the place in the head of its report when
every line that has ended before its tag ended in a line feed, alone or behind a carriage return.
Otherwise the head has a later line. -/
theorem message_agrees_with_head {source name : String} {e : TemplateError}
    (h : Template.compile source name = .error e) :
    ∃ offset line column reason before after place, ∃ indent rest : String,
      e = .misnested name offset line column reason ∧
      source.toList = before ++ after ∧ byteLength before = offset ∧
      e.headPlace? source = some place ∧ (∀ c ∈ indent.toList, c = ' ') ∧
      report? e source = some
        s!"Error: Syntax error\n{indent}╭─[{name}:{place.1}:{place.2}]\n{rest}" ∧
      (feedsOnly before = true → (line, column) = place) ∧
      (feedsOnly before = false → line < place.1) := by
  cases hs : Template.ofSource source.toList with
  | ok roots => simp [Template.compile, hs] at h
  | error f =>
    obtain rfl : f.toError source.toList name = e := by simpa [Template.compile, hs] using h
    obtain ⟨tag, ht, ho⟩ := (Template.ofSource_error_iff.mp hs).exists_tag
    have hmarks : (f.toError source.toList name).Marks source name tag :=
      (tagScan_pieces 0 source.toList).marks ht rfl (congrArg some ho.symm)
    obtain ⟨before, after, s, hsource, hb, hreport, hsnippet, htemplate, -, hstart, -⟩ :=
      hmarks.label
    obtain ⟨hsame, htitle⟩ := Snippet.of_ofError? hsnippet
    have hplace : s.place? =
        some ((endedLines before).1.length + 1, (endedLines before).2.length + 1) :=
      Snippet.place?_eq (by decide) (hsame.trans hsource) hstart
    have hhead : (f.toError source.toList name).headPlace? source = s.place? := by
      rw [TemplateError.headPlace?, hsnippet]
      rfl
    have hne : s.source ≠ [] := by simp [hsame, hsource, Piece.source]
    obtain ⟨indent, rest, hindent, hrender⟩ := Snippet.render_of_place? hne hplace
    have hoffset := hb.trans ho
    refine ⟨f.offset, _, _, _, before, _, _, indent, rest,
      NestingFault.toError_eq hsource hoffset name, hsource, hoffset, hhead.trans hplace, hindent,
      ?_, place_eq_of_feedsOnly, fun hfeeds => ?_⟩
    · rw [hreport, hrender, htemplate, htitle]
      rfl
    · have hlt := count_lt_endedLines hfeeds
      omega

/-- A tag behind a carriage return with a line feed and a character of two bytes. -/
theorem message_agrees_with_head_behind_pair :
    ∃ e reason, Template.compile "a\r\né{%if x}" "page" = .error e ∧
      e = .misnested "page" 5 2 2 reason ∧ e.headPlace? "a\r\né{%if x}" = some (2, 2) := by
  have he : Template.compile "a\r\né{%if x}" "page" = .error
      (.misnested "page" 5 2 2 (Misnesting.unclosed .conditional).message) := by cbv
  obtain ⟨offset, line, column, reason, before, after, place, -, -, hmade, hsource, hb, hhead, -, -,
    hsame, -⟩ := message_agrees_with_head he
  obtain ⟨-, rfl, rfl, rfl, -⟩ := TemplateError.misnested.inj hmade
  have hbefore : charsBefore 5 "a\r\né{%if x}".toList = before := by
    rw [hsource, ← hb, charsBefore_append]
  have hfeeds : feedsOnly before = true := by
    rw [← hbefore]
    decide
  exact ⟨_, _, he, rfl, hhead.trans (congrArg some (hsame hfeeds).symm)⟩

/-- A carriage return of its own ends a line for the report, and no row. -/
theorem lone_return_moves_head :
    (∃ e reason, Template.compile "\r{%/if}" "page" = .error e ∧
      e = .misnested "page" 1 1 2 reason ∧ e.headPlace? "\r{%/if}" = some (2, 1)) ∧
    ¬ ∀ (source name : String) (e : TemplateError), Template.compile source name = .error e →
      ∃ offset line column reason, e = .misnested name offset line column reason ∧
        e.headPlace? source = some (line, column) := by
  have hc : Template.compile "\r{%/if}" "page" = .error
      (.misnested "page" 1 1 2 (Misnesting.unopened "if").message) := by cbv
  have hhead : TemplateError.headPlace? (.misnested "page" 1 1 2 (Misnesting.unopened "if").message)
      "\r{%/if}" = some (2, 1) := by decide +kernel
  refine ⟨⟨_, _, hc, rfl, hhead⟩, fun hall => ?_⟩
  obtain ⟨_, line, column, _, he, hplace⟩ := hall _ _ _ hc
  obtain ⟨-, -, rfl, rfl, -⟩ := TemplateError.misnested.inj he
  rw [hhead] at hplace
  exact absurd hplace (by decide)

end TagTemplate
