import TagTemplate.Proofs.Outline
import TagTemplate.Proofs.TagScan

/-! Sources without constructs. Tags that mean nothing where they stand wait with the text
around them, and a tag that looks up a text under a key which has none is written as it
stands; so the source comes back as it is. -/

namespace TagTemplate

/-- A body that opens and closes nothing and asks for no value. -/
def Idle (body : List Char) : Prop :=
  ∃ w ws, words body = w :: ws ∧ w.head? ≠ some '/' ∧
    String.ofList w ∉ ["if", "foreach", "input"] ∧ ∀ c cs, w ≠ '?' :: c :: cs

/-- The key of a tag that looks up a text. -/
def localeKey? (body : List Char) : Option String :=
  match words body with
  | ('!' :: c :: cs) :: _ => some (String.ofList (c :: cs))
  | _ => none

theorem Tag.ofBody_of_localeKey {body : List Char} {key : String}
    (h : localeKey? body = some key) : Tag.ofBody body = .localeText key := by
  unfold localeKey? at h
  split at h
  · rename_i c cs ws hw
    obtain rfl := Option.some.inj h
    rw [ofBody, hw]
    rfl
  · cases h

/-- An idle tag without a key is text, unless a conditional is open for it to branch. -/
theorem Tag.ofBody_of_idle {body : List Char} (h : Idle body) (hk : localeKey? body = none) :
    (∃ guard, (Tag.ofBody body).guard? = some guard) ∨ Tag.ofBody body = .unknown := by
  obtain ⟨w, ws, hw, hslash, hnames, hmark⟩ := h
  have hbang : ∀ c cs, w ≠ '!' :: c :: cs := by
    rintro c cs rfl
    simp [localeKey?, hw] at hk
  simp only [List.mem_cons, List.not_mem_nil, or_false, not_or] at hnames
  obtain ⟨hif, hforeach, hinput⟩ := hnames
  have hshort : ∀ cs, w ≠ '/' :: cs := by
    rintro cs rfl
    simp at hslash
  rw [ofBody, hw, ofWords]
  · split
    · contradiction
    · contradiction
    · contradiction
    · exact .inl ⟨_, rfl⟩
    · exact .inl ⟨_, rfl⟩
    · exact .inr rfl
  · exact hshort
  · exact hmark
  · exact hbang

/-- The tables hold no text for the pieces to look up. -/
def View.Lacks (v : View) (ps : List Piece) : Prop :=
  ∀ body, .tag body ∈ ps → ∀ key, localeKey? body = some key → v.scope.localeText? key = none

namespace Draft

variable {d d' d'' : Draft} {body cs : List Char} {ps qs : List Piece}

theorem flush_levels_of_nil (h : d.levels = []) : d.flush.levels = [] := by
  have hm := d.flush_levels_map (fun _ => ()) fun _ _ => rfl
  simpa [h] using hm

theorem outline_stages_of_nil (h : d.levels = []) : d.outline.stages = [] := by
  rw [outline_stages, flush_levels_of_nil h]
  rfl

theorem finish_of_nil (h : d.levels = []) : d.finish = .ok d.flush.roots := by
  rw [finish, flush_levels_of_nil h]
  rfl

theorem flush_empty_append (cs : List Char) : (empty.append cs).flush.roots =
    if cs = [] then [] else [.text ⟨0, ⟨0, byteLength cs⟩⟩ (String.ofList cs)] := by
  by_cases h : cs = []
  · subst h
    rfl
  · simp [flush, append, empty, attach, h]

/-- From one draft outside of blocks to another, with pieces that are echoed. -/
structure Echoes (d : Draft) (ps : List Piece) (d' : Draft) : Prop where
  levels : d'.levels = []
  reads : ∀ v : View, v.Lacks ps → d'.outline.roots v =
    (d.outline.roots v).andThen (.text (String.ofList (ps.flatMap Piece.source)))
  plain : (∀ body, .tag body ∈ ps → localeKey? body = none) →
    d' = d.append (ps.flatMap Piece.source)

theorem Echoes.refl (h : d.levels = []) : d.Echoes [] d where
  levels := h
  reads v _ := by simp
  plain _ := by simp [append]

theorem Echoes.trans (h : d.Echoes ps d') (h' : d'.Echoes qs d'') : d.Echoes (ps ++ qs) d'' where
  levels := h'.levels
  reads v hv := by
    have hps : v.Lacks ps := fun b hb => hv b (List.mem_append_left _ hb)
    have hqs : v.Lacks qs := fun b hb => hv b (List.mem_append_right _ hb)
    rw [h'.reads v hqs, h.reads v hps, List.flatMap_append, Reading.text_append,
      Reading.andThen_assoc]
  plain hk := by
    rw [h'.plain fun b hb => hk b (List.mem_append_right _ hb),
      h.plain fun b hb => hk b (List.mem_append_left _ hb), List.flatMap_append]
    simp [append, Nat.add_assoc]

theorem Echoes.append (h : d.levels = []) (p : Piece) : d.Echoes [p] (d.append p.source) where
  levels := h
  reads v _ := by
    have hs := outline_stages_of_nil h
    rw [outline_append, Outline.append, Outline.say]
    simp [hs]
  plain _ := by simp

theorem Echoes.leaf (h : d.levels = []) {key : String} (hk : localeKey? body = some key)
    (stop : Nat) : d.Echoes [.tag body]
      (d.leaf stop (.localeText · key (String.ofList (Piece.tag body).source))) where
  levels := by
    have hm := d.flush.attach_levels_map (fun _ => ()) (fun _ _ => rfl)
      (.localeText ⟨d.flush.nextId, ⟨d.flush.pos, stop⟩⟩ key (String.ofList (Piece.tag body).source))
    simpa [Draft.leaf, flush_levels_of_nil h] using hm
  reads v hv := by
    have hs := outline_stages_of_nil h
    have hl : (Tag.localeText key).leaf? (Piece.tag body).source =
        some (.localeText · key (String.ofList (Piece.tag body).source)) := rfl
    have hnone : v.scope.localeText? key = none := hv body (by simp) key hk
    rw [outline_leaf d stop hl, Outline.leaf, Outline.say]
    simp [hs, Node.read, Scope.renderLocale, hnone]
  plain hp := by
    rw [hp body (by simp)] at hk
    cases hk

theorem step_echoes (h : d.levels = []) {p : Piece} (hp : ∀ body, p = .tag body → Idle body) :
    ∃ d', d.step p = .ok d' ∧ d.Echoes [p] d' := by
  cases p with
  | text content => exact ⟨_, rfl, .append h (.text content)⟩
  | tag body =>
    cases hk : localeKey? body with
    | some key =>
      have hl : (Tag.ofBody body).leaf? (Piece.tag body).source =
          some (.localeText · key (String.ofList (Piece.tag body).source)) := by
        rw [Tag.ofBody_of_localeKey hk]
        rfl
      exact ⟨_, step_leaf hl, .leaf h hk _⟩
    | none =>
      have hs : d.step (.tag body) = .ok (d.append (Piece.tag body).source) := by
        rcases Tag.ofBody_of_idle (hp body rfl) hk with ⟨guard, hg⟩ | hu
        · have hc : d.inConditional = false := by simp [inConditional, h]
          rw [step_guard hg, hc]
          rfl
        · exact step_unknown hu
      exact ⟨_, hs, .append h (.tag body)⟩

theorem ofPieces_echoes (h : d.levels = []) (hps : ∀ body, .tag body ∈ ps → Idle body) :
    ∃ d', d.ofPieces ps = .ok d' ∧ d.Echoes ps d' := by
  induction ps generalizing d with
  | nil => exact ⟨d, rfl, .refl h⟩
  | cons p ps ih =>
    have hp : ∀ body, p = .tag body → Idle body := fun body hb => hps body (by simp [hb])
    obtain ⟨d₁, hd, he⟩ := step_echoes h hp
    obtain ⟨d₂, hd', he'⟩ := ih he.levels fun body hb => hps body (List.mem_cons_of_mem _ hb)
    refine ⟨d₂, ?_, he.trans he'⟩
    rw [ofPieces, List.foldlM_cons, hd]
    exact hd'

end Draft

theorem exists_mem_placedTags {ps : List Piece} {body : List Char} (h : .tag body ∈ ps)
    (offset : Nat) : ∃ t ∈ placedTags offset ps, t.body = body := by
  induction ps generalizing offset with
  | nil => exact nomatch h
  | cons p ps ih =>
    cases p with
    | text content =>
      rcases List.mem_cons.mp h with he | h
      · cases he
      · exact ih h _
    | tag b =>
      rcases List.mem_cons.mp h with he | h
      · exact ⟨_, List.mem_cons_self, (Piece.tag.inj he).symm⟩
      · obtain ⟨t, ht, hb⟩ := ih h (offset + byteLength (Piece.tag b).source)
        exact ⟨t, List.mem_cons_of_mem _ ht, hb⟩

/-- A source whose tags are idle compiles, and it renders as it stands for all inputs that
hold no text under the keys of its tags. Without such keys it is one text from end to end. -/
theorem idle_source_renders_itself {source : String} {ts : List PlacedTag}
    (hts : TagScan 0 source.toList ts) (hidle : ∀ p ∈ ts, Idle p.body) (name : String) :
    ∃ t, Template.compile source name = .ok t ∧
      (∀ inputs : Inputs, (∀ p ∈ ts, ∀ key, localeKey? p.body = some key →
        Entries.get? inputs.strings key = none) → t.render inputs = .ok source) ∧
      ((∀ p ∈ ts, localeKey? p.body = none) → t.roots =
        if source = "" then [] else [.text ⟨0, ⟨0, byteLength source.toList⟩⟩ source]) := by
  have hbody : ∀ body, .tag body ∈ pieces source.toList → ∃ p ∈ ts, p.body = body :=
    fun body hb => hts.eq ▸ exists_mem_placedTags hb 0
  obtain ⟨d, hd, he⟩ := Draft.ofPieces_echoes (d := .empty) rfl fun body hb => by
    obtain ⟨p, hp, rfl⟩ := hbody body hb
    exact hidle p hp
  have hroots : Template.ofSource source.toList = .ok d.flush.roots := by
    rw [Template.ofSource, hd]
    exact Draft.finish_of_nil he.levels
  refine ⟨⟨name, source, d.flush.roots⟩, Template.compile_eq_ok_iff.mpr ⟨rfl, rfl, hroots⟩,
    fun inputs hkeys => ?_, fun hnone => ?_⟩
  · let v : View := ⟨inputs, []⟩
    have hv : v.Lacks (pieces source.toList) := by
      intro body hb key hk
      obtain ⟨p, hp, rfl⟩ := hbody body hb
      exact hkeys p hp key hk
    have hreads := he.reads v hv
    rw [flatMap_source_pieces, String.ofList_toList] at hreads
    have hread : Node.readAll v d.flush.roots = .text source := by
      have hs := congrArg (fun m : Outline => m.roots v) d.settled_flush
      exact (hs.trans hreads).trans (by simp [Draft.empty]; rfl)
    rw [Template.render_eq_outcome hroots, hread]
    rfl
  · have hplain : d = Draft.empty.append source.toList := by
      rw [← flatMap_source_pieces source.toList]
      refine he.plain fun body hb => ?_
      obtain ⟨p, hp, rfl⟩ := hbody body hb
      exact hnone p hp
    have hempty : source.toList = [] ↔ source = "" := by simp
    rw [hplain, Draft.flush_empty_append, String.ofList_toList]
    simp only [hempty]

/-- Lone braces, a branching tag outside of conditionals, a tag with another opening mark in
it, marks with nothing after them, a key without a text, and a tag that never ends. -/
theorem idle_source_renders_itself_unended :
    ∃ ts t, TagScan 0 "{ } {%else}\x7b%hi \x7b% you\x7d{%?}{%!k}\x7b%if".toList ts ∧
      (∀ p ∈ ts, Idle p.body) ∧ ts.map (·.offset) = [4, 11, 23, 27] ∧
      Template.compile "{ } {%else}\x7b%hi \x7b% you\x7d{%?}{%!k}\x7b%if" "page" = .ok t ∧
      t.render ⟨[("other", "text")], [], none, none⟩ =
        .ok "{ } {%else}\x7b%hi \x7b% you\x7d{%?}{%!k}\x7b%if" := by
  have hpieces : placedTags 0 (pieces "{ } {%else}\x7b%hi \x7b% you\x7d{%?}{%!k}\x7b%if".toList) =
      [⟨4, "else".toList⟩, ⟨11, "hi \x7b% you".toList⟩, ⟨23, ['?']⟩, ⟨27, "!k".toList⟩] := by cbv
  have hts := tagScan_pieces 0 "{ } {%else}\x7b%hi \x7b% you\x7d{%?}{%!k}\x7b%if".toList
  rw [hpieces] at hts
  have hidle : ∀ p ∈ [PlacedTag.mk 4 "else".toList, ⟨11, "hi \x7b% you".toList⟩, ⟨23, ['?']⟩,
      ⟨27, "!k".toList⟩], Idle p.body := by
    simp only [List.forall_mem_cons]
    refine ⟨⟨"else".toList, [], by decide, by decide, by decide, by simp⟩,
      ⟨"hi".toList, ["\x7b%".toList, "you".toList], by decide, by decide, by decide, by simp⟩,
      ⟨['?'], [], by decide, by decide, by decide, by simp⟩,
      ⟨"!k".toList, [], by decide, by decide, by decide, by simp⟩, by simp⟩
  obtain ⟨t, hc, hrender, -⟩ := idle_source_renders_itself hts hidle "page"
  refine ⟨_, t, hts, hidle, rfl, hc, hrender _ ?_⟩
  simp only [List.forall_mem_cons]
  decide

end TagTemplate
