import Mathlib
import TagTemplate.Proofs.Openings
import TagTemplate.Proofs.Origins
import TagTemplate.Proofs.Visits
import TagTemplate.Report.Layout

/-! Where errors point. The error of a source that does not compile, and of a template that
does not render, has the offset of a tag, and its report marks the characters of that tag. -/

namespace TagTemplate

/-- A located error marks a tag of a source: from the opening mark at the offset to the first
closing brace, counted in characters. -/
structure TemplateError.Marks (e : TemplateError) (source name : String) (t : PlacedTag) :
    Prop where
  scanned : ∃ ts, TagScan 0 source.toList ts ∧ t ∈ ts
  template : e.template? = some name
  offset : e.offset? = some t.offset
  first : '}' ∉ t.body
  label : ∃ before after s, source.toList = before ++ ((Piece.tag t.body).source ++ after) ∧
    byteLength before = t.offset ∧ report? e source = some s.render ∧
    Snippet.ofError? e source.toList = some s ∧ s.template = name ∧ s.note = e.message ∧
    s.start = before.length ∧ s.stop = before.length + (Piece.tag t.body).source.length

theorem tagLength_append {body : List Char} (h : '}' ∉ body) (after : List Char) :
    tagLength ((Piece.tag body).source ++ after) = (Piece.tag body).source.length := by
  have hl : ((Piece.tag body).source ++ after).takeWhile (· != '}') = '{' :: '%' :: body := by
    have hb : ∀ c ∈ body, (c != '}') = true := fun c hc => by
      simpa using fun he : c = '}' => h (he ▸ hc)
    simp [Piece.source, List.takeWhile_append_of_pos hb]
  rw [tagLength, if_pos (by simp [Piece.source]), hl]
  simp [Piece.source]

/-- Whatever error has the offset of a tag marks the tag. -/
theorem TagScan.marks {source name : String} {ts : List PlacedTag}
    (h : TagScan 0 source.toList ts) {t : PlacedTag} (ht : t ∈ ts) {e : TemplateError}
    (template : e.template? = some name) (offset : e.offset? = some t.offset) :
    e.Marks source name t := by
  obtain ⟨hn, before, after, hs, hb⟩ := h.exists_tag ht
  rw [Nat.zero_add] at hb
  have hrest : dropBytes? t.offset source.toList = some ((Piece.tag t.body).source ++ after) := by
    rw [← hb, hs, dropBytes?_append]
  have hstart : charOffset source.toList t.offset = before.length := by
    rw [charOffset, ← hb, hs, charsBefore_append]
  have hsnippet : Snippet.ofError? e source.toList = some
      ⟨e.title, name, source.toList, before.length,
        before.length + (Piece.tag t.body).source.length, e.message⟩ := by
    simp [Snippet.ofError?, offset, template, hrest, hstart, tagLength_append hn]
  refine ⟨⟨ts, h, ht⟩, template, offset, hn, before, after, _, hs, hb, ?_, hsnippet, rfl, rfl, rfl,
    rfl⟩
  rw [report?, hsnippet]
  rfl

theorem Reading.of_asking_failure {α : Type} {site : Site} {answer : Except RenderFault α}
    {next : α → Reading} {f : Failure} (hn : ∀ a, (next a).failure = none)
    (h : (asking site answer next).failure = some f) :
    f.offset = site.span.start ∧ answer = .error f.fault := by
  cases answer with
  | ok a =>
    have hf : (next a).failure = some f := h
    rw [hn a] at hf
    exact nomatch hf
  | error fault =>
    obtain rfl := Option.some.inj h
    exact ⟨rfl, rfl⟩

namespace Template

variable {source : List Char} {t : Template}

/-- A visit that fails does so at the tag that says what its part asks. -/
theorem exists_tag_of_failure (h : ofSource source = .ok t.roots) {v : Visit}
    (hv : v.part ∈ t.parts) {f : Failure} (hf : v.reading.failure = some f) :
    ∃ tag, Scanned (placedTags 0 (pieces source)) f.offset tag ∧ v.part.AsksFor t.parts tag := by
  have hst := stamped h v.part hv
  obtain ⟨part, scope⟩ := v
  cases part with
  | node n =>
    cases n with
    | fetch site reference =>
      obtain ⟨ho, -⟩ := Reading.of_asking_failure (fun _ => rfl) hf
      exact ⟨_, ho ▸ hst, .fetch site reference⟩
    | field site args =>
      obtain ⟨ho, -⟩ := Reading.of_asking_failure (fun _ => rfl) hf
      exact ⟨_, ho ▸ hst, .field site args⟩
    | conditional site args body =>
      obtain ⟨ho, -⟩ := Reading.of_asking_failure (fun _ => rfl) hf
      exact ⟨_, ho ▸ hst, .conditional site args body⟩
    | loop site args body =>
      obtain ⟨ho, -⟩ := Reading.of_asking_failure (fun _ => rfl) hf
      exact ⟨_, ho ▸ hst, .loop site args body⟩
    | text | localeText | choice => exact nomatch hf
  | branch owner b =>
    obtain ⟨site, args, bs, hm, rfl, hb⟩ := Node.exists_choice_all hv
    obtain ⟨tag, hscan, ha⟩ := Part.Stamped.branch hm (stamped h _ hm) hb
    obtain ⟨place, guard, body⟩ := b
    have ho : f.offset = place.span.start := by
      cases guard with
      | none => exact nomatch hf
      | some args =>
        simp only [Visit.reading] at hf
        split at hf
        · exact nomatch hf
        · exact (Reading.of_asking_failure (fun _ => rfl) hf).1
    exact ⟨tag, ho ▸ hscan, ha⟩

theorem exists_visit_of_failure {inputs : Inputs} {e : TemplateError}
    (h : t.render inputs = .error e) : ∃ before v after f, t.visits inputs = before ++ v :: after ∧
      (Visit.replay before).failure = none ∧ v.reading.failure = some f ∧
      e = f.toError t.name := by
  rw [render_eq_replay, Reading.outcome] at h
  cases hf : (Visit.replay (t.visits inputs)).failure with
  | none => simp [hf] at h
  | some f =>
    obtain ⟨before, v, after, hvs, hb, hv⟩ := Visit.exists_of_replay_failure hf
    rw [hf] at h
    exact ⟨before, v, after, f, hvs, hb, hv, (Except.error.inj h).symm⟩

end Template

/-- Errors mark tags: one of a compilation marks a tag of the source, and one of a render the
tag that says what was asked when it failed, which for the condition of a first branch is the
tag of the conditional. -/
theorem errors_mark_tags (source name : String) (e : TemplateError) :
    (Template.compile source name = .error e → ∃ tag, e.Marks source name tag) ∧
    ∀ t inputs, Template.compile source name = .ok t → t.render inputs = .error e →
      ∃ before v after tag fault, t.visits inputs = before ++ v :: after ∧
        (Visit.replay before).failure = none ∧ v.reading.failure = some ⟨tag.offset, fault⟩ ∧
        e = .evaluation name tag.offset fault ∧
        v.part.AsksFor t.parts (Tag.ofBody tag.body) ∧ e.Marks source name tag := by
  have hscan := tagScan_pieces 0 source.toList
  refine ⟨fun he => ?_, fun t inputs hc he => ?_⟩
  · cases hs : Template.ofSource source.toList with
    | ok roots => simp [Template.compile, hs] at he
    | error f =>
      obtain rfl : f.toError source.toList name = e := by simpa [Template.compile, hs] using he
      obtain ⟨tag, ht, ho⟩ := (Template.ofSource_error_iff.mp hs).exists_tag
      exact ⟨tag, hscan.marks ht rfl (congrArg some ho.symm)⟩
  · obtain ⟨rfl, -, hs⟩ := Template.compile_eq_ok_iff.mp hc
    obtain ⟨before, v, after, f, hvs, hb, hf, rfl⟩ := Template.exists_visit_of_failure he
    have hv : v ∈ t.visits inputs := by simp [hvs]
    have hpart := Template.part_mem_of_mem_visits hv
    obtain ⟨_, ⟨tag, ht, ho, rfl⟩, hasks⟩ := Template.exists_tag_of_failure hs hpart hf
    obtain ⟨_, fault⟩ := f
    obtain rfl : tag.offset = _ := ho
    exact ⟨before, v, after, tag, fault, hvs, hb, hf, rfl, hasks, hscan.marks ht rfl rfl⟩

/-- Tags behind a character of two bytes: a closing tag that nothing opened, and a condition
that fails at the tag of its conditional although a branch of its own has it. -/
theorem errors_mark_tags_first_branch :
    (∃ e tag, Template.compile "é{%/if}" "page" = .error e ∧ e.Marks "é{%/if}" "page" tag) ∧
    ∃ t tag, Template.compile "é{%if gone == 1}a{%else}b{%/if}" "page" = .ok t ∧
      let e : TemplateError := .evaluation "page" 2 (.variableNotFound "gone")
      t.render ⟨[], [], none, none⟩ = .error e ∧ tag.offset = 2 ∧
      e.Marks "é{%if gone == 1}a{%else}b{%/if}" "page" tag ∧
      (Snippet.ofError? e "é{%if gone == 1}a{%else}b{%/if}".toList).map
        (fun s => (s.start, s.stop)) = some (1, 16) := by
  have hc : Template.compile "é{%if gone == 1}a{%else}b{%/if}" "page" =
      .ok ⟨"page", "é{%if gone == 1}a{%else}b{%/if}",
        [.text ⟨0, ⟨0, 2⟩⟩ "é",
          .choice ⟨1, ⟨2, 32⟩⟩ ["gone", "==", "1"]
            [⟨⟨3, ⟨2, 18⟩⟩, some ["gone", "==", "1"], [.text ⟨2, ⟨17, 18⟩⟩ "a"]⟩,
              ⟨⟨4, ⟨18, 26⟩⟩, none, [.text ⟨5, ⟨25, 26⟩⟩ "b"]⟩]]⟩ := by cbv
  refine ⟨?_, ?_⟩
  · obtain ⟨e, he⟩ : ∃ e, Template.compile "é{%/if}" "page" = .error e := ⟨_, by cbv⟩
    obtain ⟨tag, ht⟩ := (errors_mark_tags "é{%/if}" "page" e).1 he
    exact ⟨e, tag, he, ht⟩
  · obtain ⟨_, _, _, tag, _, -, -, -, he, -, hm⟩ :=
      (errors_mark_tags _ "page" (.evaluation "page" 2 (.variableNotFound "gone"))).2 _
        ⟨[], [], none, none⟩ hc (by decide +kernel)
    obtain ⟨-, ho, -⟩ := TemplateError.evaluation.inj he
    exact ⟨_, tag, hc, by decide +kernel, ho.symm, hm, by decide +kernel⟩

end TagTemplate
