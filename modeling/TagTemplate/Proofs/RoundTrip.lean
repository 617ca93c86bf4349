import TagTemplate.Proofs.Unfolding

/-! Every forest of constructs is what the template of its source unfolds to. -/

namespace TagTemplate

/-- The branches that a conditional has if it is closed now. -/
def Level.branches (l : Level) (id stop : Nat) : List (Branch Node) :=
  l.finished ++ [(l.ending id).finish stop l.children]

/-- A conditional with later branches, as the level it has come to. -/
structure Level.Extends (l : Level) (later : List (Alternative Construct)) (l' : Level) : Prop where
  block : l'.block = l.block
  args : l'.args = l.args
  same : later = [] → l' = l
  current : later ≠ [] ∨ l.current.isSome → l'.current.isSome
  branches : ∀ id stop, ∃ id₀ stop₀ bs, l'.branches id stop = l.branches id₀ stop₀ ++ bs ∧
    Construct.DepictLater bs later

theorem Level.Extends.nil (l : Level) : l.Extends [] l :=
  ⟨rfl, rfl, fun _ => rfl, by simp, fun id stop => ⟨id, stop, [], by simp, .nil⟩⟩

theorem Level.Extends.cons {l l' : Level} {id pos : Nat} {margins : Margins}
    {guard : Option (List Argument)} {body : List Construct} {ns : List Node}
    {later : List (Alternative Construct)} (hn : Construct.DepictAll ns body)
    (h : Level.Extends { l.branched id pos (guard.map texts) with children := ns } later l') :
    l.Extends (⟨margins, guard, body⟩ :: later) l' where
  block := h.block
  args := h.args
  same := nofun
  current _ := h.current (.inr rfl)
  branches id' stop := by
    -- The branch before this one ends at the tag of this one.
    obtain ⟨id₀, stop₀, bs, hbs, hd⟩ := h.branches id' stop
    refine ⟨id, pos, ⟨⟨l.nextId id, ⟨pos, stop₀⟩⟩, guard.map texts, ns⟩ :: bs, ?_, .cons _ hn hd⟩
    rw [hbs]
    simp [Level.branches, Level.branched, Level.ending, OpenBranch.finish]

namespace Construct

theorem head?_spell (c : Construct) (h : c.isText = false) : c.spell.head? = some '{' := by
  cases c with
  | text run => exact nomatch h
  | _ => simp [spell, Margins.opening, Margins.closing, Margins.tag]

theorem getLast?_spell (c : Construct) (h : c.isText = false) : c.spell.getLast? = some '}' := by
  cases c with
  | text run => exact nomatch h
  | _ => simp [spell, Margins.opening, Margins.closing, Margins.tag]

theorem apart_spellAll {c : Construct} {cs : List Construct}
    (h : separatedAll (c :: cs) = true) : Apart c.spell (spellAll cs) := by
  cases hc : c.isText with
  | false => exact apart_of_getLast? (by simp [c.getLast?_spell hc])
  | true =>
    cases cs with
    | nil => exact apart_of_head? (by simp [spellAll])
    | cons e es =>
      have he : e.isText = false := by simp_all [separatedAll]
      exact apart_of_head? (by simp [spellAll, e.head?_spell he])

theorem depicts_finish {opening closing : Margins} {args : List Argument} {body : List Construct}
    {later : List (Alternative Construct)} {ns : List Node} {id start : Nat} {l : Level}
    (h : Level.Extends ⟨.conditional, id, start, texts args, [], none, ns⟩ later l)
    (hn : DepictAll ns body) (span : Span) :
    Depicts (l.finish span) (.conditional opening args body later closing) := by
  cases later with
  | nil =>
    obtain rfl := h.same rfl
    exact depicts_plain _ hn
  | cons a as =>
    obtain ⟨b, hb⟩ := Option.isSome_iff_exists.mp (h.current (.inl (by simp)))
    obtain ⟨id₀, stop₀, bs, hbs, hd⟩ := h.branches 0 span.start
    have hf : l.finish span = .choice ⟨l.id, ⟨l.start, span.stop⟩⟩ l.args
        (l.branches 0 span.start) := by
      simp [Level.finish, Level.branches, Level.ending, h.block, hb]
    rw [hf, hbs, h.args]
    exact depicts_branched _ _ (by simp) hn hd

theorem apart_spellLater (s : List Char) (later : List (Alternative Construct)) :
    Apart s (spellLater later) := by
  refine apart_of_head? ?_
  match later with
  | [] => simp [spellLater]
  | ⟨_, none, _⟩ :: _ => simp [spellLater, spellAlternative, Margins.branching, Margins.tag]
  | ⟨_, some _, _⟩ :: _ => simp [spellLater, spellAlternative, Margins.branching, Margins.tag]

theorem apart_closing (s : List Char) (m : Margins) (block : Block) :
    Apart s (m.closing block) :=
  apart_of_head? (by simp [Margins.closing, Margins.tag])

theorem reads_leaf (d : Draft) (m : Margins) {head : List Char} {args : List Argument}
    {node : Site → Node} {c : Construct} (hb : '}' ∉ head)
    (h : (Tag.ofBody (m.body head args)).leaf? (m.tag head args) = some node)
    (hn : ∀ site, Depicts (node site) c) :
    ∃ d' n, Reads Draft.step d (m.tag head args) d' ∧ (c.isText = false → d'.pending = []) ∧
      d'.built = grow [n] d.built ∧ Depicts n c :=
  ⟨_, _, .tag Draft.takesText (m.unclosed_body hb args) (Draft.step_leaf h),
    fun _ => by simp [Draft.leaf], d.built_leaf _ node, hn _⟩

mutual

theorem reads_spell (c : Construct) (h : c.separated = true) (d : Draft)
    (hp : c.isText = true → d.pending = []) :
    ∃ d' n, Reads Draft.step d c.spell d' ∧ (c.isText = false → d'.pending = []) ∧
      d'.built = grow [n] d.built ∧ Depicts n c := by
  cases c with
  | text run =>
    -- The text waits until a tag follows, so nothing may wait before it.
    obtain ⟨site, hb⟩ := Draft.built_append (hp rfl) run.ne_nil
    exact ⟨d.append run.chars, .text site (String.ofList run.chars),
      .text Draft.takesText run.unopened rfl, nofun, hb,
      fun content ha => ha _ (List.mem_singleton_self _)⟩
  | fetch margins reference =>
    have ht := congrArg (Tag.leaf? (margins.tag ('?' :: reference.chars) []))
      (margins.ofBody_fetch reference)
    exact reads_leaf d margins (by simp [reference.unclosed]) ht fun site content ha =>
      ha _ (List.mem_singleton_self _)
  | localeText margins key =>
    have ht := congrArg (Tag.leaf? (margins.tag ('!' :: key.chars) []))
      (margins.ofBody_localeText key)
    exact reads_leaf d margins (by simp [key.unclosed]) ht fun site content ha =>
      ha _ (List.mem_singleton_self _)
  | field margins args =>
    have ht := congrArg (Tag.leaf? (margins.tag "input".toList args)) (margins.ofBody_input args)
    exact reads_leaf d margins (by simp) ht fun site content ha =>
      ha _ (List.mem_singleton_self _)
  | conditional opening args body later closing =>
    obtain ⟨hbody, hlater⟩ : separatedAll body = true ∧ separatedLater later = true := by
      simpa [separated] using h
    obtain ⟨d₁, id, start, h₁, hp₁, hb₁⟩ := d.reads_opening opening .conditional args
    obtain ⟨d₂, ns, h₂, hb₂, hn⟩ := reads_spellAll body hbody d₁ fun _ => hp₁
    rw [hb₁] at hb₂
    -- From here on the level is known only by the branches it would close with.
    obtain ⟨d₃, l, h₃, hb₃, hl⟩ := reads_spellLater later hlater d₂ hb₂ rfl
    obtain ⟨d', span, h₄, hp₄, hb₄⟩ := Draft.reads_closing hb₃ closing
    rw [hl.block] at h₄
    have hr := (h₂.trans h₃ (apart_spellLater _ _)).trans h₄ (apart_closing _ _ _)
    exact ⟨d', l.finish span, h₁.trans hr (apart_tag _ _), fun _ => hp₄, hb₄,
      depicts_finish hl hn span⟩
  | loop opening args body closing =>
    obtain ⟨d₁, id, start, h₁, hp₁, hb₁⟩ := d.reads_opening opening .loop args
    obtain ⟨d₂, ns, h₂, hb₂, hn⟩ := reads_spellAll body h d₁ fun _ => hp₁
    rw [hb₁] at hb₂
    obtain ⟨d', span, h₃, hp₃, hb₃⟩ := Draft.reads_closing hb₂ closing
    have hr := h₂.trans h₃ (apart_closing _ _ _)
    exact ⟨d', _, h₁.trans hr (apart_tag _ _), fun _ => hp₃, hb₃, depicts_loop _ hn⟩

theorem reads_spellAll (cs : List Construct) (h : separatedAll cs = true) (d : Draft)
    (hp : cs.head?.any isText = true → d.pending = []) :
    ∃ d' ns, Reads Draft.step d (spellAll cs) d' ∧ d'.built = grow ns d.built ∧
      DepictAll ns cs := by
  cases cs with
  | nil => exact ⟨d, [], .nil d, (grow_nil _).symm, .nil⟩
  | cons c cs =>
    have ha := apart_spellAll h
    obtain ⟨⟨hc, hnext⟩, hcs⟩ : (c.separated = true ∧
        (c.isText = false ∨ cs.head?.any isText = false)) ∧ separatedAll cs = true := by
      simpa [separatedAll] using h
    obtain ⟨d₁, n, h₁, hp₁, hb₁, hn⟩ := reads_spell c hc d fun ht => hp ht
    have hp₂ : cs.head?.any isText = true → d₁.pending = [] := by
      intro ht
      rcases hnext with hct | hnt
      · exact hp₁ hct
      · exact absurd ht (by simp [hnt])
    obtain ⟨d', ns, h₂, hb₂, hns⟩ := reads_spellAll cs hcs d₁ hp₂
    exact ⟨d', n :: ns, h₁.trans h₂ ha, by rw [hb₂, hb₁, ← grow_append]; rfl, .cons hn hns⟩

theorem reads_spellLater (later : List (Alternative Construct))
    (h : separatedLater later = true) (d : Draft) {l : Level} {ls : List Level}
    {roots : List Node} (hd : d.built = (l :: ls, roots)) (hl : l.block = .conditional) :
    ∃ d' l', Reads Draft.step d (spellLater later) d' ∧ d'.built = (l' :: ls, roots) ∧
      l.Extends later l' := by
  cases later with
  | nil => exact ⟨d, l, .nil d, hd, .nil l⟩
  | cons a later =>
    obtain ⟨margins, guard, body⟩ := a
    obtain ⟨hbody, hlater⟩ : separatedAll body = true ∧ separatedLater later = true := by
      simpa [separatedLater, separatedAlternative] using h
    obtain ⟨d₁, id, pos, h₁, hp₁, hb₁⟩ := Draft.reads_branching hd hl margins guard
    obtain ⟨d₂, ns, h₂, hb₂, hn⟩ := reads_spellAll body hbody d₁ fun _ => hp₁
    rw [hb₁] at hb₂
    obtain ⟨d', l', h₃, hb₃, hl'⟩ := reads_spellLater later hlater d₂ hb₂ hl
    have ha : Apart (margins.branching guard) (spellAll body) := by
      cases guard <;> exact apart_tag _ _
    exact ⟨d', l', (h₁.trans h₂ ha).trans h₃ (apart_spellLater _ _), hb₃, .cons hn hl'⟩

end

end Construct

/-- A forest that is written out compiles, whatever blanks its tags have, and unfolding
the template from its roots gives the forest back. -/
theorem spelled_forest_unfolds {forest : List Construct}
    (h : Construct.separatedAll forest = true) (name : String) :
    ∃ t, Template.compile (String.ofList (Construct.spellAll forest)) name = .ok t ∧
      Construct.AllAt t.content? (Node.ids t.roots) forest := by
  obtain ⟨d, ns, hr, hb, hn⟩ := Construct.reads_spellAll forest h Draft.empty fun _ => rfl
  have hs : Template.ofSource (Construct.spellAll forest) = .ok ns := by
    have hscan := hr.scan_eq Draft.takesText
    have ho : Template.ofSource (Construct.spellAll forest) =
        scan Draft.step Draft.empty (Construct.spellAll forest) >>= Draft.finish := rfl
    obtain ⟨hl, hroots⟩ := Prod.mk.inj (hb : (_, _) = ([], [] ++ ns))
    rw [ho, hscan]
    show d.finish = _
    simp only [Draft.finish, hl, hroots]
    rfl
  have hc : Template.compile (String.ofList (Construct.spellAll forest)) name =
      .ok ⟨name, String.ofList (Construct.spellAll forest), ns⟩ := by
    rw [Template.compile, String.toList_ofList, hs]
  exact ⟨_, hc, hn _ fun q hq => Template.content?_of_mem hs hq⟩

/-- A brace right before a tag, an else before an elseif, empty bodies, and blanks in tags. -/
theorem spelled_forest_unfolds_else_first :
    ∃ forest, Construct.spellAll forest =
        "a \x7b{%if x }{%else}{% elseif}{%?v}{%/if}{%foreach i}{%!k }{%/foreach }".toList ∧
      Construct.separatedAll forest = true ∧
      ∃ t, Template.compile (String.ofList (Construct.spellAll forest)) "page" = .ok t ∧
        Construct.AllAt t.content? (Node.ids t.roots) forest := by
  refine ⟨[.text ⟨"a \x7b".toList, by simp, by decide⟩,
    .conditional ⟨.nothing, .ofChar ' ' (by decide)⟩
      [⟨.ofChar ' ' (by decide), by simp [Blanks.ofChar], .ofChar 'x' (by decide) (by decide)⟩] []
      [⟨⟨.nothing, .nothing⟩, none, []⟩,
        ⟨⟨.ofChar ' ' (by decide), .nothing⟩, some [],
          [.fetch ⟨.nothing, .nothing⟩ (.ofChar 'v' (by decide) (by decide))]⟩]
      ⟨.nothing, .nothing⟩,
    .loop ⟨.nothing, .nothing⟩
      [⟨.ofChar ' ' (by decide), by simp [Blanks.ofChar],
        .ofChar 'i' (by decide) (by decide)⟩]
      [.localeText ⟨.nothing, .ofChar ' ' (by decide)⟩ (.ofChar 'k' (by decide) (by decide))]
      ⟨.nothing, .ofChar ' ' (by decide)⟩], rfl, rfl, spelled_forest_unfolds rfl "page"⟩

end TagTemplate
