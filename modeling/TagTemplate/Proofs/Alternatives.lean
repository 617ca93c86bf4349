import TagTemplate.Proofs.Fragments
import TagTemplate.Proofs.Words

/-! A conditional with several branches is a conditional in the last resort of another.
Both are read as a row of offers, of which the first that holds is taken. -/

namespace TagTemplate

/-- A condition and what is rendered under it. -/
structure Arm where
  condition : String
  unclosed : '}' ∉ condition.toList
  body : Fragment

def ifTag (condition : String) : List Char :=
  (Piece.tag ("if".toList ++ ' ' :: condition.toList)).source

def elseIfTag (condition : String) : List Char :=
  (Piece.tag ("elseif".toList ++ ' ' :: condition.toList)).source

def elseTag : List Char :=
  (Piece.tag "else".toList).source

def endTag : List Char :=
  (Piece.tag "/if".toList).source

theorem apart_endTag (s : List Char) : Apart s endTag :=
  apart_of_head? (by simp [endTag])

def lastResort : Option Fragment → List Char
  | none => []
  | some last => elseTag ++ last.source.toList

/-- The arms one after the other in one conditional. -/
def chained (first : Arm) (arms : List Arm) (last : Option Fragment) : List Char :=
  ifTag first.condition ++ first.body.source.toList ++
    (arms.flatMap fun a => elseIfTag a.condition ++ a.body.source.toList) ++
      lastResort last ++ endTag

/-- Each arm in the last resort of the one before it. -/
def nested (first : Arm) (arms : List Arm) (last : Option Fragment) : List Char :=
  ifTag first.condition ++ first.body.source.toList ++
    (match arms with
      | [] => lastResort last
      | a :: arms => elseTag ++ nested a arms last) ++ endTag

/-- Two renders that give the same text, or fail for the same reason in whatever place. -/
inductive EndsAlike : Except TemplateError String → Except TemplateError String → Prop where
  | text (s : String) : EndsAlike (.ok s) (.ok s)
  | fault (template template' : String) (offset offset' : Nat) (fault : RenderFault) :
      EndsAlike (.error (.evaluation template offset fault))
        (.error (.evaluation template' offset' fault))

namespace Reading

/-- A reading whose failure, if there is one, has lost its place. -/
def unplaced (r : Reading) : Reading :=
  r.mapOffset fun _ => 0

theorem unplaced_mapOffset (r : Reading) (g : Nat → Nat) :
    (r.mapOffset g).unplaced = r.unplaced := by
  obtain ⟨a, f⟩ := r
  cases f <;> rfl

theorem endsAlike_of_unplaced {r s : Reading} (h : r.unplaced = s.unplaced) (name : String) :
    EndsAlike (r.outcome name) (s.outcome name) := by
  obtain ⟨a, f⟩ := r
  obtain ⟨b, g⟩ := s
  obtain ⟨rfl, hf⟩ : a = b ∧ _ := by simpa [unplaced, mapOffset] using h
  cases f with
  | none =>
    obtain rfl : g = none := by simpa using hf.symm
    exact .text a
  | some f =>
    obtain ⟨g, rfl, hg⟩ := Option.map_eq_some_iff.mp hf.symm
    have hfault : g.fault = f.fault := by simpa using hg
    simp only [outcome, Failure.toError, hfault]
    exact .fault name name f.offset g.offset f.fault

end Reading

/-- An offer whose failures have lost their places. -/
def Offer.unplaced (o : Offer) : Offer :=
  o.mapOffset fun _ => 0

theorem Offer.first_unplaced (v : View) (os : List Offer) :
    first v (os.map unplaced) = (first v os).unplaced :=
  first_mapOffset (fun _ => 0) v os

theorem Offer.first_congr {v : View} {os os' : List Offer} (h : first v os = first v os')
    (o : Offer) : first v (o :: os) = first v (o :: os') := by
  simp only [first, h]

def arguments (condition : String) : List String :=
  (words condition.toList).map String.ofList

namespace Tag

theorem ofBody_if (cs : List Char) : ofBody ("if".toList ++ ' ' :: cs) =
    .openBlock .conditional ((words cs).map String.ofList) := by
  have hw : words ("if".toList ++ ' ' :: cs) = "if".toList :: words cs :=
    words_word_blank (by simp) (by simp; decide) cs
  rw [ofBody, hw]
  rfl

theorem guard?_elseIf (cs : List Char) : (ofBody ("elseif".toList ++ ' ' :: cs)).guard? =
    some (some ((words cs).map String.ofList)) := by
  have hw : words ("elseif".toList ++ ' ' :: cs) = "elseif".toList :: words cs :=
    words_word_blank (by simp) (by simp; decide) cs
  rw [ofBody, hw]
  rfl

theorem guard?_else : (ofBody "else".toList).guard? = some none := by decide

theorem ofBody_endIf : ofBody "/if".toList = .close "if" := by decide

end Tag

namespace Outline

/-- An outline in which a conditional has been opened on a base; these are the offers it
would make if it were closed now. -/
structure Asks (b : Outline) (os : List Offer) (m : Outline) : Prop where
  roots : m.roots = b.roots
  stage : ∃ st, m.stages = st :: b.stages ∧ st.block = .conditional ∧
    st.finished ++ [st.ending] = os ∧ st.offers = os

variable {b m : Outline} {os : List Offer}

theorem asks_openBlock (b : Outline) (stop : Nat) (args : List String) :
    b.Asks [⟨b.pos, some args, fun _ => .silent⟩] (b.openBlock stop .conditional args) :=
  ⟨rfl, _, rfl, rfl, rfl, rfl⟩

namespace Asks

theorem inConditional (h : b.Asks os m) : m.inConditional = true := by
  obtain ⟨st, hs, hb, -⟩ := h.stage
  simp [Outline.inConditional, hs, hb]

theorem say {o : Offer} (h : b.Asks (os ++ [o]) m) (r : Prose) (pos : Nat) :
    b.Asks (os ++ [⟨o.offset, o.guard, fun v => (o.reading v).andThen (r v)⟩])
      { m.say r with pos } := by
  obtain ⟨st, hs, hb, hf, ho⟩ := h.stage
  obtain ⟨rfl, rfl⟩ : st.finished = os ∧ st.ending = o := by simpa using List.append_inj' hf rfl
  refine ⟨by simp [Outline.say, hs, h.roots], { st with
    children := fun v => (st.children v).andThen (r v) }, by simp [Outline.say, hs], hb, ?_, ?_⟩
  · unfold Stage.ending
    cases st.current <;> rfl
  · unfold Stage.offers Stage.ending at *
    cases hc : st.current <;> simp_all

theorem startBranch (h : b.Asks os m) (stop : Nat) (guard : Option (List String)) :
    b.Asks (os ++ [⟨m.pos, guard, fun _ => .silent⟩]) (m.startBranch stop guard) := by
  obtain ⟨st, hs, hb, rfl, ho⟩ := h.stage
  refine ⟨by simp [Outline.startBranch, hs, h.roots], st.branched m.pos guard,
    by simp [Outline.startBranch, hs], hb, rfl, rfl⟩

theorem closeBlock (h : b.Asks os m) (stop : Nat) : m.closeBlock stop "if" =
    .ok { b.say fun v => Offer.first v os with pos := stop } := by
  obtain ⟨st, hs, hb, -, rfl⟩ := h.stage
  have hp : st.prose = fun v => Offer.first v st.offers := by
    funext v
    simp [Stage.prose, hb]
  have hn : st.block.name = "if" := by rw [hb]; rfl
  simp only [Outline.closeBlock, hs, if_pos hn, hp]
  rw [if_neg (by decide)]
  have hm : ({ m with stages := b.stages } : Outline) = { b with pos := m.pos } := by
    rw [← h.roots]
  simp only [hm, say_with_pos]

end Asks

end Outline

def Fragment.offer (F : Fragment) (guard : Option (List String)) : Offer :=
  ⟨0, guard, fun v => (F.prose v).unplaced⟩

theorem Fragment.unplaced_offer (F : Fragment) (offset n : Nat) (guard : Option (List String)) :
    Offer.unplaced ⟨offset, guard, fun v => (F.prose v).mapOffset (· + n)⟩ = F.offer guard :=
  congrArg (Offer.mk 0 guard) (funext fun v => (F.prose v).unplaced_mapOffset _)

def Arm.offer (a : Arm) : Offer :=
  a.body.offer (some (arguments a.condition))

/-- What either source offers, but for the places. -/
def offers (first : Arm) (arms : List Arm) (last : Option Fragment) : List Offer :=
  first.offer :: (arms.map Arm.offer ++ last.toList.map fun F => F.offer none)

namespace Outline

variable {b m : Outline} {os : List Offer}

theorem reads_guarded (h : b.Asks os m) {body : List Char} (hb : '}' ∉ body)
    {guard : Option (List String)} (hg : (Tag.ofBody body).guard? = some guard) (F : Fragment) :
    ∃ o m', Reads step m ((Piece.tag body).source ++ F.source.toList) m' ∧
      b.Asks (os ++ [o]) m' ∧ o.unplaced = F.offer guard := by
  have ht := Reads.tag takesText hb (step_guard hg h.inConditional)
  refine ⟨_, _, ht.trans (F.reads _) (apart_tag _ _), (h.startBranch _ guard).say _ _, ?_⟩
  simp only [Reading.silent_andThen]
  exact F.unplaced_offer _ _ guard

theorem reads_ifTag (b : Outline) (a : Arm) :
    ∃ o m, Reads step b (ifTag a.condition ++ a.body.source.toList) m ∧ b.Asks [o] m ∧
      o.unplaced = a.offer := by
  have hb : '}' ∉ "if".toList ++ ' ' :: a.condition.toList := by
    simp [a.unclosed]
  have ht := Reads.tag takesText hb (step_openBlock (m := b) (Tag.ofBody_if a.condition.toList))
  refine ⟨_, _, ht.trans (a.body.reads _) (apart_tag _ _),
    @Asks.say b _ [] _ (b.asks_openBlock _ _) _ _, ?_⟩
  simp only [Reading.silent_andThen]
  exact a.body.unplaced_offer _ _ _

theorem reads_arms (h : b.Asks os m) (arms : List Arm) :
    ∃ os' m', Reads step m
        (arms.flatMap fun a => elseIfTag a.condition ++ a.body.source.toList) m' ∧
      b.Asks os' m' ∧ os'.map Offer.unplaced = os.map Offer.unplaced ++ arms.map Arm.offer := by
  induction arms generalizing os m with
  | nil => exact ⟨os, m, .nil m, h, by simp⟩
  | cons a arms ih =>
    have hb : '}' ∉ "elseif".toList ++ ' ' :: a.condition.toList := by
      simp [a.unclosed]
    obtain ⟨o, m₁, h₁, ha₁, ho⟩ := reads_guarded h hb (Tag.guard?_elseIf _) a.body
    obtain ⟨os', m', h', ha', hos⟩ := ih ha₁
    refine ⟨os', m', h₁.trans h' (apart_of_head? ?_), ha', ?_⟩
    · cases arms <;> simp [elseIfTag]
    · simp [hos, ho, Arm.offer, arguments]

theorem reads_lastResort (h : b.Asks os m) (last : Option Fragment) :
    ∃ os' m', Reads step m (lastResort last) m' ∧ b.Asks os' m' ∧
      os'.map Offer.unplaced =
        os.map Offer.unplaced ++ last.toList.map fun F => F.offer none := by
  cases last with
  | none => exact ⟨os, m, .nil m, h, by simp⟩
  | some F =>
    obtain ⟨o, m', h', ha', ho⟩ := reads_guarded h (by decide) Tag.guard?_else F
    exact ⟨_, m', h', ha', by simp [ho]⟩

theorem reads_endTag (h : b.Asks os m) :
    ∃ pos, Reads step m endTag { b.say fun v => Offer.first v os with pos } :=
  ⟨_, .tag takesText (by decide) ((step_close Tag.ofBody_endIf).trans (h.closeBlock _))⟩

theorem reads_chained (b : Outline) (first : Arm) (arms : List Arm) (last : Option Fragment) :
    ∃ r pos, Reads step b (chained first arms last) { b.say r with pos } ∧
      ∀ v, (r v).unplaced = Offer.first v (offers first arms last) := by
  obtain ⟨o, m₁, h₁, ha₁, ho⟩ := b.reads_ifTag first
  obtain ⟨os₂, m₂, h₂, ha₂, hos₂⟩ := reads_arms ha₁ arms
  obtain ⟨os₃, m₃, h₃, ha₃, hos₃⟩ := reads_lastResort ha₂ last
  obtain ⟨pos, h₄⟩ := reads_endTag ha₃
  refine ⟨_, pos, ((h₁.trans h₂ (apart_of_head? ?_)).trans h₃ (apart_of_head? ?_)).trans h₄
    (apart_endTag _), fun v => ?_⟩
  · cases arms <;> simp [elseIfTag]
  · cases last <;> simp [lastResort, elseTag]
  · rw [← Offer.first_unplaced, hos₃, hos₂]
    simp [ho, offers]

theorem reads_nested (b : Outline) (first : Arm) (arms : List Arm) (last : Option Fragment) :
    ∃ r pos, Reads step b (nested first arms last) { b.say r with pos } ∧
      ∀ v, (r v).unplaced = Offer.first v (offers first arms last) := by
  induction arms generalizing first b with
  | nil =>
    have h := b.reads_chained first [] last
    simpa [chained, nested] using h
  | cons a arms ih =>
    obtain ⟨o, m₁, h₁, ha₁, ho⟩ := b.reads_ifTag first
    have h₂ := Reads.tag takesText (by decide)
      (step_guard Tag.guard?_else ha₁.inConditional)
    obtain ⟨r, pos, h₃, hr⟩ := ih _ a
    obtain ⟨pos', h₄⟩ := reads_endTag ((ha₁.startBranch _ none).say r pos)
    refine ⟨_, pos', (h₁.trans (h₂.trans h₃ (apart_tag _ _)) (apart_of_head? ?_)).trans h₄
      (apart_endTag _), fun v => ?_⟩
    · simp
    -- The inner conditional is all that the last branch reads, and no guard stands before it.
    · have hlast : Offer.first v
          [Offer.unplaced ⟨m₁.pos, none, fun v => Reading.silent.andThen (r v)⟩] =
          Offer.first v (offers a arms last) := by
        simp only [Reading.silent_andThen]
        exact hr v
      rw [← Offer.first_unplaced]
      simpa [ho, offers] using Offer.first_congr hlast first.offer

theorem compile_of_reads {cs : List Char} {r : Prose} {pos : Nat}
    (h : Reads step start cs { start.say r with pos }) (name : String) :
    ∃ t, Template.compile (String.ofList cs) name = .ok t ∧
      ∀ inputs, t.render inputs = (r ⟨inputs, []⟩).outcome name := by
  have hs : ofSource (String.ofList cs).toList = .ok r := by
    rw [String.toList_ofList, ofSource, h.scan_eq takesText]
    simp [bind, Except.bind, finish, say, start]
  exact Template.compile_of_outline hs name

end Outline

/-- A chain of arms renders as if each stood in the last resort of the one before it, up to
the place of a failure; and an empty last resort changes nothing at all. -/
theorem chained_renders_as_nested (first : Arm) (arms : List Arm) (last : Option Fragment)
    (name : String) :
    (∃ t u, Template.compile (String.ofList (chained first arms last)) name = .ok t ∧
      Template.compile (String.ofList (nested first arms last)) name = .ok u ∧
      ∀ inputs, EndsAlike (t.render inputs) (u.render inputs)) ∧
    ∃ t u, Template.compile (String.ofList (ifTag first.condition ++
          first.body.source.toList ++ endTag)) name = .ok t ∧
      Template.compile (String.ofList (ifTag first.condition ++
          first.body.source.toList ++ elseTag ++ endTag)) name = .ok u ∧
      ∀ inputs, t.render inputs = u.render inputs := by
  constructor
  · obtain ⟨r, pos, h, hr⟩ := Outline.start.reads_chained first arms last
    obtain ⟨r', pos', h', hr'⟩ := Outline.start.reads_nested first arms last
    obtain ⟨t, ht, hrender⟩ := Outline.compile_of_reads h name
    obtain ⟨u, hu, hrender'⟩ := Outline.compile_of_reads h' name
    refine ⟨t, u, ht, hu, fun inputs => ?_⟩
    rw [hrender, hrender']
    exact Reading.endsAlike_of_unplaced ((hr _).trans (hr' _).symm) name
  · obtain ⟨o, m, h, ha, ho⟩ := Outline.start.reads_ifTag first
    have he := Reads.tag Outline.takesText (by decide)
      (Outline.step_guard Tag.guard?_else ha.inConditional)
    obtain ⟨pos, hp⟩ := Outline.reads_endTag ha
    obtain ⟨pos', hp'⟩ := Outline.reads_endTag (ha.startBranch _ none)
    obtain ⟨t, ht, hrender⟩ := Outline.compile_of_reads (h.trans hp (apart_endTag _)) name
    obtain ⟨u, hu, hrender'⟩ := Outline.compile_of_reads
      ((h.trans he (apart_of_head? (by simp))).trans hp' (apart_endTag _)) name
    refine ⟨t, u, ht, hu, fun inputs => ?_⟩
    rw [hrender, hrender']
    exact congrArg (Reading.outcome · name) (Offer.first_congr rfl o)

/-- The second condition is malformed, which is charged to its tag in either source. -/
theorem chained_renders_as_nested_second_fault :
    ∃ (first second : Arm) (t u : Template),
      chained first [second] none =
        "{%if a == b}{%if c}{%else}{%/if}{%elseif c}{%if c}{%else}{%/if}{%/if}".toList ∧
      Template.compile (String.ofList (chained first [second] none)) "page" = .ok t ∧
      Template.compile (String.ofList (nested first [second] none)) "page" = .ok u ∧
      (∀ inputs, EndsAlike (t.render inputs) (u.render inputs)) ∧
      t.render ⟨[], [("a", .text "x")], none, none⟩ =
        .error (.evaluation "page" 32 (.malformedExpression "c")) ∧
      u.render ⟨[], [("a", .text "x")], none, none⟩ =
        .error (.evaluation "page" 39 (.malformedExpression "c")) := by
  obtain ⟨F, hF⟩ := exists_branching_fragment
  let first : Arm := ⟨"a == b", by decide, F⟩
  let second : Arm := ⟨"c", by decide, F⟩
  obtain ⟨⟨t, u, ht, hu, h⟩, -⟩ := chained_renders_as_nested first [second] none "page"
  have hc : chained first [second] none =
      "{%if a == b}{%if c}{%else}{%/if}{%elseif c}{%if c}{%else}{%/if}{%/if}".toList := by
    simp only [chained, first, second, hF, List.flatMap_cons]
    rfl
  have hn : nested first [second] none =
      ("{%if a == b}{%if c}{%else}{%/if}{%else}" ++
        "{%if c}{%if c}{%else}{%/if}{%/if}{%/if}").toList := by
    simp only [nested, first, second, hF]
    rfl
  have htr : (Template.compile (String.ofList (chained first [second] none)) "page").map
      (·.render ⟨[], [("a", .text "x")], none, none⟩) =
        .ok (.error (.evaluation "page" 32 (.malformedExpression "c"))) := by
    rw [hc]
    decide +kernel
  have hur : (Template.compile (String.ofList (nested first [second] none)) "page").map
      (·.render ⟨[], [("a", .text "x")], none, none⟩) =
        .ok (.error (.evaluation "page" 39 (.malformedExpression "c"))) := by
    rw [hn]
    decide +kernel
  rw [ht] at htr
  rw [hu] at hur
  exact ⟨first, second, t, u, hc, ht, hu, h, Except.ok.inj htr, Except.ok.inj hur⟩

end TagTemplate
