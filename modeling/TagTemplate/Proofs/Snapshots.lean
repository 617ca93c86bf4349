import Mathlib.Data.List.Basic
import TagTemplate.Catalog
import TagTemplate.Proofs.Move

/-! A catalog in use, while what its loader holds changes. The past tells for each name
which source it stands for, and the catalog answers as if it compiled that source anew. -/

namespace TagTemplate

inductive Event where
  | loaded (name : String) (answer : Except TemplateError String)
  | global (name : String) (value : Value)
  | dropped (name : String)
  | cleared

/-- What was loaded last under a name and compiled, since the name was last dropped. The
latest event comes first. -/
def snapshot (name : String) : List Event → Option String
  | [] => none
  | .loaded n (.ok source) :: past =>
    if n = name ∧ (Template.compile source n).isOk then some source else snapshot name past
  | .loaded _ (.error _) :: past => snapshot name past
  | .global _ _ :: past => snapshot name past
  | .dropped n :: past => if n = name then none else snapshot name past
  | .cleared :: _ => none

def globalsAfter (initial : Entries Value) : List Event → Entries Value
  | [] => initial
  | .global name value :: past => (globalsAfter initial past).insert name value
  | _ :: past => globalsAfter initial past

/-- A catalog in use: what the loader holds, and what has happened. -/
structure Session (σ : Type) where
  shelf : σ
  past : List Event
  catalog : Catalog

inductive Action (σ : Type) where
  | change (shelf : σ)
  | template (name : String)
  | render (name : String) (request : Request)
  | setGlobal (name : String) (value : Value)
  | invalidate (name : String)
  | clear

def Action.Drops {σ : Type} (name : String) : Action σ → Prop
  | invalidate n => n = name
  | clear => True
  | _ => False

section

variable {σ : Type} (load : Loader (StateM σ))

/-- The loader, with every call of it written down. -/
def recording : Loader (StateM (σ × List Event)) :=
  fun name p => ((load name p.1).1, (load name p.1).2, .loaded name (load name p.1).1 :: p.2)

namespace Session

def start (globals : Entries Value) (shelf : σ) : Session σ :=
  ⟨shelf, [], .ofGlobals globals⟩

def through {α : Type} (s : Session σ) (x : StateM (σ × List Event) (α × Catalog)) :
    α × Session σ :=
  let r := x.run (s.shelf, s.past)
  (r.1.1, ⟨r.2.1, r.2.2, r.1.2⟩)

def template (s : Session σ) (name : String) : Except TemplateError Held × Session σ :=
  s.through (s.catalog.template (recording load) name)

def render (s : Session σ) (name : String) (r : Request) :
    Except TemplateError String × Session σ :=
  s.through (s.catalog.render (recording load) name r)

def setGlobal (s : Session σ) (name : String) (value : Value) : Session σ :=
  { s with past := .global name value :: s.past, catalog := s.catalog.setGlobal name value }

def invalidate (s : Session σ) (name : String) : Bool × Session σ :=
  let (held, catalog) := s.catalog.invalidate name
  (held, { s with past := .dropped name :: s.past, catalog })

def clear (s : Session σ) : Session σ :=
  { s with past := .cleared :: s.past, catalog := s.catalog.clear }

def step (s : Session σ) : Action σ → Session σ
  | .change shelf => { s with shelf }
  | .template name => (s.template load name).2
  | .render name r => (s.render load name r).2
  | .setGlobal name value => s.setGlobal name value
  | .invalidate name => (s.invalidate name).2
  | .clear => s.clear

def run (s : Session σ) (actions : List (Action σ)) : Session σ :=
  actions.foldl (step load) s

variable {load}

theorem template_of_held {s : Session σ} {name : String} {x : Held}
    (h : s.catalog.held.get? name = some x) : s.template load name = (.ok x, s) := by
  simp only [template, through, Catalog.template, h]
  rfl

/-- A name that is held is answered without the loader; otherwise the loader is called once,
and what it gave is held if it compiles. -/
theorem template_cases (load : Loader (StateM σ)) (s : Session σ) (name : String) :
    (∃ x, s.catalog.held.get? name = some x ∧ s.template load name = (.ok x, s)) ∨
    s.catalog.held.get? name = none ∧
      ((∃ e, (load name s.shelf).1.bind (Template.compile · name) = .error e ∧
        s.template load name = (.error e, ⟨(load name s.shelf).2,
          .loaded name (load name s.shelf).1 :: s.past, s.catalog⟩)) ∨
      ∃ source t, (load name s.shelf).1 = .ok source ∧ Template.compile source name = .ok t ∧
        s.template load name = (.ok ⟨s.catalog.issued, t⟩, ⟨(load name s.shelf).2,
          .loaded name (load name s.shelf).1 :: s.past,
          { s.catalog with
            held := s.catalog.held.insert name ⟨s.catalog.issued, t⟩
            issued := s.catalog.issued + 1 }⟩)) := by
  cases hn : s.catalog.held.get? name with
  | some x => exact .inl ⟨x, rfl, template_of_held hn⟩
  | none =>
    have ht : s.template load name =
        ((s.catalog.store name (load name s.shelf).1).1, ⟨(load name s.shelf).2,
          .loaded name (load name s.shelf).1 :: s.past,
          (s.catalog.store name (load name s.shelf).1).2⟩) := by
      simp only [template, through, Catalog.template, hn]
      rfl
    refine .inr ⟨rfl, ?_⟩
    unfold Catalog.store at ht
    cases hc : (load name s.shelf).1.bind (Template.compile · name) with
    | error e => exact .inl ⟨e, rfl, by rw [ht, hc]⟩
    | ok t =>
      cases hl : (load name s.shelf).1 with
      | error e =>
        rw [hl] at hc
        exact nomatch hc
      | ok source =>
        rw [hl] at hc ht
        exact .inr ⟨source, t, rfl, hc, by rw [ht, hc]⟩

theorem render_eq (s : Session σ) (name : String) (r : Request) :
    s.render load name r = ((s.template load name).1.bind fun h =>
      h.template.render ((s.template load name).2.catalog.inputs r),
        (s.template load name).2) := rfl

end Session

end

theorem snapshot_compiles {name source : String} {past : List Event}
    (h : snapshot name past = some source) : ∃ t, Template.compile source name = .ok t := by
  fun_induction snapshot name past with
  | case1 => exact nomatch h
  | case2 n source' past hn =>
    obtain ⟨rfl, hok⟩ := hn
    obtain rfl := Option.some.inj h
    cases hc : Template.compile source' n with
    | ok t => exact ⟨t, rfl⟩
    | error e => simp [hc, Except.isOk, Except.toBool] at hok
  | case3 n source' past hn ih => exact ih h
  | case4 n e past ih => exact ih h
  | case5 n v past ih => exact ih h
  | case6 past => exact nomatch h
  | case7 n past hn ih => exact ih h
  | case8 => exact nomatch h

namespace Session

section

variable {σ : Type} {load : Loader (StateM σ)} {globals : Entries Value} {s : Session σ}

/-- What is held is what the past tells. -/
structure Tied (globals : Entries Value) (s : Session σ) : Prop where
  held : ∀ name, (s.catalog.held.get? name).map Held.template =
    (snapshot name s.past).bind fun source => (Template.compile source name).toOption
  keys : (s.catalog.held.map (·.1)).Nodup
  serials : ∀ name x, s.catalog.held.get? name = some x → x.serial < s.catalog.issued
  globals : s.catalog.globals = globalsAfter globals s.past

theorem tied_start (globals : Entries Value) (shelf : σ) : (start globals shelf).Tied globals :=
  ⟨fun _ => rfl, by simp [start, Catalog.ofGlobals], nofun, rfl⟩

namespace Tied

theorem template (h : s.Tied globals) (name : String) :
    (s.template load name).2.Tied globals := by
  rcases s.template_cases load name with
    ⟨x, -, ht⟩ | ⟨-, ⟨e, he, ht⟩ | ⟨source, t, hl, hc, ht⟩⟩ <;> rw [ht]
  · exact h
  -- Neither a failed load nor a source that does not compile is a snapshot.
  · refine ⟨fun n => ?_, h.keys, h.serials, h.globals⟩
    have hsnap : snapshot n (.loaded name (load name s.shelf).1 :: s.past) =
        snapshot n s.past := by
      cases hl : (load name s.shelf).1 with
      | error _ => rfl
      | ok source =>
        rw [hl] at he
        have hc : Template.compile source name = .error e := he
        simp [snapshot, hc, Except.isOk, Except.toBool]
    simp only [hsnap, h.held]
  · refine ⟨fun n => ?_, Entries.nodup_keys_insert h.keys name _, fun n x hx => ?_, h.globals⟩
    · rw [hl]
      by_cases hn : n = name
      · subst hn
        simp [Entries.get?_insert, snapshot, hc, Except.isOk, Except.toBool, Except.toOption]
      · have hne : ¬ name = n := fun h' => hn h'.symm
        simp [Entries.get?_insert, snapshot, hn, hne, h.held]
    · rw [Entries.get?_insert] at hx
      show x.serial < s.catalog.issued + 1
      by_cases hn : n = name
      · rw [if_pos hn] at hx
        obtain rfl := Option.some.inj hx
        exact Nat.lt_succ_self _
      · rw [if_neg hn] at hx
        exact Nat.lt_succ_of_lt (h.serials n x hx)

theorem invalidate (h : s.Tied globals) (name : String) : (s.invalidate name).2.Tied globals where
  held n := by
    by_cases hn : n = name
    · subst hn
      simp [Session.invalidate, Catalog.invalidate, Entries.get?_erase, snapshot]
    · have hne : ¬ name = n := fun h' => hn h'.symm
      simp [Session.invalidate, Catalog.invalidate, Entries.get?_erase, snapshot, hn, hne, h.held]
  keys := h.keys.sublist (List.filter_sublist.map _)
  serials n x hx := by
    have hg : (s.catalog.held.erase name).get? n = some x := hx
    rw [Entries.get?_erase] at hg
    by_cases hn : n = name
    · simp [hn] at hg
    · rw [if_neg hn] at hg
      exact h.serials n x hg
  globals := h.globals

theorem step (h : s.Tied globals) (a : Action σ) : (s.step load a).Tied globals := by
  cases a with
  | change shelf => exact ⟨h.held, h.keys, h.serials, h.globals⟩
  | template name => exact h.template name
  | render name r => exact h.template name
  | setGlobal name value =>
    exact ⟨h.held, h.keys, h.serials, congrArg (Entries.insert name value) h.globals⟩
  | invalidate name => exact h.invalidate name
  | clear => exact ⟨fun _ => rfl, by simp [Session.step, clear, Catalog.clear], nofun, h.globals⟩

theorem run (h : s.Tied globals) (actions : List (Action σ)) :
    (s.run load actions).Tied globals := by
  induction actions generalizing s with
  | nil => exact h
  | cons a actions ih => exact ih (h.step a)

theorem snapshot_eq_none_iff (h : s.Tied globals) (name : String) :
    snapshot name s.past = none ↔ s.catalog.held.get? name = none := by
  have hh := h.held name
  cases hs : snapshot name s.past with
  | none => simpa [hs] using hh
  | some source =>
    obtain ⟨t, ht⟩ := snapshot_compiles hs
    simp only [hs, Option.bind_some, ht, Except.toOption] at hh
    cases hg : s.catalog.held.get? name with
    | none => simp [hg] at hh
    | some x => simp

theorem exists_held (h : s.Tied globals) {name source : String}
    (hs : snapshot name s.past = some source) : ∃ x, s.catalog.held.get? name = some x ∧
      Template.compile source name = .ok x.template := by
  obtain ⟨t, ht⟩ := snapshot_compiles hs
  have hh := h.held name
  simp only [hs, Option.bind_some, ht, Except.toOption] at hh
  obtain ⟨x, hx, rfl⟩ := Option.map_eq_some_iff.mp hh
  exact ⟨x, hx, ht⟩

/-- What is handed out was compiled under the name it is handed out for. -/
theorem compiled (h : s.Tied globals) {name : String} {x : Held}
    (hx : (s.template load name).1 = .ok x) :
    ∃ source, Template.compile source name = .ok x.template := by
  rcases s.template_cases load name with
    ⟨y, hn, ht⟩ | ⟨-, ⟨e, -, ht⟩ | ⟨source, t, -, hc, ht⟩⟩ <;> rw [ht] at hx
  · obtain rfl := Except.ok.inj hx
    cases hs : snapshot name s.past with
    | none =>
      rw [(h.snapshot_eq_none_iff name).mp hs] at hn
      exact nomatch hn
    | some source =>
      obtain ⟨z, hz, hc⟩ := h.exists_held hs
      obtain rfl := Option.some.inj (hz.symm.trans hn)
      exact ⟨source, hc⟩
  · exact nomatch hx
  · exact ⟨source, Except.ok.inj hx ▸ hc⟩

end Tied

/-- A template that is held stays the same object until its name is dropped. -/
theorem held_step {name : String} {x : Held} (h : s.catalog.held.get? name = some x)
    {a : Action σ} (ha : ¬ a.Drops name) :
    (s.step load a).catalog.held.get? name = some x := by
  have template : ∀ n, (s.template load n).2.catalog.held.get? name = some x := by
    intro n
    rcases s.template_cases load n with ⟨y, -, ht⟩ | ⟨hn, ⟨e, -, ht⟩ | ⟨source, t, -, -, ht⟩⟩ <;>
      rw [ht]
    · exact h
    · exact h
    · have hne : ¬ name = n := by
        rintro rfl
        rw [h] at hn
        exact nomatch hn
      simpa [Entries.get?_insert, hne] using h
  cases a with
  | change shelf => exact h
  | template n => exact template n
  | render n r => exact template n
  | setGlobal n value => exact h
  | invalidate n =>
    have hne : ¬ name = n := fun h' => ha h'.symm
    simpa [Session.step, Session.invalidate, Catalog.invalidate, Entries.get?_erase, hne] using h
  | clear => exact absurd trivial ha

theorem held_run {name : String} {x : Held} (h : s.catalog.held.get? name = some x)
    {actions : List (Action σ)} (ha : ∀ a ∈ actions, ¬ a.Drops name) :
    (s.run load actions).catalog.held.get? name = some x := by
  induction actions generalizing s with
  | nil => exact h
  | cons a actions ih =>
    exact ih (held_step h (ha a (by simp))) fun b hb => ha b (by simp [hb])

theorem held_of_template {name : String} {x : Held} (h : (s.template load name).1 = .ok x) :
    (s.template load name).2.catalog.held.get? name = some x := by
  rcases s.template_cases load name with
    ⟨y, hn, ht⟩ | ⟨-, ⟨e, -, ht⟩ | ⟨source, t, -, -, ht⟩⟩ <;> rw [ht] at h ⊢
  · exact Except.ok.inj h ▸ hn
  · exact nomatch h
  · obtain rfl := Except.ok.inj h
    simp [Entries.get?_insert]

theorem issued_step (s : Session σ) (a : Action σ) :
    s.catalog.issued ≤ (s.step load a).catalog.issued := by
  have template : ∀ n, s.catalog.issued ≤ (s.template load n).2.catalog.issued := by
    intro n
    rcases s.template_cases load n with ⟨y, -, ht⟩ | ⟨-, ⟨e, -, ht⟩ | ⟨source, t, -, -, ht⟩⟩ <;>
      simp [ht]
  cases a with
  | template n => exact template n
  | render n r => exact template n
  | change shelf => exact Nat.le_refl _
  | setGlobal n value => exact Nat.le_refl _
  | invalidate n => exact Nat.le_refl _
  | clear => exact Nat.le_refl _

theorem issued_run (s : Session σ) (actions : List (Action σ)) :
    s.catalog.issued ≤ (s.run load actions).catalog.issued := by
  induction actions generalizing s with
  | nil => exact Nat.le_refl _
  | cons a actions ih => exact Nat.le_trans (issued_step s a) (ih _)

end

end Session

theorem Template.compile_error_names {source name : String} {e : TemplateError}
    (h : compile source name = .error e) : e.template? = some name := by
  unfold compile at h
  split at h
  · exact nomatch h
  · exact Except.error.inj h ▸ rfl

theorem Template.render_error_names {t : Template} {inputs : Inputs} {e : TemplateError}
    (h : t.render inputs = .error e) : e.template? = some t.name := by
  unfold render at h
  split at h
  · exact nomatch h
  · exact Except.error.inj h ▸ rfl

section

variable {σ : Type}

/-- A loader whose errors carry the name that was asked for. -/
def Loader.Names (load : Loader (StateM σ)) : Prop :=
  ∀ shelf name e, (load name shelf).1 = .error e → e.template? = some name

/-- The loader of a table that may be changed. -/
def Loader.shelved : Loader (StateM (Entries String)) :=
  fun name sources => (Loader.ofTable (m := Id) sources name, sources)

theorem Loader.shelved_names : Loader.shelved.Names := by
  intro sources name e h
  have ha : Loader.ofTable (m := Id) sources name = .error e := h
  unfold ofTable at ha
  split at ha
  · exact nomatch ha
  · exact Except.error.inj ha ▸ rfl

theorem Folder.load_names (f : Folder) (files : FileAccess (StateM σ)) :
    (f.load files).Names := by
  intro shelf name e h
  unfold load at h
  cases hp : f.path? name with
  | none =>
    simp only [hp] at h
    exact Except.error.inj h ▸ rfl
  | some path =>
    simp only [hp] at h
    have ha : answer name (files.read path shelf).1 = .error e := h
    cases hr : (files.read path shelf).1 with
    | ok source => simp [hr, answer] at ha
    | error fault => cases fault <;> simp_all [answer] <;> exact ha ▸ rfl

/-- How a session behaves whose past is known. -/
structure Session.Answers (load : Loader (StateM σ)) (globals : Entries Value)
    (s : Session σ) : Prop where
  kept : ∀ name source, snapshot name s.past = some source →
    ∃ x, Template.compile source name = .ok x.template ∧ s.template load name = (.ok x, s)
  asked : ∀ name, snapshot name s.past = none →
    (s.template load name).1.map Held.template =
        (load name s.shelf).1.bind (Template.compile · name) ∧
      (s.template load name).2.shelf = (load name s.shelf).2 ∧
      (s.template load name).2.past = .loaded name (load name s.shelf).1 :: s.past
  failed : ∀ name e, (s.template load name).1 = .error e →
    (s.template load name).2.catalog = s.catalog
  rendered : ∀ name r, s.render load name r =
    ((s.template load name).1.bind fun x =>
      x.template.render ⟨r.strings, r.data, some (globalsAfter globals s.past), r.form⟩,
      (s.template load name).2)
  same : ∀ name x actions, (s.template load name).1 = .ok x →
    (∀ a ∈ actions, ¬ a.Drops name) →
      (((s.template load name).2.run load actions).template load name).1 = .ok x
  fresh : ∀ name x actions other y, (s.template load name).1 = .ok x →
    snapshot other ((s.template load name).2.run load actions).past = none →
      (((s.template load name).2.run load actions).template load other).1 = .ok y →
        x.serial < y.serial
  counted : ∃ names : List String, names.Nodup ∧
    (∀ name, name ∈ names ↔ (snapshot name s.past).isSome) ∧
      s.catalog.cachedCount = names.length
  invalidated : ∀ name, (s.invalidate name).1 = (snapshot name s.past).isSome ∧
    ∀ other, other ≠ name →
      (s.invalidate name).2.catalog.held.get? other = s.catalog.held.get? other
  named : load.Names → ∀ name e,
    ((s.template load name).1 = .error e → e.template? = some name) ∧
      ∀ r, (s.render load name r).1 = .error e → e.template? = some name

namespace Session.Tied

variable {load : Loader (StateM σ)} {globals : Entries Value} {s : Session σ}

theorem failed (name : String) (e : TemplateError) (he : (s.template load name).1 = .error e) :
    (s.template load name).2.catalog = s.catalog ∧
      (load name s.shelf).1.bind (Template.compile · name) = .error e := by
  rcases s.template_cases load name with
    ⟨x, -, ht⟩ | ⟨-, ⟨e', hl, ht⟩ | ⟨source, t, -, -, ht⟩⟩ <;> rw [ht] at he ⊢
  · exact nomatch he
  · exact ⟨rfl, Except.error.inj he ▸ hl⟩
  · exact nomatch he

theorem template_globals (s : Session σ) (name : String) :
    (s.template load name).2.catalog.globals = s.catalog.globals := by
  rcases s.template_cases load name with
    ⟨x, -, ht⟩ | ⟨-, ⟨e, -, ht⟩ | ⟨source, t, -, -, ht⟩⟩ <;> rw [ht]

theorem asked (h : s.Tied globals) {name : String} (hn : snapshot name s.past = none) :
    (s.template load name).1.map Held.template =
        (load name s.shelf).1.bind (Template.compile · name) ∧
      (s.template load name).2.shelf = (load name s.shelf).2 ∧
      (s.template load name).2.past = .loaded name (load name s.shelf).1 :: s.past := by
  have hg := (h.snapshot_eq_none_iff name).mp hn
  rcases s.template_cases load name with
    ⟨x, hx, -⟩ | ⟨-, ⟨e, hl, ht⟩ | ⟨source, t, hl, hc, ht⟩⟩
  · rw [hg] at hx
    exact nomatch hx
  · rw [ht, hl]
    exact ⟨rfl, rfl, rfl⟩
  · rw [ht, hl]
    exact ⟨hc.symm, rfl, rfl⟩

/-- What is compiled anew is another object than any before it. -/
theorem serial_of_asked (h : s.Tied globals) {name : String} {y : Held}
    (hn : snapshot name s.past = none) (hy : (s.template load name).1 = .ok y) :
    y.serial = s.catalog.issued := by
  have hg := (h.snapshot_eq_none_iff name).mp hn
  rcases s.template_cases load name with
    ⟨x, hx, -⟩ | ⟨-, ⟨e, -, ht⟩ | ⟨source, t, -, -, ht⟩⟩
  · rw [hg] at hx
    exact nomatch hx
  · rw [ht] at hy
    exact nomatch hy
  · rw [ht] at hy
    exact (congrArg Held.serial (Except.ok.inj hy)).symm

theorem counted (h : s.Tied globals) : ∃ names : List String, names.Nodup ∧
    (∀ name, name ∈ names ↔ (snapshot name s.past).isSome) ∧
      s.catalog.cachedCount = names.length := by
  refine ⟨s.catalog.held.map (·.1), h.keys, fun name => ?_, by simp [Catalog.cachedCount]⟩
  rw [← Entries.get?_isSome_iff, Option.isSome_iff_ne_none, Option.isSome_iff_ne_none,
    ne_eq, ne_eq, h.snapshot_eq_none_iff]

theorem invalidated (h : s.Tied globals) (name : String) :
    (s.invalidate name).1 = (snapshot name s.past).isSome := by
  have hi := h.snapshot_eq_none_iff name
  show (s.catalog.held.get? name).isSome = _
  cases hs : snapshot name s.past <;> cases hg : s.catalog.held.get? name <;> simp_all

/-- An error comes from the loader, the compiler or the render, which all know the name. -/
theorem named (h : s.Tied globals) (hload : load.Names) (name : String) (e : TemplateError) :
    ((s.template load name).1 = .error e → e.template? = some name) ∧
      ∀ r, (s.render load name r).1 = .error e → e.template? = some name := by
  have template : (s.template load name).1 = .error e → e.template? = some name := by
    intro he
    have hl := (failed name e he).2
    cases hs : (load name s.shelf).1 with
    | error e' =>
      rw [hs] at hl
      obtain rfl := Except.error.inj hl
      exact hload _ _ _ hs
    | ok source =>
      rw [hs] at hl
      exact Template.compile_error_names hl
  refine ⟨template, fun r he => ?_⟩
  rw [render_eq] at he
  cases hx : (s.template load name).1 with
  | error e' =>
    rw [hx] at he
    obtain rfl := Except.error.inj he
    exact template hx
  | ok x =>
    rw [hx] at he
    obtain ⟨source, hc⟩ := h.compiled hx
    rw [← (Template.compile_eq_ok_iff.mp hc).1]
    exact Template.render_error_names he

theorem answers (h : s.Tied globals) : s.Answers load globals where
  kept name source hs := by
    obtain ⟨x, hx, hc⟩ := h.exists_held hs
    exact ⟨x, hc, template_of_held hx⟩
  asked name hn := h.asked hn
  failed name e he := (failed name e he).1
  rendered name r := by
    rw [render_eq, Catalog.inputs, template_globals, h.globals]
  same name x actions hx ha := by
    rw [template_of_held (held_run (held_of_template hx) ha)]
  fresh name x actions other y hx hn hy := by
    have h' : (s.template load name).2.Tied globals := h.template name
    have hlt := h'.serials name x (held_of_template hx)
    have hle : _ ≤ ((s.template load name).2.run load actions).catalog.issued :=
      issued_run _ actions
    rw [(h'.run actions).serial_of_asked hn hy]
    omega
  counted := h.counted
  invalidated name := by
    refine ⟨h.invalidated name, fun other hne => ?_⟩
    simp [Session.invalidate, Catalog.invalidate, Entries.get?_erase, hne]
  named hload := h.named hload

end Session.Tied

end

/-- Whatever is done with a catalog, it answers as a map from names to the sources that
were loaded and compiled for them last. The errors of either loader carry its name. -/
theorem catalog_answers_snapshots {σ : Type} :
    (∀ (load : Loader (StateM σ)) (globals : Entries Value) (shelf : σ)
      (actions : List (Action σ)),
      ((Session.start globals shelf).run load actions).Answers load globals) ∧
    (∀ (f : Folder) (files : FileAccess (StateM σ)), (f.load files).Names) ∧
    Loader.shelved.Names :=
  ⟨fun _ globals shelf actions => ((Session.tied_start globals shelf).run actions).answers,
    Folder.load_names, Loader.shelved_names⟩

/-- What is held outlives a change of the table until its name is dropped. -/
theorem catalog_answers_snapshots_stale :
    ∃ s : Session (Entries String),
      s = (Session.start [] [("a", "A")]).run .shelved [.template "a", .change [("a", "B")]] ∧
      s.Answers .shelved [] ∧ snapshot "a" s.past = some "A" ∧
      (s.render .shelved "a" ⟨[], [], none⟩).1 = .ok "A" ∧
      ((s.invalidate "a").2.render .shelved "a" ⟨[], [], none⟩).1 = .ok "B" := by
  refine ⟨_, rfl, catalog_answers_snapshots.1 .shelved [] [("a", "A")]
    [.template "a", .change [("a", "B")]], ?_, ?_, ?_⟩
  · decide +kernel
  · decide +kernel
  · decide +kernel

end TagTemplate
