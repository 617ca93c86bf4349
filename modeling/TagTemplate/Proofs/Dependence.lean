import Mathlib
import TagTemplate.Proofs.Forest
import TagTemplate.Proofs.Outline

/-! What a render depends on. Constructs ask the tables for plain names, locale keys and
field names; tables that answer these alike cannot be told apart by a render. -/

namespace TagTemplate

/-- The name in a reference without a key, whatever is asked about it. -/
def plainName? (raw : String) : Option String :=
  match Reference.parse raw with
  | .ok ⟨_, name, none⟩ => some name
  | _ => none

def Operand.reference? : Operand → Option String
  | literal _ => none
  | reference raw => some raw

namespace Content

/-- The reference that a construct asks about, if what it says is well-formed. -/
def reference? : Content → Option String
  | fetch raw => some raw
  | conditional args _ _ | elseIf args _ => (Condition.parse args).toOption.bind (·.left.reference?)
  | loop args _ => (loopHead args).toOption.map Prod.snd
  | _ => none

def name? (c : Content) : Option String :=
  c.reference?.bind plainName?

def localeKey? : Content → Option String
  | localeText key _ => some key
  | _ => none

def fieldName? : Content → Option String
  | field args => (Field.ofArgs args).name
  | _ => none

/-- Inputs that answer a construct alike. -/
structure AsksAlike (c : Content) (i j : Inputs) : Prop where
  data : ∀ name, c.name? = some name →
    (Scope.ofInputs i).data? name = (Scope.ofInputs j).data? name
  strings : ∀ key, c.localeKey? = some key →
    (Scope.ofInputs i).localeText? key = (Scope.ofInputs j).localeText? key
  form : ∀ name, c.fieldName? = some name →
    (Scope.ofInputs i).submitted? name = (Scope.ofInputs j).submitted? name

end Content

/-- Tables in which the plain name of a reference, if it is one, finds the same. -/
def Inputs.MatchOn (i j : Inputs) (raw : String) : Prop :=
  ∀ name, plainName? raw = some name →
    (Scope.ofInputs i).data? name = (Scope.ofInputs j).data? name

theorem bind_congr_of_ok {ε α β : Type} {x : Except ε α} {f g : α → Except ε β}
    (h : ∀ a, x = .ok a → f a = g a) : x >>= f = x >>= g := by
  cases x with
  | error e => rfl
  | ok a => exact h a rfl

namespace View

variable {i j : Inputs} {raw : String}

theorem lookup_alike (h : i.MatchOn j raw) {r : Reference} (hr : Reference.parse raw = .ok r)
    (b : List Frame) : (View.scope ⟨i, b⟩).lookup r = (View.scope ⟨j, b⟩).lookup r := by
  obtain ⟨operation, name, key⟩ := r
  unfold Scope.lookup
  cases key with
  -- A key is looked for among the loop items alone.
  | some key => rfl
  | none =>
    have hn : plainName? raw = some name := by rw [plainName?, hr]
    have hd : (View.scope ⟨i, b⟩).data? name = (View.scope ⟨j, b⟩).data? name := h name hn
    simp only [hd]
    rfl

theorem fetch_alike {s s' : Scope} {r : Reference} (h : s.lookup r = s'.lookup r)
    (e : Expected) : s.fetch raw r e = s'.fetch raw r e := by
  unfold Scope.fetch
  rw [h]

theorem resolve_alike (h : i.MatchOn j raw) (b : List Frame) (e : Expected) :
    (View.scope ⟨i, b⟩).resolve raw e = (View.scope ⟨j, b⟩).resolve raw e := by
  refine bind_congr_of_ok fun r hr => ?_
  have hl := lookup_alike h hr b
  rw [hl, fetch_alike hl e]

theorem collection_alike (h : i.MatchOn j raw) (b : List Frame) :
    (View.scope ⟨i, b⟩).collection raw = (View.scope ⟨j, b⟩).collection raw := by
  refine bind_congr_of_ok fun r hr => ?_
  have hl := lookup_alike h hr b
  rw [fetch_alike hl .container]

end View

namespace Content.AsksAlike

variable {i j : Inputs} {raw : String} {args : List String} {children : List Nat}

theorem matchOn {c : Content} (h : c.AsksAlike i j) (hr : c.reference? = some raw) :
    i.MatchOn j raw := by
  intro name hn
  refine h.data name ?_
  rw [name?, hr]
  exact hn

theorem renderVariable (h : (fetch raw).AsksAlike i j) (b : List Frame) :
    (View.scope ⟨i, b⟩).renderVariable raw = (View.scope ⟨j, b⟩).renderVariable raw :=
  congrArg (Value.render <$> ·) (View.resolve_alike (h.matchOn rfl) b .scalar)

theorem holds {c : Content} (h : c.AsksAlike i j)
    (hc : c.reference? = (Condition.parse args).toOption.bind (·.left.reference?))
    (b : List Frame) : (View.scope ⟨i, b⟩).holds args = (View.scope ⟨j, b⟩).holds args := by
  refine bind_congr_of_ok fun d hd => ?_
  cases hl : d.left with
  | literal text => rfl
  | reference raw =>
    have hraw : c.reference? = some raw := by
      rw [hc, hd]
      simp [Except.toOption, hl, Operand.reference?]
    have hr := View.resolve_alike (h.matchOn hraw) b .scalar
    simp only [hr]

theorem looped (h : (loop args children).AsksAlike i j) (b : List Frame) :
    View.looped ⟨i, b⟩ args = View.looped ⟨j, b⟩ args := by
  refine bind_congr_of_ok fun ⟨name, raw⟩ hh => ?_
  have hraw : (loop args children).reference? = some raw := by
    simp [reference?, hh, Except.toOption]
  have hc := View.collection_alike (h.matchOn hraw) b
  simp only [hc]

theorem render (h : (field args).AsksAlike i j) (b : List Frame) :
    Field.render (View.scope ⟨i, b⟩) args = Field.render (View.scope ⟨j, b⟩) args := by
  cases hn : (Field.ofArgs args).name with
  | none => simp only [Field.render, hn]
  | some name =>
    have hs : (View.scope ⟨i, b⟩).submitted? name = (View.scope ⟨j, b⟩).submitted? name :=
      h.form name hn
    simp only [Field.render, hn, hs]

end Content.AsksAlike

namespace Node

variable {i j : Inputs}

mutual

theorem read_alike (n : Node) (h : ∀ p ∈ n.parts, p.content.AsksAlike i j) (b : List Frame) :
    n.read ⟨i, b⟩ = n.read ⟨j, b⟩ := by
  have hn := h (.node n) n.node_mem_parts
  cases n with
  | text site content => rfl
  | fetch site raw =>
    have hv := hn.renderVariable b
    rw [read, read, hv]
  | localeText site key raw =>
    have ht : (View.scope ⟨i, b⟩).localeText? key = (View.scope ⟨j, b⟩).localeText? key :=
      hn.strings key rfl
    rw [read, read, Scope.renderLocale, ht, Scope.renderLocale]
  | field site args =>
    have hf := hn.render b
    rw [read, read, hf]
  | conditional site args body =>
    have hh := hn.holds rfl b
    have hb := readAll_alike body (fun p hp => h p (List.mem_cons_of_mem _ hp)) b
    rw [read, read, hh, hb]
  | choice site args branches =>
    rw [read, read]
    exact readFirst_alike site.id branches (fun p hp => h p (List.mem_cons_of_mem _ hp)) b
  | loop site args body =>
    have hi := hn.looped b
    have hb := readAll_alike body fun p hp => h p (List.mem_cons_of_mem _ hp)
    -- Both loops run over the same items, so their bodies have the same items in sight.
    rw [read, read, hi]
    simp only [View.bind, hb]

theorem readAll_alike (ns : List Node) (h : ∀ p ∈ partsAll ns, p.content.AsksAlike i j)
    (b : List Frame) : readAll ⟨i, b⟩ ns = readAll ⟨j, b⟩ ns := by
  cases ns with
  | nil => rfl
  | cons n ns =>
    have hn := read_alike n (fun p hp => h p (List.mem_append_left _ hp)) b
    have hns := readAll_alike ns (fun p hp => h p (List.mem_append_right _ hp)) b
    rw [readAll, readAll, hn, hns]

theorem readFirst_alike (owner : Nat) (bs : List (Branch Node))
    (h : ∀ p ∈ partsBranches owner bs, p.content.AsksAlike i j) (b : List Frame) :
    readFirst ⟨i, b⟩ bs = readFirst ⟨j, b⟩ bs := by
  cases bs with
  | nil => rfl
  | cons c bs =>
    obtain ⟨site, guard, body⟩ := c
    rw [partsBranches_cons] at h
    have hc := h _ List.mem_cons_self
    have hbody := readAll_alike body
      (fun p hp => h p (List.mem_cons_of_mem _ (List.mem_append_left _ hp))) b
    have hrest := readFirst_alike owner bs
      (fun p hp => h p (List.mem_cons_of_mem _ (List.mem_append_right _ hp))) b
    cases guard with
    | none => rw [readFirst, readFirst, hbody]
    | some args => rw [readFirst, readFirst, hc.holds rfl b, hbody, hrest]

end

end Node

/-- Entries with others put over them, of which the first one counts under each key. -/
def Entries.override {α : Type} (base top : Entries α) : Entries α :=
  top.foldr (fun e es => es.insert e.1 e.2) base

theorem Entries.get?_override {α : Type} (base top : Entries α) (key : String) :
    (base.override top).get? key = (top.get? key).or (base.get? key) := by
  induction top with
  | nil => rfl
  | cons e top ih =>
    have hi := get?_insert (base.override top) e.1 key e.2
    show ((base.override top).insert e.1 e.2).get? key = _
    rw [hi]
    by_cases hk : key = e.1
    · simp [hk, get?]
    · have hne : ¬ e.1 = key := fun he => hk he.symm
      rw [if_neg hk, ih]
      simp [get?, hne]

namespace Template

variable {source name : String} {t : Template} {i j : Inputs}

theorem render_alike (h : compile source name = .ok t)
    (ha : ∀ p ∈ t.parts, p.content.AsksAlike i j) : t.render i = t.render j := by
  have ht := (compile_eq_ok_iff.mp h).2.2
  rw [render_eq_outcome ht, render_eq_outcome ht, Node.readAll_alike t.roots ha]

end Template

/-- Inputs that answer the constructs of a template alike give one result. So globals might
as well be entries put over the data, no form is an empty form, and data under names that
nothing asks for makes no difference. -/
theorem render_depends_on_answers {source name : String} {t : Template}
    (h : Template.compile source name = .ok t) :
    (∀ i j, (∀ p ∈ t.parts, p.content.AsksAlike i j) → t.render i = t.render j) ∧
    (∀ strings form, ∀ data globals : Entries Value,
      t.render ⟨strings, data, some globals, form⟩ =
        t.render ⟨strings, data.override globals, none, form⟩) ∧
    (∀ strings data globals, t.render ⟨strings, data, globals, some []⟩ =
      t.render ⟨strings, data, globals, none⟩) ∧
    ∀ strings globals form, ∀ data added : Entries Value,
      (∀ e ∈ added, ∀ p ∈ t.parts, p.content.name? ≠ some e.1) →
      t.render ⟨strings, data.override added, globals, form⟩ =
        t.render ⟨strings, data, globals, form⟩ := by
  refine ⟨fun i j => Template.render_alike h, fun strings form data globals => ?_,
    fun strings data globals => ?_, fun strings globals form data added hadded => ?_⟩
  · refine Template.render_alike h fun p hp => ⟨fun name _ => ?_, fun _ _ => rfl, fun _ _ => rfl⟩
    exact (Entries.get?_override data globals name).symm
  · exact Template.render_alike h fun p hp => ⟨fun _ _ => rfl, fun _ _ => rfl, fun _ _ => rfl⟩
  · refine Template.render_alike h fun p hp => ⟨fun name hn => ?_, fun _ _ => rfl, fun _ _ => rfl⟩
    have hg : Entries.get? added name = none := by
      refine Option.map_eq_none_iff.mpr (List.find?_eq_none.mpr fun e he hk => ?_)
      exact hadded e he p hp (beq_iff_eq.mp hk ▸ hn)
    show (globals.bind _).or ((data.override added).get? name) = _
    rw [Entries.get?_override, hg]
    rfl

/-- Tables that have little in common, but one list for the loop. -/
theorem render_depends_on_answers_shared_list :
    ∃ t, Template.compile
        "{%foreach n in l}{%?n[k]}{%/foreach}{%!hi}\x7b%input name=\"f\"\x7d{%?isset|u}" "page" =
        .ok t ∧
      let items := Value.list [.map [("k", .text "x")]]
      let i : Inputs := ⟨[], [("l", items)], none, none⟩
      let j : Inputs := ⟨[("bye", "so long")], [("l", .null), ("v", .null)], some [("l", items)],
        some [("g", "1")]⟩
      (∀ p ∈ t.parts, p.content.AsksAlike i j) ∧ t.render i = t.render j ∧
        t.render i = .ok
          "x{%!hi}<input type=\"text\" id=\"form_general_f\" name=\"f\" value=\"\">" := by
  let t : Template := ⟨"page",
    "{%foreach n in l}{%?n[k]}{%/foreach}{%!hi}\x7b%input name=\"f\"\x7d{%?isset|u}",
    [.loop ⟨0, ⟨0, 36⟩⟩ ["n", "in", "l"] [.fetch ⟨1, ⟨17, 25⟩⟩ "n[k]"],
      .localeText ⟨2, ⟨36, 42⟩⟩ "hi" "{%!hi}", .field ⟨3, ⟨42, 59⟩⟩ ["name=\"f\""],
      .fetch ⟨4, ⟨59, 70⟩⟩ "isset|u"]⟩
  have hc : Template.compile t.source "page" = .ok t := by cbv
  have hnames : ∀ p ∈ t.parts, p.content.name? ∈ [none, some "l", some "u"] := by decide +kernel
  have hkeys : ∀ p ∈ t.parts, p.content.localeKey? ∈ [none, some "hi"] := by decide +kernel
  have hfields : ∀ p ∈ t.parts, p.content.fieldName? ∈ [none, some "f"] := by decide +kernel
  let items := Value.list [.map [("k", .text "x")]]
  let i : Inputs := ⟨[], [("l", items)], none, none⟩
  let j : Inputs := ⟨[("bye", "so long")], [("l", .null), ("v", .null)], some [("l", items)],
    some [("g", "1")]⟩
  have ha : ∀ p ∈ t.parts, p.content.AsksAlike i j := by
    refine fun p hp => ⟨fun name hn => ?_, fun key hk => ?_, fun name hn => ?_⟩
    · have hm := hn ▸ hnames p hp
      obtain rfl | rfl : name = "l" ∨ name = "u" := by simpa using hm
      · rfl
      · rfl
    · have hm := hk ▸ hkeys p hp
      obtain rfl : key = "hi" := by simpa using hm
      rfl
    · have hm := hn ▸ hfields p hp
      obtain rfl : name = "f" := by simpa using hm
      rfl
  exact ⟨t, hc, ha, (render_depends_on_answers hc).1 i j ha, by decide +kernel⟩

end TagTemplate
