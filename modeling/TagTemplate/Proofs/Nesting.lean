import TagTemplate.Proofs.TagScan

/-! Which sources compile. The tags that open and close blocks must be a balanced word;
otherwise the first tag that breaks it is at fault, or the innermost block left open. -/

namespace TagTemplate

/-- What a tag is to the nesting of blocks. -/
inductive Mark where
  | undetermined
  | opening (block : Block)
  | closing (name : String)
  | plain

def Mark.ofWord : List Char → Mark
  | ['/'] => undetermined
  | '/' :: name => closing (String.ofList name)
  | w =>
    if String.ofList w = Block.conditional.name then opening .conditional
    else if String.ofList w = Block.loop.name then opening .loop
    else plain

def PlacedTag.mark (t : PlacedTag) : Mark :=
  match words t.body with
  | [] => .undetermined
  | w :: _ => .ofWord w

inductive Bracket where
  | opening (block : Block)
  | closing (name : String)

def PlacedTag.bracket? (t : PlacedTag) : Option Bracket :=
  match t.mark with
  | .opening block => some (.opening block)
  | .closing name => some (.closing name)
  | _ => none

/-- Words of brackets in which every block is closed under its own name. -/
inductive Balanced : List Bracket → Prop where
  | nil : Balanced []
  | wrap {u v : List Bracket} (block : Block) (inner : Balanced u) (rest : Balanced v) :
      Balanced (.opening block :: (u ++ .closing block.name :: v))

structure WellNested (ts : List PlacedTag) : Prop where
  determined : ∀ t ∈ ts, t.mark ≠ .undetermined
  balanced : Balanced (ts.filterMap PlacedTag.bracket?)

/-- An open block, by the offset of the tag that opened it. -/
structure Opening where
  offset : Nat
  block : Block

/-- Tags that are well nested but for some blocks left open, the innermost first. -/
inductive LeavesOpen : List PlacedTag → List Opening → Prop where
  | none {ts : List PlacedTag} (nested : WellNested ts) : LeavesOpen ts []
  | block {ts us : List PlacedTag} {t : PlacedTag} {block : Block} {os : List Opening}
      (outer : LeavesOpen ts os) (mark : t.mark = .opening block) (inner : WellNested us) :
      LeavesOpen (ts ++ t :: us) (⟨t.offset, block⟩ :: os)

/-- A tag that may not come while the given blocks are open, and its fault. -/
inductive Offends : List Opening → PlacedTag → NestingFault → Prop where
  | undetermined {os : List Opening} {t : PlacedTag} (mark : t.mark = .undetermined) :
      Offends os t ⟨t.offset, .undetermined⟩
  | unopened {t : PlacedTag} {name : String} (mark : t.mark = .closing name) :
      Offends [] t ⟨t.offset, .unopened name⟩
  | misclosed {o : Opening} {os : List Opening} {t : PlacedTag} {name : String}
      (mark : t.mark = .closing name) (other : o.block.name ≠ name) :
      Offends (o :: os) t ⟨o.offset, .misclosed o.block name⟩

/-- The fault of a row of tags: that of the first tag that offends, or, when none does,
of the innermost block that is never closed. -/
inductive Faulty : List PlacedTag → NestingFault → Prop where
  | tag {before after : List PlacedTag} {t : PlacedTag} {os : List Opening} {f : NestingFault}
      (fine : LeavesOpen before os) (offends : Offends os t f) : Faulty (before ++ t :: after) f
  | unclosed {ts : List PlacedTag} {o : Opening} {os : List Opening}
      (fine : LeavesOpen ts (o :: os)) : Faulty ts ⟨o.offset, .unclosed o.block⟩

theorem Balanced.append {u v : List Bracket} (hu : Balanced u) (hv : Balanced v) :
    Balanced (u ++ v) := by
  induction hu with
  | nil => exact hv
  | @wrap u w block inner rest _ ih =>
    rw [List.cons_append, List.append_assoc, List.cons_append]
    exact .wrap block inner ih

namespace WellNested

theorem append {ts us : List PlacedTag} (ht : WellNested ts) (hu : WellNested us) :
    WellNested (ts ++ us) where
  determined t hm := (List.mem_append.mp hm).elim (ht.determined t) (hu.determined t)
  balanced := by
    rw [List.filterMap_append]
    exact ht.balanced.append hu.balanced

theorem plain {t : PlacedTag} (h : t.mark = .plain) : WellNested [t] where
  determined u hu := by
    obtain rfl := List.mem_singleton.mp hu
    simp [h]
  balanced := by
    have hb : t.bracket? = none := by rw [PlacedTag.bracket?, h]
    rw [List.filterMap_cons_none hb]
    exact .nil

theorem wrap {ts : List PlacedTag} {t u : PlacedTag} {block : Block} (h : WellNested ts)
    (ht : t.mark = .opening block) (hu : u.mark = .closing block.name) :
    WellNested (t :: (ts ++ [u])) where
  determined v hv := by
    simp only [List.mem_cons, List.mem_append, List.not_mem_nil, or_false] at hv
    rcases hv with rfl | hv | rfl
    · simp [ht]
    · exact h.determined v hv
    · simp [hu]
  balanced := by
    have hbt : t.bracket? = some (.opening block) := by rw [PlacedTag.bracket?, ht]
    have hbu : u.bracket? = some (.closing block.name) := by rw [PlacedTag.bracket?, hu]
    rw [List.filterMap_cons_some hbt, List.filterMap_append, List.filterMap_cons_some hbu]
    exact .wrap block h.balanced .nil

end WellNested

theorem LeavesOpen.append {ts us : List PlacedTag} {os : List Opening} (h : LeavesOpen ts os)
    (hu : WellNested us) : LeavesOpen (ts ++ us) os := by
  cases h with
  | none nested => exact .none (nested.append hu)
  | block outer mark inner =>
    rw [List.append_assoc, List.cons_append]
    exact .block outer mark (inner.append hu)

def nest (os : List Opening) (t : PlacedTag) : Except NestingFault (List Opening) :=
  match t.mark, os with
  | .undetermined, _ => .error ⟨t.offset, .undetermined⟩
  | .opening block, os => .ok (⟨t.offset, block⟩ :: os)
  | .closing name, [] => .error ⟨t.offset, .unopened name⟩
  | .closing name, o :: os =>
    if o.block.name = name then .ok os else .error ⟨o.offset, .misclosed o.block name⟩
  | .plain, os => .ok os

def nestAll (os : List Opening) (ts : List PlacedTag) : Except NestingFault (List Opening) :=
  ts.foldlM nest os

theorem nestAll_append (os : List Opening) (ts us : List PlacedTag) :
    nestAll os (ts ++ us) = nestAll os ts >>= fun os' => nestAll os' us :=
  List.foldlM_append

theorem nestAll_cons (os : List Opening) (t : PlacedTag) (ts : List PlacedTag) :
    nestAll os (t :: ts) = nest os t >>= fun os' => nestAll os' ts :=
  List.foldlM_cons

theorem nest_plain {os : List Opening} {t : PlacedTag} (hd : t.mark ≠ .undetermined)
    (hb : t.bracket? = none) : nest os t = .ok os := by
  unfold PlacedTag.bracket? at hb
  cases hm : t.mark with
  | undetermined => exact absurd hm hd
  | opening block => simp [hm] at hb
  | closing name => simp [hm] at hb
  | plain => simp [nest, hm]

theorem nest_opening {os : List Opening} {t : PlacedTag} {block : Block}
    (h : t.mark = .opening block) : nest os t = .ok (⟨t.offset, block⟩ :: os) := by
  simp [nest, h]

theorem nest_closing {o : Opening} {os : List Opening} {t : PlacedTag}
    (h : t.mark = .closing o.block.name) : nest (o :: os) t = .ok os := by
  simp [nest, h]

theorem mark_of_bracket? {t : PlacedTag} :
    (∀ block, t.bracket? = some (.opening block) → t.mark = .opening block) ∧
      ∀ name, t.bracket? = some (.closing name) → t.mark = .closing name := by
  unfold PlacedTag.bracket?
  cases t.mark <;> simp

theorem nest_eq_error_iff {os : List Opening} {t : PlacedTag} {f : NestingFault} :
    nest os t = .error f ↔ Offends os t f := by
  constructor
  · intro h
    unfold nest at h
    split at h
    · rename_i hm
      exact Except.error.inj h ▸ .undetermined hm
    · exact nomatch h
    · rename_i name hm
      exact Except.error.inj h ▸ .unopened hm
    · rename_i name o os hm
      by_cases hn : o.block.name = name
      · rw [if_pos hn] at h
        exact nomatch h
      · rw [if_neg hn] at h
        exact Except.error.inj h ▸ .misclosed hm hn
    · exact nomatch h
  · intro h
    cases h with
    | undetermined mark => simp [nest, mark]
    | unopened mark => simp [nest, mark]
    | misclosed mark other => simp [nest, mark, other]

theorem nestAll_eq_error_iff {os : List Opening} {ts : List PlacedTag} {f : NestingFault} :
    nestAll os ts = .error f ↔ ∃ before t after os', ts = before ++ t :: after ∧
      nestAll os before = .ok os' ∧ nest os' t = .error f := by
  constructor
  · intro h
    induction ts generalizing os with
    | nil => exact nomatch h
    | cons t ts ih =>
      cases ht : nest os t with
      | error g =>
        rw [nestAll_cons, ht] at h
        exact ⟨[], t, ts, os, rfl, rfl, ht.trans h⟩
      | ok os₁ =>
        rw [nestAll_cons, ht] at h
        obtain ⟨before, u, after, os', rfl, hb, hu⟩ := ih h
        refine ⟨t :: before, u, after, os', rfl, ?_, hu⟩
        rw [nestAll_cons, ht]
        exact hb
  · rintro ⟨before, t, after, os', rfl, hb, ht⟩
    rw [nestAll_append, hb]
    show nestAll os' (t :: after) = _
    rw [nestAll_cons, ht]
    rfl

theorem nestAll_plain {ts : List PlacedTag} (hd : ∀ t ∈ ts, t.mark ≠ .undetermined)
    (hb : ∀ t ∈ ts, t.bracket? = none) (os : List Opening) : nestAll os ts = .ok os := by
  induction ts with
  | nil => rfl
  | cons t ts ih =>
    rw [nestAll_cons, nest_plain (hd t (by simp)) (hb t (by simp))]
    exact ih (fun u hu => hd u (by simp [hu])) fun u hu => hb u (by simp [hu])

/-- A balanced word leaves the open blocks as it found them. -/
theorem Balanced.nestAll_eq {w : List Bracket} (h : Balanced w) {ts : List PlacedTag}
    (hd : ∀ t ∈ ts, t.mark ≠ .undetermined) (hw : ts.filterMap PlacedTag.bracket? = w)
    (os : List Opening) : nestAll os ts = .ok os := by
  induction h generalizing ts os with
  | nil => exact nestAll_plain hd (List.filterMap_eq_nil_iff.mp hw) os
  | @wrap u v block inner rest ihu ihv =>
    -- Plain tags may stand before the opening tag and before the closing tag.
    obtain ⟨ps, t, ts', rfl, hps, ht, hw⟩ := List.filterMap_eq_cons_iff.mp hw
    obtain ⟨us, ts', rfl, hu, hw⟩ := List.filterMap_eq_append_iff.mp hw
    obtain ⟨qs, c, vs, rfl, hqs, hc, hv⟩ := List.filterMap_eq_cons_iff.mp hw
    have hps := nestAll_plain (fun x hx => hd x (by simp [hx])) hps os
    have hu := ihu (fun x hx => hd x (by simp [hx])) hu (⟨t.offset, block⟩ :: os)
    have hqs := nestAll_plain (fun x hx => hd x (by simp [hx])) hqs (⟨t.offset, block⟩ :: os)
    have hv := ihv (fun x hx => hd x (by simp [hx])) hv os
    have ht : nest os t = .ok (⟨t.offset, block⟩ :: os) := nest_opening (mark_of_bracket?.1 _ ht)
    have hc : nest (⟨t.offset, block⟩ :: os) c = .ok os := nest_closing (mark_of_bracket?.2 _ hc)
    simp only [nestAll_append, nestAll_cons, hps, ht, hu, hqs, hc, hv, bind, Except.bind]

theorem LeavesOpen.nestAll_eq {ts : List PlacedTag} {os : List Opening} (h : LeavesOpen ts os) :
    nestAll [] ts = .ok os := by
  induction h with
  | none nested => exact nested.balanced.nestAll_eq nested.determined rfl []
  | @block ts us t b os outer mark inner ih =>
    have hu := inner.balanced.nestAll_eq inner.determined rfl (⟨t.offset, b⟩ :: os)
    simp only [nestAll_append, nestAll_cons, ih, nest_opening mark, hu, bind, Except.bind]

theorem LeavesOpen.snoc {ts : List PlacedTag} {t : PlacedTag} {os os' : List Opening}
    (h : LeavesOpen ts os) (ht : nest os t = .ok os') : LeavesOpen (ts ++ [t]) os' := by
  unfold nest at ht
  split at ht
  · exact nomatch ht
  · rename_i block os hm
    exact Except.ok.inj ht ▸ .block h hm ⟨by simp, .nil⟩
  · exact nomatch ht
  · rename_i name o os hm
    by_cases hn : o.block.name = name
    · rw [if_pos hn] at ht
      obtain rfl := Except.ok.inj ht
      cases h with
      | @block ts us t' b _ outer mark inner =>
        rw [List.append_assoc, List.cons_append]
        exact outer.append (inner.wrap mark (hn ▸ hm))
    · rw [if_neg hn] at ht
      exact nomatch ht
  · rename_i os hm
    exact Except.ok.inj ht ▸ h.append (.plain hm)

theorem nestAll_eq_ok_iff {ts : List PlacedTag} {os : List Opening} :
    nestAll [] ts = .ok os ↔ LeavesOpen ts os := by
  refine ⟨fun h => ?_, LeavesOpen.nestAll_eq⟩
  -- From the right, where a closing tag completes the innermost word.
  induction ts using List.reverseRecOn generalizing os with
  | nil => exact Except.ok.inj h ▸ .none ⟨by simp, .nil⟩
  | append_singleton ts t ih =>
    rw [nestAll_append] at h
    obtain ⟨os₁, ht, h⟩ := exists_of_bind_eq_ok h
    rw [nestAll_cons] at h
    obtain ⟨os₂, hn, h⟩ := exists_of_bind_eq_ok h
    obtain rfl := Except.ok.inj h
    exact (ih ht).snoc hn

theorem wellNested_iff {ts : List PlacedTag} : WellNested ts ↔ nestAll [] ts = .ok [] := by
  refine ⟨fun h => (LeavesOpen.none h).nestAll_eq, fun h => ?_⟩
  cases nestAll_eq_ok_iff.mp h with
  | none nested => exact nested

theorem faulty_iff {ts : List PlacedTag} {f : NestingFault} :
    Faulty ts f ↔ nestAll [] ts = .error f ∨
      ∃ o os, nestAll [] ts = .ok (o :: os) ∧ f = ⟨o.offset, .unclosed o.block⟩ := by
  constructor
  · intro h
    cases h with
    | @tag before after t os _ fine offends =>
      exact .inl (nestAll_eq_error_iff.mpr
        ⟨before, t, after, os, rfl, fine.nestAll_eq, nest_eq_error_iff.mpr offends⟩)
    | @unclosed _ o os fine => exact .inr ⟨o, os, fine.nestAll_eq, rfl⟩
  · rintro (h | ⟨o, os, h, rfl⟩)
    · obtain ⟨before, t, after, os, rfl, hb, ht⟩ := nestAll_eq_error_iff.mp h
      exact .tag (nestAll_eq_ok_iff.mp hb) (nest_eq_error_iff.mp ht)
    · exact .unclosed (nestAll_eq_ok_iff.mp h)

theorem LeavesOpen.exists_tag {ts : List PlacedTag} {os : List Opening} (h : LeavesOpen ts os)
    {o : Opening} (ho : o ∈ os) : ∃ t ∈ ts, t.offset = o.offset := by
  induction h with
  | none => exact nomatch ho
  | @block ts us t block os outer mark inner ih =>
    rcases List.mem_cons.mp ho with rfl | ho
    · exact ⟨t, by simp, rfl⟩
    · obtain ⟨u, hu, he⟩ := ih ho
      exact ⟨u, by simp [hu], he⟩

theorem Faulty.exists_tag {ts : List PlacedTag} {f : NestingFault} (h : Faulty ts f) :
    ∃ t ∈ ts, t.offset = f.offset := by
  cases h with
  | @tag before after t os _ fine offends =>
    cases offends with
    | undetermined => exact ⟨t, by simp, rfl⟩
    | unopened => exact ⟨t, by simp, rfl⟩
    | @misclosed o os =>
      obtain ⟨u, hu, he⟩ := fine.exists_tag (o := o) (by simp)
      exact ⟨u, by simp [hu], he⟩
  | @unclosed _ o os fine => exact fine.exists_tag (by simp)

end TagTemplate
