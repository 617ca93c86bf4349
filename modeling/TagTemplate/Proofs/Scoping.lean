import TagTemplate.Proofs.Visits

/-! Where loop items are visible. Wherever a render comes to a part, the loop items in
sight are those of the loops above it in the table, one for each and the nearest first, so
what a name finds is decided by where the part stands. -/

namespace TagTemplate

/-- The name that a loop gives its items. -/
def Content.itemName? : Content → Option String
  | loop args _ => (loopHead args).toOption.map Prod.fst
  | _ => none

def Content.isLoop : Content → Bool
  | loop .. => true
  | _ => false

/-- Loop items under the rows above a place: each loop has one, under its item name and out
of the collection that it finds with the items outside of it; other rows have none. -/
inductive Stacked (inputs : Inputs) : List Row → List Frame → Prop where
  | nil : Stacked inputs [] []
  | loop {r : Row} {rs : List Row} {f : Frame} {fs : List Frame} {args : List String}
      {children : List Nat} {collection : String} {v : Value}
      (content : r.content = .loop args children) (head : loopHead args = .ok (f.name, collection))
      (resolved : (View.scope ⟨inputs, fs⟩).collection collection = .ok v)
      (item : f.item ∈ v.elements) (outer : Stacked inputs rs fs) :
      Stacked inputs (r :: rs) (f :: fs)
  | other {r : Row} {rs : List Row} {fs : List Frame} (content : r.content.isLoop = false)
      (outer : Stacked inputs rs fs) : Stacked inputs (r :: rs) fs

/-- The item of the nearest loop above that gives its items a name. -/
def NearestItem (inputs : Inputs) (up : List Row) (frames : List Frame) (name : String)
    (f : Frame) : Prop :=
  ∃ inner r outer fs gs, up = inner ++ r :: outer ∧ frames = fs ++ f :: gs ∧
    Stacked inputs (r :: outer) (f :: gs) ∧ r.content.itemName? = some name ∧
    ∀ q ∈ inner, q.content.itemName? ≠ some name

namespace Stacked

variable {inputs : Inputs} {r : Row} {rs : List Row} {f : Frame} {fs : List Frame} {name : String}

theorem itemName?_of_other (h : r.content.isLoop = false) : r.content.itemName? = none := by
  cases hc : r.content <;> simp_all [Content.isLoop, Content.itemName?]

theorem itemName?_of_head {args : List String} {children : List Nat} {collection : String}
    (content : r.content = .loop args children)
    (head : loopHead args = .ok (f.name, collection)) : r.content.itemName? = some f.name := by
  simp [content, Content.itemName?, head, Except.toOption]

/-- The frames have the item names of the loops, in their order. -/
theorem names (h : Stacked inputs rs fs) :
    fs.map Frame.name = rs.filterMap fun r => r.content.itemName? := by
  induction h with
  | nil => rfl
  | loop content head _ _ _ ih => simp [itemName?_of_head content head, ih]
  | other content _ ih => simp [itemName?_of_other content, ih]

theorem find?_eq_none_iff (h : Stacked inputs rs fs) :
    fs.find? (fun f => f.name == name) = none ↔ ∀ r ∈ rs, r.content.itemName? ≠ some name := by
  have hm : name ∈ fs.map Frame.name ↔ ∃ r ∈ rs, r.content.itemName? = some name := by
    rw [h.names, List.mem_filterMap]
  constructor
  · intro hn r hr he
    obtain ⟨f, hf, hname⟩ := List.mem_map.mp (hm.mpr ⟨r, hr, he⟩)
    exact List.find?_eq_none.mp hn f hf (beq_iff_eq.mpr hname)
  · intro hall
    refine List.find?_eq_none.mpr fun f hf he => ?_
    obtain ⟨r, hr, hi⟩ := hm.mp (beq_iff_eq.mp he ▸ List.mem_map_of_mem hf)
    exact hall r hr hi

theorem nearestItem_of_find? (h : Stacked inputs rs fs)
    (hf : fs.find? (fun f => f.name == name) = some f) : NearestItem inputs rs fs name f := by
  induction h with
  | nil => exact nomatch hf
  | @loop r rs g gs args children collection v content head resolved item outer ih =>
    have hname := itemName?_of_head content head
    by_cases he : g.name = name
    · obtain rfl : g = f := by simpa [he] using hf
      have hs : Stacked inputs (r :: rs) (g :: gs) := .loop content head resolved item outer
      exact ⟨[], r, rs, [], gs, rfl, rfl, hs, he ▸ hname, by simp⟩
    -- A loop of another name is passed over, its item with it.
    · obtain ⟨inner, q, out, as, bs, rfl, rfl, hs, hq, hinner⟩ := ih (by simpa [he] using hf)
      refine ⟨r :: inner, q, out, g :: as, bs, rfl, rfl, hs, hq, fun x hx => ?_⟩
      rcases List.mem_cons.mp hx with rfl | hx
      · rw [hname]
        exact fun hi => he (Option.some.inj hi)
      · exact hinner x hx
  | @other r rs gs content outer ih =>
    obtain ⟨inner, q, out, as, bs, rfl, rfl, hs, hq, hinner⟩ := ih hf
    refine ⟨r :: inner, q, out, as, bs, rfl, rfl, hs, hq, fun x hx => ?_⟩
    rcases List.mem_cons.mp hx with rfl | hx
    · simp [itemName?_of_other content]
    · exact hinner x hx

theorem find?_eq_some_iff (h : Stacked inputs rs fs) :
    fs.find? (fun f => f.name == name) = some f ↔ NearestItem inputs rs fs name f := by
  refine ⟨h.nearestItem_of_find?, ?_⟩
  rintro ⟨inner, r, outer, as, bs, rfl, rfl, hs, hr, hinner⟩
  -- As many items lie inside of this one as there are loops inside of its own.
  have hall := h.names
  have hhere := hs.names
  rw [List.map_append, List.filterMap_append, hhere] at hall
  have hin := List.append_cancel_right hall
  have hname : f.name = name := by
    rw [List.map_cons, List.filterMap_cons, hr] at hhere
    exact (List.cons.inj hhere).1
  refine List.find?_eq_some_iff_append.mpr ⟨beq_iff_eq.mpr hname, as, bs, rfl, fun a ha => ?_⟩
  have hm : a.name ∈ inner.filterMap fun r => r.content.itemName? :=
    hin ▸ List.mem_map_of_mem ha
  obtain ⟨q, hq, hi⟩ := List.mem_filterMap.mp hm
  have hne : a.name ≠ name := fun he => hinner q hq (he ▸ hi)
  simpa using hne

end Stacked

/-- Where a visit stands: its row, the rows above it, and loop items that belong to those. -/
def Visit.Nested (t : Template) (inputs : Inputs) (v : Visit) : Prop :=
  v.part ∈ t.parts ∧ v.scope.inputs = inputs ∧
    ∃ r ∈ t.table, r.id = v.part.id ∧ r.content = v.part.content ∧
      ∃ up, Lineage t.table r.parent up ∧ Stacked inputs up v.scope.frames

namespace Visit.Enters

variable {v w : Visit}

theorem id_mem_children (h : v.Enters w) : w.part.id ∈ v.part.content.children := by
  cases h with
  | conditional child => exact List.mem_map_of_mem child
  | loop child => exact List.mem_map_of_mem child
  | choice child => exact List.mem_map_of_mem child
  | @branch owner b m s s' child =>
    obtain ⟨site, guard, body⟩ := b
    cases guard <;> exact List.mem_map_of_mem child

theorem inputs_eq (h : v.Enters w) : w.scope.inputs = v.scope.inputs := by
  cases h with
  | conditional _ view => exact congrArg View.inputs view
  | choice _ view => exact congrArg View.inputs view
  | branch _ view => exact congrArg View.inputs view
  | loop _ _ _ view => exact congrArg View.inputs view

/-- Going in puts the item of a loop in front, and nothing else. -/
theorem stacked (h : v.Enters w) {r : Row} (hr : r.content = v.part.content) {up : List Row}
    (hs : Stacked v.scope.inputs up v.scope.frames) :
    Stacked v.scope.inputs (r :: up) w.scope.frames := by
  have outside {s s' : Scope} {rs : List Row} (view : s'.view = s.view)
      (h : Stacked v.scope.inputs rs s.frames) : Stacked v.scope.inputs rs s'.frames := by
    have hf : s'.frames = s.frames := congrArg View.bindings view
    rwa [hf]
  cases h with
  | conditional _ view => exact outside view (.other (by rw [hr]; rfl) hs)
  | choice _ view => exact outside view (.other (by rw [hr]; rfl) hs)
  | @branch owner b _ _ _ _ view =>
    obtain ⟨site, guard, body⟩ := b
    exact outside view (.other (by rw [hr]; cases guard <;> rfl) hs)
  | @loop site args body m s s' name items item child iteration mem view =>
    obtain ⟨⟨_, collection⟩, hhead, hrest⟩ := exists_of_bind_eq_ok iteration
    obtain ⟨c, hc, hp⟩ := exists_of_bind_eq_ok hrest
    obtain ⟨rfl, rfl⟩ := Prod.mk.inj (Except.ok.inj hp)
    have hf : s'.frames = ⟨_, item⟩ :: s.frames := congrArg View.bindings view
    rw [hf]
    exact .loop hr hhead hc mem hs

theorem nested {t : Template} {source name : String}
    (hc : Template.compile source name = .ok t) {inputs : Inputs} (h : v.Enters w)
    (hv : v.Nested t inputs) : w.Nested t inputs := by
  obtain ⟨hpart, rfl, r, hr, hid, hcontent, up, hup, hs⟩ := hv
  have hw : w.part ∈ t.parts := Part.subtree_subset hpart h.mem_subtree
  obtain ⟨q, hq, hqid, hqc⟩ := Template.mem_table_of_mem hw
  have hchild : q.id ∈ r.content.children := by
    rw [hqid, hcontent]
    exact h.id_mem_children
  refine ⟨hw, h.inputs_eq, q, hq, hqid, hqc, r :: up, ?_, h.stacked hcontent hs⟩
  rw [Template.parent_of_child hc hr hq hchild]
  exact .up hr hup

end Visit.Enters

theorem Scope.collectionNotFound_of_fetch {s : Scope} {raw c k n : String} (e : Expected) :
    s.fetch raw ⟨.fetch, c, some k⟩ e = .error (.collectionNotFound n) ↔
      n = c ∧ s.frame? c = none := by
  unfold Scope.fetch Scope.lookup
  cases hf : s.frame? c with
  | none => simp [eq_comm]
  | some f =>
    cases hi : f.item.isContainer with
    | false => simp [hi, typeMismatch]
    | true =>
      cases hg : f.item.get? k with
      | none => simp [hi, hg]
      | some v => cases ha : e.accepts v <;> simp [hi, hg, ha, typeMismatch]

namespace Template

theorem nested_of_mem_visits {t : Template} {source name : String}
    (h : compile source name = .ok t) {inputs : Inputs} {v : Visit} (hv : v ∈ t.visits inputs) :
    v.Nested t inputs := by
  refine visits_induction (fun n hn s hs => ?_) (fun v w hv he => he.nested h hv) hv
  have hm : Part.node n ∈ t.parts := Node.node_mem_partsAll hn
  obtain ⟨r, hr, hid, hc⟩ := mem_table_of_mem hm
  have hroot : r.id ∈ Node.ids t.roots := hid ▸ List.mem_map_of_mem hn
  refine ⟨hm, congrArg View.inputs hs, r, hr, hid, hc, [], ?_, ?_⟩
  · rw [parent_of_root h hr hroot]
    exact .root
  · have hf : s.frames = [] := congrArg View.bindings hs
    rw [hf]
    exact .nil

end Template

/-- Wherever a render comes to a part, the loop items in sight are one for each loop above
the row of the part, so a name finds the item of the nearest such loop that uses it, and a
key is in vain just where no loop above uses its name. -/
theorem visits_see_enclosing_loops {source name : String} {t : Template}
    (h : Template.compile source name = .ok t) (inputs : Inputs) :
    t.render inputs = (Visit.replay (t.visits inputs)).outcome t.name ∧
    ∀ v ∈ t.visits inputs, ∃ r ∈ t.table, r.id = v.part.id ∧ r.content = v.part.content ∧
      ∃ up, (∀ rs, Lineage t.table r.parent rs ↔ rs = up) ∧
        v.scope.inputs = inputs ∧ Stacked inputs up v.scope.frames ∧
        (∀ c f, v.scope.frame? c = some f ↔ NearestItem inputs up v.scope.frames c f) ∧
        ∀ raw c k, Reference.parse raw = .ok ⟨.fetch, c, some k⟩ → ∀ n,
          (∀ e, v.scope.resolve raw e = .error (.collectionNotFound n) ↔
            n = c ∧ ∀ q ∈ up, q.content.itemName? ≠ some c) ∧
          (v.scope.collection raw = .error (.collectionNotFound n) ↔
            n = c ∧ ∀ q ∈ up, q.content.itemName? ≠ some c) := by
  refine ⟨t.render_eq_replay inputs, fun v hv => ?_⟩
  obtain ⟨-, hi, r, hr, hid, hcontent, up, hup, hs⟩ := Template.nested_of_mem_visits h hv
  have hd : (t.table.map Row.id).Nodup := Template.nodup_table h
  refine ⟨r, hr, hid, hcontent, up, fun rs => ⟨fun hrs => hrs.unique hd hup, fun he => he ▸ hup⟩,
    hi, hs, fun c f => hs.find?_eq_some_iff, fun raw c k hraw n => ?_⟩
  have hfetch (e : Expected) : v.scope.fetch raw ⟨.fetch, c, some k⟩ e =
      .error (.collectionNotFound n) ↔ n = c ∧ ∀ q ∈ up, q.content.itemName? ≠ some c := by
    rw [Scope.collectionNotFound_of_fetch e, ← hs.find?_eq_none_iff]
    rfl
  constructor
  · intro e
    rw [Scope.resolve, hraw]
    exact hfetch e
  · rw [Scope.collection, hraw]
    exact hfetch .container

/-- Loops that share a name: the item of the inner one, that of the outer one after it, and
none at the end. -/
theorem visits_see_enclosing_loops_shadowed :
    ∃ t, Template.compile
        "{%foreach n in l}{%foreach n in m}{%?n[k]}{%/foreach}{%?n[k]}{%/foreach}{%?n[k]}" "page" =
        .ok t ∧
      let inputs : Inputs := ⟨[], [("l", .list [.map [("k", .text "a")]]),
        ("m", .list [.map [("k", .text "b")]])], none, none⟩
      t.render inputs = .error (.evaluation "page" 72 (.collectionNotFound "n")) ∧
      (t.visits inputs).map (fun v => (v.part.id, v.scope.depth)) =
        [(0, 0), (1, 1), (2, 2), (3, 1), (4, 0)] ∧
      ∃ v ∈ t.visits inputs, v.part.id = 2 ∧ ∃ up, Stacked inputs up v.scope.frames ∧
        NearestItem inputs up v.scope.frames "n" ⟨"n", .map [("k", .text "b")]⟩ := by
  have hc : Template.compile
      "{%foreach n in l}{%foreach n in m}{%?n[k]}{%/foreach}{%?n[k]}{%/foreach}{%?n[k]}" "page" =
      .ok ⟨"page",
        "{%foreach n in l}{%foreach n in m}{%?n[k]}{%/foreach}{%?n[k]}{%/foreach}{%?n[k]}",
        [.loop ⟨0, ⟨0, 72⟩⟩ ["n", "in", "l"]
          [.loop ⟨1, ⟨17, 53⟩⟩ ["n", "in", "m"] [.fetch ⟨2, ⟨34, 42⟩⟩ "n[k]"],
            .fetch ⟨3, ⟨53, 61⟩⟩ "n[k]"],
          .fetch ⟨4, ⟨72, 80⟩⟩ "n[k]"]⟩ := by cbv
  let inputs : Inputs := ⟨[], [("l", .list [.map [("k", .text "a")]]),
    ("m", .list [.map [("k", .text "b")]])], none, none⟩
  let v : Visit := ⟨.node (.fetch ⟨2, ⟨34, 42⟩⟩ "n[k]"), ⟨inputs,
    [⟨"n", .map [("k", .text "b")]⟩, ⟨"n", .map [("k", .text "a")]⟩], []⟩⟩
  obtain ⟨-, hseen⟩ := visits_see_enclosing_loops hc inputs
  obtain ⟨r, -, -, -, up, -, -, hs, hnear, -⟩ := hseen v (.tail _ (.tail _ (.head _)))
  exact ⟨_, hc, by decide +kernel, by decide +kernel, v, .tail _ (.tail _ (.head _)), rfl, up, hs,
    (hnear "n" _).mp rfl⟩

end TagTemplate
