import Mathlib
import TagTemplate.Json.Basic
import TagTemplate.Proofs.Reading

/-! Maps that are made of pairs. A key keeps the place of its first pair and takes the value of
its last one, which is what a loop over the map goes through and what lookups in it find. -/

namespace TagTemplate

namespace Entries

variable {α : Type} {es : Entries α} {pairs : List (String × α)} {key k : String} {v w : α}

/-- The value in the last of the pairs with a key. -/
def LastValue (pairs : List (String × α)) (key : String) (v : α) : Prop :=
  ∃ before after, pairs = before ++ (key, v) :: after ∧ key ∉ after.map Prod.fst

/-- One entry for each key of pairs: the entries stand in the order of the first pairs with
their keys, and have the values of the last ones. -/
structure Collects (es : Entries α) (pairs : List (String × α)) : Prop where
  keys : ∀ key, key ∈ es.map Prod.fst ↔ key ∈ pairs.map Prod.fst
  order : (es.map Prod.fst).Pairwise fun k l =>
    (pairs.map Prod.fst).idxOf k < (pairs.map Prod.fst).idxOf l
  values : ∀ key v, (key, v) ∈ es ↔ LastValue pairs key v

theorem keys_insert (es : Entries α) (key : String) (v : α) : (es.insert key v).map Prod.fst =
    if key ∈ es.map Prod.fst then es.map Prod.fst else es.map Prod.fst ++ [key] := by
  induction es with
  | nil => rfl
  | cons e es ih =>
    by_cases he : e.1 = key
    · simp [insert, he]
    · rw [insert, if_neg he, List.map_cons, ih]
      by_cases hk : key ∈ es.map Prod.fst
      · simp [hk]
      · simp [hk, Ne.symm he]

theorem mem_iff_get? (h : (es.map Prod.fst).Nodup) : (key, v) ∈ es ↔ es.get? key = some v := by
  induction es with
  | nil => simp [get?]
  | cons e es ih =>
    rw [List.map_cons, List.nodup_cons] at h
    obtain ⟨k, w⟩ := e
    by_cases hk : k = key
    · subst hk
      have hrest : (k, v) ∉ es := fun hm => h.1 (List.mem_map.mpr ⟨_, hm, rfl⟩)
      simp [get?, hrest, eq_comm]
    · have hget : get? ((k, w) :: es) key = get? es key := by simp [get?, hk]
      rw [hget, ← ih h.2]
      simp [Ne.symm hk]

theorem lastValue_concat : LastValue (pairs ++ [(key, v)]) k w ↔
    if k = key then w = v else LastValue pairs k w := by
  constructor
  · rintro ⟨before, after, hsplit, hlast⟩
    obtain rfl | ⟨after, e, rfl⟩ := List.eq_nil_or_concat' after
    -- The pair is the new one, or it was the last one before and has another key.
    · obtain ⟨-, he⟩ := List.append_inj' hsplit rfl
      obtain ⟨rfl, rfl⟩ : key = k ∧ v = w := by simpa using he
      simp
    · rw [← List.cons_append, ← List.append_assoc] at hsplit
      obtain ⟨rfl, he⟩ := List.append_inj' hsplit rfl
      obtain rfl : (key, v) = e := by simpa using he
      obtain ⟨hafter, hne⟩ : k ∉ after.map Prod.fst ∧ k ≠ key := by simpa using hlast
      rw [if_neg hne]
      exact ⟨before, after, rfl, hafter⟩
  · intro h
    split at h
    · rename_i hk
      exact ⟨pairs, [], by rw [hk, h], by simp⟩
    · rename_i hk
      obtain ⟨before, after, rfl, hlast⟩ := h
      exact ⟨before, after ++ [(key, v)], by simp, by simpa [hk] using hlast⟩

namespace Collects

theorem nodup (h : es.Collects pairs) : (es.map Prod.fst).Nodup :=
  h.order.imp fun hlt he => absurd (he ▸ hlt) (Nat.lt_irrefl _)

theorem get?_eq_some_iff (h : es.Collects pairs) : es.get? key = some v ↔ (key, v) ∈ es :=
  (mem_iff_get? h.nodup).symm

theorem get?_eq_none_iff (h : es.Collects pairs) :
    es.get? key = none ↔ key ∉ pairs.map Prod.fst := by
  rw [← h.keys, ← get?_isSome_iff, Bool.not_eq_true, Option.isSome_eq_false_iff,
    Option.isNone_iff_eq_none]

theorem nil : Collects ([] : Entries α) [] where
  keys key := Iff.rfl
  order := .nil
  values key v := by simp [LastValue]

/-- One more pair: a key that is new comes last, and one that is not keeps its place. -/
theorem insert (h : es.Collects pairs) (key : String) (v : α) :
    (es.insert key v).Collects (pairs ++ [(key, v)]) where
  keys k := by
    rw [mem_keys_insert, h.keys]
    simp [or_comm]
  order := by
    -- One more pair at the end moves no key that was there.
    have hold : (es.map Prod.fst).Pairwise fun k l =>
        ((pairs ++ [(key, v)]).map Prod.fst).idxOf k <
          ((pairs ++ [(key, v)]).map Prod.fst).idxOf l := by
      refine h.order.imp_of_mem fun {k l} hk hl hlt => ?_
      rw [List.map_append, List.idxOf_append_of_mem ((h.keys k).mp hk),
        List.idxOf_append_of_mem ((h.keys l).mp hl)]
      exact hlt
    rw [keys_insert]
    split
    · exact hold
    · rename_i hnew
      refine List.pairwise_append.mpr ⟨hold, List.pairwise_singleton _ _, fun k hk l hl => ?_⟩
      obtain rfl := List.mem_singleton.mp hl
      have hbound := List.idxOf_lt_length_iff.mpr ((h.keys k).mp hk)
      rw [List.map_append, List.idxOf_append_of_mem ((h.keys k).mp hk),
        List.idxOf_append_of_notMem (mt (h.keys l).mpr hnew)]
      omega
  values k w := by
    have hnodup := nodup_keys_insert h.nodup key v
    rw [mem_iff_get? hnodup, get?_insert, lastValue_concat]
    split
    · simp [eq_comm]
    · rw [h.get?_eq_some_iff, h.values]

end Collects

theorem ofPairs_collects (pairs : List (String × α)) : (ofPairs pairs).Collects pairs := by
  induction pairs using List.reverseRecOn with
  | nil => exact .nil
  | append_singleton pairs p ih =>
    rw [ofPairs, List.foldl_append]
    exact ih.insert p.1 p.2

end Entries

namespace Json

/-- A member of an object, and its key with the value of its document. -/
inductive Gives : String × Json → String × Value → Prop where
  | member {key : String} {j : Json} {v : Value} (h : j.value? = some v) : Gives (key, j) (key, v)

theorem memberValues?_eq_some_iff {members : List (String × Json)} {pairs : List (String × Value)} :
    memberValues? members = some pairs ↔ List.Forall₂ Gives members pairs := by
  induction members generalizing pairs with
  | nil => simp [memberValues?, eq_comm]
  | cons m members ih =>
    obtain ⟨key, j⟩ := m
    simp only [memberValues?, Option.bind_eq_bind, Option.bind_eq_some_iff, Option.pure_def]
    constructor
    · rintro ⟨v, hv, rest, hrest, hp⟩
      obtain rfl := Option.some.inj hp
      exact .cons (.member hv) (ih.mp hrest)
    · intro h
      cases h with
      | cons hm hrest =>
        cases hm with
        | member hv => exact ⟨_, hv, _, ih.mpr hrest, rfl⟩

theorem value?_object_eq_some_iff {members : List (String × Json)} {v : Value} :
    (object members).value? = some v ↔
      ∃ pairs, List.Forall₂ Gives members pairs ∧ v = .map (Entries.ofPairs pairs) := by
  rw [value?, Option.map_eq_some_iff]
  simp only [memberValues?_eq_some_iff, @eq_comm Value v]

end Json

namespace Eval

/-- Runs of a body one after another, each with one of the values as the loop item. A run that
fails is the last one. -/
inductive Passes (name : String) (body : Eval Unit) :
    List Value → Progress → Except Failure Unit → Progress → Prop where
  | done {p : Progress} : Passes name body [] p (.ok ()) p
  | pass {v : Value} {vs : List Value} {p p' q : Progress} {r : Except Failure Unit}
      (hbody : body { p with scope := p.scope.push ⟨name, v⟩ } = (.ok (), p'))
      (hrest : Passes name body vs { p' with scope := p'.scope.pop } r q) :
      Passes name body (v :: vs) p r q
  | fail {v : Value} {p p' : Progress} {f : Failure}
      (hbody : body { p with scope := p.scope.push ⟨name, v⟩ } = (.error f, p')) :
      Passes name body [v] p (.error f) { p' with scope := p'.scope.pop }

/-- An action that runs a body with the value of each entry as the loop item, in their order, and
leaves entries out only behind one with which the body fails. -/
def GoesThrough (x : Eval Unit) (name : String) (body : Eval Unit) (es : Entries Value)
    (p : Progress) : Prop :=
  ∃ visited, visited <+: es ∧ Passes name body (Entries.values visited) p (x p).1 (x p).2 ∧
    ((x p).1 = .ok () → visited = es)

theorem forEach_cons (name : String) (body : Eval Unit) (v : Value) (vs : List Value)
    (p : Progress) : forEach name body (v :: vs) p =
      match body { p with scope := p.scope.push ⟨name, v⟩ } with
      | (.ok (), p') => forEach name body vs { p' with scope := p'.scope.pop }
      | (.error f, p') => (.error f, { p' with scope := p'.scope.pop }) := by
  rw [forEach, bind_apply, withFrame]
  rcases body { p with scope := p.scope.push ⟨name, v⟩ } with ⟨r, p'⟩
  cases r <;> rfl

theorem forEach_goesThrough (name : String) (body : Eval Unit) (es : Entries Value)
    (p : Progress) : (forEach name body (Entries.values es)).GoesThrough name body es p := by
  unfold GoesThrough
  induction es generalizing p with
  | nil => exact ⟨[], List.prefix_rfl, .done, fun _ => rfl⟩
  | cons e es ih =>
    rw [Entries.values, List.map_cons, forEach_cons]
    rcases hb : body { p with scope := p.scope.push ⟨name, e.2⟩ } with ⟨r, p'⟩
    cases r with
    | error f => exact ⟨[e], by simp, .fail hb, fun h => by cases h⟩
    | ok u =>
      obtain ⟨visited, hprefix, hpasses, hall⟩ := ih { p' with scope := p'.scope.pop }
      refine ⟨e :: visited, ?_, .pass hb hpasses, fun h => ?_⟩
      · simpa using hprefix
      · rw [hall h]

end Eval

theorem Node.loop_goesThrough {args : List String} {name collection : String} {p : Progress}
    {es : Entries Value} (hhead : loopHead args = .ok (name, collection))
    (hmap : p.scope.collection collection = .ok (.map es)) (site : Site) (body : List Node) :
    (loop site args body).run.GoesThrough name (runAll body) es p := by
  have hiteration : p.scope.iteration args = .ok (name, Entries.values es) := by
    simp only [Scope.iteration, hhead, hmap, bind, Except.bind]
    rfl
  have hrun : (loop site args body).run p =
      Eval.forEach name (runAll body) (Entries.values es) p := by
    rw [run, bind_apply, Eval.ask_apply, hiteration]
  have h := Eval.forEach_goesThrough name (runAll body) es p
  unfold Eval.GoesThrough at h ⊢
  rw [hrun]
  exact h

theorem Scope.lookup_of_map {s : Scope} {r : Reference} {f : Frame} {key : String}
    {es : Entries Value} (hkey : r.key = some key) (hframe : s.frame? r.name = some f)
    (hitem : f.item = .map es) : s.lookup r = (es.get? key).elim .missing .found := by
  simp only [lookup, hkey, hframe, hitem, Value.isContainer, Value.get?, if_true]
  cases es.get? key <;> rfl

/-- An object of a document is the map that is made of its members. In a map that is made of
pairs each key has one entry, at the place of its first pair and with the value of its last one.
A loop over the map runs its body once for each entry in their order, unless it fails on the way,
and a key finds the value of its entry, and nothing where no pair has it. -/
theorem maps_collect_pairs :
    (∀ members v, (Json.object members).value? = some v ↔
      ∃ pairs, List.Forall₂ Json.Gives members pairs ∧ v = .map (Entries.ofPairs pairs)) ∧
    ∀ pairs : List (String × Value), let es := Entries.ofPairs pairs
      es.Collects pairs ∧
      (∀ site args body name collection (p : Progress),
        loopHead args = .ok (name, collection) →
        p.scope.collection collection = .ok (.map es) →
          (Node.loop site args body).run.GoesThrough name (Node.runAll body) es p) ∧
      ∀ key, (∀ v, (Value.map es).get? key = some v ↔ (key, v) ∈ es) ∧
        ((Value.map es).get? key = none ↔ key ∉ pairs.map Prod.fst) ∧
        ∀ (s : Scope) (r : Reference) (f : Frame), r.key = some key →
          s.frame? r.name = some f → f.item = .map es →
            s.lookup r = ((Value.map es).get? key).elim .missing .found := by
  refine ⟨fun members v => Json.value?_object_eq_some_iff, fun pairs => ?_⟩
  have hes := Entries.ofPairs_collects pairs
  refine ⟨hes, ?_, fun key => ⟨fun v => hes.get?_eq_some_iff, hes.get?_eq_none_iff, ?_⟩⟩
  · intro site args body name collection p hhead hmap
    exact Node.loop_goesThrough hhead hmap site body
  · intro s r f hkey hframe hitem
    exact Scope.lookup_of_map hkey hframe hitem

/-- A member that is repeated behind another one, in an item of a loop around. -/
theorem maps_collect_pairs_repeated_member :
    let members := [("b", Json.string "1"), ("a", .string "2"), ("b", .string "3")]
    let pairs := [("b", Value.text "1"), ("a", .text "2"), ("b", .text "3")]
    let es : Entries Value := [("b", .text "3"), ("a", .text "2")]
    let p : Progress := ⟨"", ⟨⟨[], [], none, none⟩, [⟨"row", .map es⟩], []⟩⟩
    let body : List Node := [.fetch ⟨1, ⟨20, 25⟩⟩ "v"]
    let loop : Node := .loop ⟨0, ⟨0, 36⟩⟩ ["v", "in", "row"] body
    List.Forall₂ Json.Gives members pairs ∧ (Json.object members).value? = some (.map es) ∧
    es.Collects pairs ∧ loopHead ["v", "in", "row"] = .ok ("v", "row") ∧
    p.scope.collection "row" = .ok (.map es) ∧
    loop.run.GoesThrough "v" (Node.runAll body) es p ∧
    loop.run p = (.ok (), { p with output := "32" }) ∧
    p.scope.lookup ⟨.fetch, "row", some "b"⟩ = .found (.text "3") ∧
    p.scope.lookup ⟨.fetch, "row", some "c"⟩ = .missing := by
  intro members pairs es p body loop
  have hmembers : List.Forall₂ Json.Gives members pairs :=
    .cons (.member rfl) (.cons (.member rfl) (.cons (.member rfl) .nil))
  have hes : Entries.ofPairs pairs = es := rfl
  obtain ⟨hjson, hmaps⟩ := maps_collect_pairs
  obtain ⟨hcollects, hloop, hkeys⟩ := hmaps pairs
  rw [hes] at hcollects hloop hkeys
  have hvalue := (hjson members (.map es)).mpr ⟨pairs, hmembers, congrArg Value.map hes.symm⟩
  have hfetch : ∀ key, p.scope.lookup ⟨.fetch, "row", some key⟩ =
      ((Value.map es).get? key).elim .missing .found :=
    fun key => (hkeys key).2.2 p.scope ⟨.fetch, "row", some key⟩ ⟨"row", .map es⟩ rfl rfl rfl
  refine ⟨hmembers, hvalue, hcollects, rfl, rfl, hloop _ _ body _ _ p rfl rfl, rfl, ?_, ?_⟩
  · rw [hfetch, ((hkeys "b").1 (.text "3")).mpr (by simp [es])]
    rfl
  · rw [hfetch, (hkeys "c").2.1.mpr (by decide)]
    rfl

end TagTemplate
