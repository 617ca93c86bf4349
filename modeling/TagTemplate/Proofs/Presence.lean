import TagTemplate.Proofs.TagScan
import TagTemplate.Render.Lookup

/-! Being set, being empty and being fetched. All three look a reference up in the same
way, so a template that tests a reference first knows how fetching it will end. -/

namespace TagTemplate

/-- What has to be expected of a value for it to be accepted. -/
def Value.shape (v : Value) : Expected :=
  if v.isContainer then .container else .scalar

theorem Expected.accepts_iff {e : Expected} {v : Value} : e.accepts v = true ↔ e = v.shape := by
  cases e <;> cases hv : v.isContainer <;> simp [accepts, Value.shape, hv]

theorem Expected.ne_shape_iff {e : Expected} {v : Value} : e ≠ v.shape ↔
    e = .scalar ∧ v.isContainer = true ∨ e = .container ∧ v.isContainer = false := by
  cases e <;> cases hv : v.isContainer <;> simp [Value.shape, hv]

theorem Value.isNull_iff {v : Value} : v.isNull = true ↔ v = .null := by
  cases v <;> simp [isNull]

theorem Value.isEmpty_of_isNull {v : Value} (h : v.isNull = true) : v.isEmpty = true := by
  rw [isNull_iff.mp h]
  rfl

namespace Reference

/-- Without a bar a reference is fetched, and behind a test it has the same target. -/
theorem parse_of_plain {raw : String} (h : '|' ∉ raw.toList) : ∃ name key,
    parse raw = .ok ⟨.fetch, name, key⟩ ∧
    parse ("isset|" ++ raw) = .ok ⟨.isSet, name, key⟩ ∧
    parse ("isempty|" ++ raw) = .ok ⟨.isEmpty, name, key⟩ := by
  have hfetch : cutAt? '|' raw.toList = none := cutAt?_eq_none_iff.mpr h
  have hset : cutAt? '|' ("isset|" ++ raw).toList = some ("isset".toList, raw.toList) := by
    have hm : '|' ∉ "isset".toList := by decide
    have hc := cutAt?_append hm raw.toList
    rw [String.toList_append]
    exact hc
  have hempty : cutAt? '|' ("isempty|" ++ raw).toList = some ("isempty".toList, raw.toList) := by
    have hm : '|' ∉ "isempty".toList := by decide
    have hc := cutAt?_append hm raw.toList
    rw [String.toList_append]
    exact hc
  refine ⟨(target raw.toList).1, (target raw.toList).2, ?_, ?_, ?_⟩
  · simp only [parse, hfetch]
  · simp only [parse, hset, String.ofList_toList]
  · simp only [parse, hempty, String.ofList_toList]

end Reference

namespace Scope

variable {s : Scope} {raw : String} {r : Reference} {e : Expected} {v : Value}

theorem fetch_of_found (h : s.lookup r = .found v) (e : Expected) :
    s.fetch raw r e = if e = v.shape then .ok v else .error (typeMismatch raw e v) := by
  simp only [fetch, h, Expected.accepts_iff]

theorem fetch_of_not_found (raw : String) (h : ∀ v, s.lookup r ≠ .found v) :
    ∃ fault, ∀ e, s.fetch raw r e = .error fault := by
  unfold fetch
  cases hl : s.lookup r with
  | found v => exact absurd hl (h v)
  | noCollection => exact ⟨_, fun _ => rfl⟩
  | notIndexable item => exact ⟨_, fun _ => rfl⟩
  | missing => exact ⟨_, fun _ => rfl⟩

theorem fetch_eq_ok_iff : s.fetch raw r e = .ok v ↔ s.lookup r = .found v ∧ e = v.shape := by
  constructor
  · intro h
    by_cases hl : ∃ w, s.lookup r = .found w
    · obtain ⟨w, hw⟩ := hl
      rw [fetch_of_found hw] at h
      split at h
      · rename_i he
        obtain rfl := Except.ok.inj h
        exact ⟨hw, he⟩
      · cases h
    · obtain ⟨fault, hfault⟩ := fetch_of_not_found raw fun w hw => hl ⟨w, hw⟩
      rw [hfault] at h
      cases h
  · rintro ⟨hv, he⟩
    rw [fetch_of_found hv, if_pos he]

theorem exists_fetch_iff {P : Value → Prop} :
    (∃ e v, s.fetch raw r e = .ok v ∧ P v) ↔ ∃ v, s.lookup r = .found v ∧ P v := by
  constructor
  · rintro ⟨e, v, hv, hp⟩
    exact ⟨v, (fetch_eq_ok_iff.mp hv).1, hp⟩
  · rintro ⟨v, hv, hp⟩
    exact ⟨v.shape, v, fetch_eq_ok_iff.mpr ⟨hv, rfl⟩, hp⟩

theorem forall_fetch_fails_iff :
    (∀ e, ∃ fault, s.fetch raw r e = .error fault) ↔ ∀ v, s.lookup r ≠ .found v := by
  constructor
  · intro h v hv
    obtain ⟨fault, hfault⟩ := h v.shape
    have hok : s.fetch raw r v.shape = .ok v := fetch_eq_ok_iff.mpr ⟨hv, rfl⟩
    rw [hfault] at hok
    cases hok
  · intro h e
    obtain ⟨fault, hfault⟩ := fetch_of_not_found raw h
    exact ⟨fault, hfault e⟩

/-- One expectation is met, or none is, and then what is expected does not matter. -/
theorem fetch_cases (s : Scope) (raw : String) (r : Reference) :
    (∃ e v, s.fetch raw r e = .ok v ∧
      ∀ e', e' ≠ e → s.fetch raw r e' = .error (typeMismatch raw e' v)) ∨
    ∃ fault, ∀ e, s.fetch raw r e = .error fault := by
  by_cases h : ∃ v, s.lookup r = .found v
  · obtain ⟨v, hv⟩ := h
    refine .inl ⟨v.shape, v, fetch_eq_ok_iff.mpr ⟨hv, rfl⟩, fun e' he' => ?_⟩
    rw [fetch_of_found hv, if_neg he']
  · exact .inr (fetch_of_not_found raw fun v hv => h ⟨v, hv⟩)

theorem isSet_iff {l : Lookup} : isSet l = true ↔ ∃ v, l = .found v ∧ v ≠ .null := by
  cases l with
  | found v => simp [isSet, ← Value.isNull_iff]
  | _ => simp [isSet]

theorem isEmpty_iff {l : Lookup} :
    isEmpty l = true ↔ (∀ v, l ≠ .found v) ∨ ∃ v, l = .found v ∧ v.isEmpty = true := by
  cases l <;> simp [isEmpty]

theorem isSet_of_not_isEmpty {l : Lookup} (h : isEmpty l = false) : isSet l = true := by
  cases l with
  | found v =>
    have hfull : ¬ v.isEmpty = true := Bool.eq_false_iff.mp h
    have hthere : ¬ v.isNull = true := fun hn => hfull (Value.isEmpty_of_isNull hn)
    simp [isSet, hthere]
  | _ => cases h

/-- The three questions about one target come to one lookup, which does not look at the
operation. -/
theorem resolve_of_plain (s : Scope) (h : '|' ∉ raw.toList) : ∃ r,
    (∀ e, s.resolve raw e = s.fetch raw r e) ∧
    (∀ e, s.resolve ("isset|" ++ raw) e = .ok (.bool (isSet (s.lookup r)))) ∧
    ∀ e, s.resolve ("isempty|" ++ raw) e = .ok (.bool (isEmpty (s.lookup r))) := by
  obtain ⟨name, key, hfetch, hset, hempty⟩ := Reference.parse_of_plain h
  have hsame : ∀ operation, s.lookup ⟨operation, name, key⟩ = s.lookup ⟨.fetch, name, key⟩ :=
    fun _ => rfl
  refine ⟨⟨.fetch, name, key⟩, fun e => ?_, fun e => ?_, fun e => ?_⟩
  · rw [resolve, hfetch]
    rfl
  · rw [resolve, hset, ← hsame .isSet]
    rfl
  · rw [resolve, hempty, ← hsame .isEmpty]
    rfl

end Scope

/-- Fetching a reference succeeds under one expectation and mismatches under the other, or
fails alike under both. The tests never fail: set is what some fetch gives that is not null,
and empty is what no fetch gives or gives as empty. So what is not empty is set, and the
fetch of what is set can fail only by the shape of its value. -/
theorem tests_agree_with_fetching (s : Scope) {raw : String} (h : '|' ∉ raw.toList) :
    ((∃ e v, s.resolve raw e = .ok v ∧
        ∀ e', e' ≠ e → s.resolve raw e' = .error (typeMismatch raw e' v)) ∨
      ∃ fault, ∀ e, s.resolve raw e = .error fault) ∧
    ∃ set empty : Bool,
      (∀ e, s.resolve ("isset|" ++ raw) e = .ok (.bool set)) ∧
      (∀ e, s.resolve ("isempty|" ++ raw) e = .ok (.bool empty)) ∧
      (set = true ↔ ∃ e v, s.resolve raw e = .ok v ∧ v ≠ .null) ∧
      (empty = true ↔ (∀ e, ∃ fault, s.resolve raw e = .error fault) ∨
        ∃ e v, s.resolve raw e = .ok v ∧ v.isEmpty = true) ∧
      (empty = false → set = true) ∧
      (set = true → ∀ e fault, s.resolve raw e = .error fault →
        ∃ e' v, s.resolve raw e' = .ok v ∧ fault = typeMismatch raw e v ∧
          (e = .scalar ∧ v.isContainer = true ∨ e = .container ∧ v.isContainer = false)) := by
  obtain ⟨r, hplain, hset, hempty⟩ := s.resolve_of_plain h
  simp only [hplain]
  refine ⟨s.fetch_cases raw r, _, _, hset, hempty, ?_, ?_, Scope.isSet_of_not_isEmpty, ?_⟩
  · rw [Scope.isSet_iff]
    exact Scope.exists_fetch_iff.symm
  · rw [Scope.isEmpty_iff, Scope.forall_fetch_fails_iff, Scope.exists_fetch_iff]
  · intro hs e fault hfault
    obtain ⟨v, hv, -⟩ := Scope.isSet_iff.mp hs
    have hne : e ≠ v.shape := by
      intro he
      rw [Scope.fetch_eq_ok_iff.mpr ⟨hv, he⟩] at hfault
      cases hfault
    rw [Scope.fetch_of_found hv, if_neg hne] at hfault
    obtain rfl := Except.error.inj hfault
    exact ⟨v.shape, v, Scope.fetch_eq_ok_iff.mpr ⟨hv, rfl⟩, rfl, Expected.ne_shape_iff.mp hne⟩

/-- A key of a loop item that is a text is fetched in vain under both expectations, so it is
not set. A list without elements is empty and still set: only as a scalar it is not fetched. -/
theorem tests_agree_with_fetching_scalar_item :
    '|' ∉ "n[k]".toList ∧ '|' ∉ "rows".toList ∧
    let s : Scope := ⟨⟨[], [("rows", .list [])], none, none⟩, [⟨"n", .text "x"⟩], []⟩
    (∀ e, s.resolve "n[k]" e = .error (.typeMismatch "n" "a list or map" "string")) ∧
    (∀ e, s.resolve ("isset|" ++ "n[k]") e = .ok (.bool false)) ∧
    (∀ e, s.resolve ("isempty|" ++ "rows") e = .ok (.bool true)) ∧
    (∃ e v, s.resolve "rows" e = .ok v ∧ v ≠ .null) ∧
    ∀ e fault, s.resolve "rows" e = .error fault → e = .scalar := by
  let s : Scope := ⟨⟨[], [("rows", .list [])], none, none⟩, [⟨"n", .text "x"⟩], []⟩
  have hn : '|' ∉ "n[k]".toList := by decide
  have hrows : '|' ∉ "rows".toList := by decide
  have hitem : ∀ e, s.resolve "n[k]" e = .error (.typeMismatch "n" "a list or map" "string") := by
    intro e
    cases e <;> rfl
  have hlist : s.resolve ("isempty|" ++ "rows") .scalar = .ok (.bool true) := rfl
  have hthere : s.resolve ("isset|" ++ "rows") .scalar = .ok (.bool true) := rfl
  obtain ⟨-, set, -, hset, -, hiff, -⟩ := tests_agree_with_fetching s hn
  obtain ⟨-, set', empty', hset', hempty', hiff', -, -, hfail⟩ := tests_agree_with_fetching s hrows
  obtain rfl : set' = true := by
    rw [hset'] at hthere
    injection hthere with hv
    injection hv
  obtain rfl : empty' = true := by
    rw [hempty'] at hlist
    injection hlist with hv
    injection hv
  refine ⟨hn, hrows, hitem, fun e => ?_, hempty', hiff'.mp rfl, fun e fault hfault => ?_⟩
  · cases set with
    | false => exact hset e
    | true =>
      obtain ⟨e', v, hv, -⟩ := hiff.mp rfl
      rw [hitem] at hv
      cases hv
  · obtain ⟨e', v, hv, -, h | ⟨rfl, hc⟩⟩ := hfail rfl e fault hfault
    · exact h.1
    · cases hfault

end TagTemplate
