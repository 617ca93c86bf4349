/-! Ordered maps: pairs in the order in which their keys first came, each key once. -/

namespace TagTemplate

abbrev Entries (α : Type) := List (String × α)

namespace Entries

variable {α : Type}

/-- A key that is present keeps its place and takes the new value. -/
def insert (key : String) (value : α) : Entries α → Entries α
  | [] => [(key, value)]
  | e :: es => if e.1 = key then (key, value) :: es else e :: insert key value es

def ofPairs (pairs : List (String × α)) : Entries α :=
  pairs.foldl (fun es p => es.insert p.1 p.2) []

def get? (es : Entries α) (key : String) : Option α :=
  (es.find? fun e => e.1 == key).map (·.2)

def erase (es : Entries α) (key : String) : Entries α :=
  es.filter fun e => e.1 != key

def values (es : Entries α) : List α :=
  es.map (·.2)

theorem get?_insert (es : Entries α) (key k : String) (v : α) :
    (es.insert key v).get? k = if k = key then some v else es.get? k := by
  induction es with
  | nil =>
    by_cases h : k = key
    · simp [insert, get?, h]
    · have hne : ¬ key = k := fun h' => h h'.symm
      simp [insert, get?, h, hne]
  | cons e es ih =>
    by_cases he : e.1 = key
    · by_cases hk : k = key
      · subst hk; simp [insert, get?, he]
      · have hne : ¬ key = k := fun h => hk h.symm
        simp [insert, get?, he, hk, hne]
    · by_cases hk : e.1 = k
      · subst hk; simp [insert, get?, he]
      · simp only [insert, if_neg he]
        simpa [get?, hk] using ih

theorem mem_keys_insert (es : Entries α) (key k : String) (v : α) :
    k ∈ (es.insert key v).map (·.1) ↔ k = key ∨ k ∈ es.map (·.1) := by
  induction es with
  | nil => simp [insert]
  | cons e es ih =>
    by_cases he : e.1 = key
    · subst he; simp [insert]
    · simp only [insert, if_neg he, List.map_cons, List.mem_cons, ih]
      exact or_left_comm

theorem nodup_keys_insert {es : Entries α} (h : (es.map (·.1)).Nodup) (key : String) (v : α) :
    ((es.insert key v).map (·.1)).Nodup := by
  induction es with
  | nil => simp [insert]
  | cons e es ih =>
    rw [List.map_cons, List.nodup_cons] at h
    by_cases he : e.1 = key
    · subst he; simpa [insert] using h
    · rw [insert, if_neg he, List.map_cons, List.nodup_cons, mem_keys_insert]
      exact ⟨fun h' => h'.elim he h.1, ih h.2⟩

theorem get?_erase (es : Entries α) (key k : String) :
    (es.erase key).get? k = if k = key then none else es.get? k := by
  induction es with
  | nil => simp [erase, get?]
  | cons e es ih =>
    by_cases he : e.1 = key
    · by_cases hk : k = key
      · subst hk; simpa [erase, he] using ih
      · have hne : ¬ key = k := fun h => hk h.symm
        simpa [erase, get?, he, hk, hne] using ih
    · by_cases hk : e.1 = k
      · subst hk; simp [erase, get?, he]
      · simpa [erase, get?, he, hk] using ih

theorem get?_isSome_iff (es : Entries α) (key : String) :
    (es.get? key).isSome = true ↔ key ∈ es.map (·.1) := by
  simp [get?]

end Entries

end TagTemplate
