import Mathlib.Data.List.Basic
import TagTemplate.Files.Folder

/-! Template names lead downwards. A name that is admitted names at least one thing below the
base of a folder, and what is put behind it for the extension never makes a dot, two dots or
a slash of its own. -/

namespace TagTemplate

namespace Path

/-- A segment that is neither empty nor one of the dots that do not name anything. -/
structure IsName (segment : List Char) : Prop where
  nonempty : segment ≠ []
  notHere : segment ≠ ['.']
  notUp : segment ≠ ['.', '.']
  whole : '/' ∉ segment

theorem segments_of_whole {s : List Char} (h : '/' ∉ s) : segments s = [s] := by
  induction s with
  | nil => rfl
  | cons c cs ih =>
    rw [List.mem_cons, not_or] at h
    rw [segments, if_neg (Ne.symm h.1), ih h.2]
    rfl

theorem segments_append (a b : List Char) :
    segments (a ++ '/' :: b) = segments a ++ segments b := by
  induction a with
  | nil => rfl
  | cons c cs ih =>
    by_cases hc : c = '/'
    · simp [segments, hc, ih]
    · obtain ⟨s, ss, hs⟩ := List.exists_cons_of_ne_nil (segments_ne_nil cs)
      simp [segments, hc, ih, hs, growFirst]

theorem notMem_of_mem_segments {path s : List Char} (h : s ∈ segments path) : '/' ∉ s := by
  induction path generalizing s with
  | nil =>
    obtain rfl : s = [] := by simpa [segments] using h
    exact List.not_mem_nil
  | cons c cs ih =>
    by_cases hc : c = '/'
    · have h : s = [] ∨ s ∈ segments cs := by simpa [segments, hc] using h
      rcases h with rfl | h
      · exact List.not_mem_nil
      · exact ih h
    · obtain ⟨r, rs, hr⟩ := List.exists_cons_of_ne_nil (segments_ne_nil cs)
      have h : s = c :: r ∨ s ∈ rs := by simpa [segments, hc, hr, growFirst] using h
      rcases h with rfl | h
      · have hfree : '/' ∉ r := ih (by simp [hr])
        simp [Ne.symm hc, hfree]
      · exact ih (by simp [hr, h])

/-- What is put behind a path belongs to its last segment, if it holds no slash. -/
theorem segments_suffix (path : List Char) : ∃ front last, segments path = front ++ [last] ∧
    ∀ suffix, '/' ∉ suffix → segments (path ++ suffix) = front ++ [last ++ suffix] := by
  induction path with
  | nil => exact ⟨[], [], rfl, fun suffix h => segments_of_whole h⟩
  | cons c cs ih =>
    obtain ⟨front, last, hs, hsuffix⟩ := ih
    by_cases hc : c = '/'
    · refine ⟨[] :: front, last, by simp [segments, hc, hs], fun suffix h => ?_⟩
      simp [segments, hc, hsuffix suffix h]
    · cases front with
      | nil =>
        refine ⟨[], c :: last, by simp [segments, hc, hs, growFirst], fun suffix h => ?_⟩
        simp [segments, hc, hsuffix suffix h, growFirst]
      | cons f front =>
        refine ⟨(c :: f) :: front, last, by simp [segments, hc, hs, growFirst], fun suffix h => ?_⟩
        simp [segments, hc, hsuffix suffix h, growFirst]

theorem opening_cons (s : List Char) (ss : List (List Char)) : opening (s :: ss) =
    if s = ['.'] then [.here] else if s = [] ∧ ss ≠ [] then [.root] else [] := by
  cases ss with
  | nil =>
    unfold opening
    split <;> simp_all
  | cons t ss =>
    unfold opening
    split <;> simp_all

theorem head?_segments_eq_nil {path : List Char} (hne : path ≠ [])
    (h : (segments path).head? = some []) : path.head? = some '/' := by
  obtain ⟨c, cs, rfl⟩ := List.exists_cons_of_ne_nil hne
  by_cases hc : c = '/'
  · simp [hc]
  · obtain ⟨s, ss, hs⟩ := List.exists_cons_of_ne_nil (segments_ne_nil cs)
    simp [segments, hc, hs, growFirst] at h

theorem ne_empty_segment {path : List Char} (hne : path ≠ []) : segments path ≠ [[]] := by
  intro h
  obtain ⟨cs, rfl⟩ := List.head?_eq_some_iff.mp (head?_segments_eq_nil hne (by rw [h]; rfl))
  exact segments_ne_nil cs (List.cons.inj h).2

theorem opening_eq_nil_iff {path : List Char} : opening (segments path) = [] ↔
    path.head? ≠ some '/' ∧ (segments path).head? ≠ some ['.'] := by
  cases path with
  | nil => simp [segments, opening]
  | cons c cs =>
    have hne := segments_ne_nil cs
    by_cases hc : c = '/'
    · simp [segments, hc, opening_cons, hne]
    · obtain ⟨s, ss, hs⟩ := List.exists_cons_of_ne_nil hne
      simp [segments, hc, hs, growFirst, opening_cons]

/-- A relative path that does not start in its own place starts with a name, or goes up. -/
theorem exists_name_of_opening {path : List Char} (hne : path ≠ [])
    (hopen : opening (segments path) = []) (hup : ['.', '.'] ∉ segments path) :
    ∃ s ∈ segments path, IsName s := by
  obtain ⟨hroot, hhere⟩ := opening_eq_nil_iff.mp hopen
  obtain ⟨s, ss, hs⟩ := List.exists_cons_of_ne_nil (segments_ne_nil path)
  have hhead : (segments path).head? = some s := by rw [hs, List.head?_cons]
  have hmem : s ∈ segments path := List.mem_of_head? hhead
  refine ⟨s, hmem, ?_, ?_, ?_, notMem_of_mem_segments hmem⟩
  · rintro rfl
    exact hroot (head?_segments_eq_nil hne hhead)
  · rintro rfl
    exact hhere hhead
  · rintro rfl
    exact hup hmem

theorem IsName.component? {s : List Char} (h : IsName s) : component? s = some (.name s) := by
  simp [Path.component?, h.nonempty, h.notHere, h.notUp]

/-- Without two dots, the components of segments are the names among them. -/
theorem filterMap_component? {ss : List (List Char)} (hup : ['.', '.'] ∉ ss)
    (hwhole : ∀ s ∈ ss, '/' ∉ s) : ∃ names : List (List Char),
      ss.filterMap component? = names.map .name ∧ ∀ s, s ∈ names ↔ s ∈ ss ∧ IsName s := by
  induction ss with
  | nil => exact ⟨[], rfl, by simp⟩
  | cons s ss ih =>
    rw [List.mem_cons, not_or] at hup
    obtain ⟨names, hnames, hmem⟩ := ih hup.2 fun t ht => hwhole t (List.mem_cons_of_mem s ht)
    by_cases hs : s = [] ∨ s = ['.']
    · have hno : ¬ IsName s := fun h => hs.elim h.nonempty h.notHere
      refine ⟨names, by simp [component?, hs, hnames], fun t => ?_⟩
      rw [hmem t, List.mem_cons]
      constructor
      · exact fun h => ⟨.inr h.1, h.2⟩
      · rintro ⟨rfl | ht, hn⟩
        · exact absurd hn hno
        · exact ⟨ht, hn⟩
    · rw [not_or] at hs
      have hn : IsName s := ⟨hs.1, hs.2, Ne.symm hup.1, hwhole s (by simp)⟩
      refine ⟨s :: names, by simp [hn.component?, hnames], fun t => ?_⟩
      rw [List.mem_cons, hmem t, List.mem_cons]
      constructor
      · rintro (rfl | h)
        · exact ⟨.inl rfl, hn⟩
        · exact ⟨.inr h.1, h.2⟩
      · rintro ⟨rfl | ht, h⟩
        · exact .inl rfl
        · exact .inr ⟨ht, h⟩

theorem opening_append {ss ts : List (List Char)} (hne : ss ≠ []) (h : ss ≠ [[]]) :
    opening (ss ++ ts) = opening ss := by
  obtain ⟨s, ss, rfl⟩ := List.exists_cons_of_ne_nil hne
  rw [List.cons_append, opening_cons, opening_cons]
  by_cases hs : s = []
  · have hss : ss ≠ [] := by
      rintro rfl
      exact h (by rw [hs])
    simp [hs, hss]
  · simp [hs]

/-- A relative path goes on where its base ends. -/
theorem components_join (base : List Char) {path : List Char}
    (hopen : opening (segments path) = []) :
    components (join base path) = components base ++ components path := by
  rcases List.eq_nil_or_concat' base with rfl | ⟨b, c, rfl⟩
  · rfl
  have hb := segments_ne_nil b
  have hpath : components path = (segments path).filterMap component? := by
    rw [components, hopen, List.nil_append]
  by_cases hc : c = '/'
  · have hjoin : join (b ++ [c]) path = b ++ '/' :: path := by simp [join, hc]
    have hbase : segments (b ++ [c]) = segments b ++ [[]] := by
      rw [hc, segments_append]
      rfl
    -- The base ends in an empty segment, the place of which the path takes.
    have hopening : opening (segments b ++ segments path) = opening (segments b ++ [[]]) := by
      obtain ⟨s, ss, hs⟩ := List.exists_cons_of_ne_nil hb
      simp [hs, opening_cons, segments_ne_nil]
    have hempty : [[]].filterMap component? = [] := rfl
    rw [hjoin, hpath, components, components, segments_append, hbase, hopening,
      List.filterMap_append, List.filterMap_append, hempty, List.append_nil, List.append_assoc]
  · have hjoin : join (b ++ [c]) path = (b ++ [c]) ++ '/' :: path := by simp [join, hc]
    have hbase : segments (b ++ [c]) ≠ [[]] := ne_empty_segment (by simp)
    rw [hjoin, hpath, components, components, segments_append,
      opening_append (segments_ne_nil _) hbase, List.filterMap_append, List.append_assoc]

end Path

open TagTemplate.Path

namespace Folder

/-- An admitted name has names in it and nothing else that counts. -/
theorem admits_iff {name : List Char} : admits name = true ↔
    name ≠ [] ∧ opening (segments name) = [] ∧ ['.', '.'] ∉ segments name := by
  rw [admits, Bool.and_eq_true, bne_iff_ne, components, List.all_append, Bool.and_eq_true]
  refine and_congr_right fun _ => and_congr ?_ ?_
  · unfold opening
    split <;> simp
  · constructor
    · intro hall hup
      have hmem : Component.up ∈ (segments name).filterMap component? :=
        List.mem_filterMap.mpr ⟨_, hup, rfl⟩
      exact nomatch List.all_eq_true.mp hall _ hmem
    · intro hup
      obtain ⟨names, hnames, -⟩ := filterMap_component? hup fun s => notMem_of_mem_segments
      simp [hnames]

theorem admits_eq_false_iff {name : List Char} : admits name = false ↔
    name = [] ∨ name.head? = some '/' ∨ ['.', '.'] ∈ segments name ∨
      (segments name).head? = some ['.'] := by
  rw [← Bool.not_eq_true, admits_iff, opening_eq_nil_iff]
  by_cases hne : name = [] <;> by_cases hroot : name.head? = some '/' <;>
    by_cases hup : ['.', '.'] ∈ segments name <;> simp [hne, hroot, hup]

/-- What stands behind names: nothing, or a dot and more that does not start with another. -/
inductive Suffix : List Char → Prop
  | nothing : Suffix []
  | dotted {c : Char} {cs : List Char} (dot : c ≠ '.') (whole : '/' ∉ c :: cs) :
      Suffix ('.' :: c :: cs)

theorem exists_suffix (base : String) {extension : String} (h : '/' ∉ extension.toList) :
    ∃ suffix, Suffix suffix ∧ ∀ name, (make base extension).fileName name = name ++ suffix := by
  have hmade : (make base extension).extension =
      String.ofList (extension.toList.dropWhile (· == '.')) := rfl
  cases hd : extension.toList.dropWhile (· == '.') with
  | nil =>
    refine ⟨[], .nothing, fun name => ?_⟩
    simp [fileName, hmade, hd]
  | cons c cs =>
    have hdot : c ≠ '.' := by
      have hhead := List.head?_dropWhile_not (· == '.') extension.toList
      simpa [hd] using hhead
    have hwhole : '/' ∉ c :: cs := by
      intro hm
      exact h ((List.dropWhile_sublist _).mem (hd ▸ hm))
    refine ⟨'.' :: c :: cs, .dotted hdot hwhole, fun name => ?_⟩
    simp [fileName, hmade, hd]

/-- With a suffix behind it, a name that leads downwards still does. -/
theorem Suffix.admits {name suffix : List Char} (h : Suffix suffix)
    (hname : Folder.admits name = true) : Folder.admits (name ++ suffix) = true := by
  cases h with
  | nothing => simpa using hname
  | @dotted c cs dot whole =>
    obtain ⟨hne, hopen, hup⟩ := admits_iff.mp hname
    obtain ⟨hroot, hhere⟩ := opening_eq_nil_iff.mp hopen
    obtain ⟨front, last, hs, hsuffix⟩ := segments_suffix name
    have hs' : segments (name ++ '.' :: c :: cs) = front ++ [last ++ '.' :: c :: cs] :=
      hsuffix _ (by simpa using whole)
    rw [hs] at hhere hup
    refine admits_iff.mpr ⟨by simp [hne], opening_eq_nil_iff.mpr ⟨?_, ?_⟩, ?_⟩
    · rwa [List.head?_append_of_ne_nil name hne]
    · rw [hs']
      cases front with
      | nil =>
        intro hdot
        have hlen : last.length + (cs.length + 2) = 1 := by
          simpa using congrArg (Option.map List.length) hdot
        omega
      | cons f front => simpa using hhere
    · rw [hs']
      intro hm
      rcases List.mem_append.mp hm with hm | hm
      · exact hup (List.mem_append_left _ hm)
      · -- Two characters leave no room for a last segment in front of the suffix.
        have hlast := List.mem_singleton.mp hm
        have hlen : 2 = last.length + (cs.length + 2) := by simpa using congrArg List.length hlast
        obtain rfl : last = [] := List.eq_nil_of_length_eq_zero (by omega)
        obtain ⟨hdot, -⟩ : '.' = c ∧ cs = [] := by simpa using hlast
        exact dot hdot.symm

end Folder

/-- A folder has a path for a name unless the name is empty, absolute, goes up or starts in its
own place; and the path goes on where the base ends, with names and nothing else. -/
theorem template_paths_stay_below (base : String) {extension : String}
    (h : '/' ∉ extension.toList) (name : String) :
    ((Folder.make base extension).path? name = none ↔ name = "" ∨ name.toList.head? = some '/' ∨
      ['.', '.'] ∈ segments name.toList ∨ (segments name.toList).head? = some ['.']) ∧
    ∀ path, (Folder.make base extension).path? name = some path →
      ∃ names : List (List Char), names ≠ [] ∧ (∀ n ∈ names, IsName n) ∧
        components path.toList = components base.toList ++ names.map .name := by
  constructor
  · rw [← String.toList_eq_nil_iff, ← Folder.admits_eq_false_iff]
    cases ha : Folder.admits name.toList <;> simp [Folder.path?, ha]
  · intro path hpath
    have ha : Folder.admits name.toList = true := by
      by_contra hn
      simp [Folder.path?, hn] at hpath
    obtain ⟨suffix, hsuffix, hfile⟩ := Folder.exists_suffix base h
    have hbase : (Folder.make base extension).base = base := rfl
    obtain rfl : String.ofList (join base.toList (name.toList ++ suffix)) = path := by
      simpa [Folder.path?, ha, hfile, hbase] using hpath
    obtain ⟨hne, hopen, hup⟩ := Folder.admits_iff.mp (hsuffix.admits ha)
    obtain ⟨names, hnames, hmem⟩ := filterMap_component? hup fun s => notMem_of_mem_segments
    obtain ⟨s, hs, hname⟩ := exists_name_of_opening hne hopen hup
    refine ⟨names, List.ne_nil_of_mem ((hmem s).mpr ⟨hs, hname⟩), fun n hn => ((hmem n).mp hn).2, ?_⟩
    rw [String.toList_ofList, components_join _ hopen, components, components, hopen, hnames]
    rfl

/-- A base that goes up, a name with an empty segment that ends in a dot, and an extension that
is written with two dots in front. -/
theorem template_paths_stay_below_dotted :
    '/' ∉ "..tpl".toList ∧ ∃ names, names ≠ [] ∧ (∀ n ∈ names, IsName n) ∧
      components "../views/a//b/..tpl".toList =
        components "../views/".toList ++ names.map .name := by
  have hwhole : '/' ∉ "..tpl".toList := by decide
  have hpath : (Folder.make "../views/" "..tpl").path? "a//b/." = some "../views/a//b/..tpl" := by
    decide +kernel
  exact ⟨hwhole, (template_paths_stay_below "../views/" hwhole "a//b/.").2 _ hpath⟩

end TagTemplate
