import TagTemplate.Files.Folder
import TagTemplate.Proofs.Storage

/-! What loading a name from a folder comes to. The path of a name leads to something in the
file system, or a name on it is missing, or it is obstructed, most often by a file that stands
where a directory is needed. Only the second of these is told as not found. -/

namespace TagTemplate

namespace FileTree

variable {node : FileTree} {fault : FileFault}

namespace Spot

variable {s after : Spot} {segment : String} {segments : List String}

/-- Where segments lead to. Each of them is followed in a directory. -/
inductive Leads : Spot → List String → Spot → Prop
  | here (s : Spot) : Leads s [] s
  | stay {s after : Spot} {segment : String} {segments : List String}
      (dir : s.node.IsDirectory) (dot : segment = "" ∨ segment = ".")
      (rest : Leads s segments after) : Leads s (segment :: segments) after
  | up {s after : Spot} {segments : List String}
      (dir : s.node.IsDirectory) (rest : Leads s.up segments after) :
      Leads s (".." :: segments) after
  | child {s after : Spot} {segment : String} {segments : List String}
      {entries : Entries FileTree} {node : FileTree} (dir : s.node = .directory entries)
      (plain : segment ≠ "" ∧ segment ≠ "." ∧ segment ≠ "..")
      (short : segment.utf8ByteSize ≤ nameLimit) (there : Entries.get? entries segment = some node)
      (rest : Leads ⟨node, (segment, s.node) :: s.above⟩ segments after) :
      Leads s (segment :: segments) after

theorem leads_iff : s.Leads segments after ↔ s.follow segments = .ok after := by
  constructor
  · intro h
    induction h with
    | here s => rfl
    | stay dir dot _ ih =>
      obtain ⟨entries, hs⟩ := dir
      exact follow_cons_eq_ok_iff.mpr ⟨_, step_stay hs dot, ih⟩
    | up dir _ ih =>
      obtain ⟨entries, hs⟩ := dir
      exact follow_cons_eq_ok_iff.mpr ⟨_, step_up hs rfl, ih⟩
    | child dir plain short there _ ih =>
      exact follow_cons_eq_ok_iff.mpr ⟨_, step_name dir plain short there, ih⟩
  · intro h
    induction segments generalizing s with
    | nil =>
      obtain rfl := Except.ok.inj h
      exact .here s
    | cons segment segments ih =>
      obtain ⟨next, hstep, hrest⟩ := follow_cons_eq_ok_iff.mp h
      have hdir := isDirectory_of_step hstep
      rcases step_cases hstep with ⟨hdot, rfl⟩ | ⟨rfl, rfl⟩ | ⟨_, _, hs, hplain, hshort, hn, rfl⟩
      · exact .stay hdir hdot (ih hrest)
      · exact .up hdir (ih hrest)
      · exact .child hs hplain hshort hn (ih hrest)

/-- A file leads nowhere, and neither does a name that is too long. -/
def Blocks (s : Spot) (segment : String) : Prop :=
  (∃ content, s.node = .file content) ∨ nameLimit < segment.utf8ByteSize

theorem blocks_iff : s.Blocks segment ↔ ∃ fault ≠ .missing, s.step segment = .error fault := by
  cases hs : s.node with
  | file content =>
    have hstep : s.step segment = .error .notDirectory := by simp [step, hs]
    exact iff_of_true (.inl ⟨content, hs⟩) ⟨_, by decide, hstep⟩
  | directory entries =>
    have hb : s.Blocks segment ↔ nameLimit < segment.utf8ByteSize := by simp [Blocks, hs]
    rw [hb]
    by_cases hstay : segment = "" ∨ segment = "."
    · have hlen : segment.utf8ByteSize ≤ nameLimit := by
        rcases hstay with rfl | rfl <;> decide
      simp [step_stay hs hstay, Nat.not_lt.mpr hlen]
    by_cases hup : segment = ".."
    · have hlen : segment.utf8ByteSize ≤ nameLimit := by
        subst hup
        decide
      simp [step_up hs hup, Nat.not_lt.mpr hlen]
    by_cases hlen : nameLimit < segment.utf8ByteSize
    · simp [step, hs, hstay, hup, hlen]
    · cases hn : Entries.get? entries segment <;> simp [step, hs, hstay, hup, hlen, hn]

theorem follow_cons_eq_error_iff : s.follow (segment :: segments) = .error fault ↔
    s.step segment = .error fault ∨
      ∃ next, s.step segment = .ok next ∧ next.follow segments = .error fault := by
  rw [follow_cons]
  cases s.step segment <;> simp [Except.bind]

/-- A walk that fails does so at one segment. -/
theorem follow_eq_error_iff : s.follow segments = .error fault ↔
    ∃ before segment rest reached, segments = before ++ segment :: rest ∧
      s.Leads before reached ∧ reached.step segment = .error fault := by
  constructor
  · intro h
    induction segments generalizing s with
    | nil => cases h
    | cons segment segments ih =>
      rcases follow_cons_eq_error_iff.mp h with hstep | ⟨next, hstep, hrest⟩
      · exact ⟨[], segment, segments, s, rfl, .here s, hstep⟩
      · obtain ⟨before, failing, rest, reached, rfl, hlead, hfail⟩ := ih hrest
        have hway : s.follow (segment :: before) = .ok reached :=
          follow_cons_eq_ok_iff.mpr ⟨next, hstep, leads_iff.mp hlead⟩
        exact ⟨segment :: before, failing, rest, reached, rfl, leads_iff.mpr hway, hfail⟩
  · rintro ⟨before, failing, rest, reached, rfl, hlead, hfail⟩
    have hway := leads_iff.mp hlead
    clear hlead
    induction before generalizing s with
    | nil =>
      obtain rfl := Except.ok.inj hway
      exact follow_cons_eq_error_iff.mpr (.inl hfail)
    | cons segment before ih =>
      obtain ⟨next, hstep, hrest⟩ := follow_cons_eq_ok_iff.mp hway
      exact follow_cons_eq_error_iff.mpr (.inr ⟨next, hstep, ih hrest⟩)

end Spot

theorem fromUTF8?_eq_some_iff {content : ByteArray} {s : String} :
    String.fromUTF8? content = some s ↔ content = s.toUTF8 := by
  constructor
  · intro h
    unfold String.fromUTF8? at h
    split at h
    · obtain rfl := Option.some.inj h
      rfl
    · cases h
  · rintro rfl
    exact dif_pos s.isValidUTF8

theorem text_eq_ok_iff {s : String} : node.text = .ok s ↔ node = .file s.toUTF8 := by
  cases node with
  | directory entries => simp [text]
  | file content =>
    rw [file.injEq, ← fromUTF8?_eq_some_iff]
    cases h : String.fromUTF8? content <;> simp [text, h]

theorem text_ne_missing (node : FileTree) : node.text ≠ .error .missing := by
  cases node with
  | directory entries => simp [text]
  | file content => cases h : String.fromUTF8? content <;> simp [text, h]

theorem exists_text_error_iff : (∃ fault ≠ .missing, node.text = .error fault) ↔
    ∀ s : String, node ≠ .file s.toUTF8 := by
  constructor
  · rintro ⟨fault, -, h⟩ s hs
    rw [text_eq_ok_iff.mpr hs] at h
    cases h
  · intro h
    cases ht : node.text with
    | ok s => exact absurd (text_eq_ok_iff.mp ht) (h s)
    | error fault => exact ⟨fault, fun hm => node.text_ne_missing (hm ▸ ht), rfl⟩

end FileTree

namespace FileSystem

open FileTree (Spot)

variable {s : FileSystem} {path : String} {node : FileTree} {fault : FileFault}

/-- Something exists at a path. -/
def Holds (s : FileSystem) (path : String) (node : FileTree) : Prop :=
  ∃ segments after, s.route path = .ok segments ∧ s.top.Leads segments after ∧ after.node = node

/-- A path that is refused as it stands, or that goes on behind a file or with a name that is
too long. -/
inductive Obstructed (s : FileSystem) (path : String) : Prop
  | zero (h : '\x00' ∈ path.toList)
  | long (h : pathLimit ≤ path.utf8ByteSize)
  | blocked {reached : Spot} {before rest : List String} {segment : String}
      (starts : s.route path = .ok (before ++ segment :: rest))
      (way : s.top.Leads before reached) (block : reached.Blocks segment)

theorem place_of_route {segments : List String} (h : s.route path = .ok segments) :
    s.place path = s.top.follow segments := by
  rw [place, h]
  rfl

theorem place_of_fault (h : s.route path = .error fault) : s.place path = .error fault := by
  rw [place, h]
  rfl

theorem holds_iff : s.Holds path node ↔ ∃ spot, s.place path = .ok spot ∧ spot.node = node := by
  constructor
  · rintro ⟨segments, after, hroute, hlead, hnode⟩
    exact ⟨after, (place_of_route hroute).trans (Spot.leads_iff.mp hlead), hnode⟩
  · rintro ⟨spot, hspot, hnode⟩
    cases hroute : s.route path with
    | error fault =>
      rw [place_of_fault hroute] at hspot
      cases hspot
    | ok segments =>
      rw [place_of_route hroute] at hspot
      exact ⟨segments, spot, hroute, Spot.leads_iff.mpr hspot, hnode⟩

theorem route_eq_error (h : s.route path = .error fault) (hne : fault ≠ .missing) :
    '\x00' ∈ path.toList ∨ pathLimit ≤ path.utf8ByteSize := by
  unfold route at h
  split at h
  · rename_i hzero
    exact .inl (by simpa using hzero)
  split at h
  · rename_i hlong
    exact .inr hlong
  split at h
  · exact absurd (Except.error.inj h).symm hne
  · cases h

theorem obstructed_iff : s.Obstructed path ↔ ∃ fault ≠ .missing, s.place path = .error fault := by
  constructor
  · rintro (hzero | hlong | ⟨hroute, hway, hblock⟩)
    · exact ⟨.zeroInPath, by decide, place_of_fault (by simp [route, hzero])⟩
    · by_cases hzero : '\x00' ∈ path.toList
      · exact ⟨.zeroInPath, by decide, place_of_fault (by simp [route, hzero])⟩
      · exact ⟨.nameTooLong, by decide, place_of_fault (by simp [route, hzero, hlong])⟩
    · obtain ⟨fault, hne, hstep⟩ := Spot.blocks_iff.mp hblock
      refine ⟨fault, hne, ?_⟩
      rw [place_of_route hroute]
      exact Spot.follow_eq_error_iff.mpr ⟨_, _, _, _, rfl, hway, hstep⟩
  · rintro ⟨fault, hne, hplace⟩
    cases hroute : s.route path with
    | error fault' =>
      obtain rfl : fault' = fault := Except.error.inj ((place_of_fault hroute).symm.trans hplace)
      exact (route_eq_error hroute hne).elim .zero .long
    | ok segments =>
      rw [place_of_route hroute] at hplace
      obtain ⟨before, segment, rest, reached, rfl, hway, hstep⟩ :=
        Spot.follow_eq_error_iff.mp hplace
      exact .blocked hroute hway (Spot.blocks_iff.mpr ⟨fault, hne, hstep⟩)

theorem read_eq (s : FileSystem) (path : String) :
    s.read path = (s.place path).bind fun spot => spot.node.text := rfl

end FileSystem

namespace Folder

section

variable {f : Folder} {name path : String} {result : Except FileFault String}

theorem load_of_no_path (h : f.path? name = none) (s : FileSystem) :
    f.load FileSystem.access name s = (.error (.notFound name), s) := by
  unfold load
  rw [h]
  rfl

theorem load_of_path (h : f.path? name = some path) (s : FileSystem) :
    f.load FileSystem.access name s = (answer name (s.read path), s) := by
  unfold load
  rw [h]
  rfl

theorem answer_eq_ok_iff {s : String} : answer name result = .ok s ↔ result = .ok s := by
  unfold answer
  split <;> simp

theorem answer_eq_notFound_iff :
    answer name result = .error (.notFound name) ↔ result = .error .missing := by
  unfold answer
  split <;> simp_all

theorem answer_eq_unreadable_iff :
    (∃ reason, answer name result = .error (.unreadable name reason)) ↔
      ∃ fault ≠ .missing, result = .error fault := by
  unfold answer
  split <;> simp_all

end

end Folder

/-- Loading a name changes nothing in the file system. It gives a text where the path of the name
leads to a file with that text in UTF-8. Where nothing exists at the path, or the name has none,
the name is not found, unless the path is obstructed. It is unreadable where something without a
text exists, and also where the path is obstructed, though nothing exists there. -/
theorem loading_follows_the_tree (f : Folder) (s : FileSystem) (name : String) :
    let answered := (f.load FileSystem.access name s).1
    (f.load FileSystem.access name s).2 = s ∧
    (f.path? name = none → answered = .error (.notFound name)) ∧
    ∀ path, f.path? name = some path →
      (∀ text : String, answered = .ok text ↔ s.Holds path (.file text.toUTF8)) ∧
      (answered = .error (.notFound name) ↔
        (∀ node, ¬ s.Holds path node) ∧ ¬ s.Obstructed path) ∧
      ((∃ reason, answered = .error (.unreadable name reason)) ↔
        (∃ node, s.Holds path node ∧ ∀ text : String, node ≠ .file text.toUTF8) ∨
          s.Obstructed path) ∧
      (s.Obstructed path → ∀ node, ¬ s.Holds path node) := by
  intro answered
  refine ⟨?_, fun hnone => congrArg Prod.fst (Folder.load_of_no_path hnone s), fun path hpath => ?_⟩
  · cases hpath : f.path? name with
    | none => rw [Folder.load_of_no_path hpath]
    | some path => rw [Folder.load_of_path hpath]
  have hanswered : answered = Folder.answer name (s.read path) :=
    congrArg Prod.fst (Folder.load_of_path hpath s)
  rw [hanswered, Folder.answer_eq_notFound_iff, Folder.answer_eq_unreadable_iff,
    FileSystem.obstructed_iff]
  simp only [Folder.answer_eq_ok_iff, FileSystem.holds_iff, FileSystem.read_eq]
  cases hplace : s.place path with
  | error fault =>
    by_cases hne : fault = .missing <;> simp [Except.bind, hne]
  | ok spot =>
    have hmissing := spot.node.text_ne_missing
    simp [Except.bind, hmissing, FileTree.text_eq_ok_iff, FileTree.exists_text_error_iff]

/-- A name without a path and a name that no file has, in a folder reached by going up from the
working directory; a file that is no text and a template, in a folder with an absolute base. -/
theorem loading_follows_the_tree_hidden :
    let s : FileSystem := ⟨.directory [("v", .directory
      [(".tpl", .directory [("x", .file ⟨#[0xFF]⟩)]), ("a", .file "A".toUTF8)]),
      ("w", .directory [])], ["w"]⟩
    let above := Folder.make "../v" ".tpl"
    let bare := Folder.make "/v" "."
    above.path? "" = none ∧ (above.load FileSystem.access "" s).1 = .error (.notFound "") ∧
    above.path? "b" = some "../v/b.tpl" ∧
    (above.load FileSystem.access "b" s).1 = .error (.notFound "b") ∧
    bare.path? ".tpl/x" = some "/v/.tpl/x" ∧
    (∃ reason, (bare.load FileSystem.access ".tpl/x" s).1 =
      .error (.unreadable ".tpl/x" reason)) ∧
    bare.path? "a" = some "/v/a" ∧ (bare.load FileSystem.access "a" s).1 = .ok "A" := by
  intro s above bare
  have hnone : above.path? "" = none := rfl
  have hb : above.path? "b" = some "../v/b.tpl" := by decide +kernel
  have hx : bare.path? ".tpl/x" = some "/v/.tpl/x" := by decide +kernel
  have ha : bare.path? "a" = some "/v/a" := by decide +kernel
  have hmissing : s.place "../v/b.tpl" = .error .missing := rfl
  have hbytes : s.Holds "/v/.tpl/x" (.file ⟨#[0xFF]⟩) := FileSystem.holds_iff.mpr ⟨_, rfl, rfl⟩
  have hno : ∀ s : String, FileTree.file ⟨#[0xFF]⟩ ≠ .file s.toUTF8 := by
    intro s hs
    cases (FileTree.fromUTF8?_eq_some_iff.mpr (FileTree.file.inj hs)).symm.trans
      (show String.fromUTF8? ⟨#[0xFF]⟩ = none by decide +kernel)
  have htext : s.Holds "/v/a" (.file "A".toUTF8) := FileSystem.holds_iff.mpr ⟨_, rfl, rfl⟩
  have hnothing : (∀ node, ¬ s.Holds "../v/b.tpl" node) ∧ ¬ s.Obstructed "../v/b.tpl" := by
    simp [FileSystem.holds_iff, FileSystem.obstructed_iff, hmissing]
  obtain ⟨-, hempty, -⟩ := loading_follows_the_tree above s ""
  obtain ⟨-, -, hfirst⟩ := loading_follows_the_tree above s "b"
  obtain ⟨-, -, hsecond⟩ := loading_follows_the_tree bare s ".tpl/x"
  obtain ⟨-, -, hthird⟩ := loading_follows_the_tree bare s "a"
  exact ⟨hnone, hempty hnone, hb, (hfirst _ hb).2.1.mpr hnothing, hx,
    (hsecond _ hx).2.2.1.mpr (.inl ⟨_, hbytes, hno⟩), ha, ((hthird _ ha).1 "A").mpr htext⟩

/-- A name that goes on behind a template of that folder is unreadable, though nothing exists at
its path. -/
theorem file_on_the_way_is_unreadable :
    let s : FileSystem := ⟨.directory [("work", .directory
      [("templates", .directory [("index.tpl", .file "I".toUTF8)])])], ["work"]⟩
    Folder.default.path? "index.tpl/x" = some "templates/index.tpl/x.tpl" ∧
    (∀ node, ¬ s.Holds "templates/index.tpl/x.tpl" node) ∧
    (Folder.default.load FileSystem.access "index.tpl/x" s).1 =
      .error (.unreadable "index.tpl/x" "Not a directory (os error 20)") := by
  intro s
  have hpath : Folder.default.path? "index.tpl/x" = some "templates/index.tpl/x.tpl" := by
    decide +kernel
  have hplace : s.place "templates/index.tpl/x.tpl" = .error .notDirectory := rfl
  refine ⟨hpath, fun node hn => ?_, ?_⟩
  · obtain ⟨spot, hspot, -⟩ := FileSystem.holds_iff.mp hn
    rw [hplace] at hspot
    cases hspot
  · rw [Folder.load_of_path hpath, FileSystem.read_eq, hplace]
    rfl

end TagTemplate
