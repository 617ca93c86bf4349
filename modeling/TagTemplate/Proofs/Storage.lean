import TagTemplate.Files.Access

/-! A file reads back as it was written. A path may wander through the tree, also upwards, so
what has to be kept by a write is that the directories on the way are still directories. -/

namespace TagTemplate

namespace FileAccess

variable {σ : Type}

def look (files : FileAccess (StateM σ)) (s : σ) (path : String) : Except FileFault String :=
  (files.read path s).1

/-- Reading changes nothing, and a write that fails does so before it has changed anything.
What has been written is read back, unless it was to where nothing is kept. -/
structure Lawful (files : FileAccess (StateM σ)) : Prop where
  read : ∀ path s, (files.read path s).2 = s
  write : ∀ path content s fault,
    (files.write path content s).1 = .error fault → (files.write path content s).2 = s
  kept : ∀ path content s s',
    files.write path content s = (.ok (), s') → s' = s ∨ files.look s' path = .ok content

end FileAccess

namespace FileTree

/-- What is found below by going through one directory for each name. -/
def descend? : FileTree → List String → Option FileTree
  | t, [] => some t
  | .file _, _ :: _ => none
  | .directory entries, n :: names => (Entries.get? entries n).bind (descend? · names)

theorem descend?_append (t : FileTree) (names more : List String) :
    t.descend? (names ++ more) = (t.descend? names).bind (·.descend? more) := by
  induction names generalizing t with
  | nil => rfl
  | cons n names ih =>
    cases t with
    | file content => rfl
    | directory entries =>
      simp only [List.cons_append, descend?]
      cases Entries.get? entries n with
      | none => rfl
      | some child => exact ih child

theorem descend?_plant (node t : FileTree) (names : List String) :
    (plant node t names).descend? names = some node := by
  induction names generalizing t with
  | nil => cases t <;> rfl
  | cons n names ih =>
    cases t with
    | file content => simpa [plant, descend?, Entries.get?] using ih empty
    | directory entries =>
      simpa [plant, descend?, Entries.get?_insert] using ih ((Entries.get? entries n).getD empty)

def IsDirectory (t : FileTree) : Prop :=
  ∃ entries, t = .directory entries

def HasDirectory (t : FileTree) (names : List String) : Prop :=
  ∃ node, t.descend? names = some node ∧ node.IsDirectory

/-- Planting where no directory stands takes no directory away. -/
theorem HasDirectory.plant {t : FileTree} {target names : List String} (node : FileTree)
    (hfree : ¬ t.HasDirectory target) (h : t.HasDirectory names) :
    (plant node t target).HasDirectory names := by
  induction target generalizing t names with
  | nil =>
    cases t with
    | directory entries => exact absurd ⟨_, rfl, entries, rfl⟩ hfree
    | file content =>
      obtain ⟨found, hf, entries, rfl⟩ := h
      cases names <;> simp [descend?] at hf
  | cons s target ih =>
    cases t with
    | file content =>
      obtain ⟨found, hf, entries, rfl⟩ := h
      cases names <;> simp [descend?] at hf
    | directory entries =>
      cases names with
      | nil => exact ⟨_, rfl, _, rfl⟩
      | cons n names =>
        obtain ⟨found, hf, hdir⟩ := h
        simp only [descend?] at hf
        by_cases hn : n = s
        · subst hn
          obtain ⟨child, hc, hf⟩ := Option.bind_eq_some_iff.mp hf
          have hchild : ¬ child.HasDirectory target := by
            rintro ⟨other, ho, hd⟩
            exact hfree ⟨other, by simp [descend?, hc, ho], hd⟩
          obtain ⟨found', hf', hd⟩ := ih hchild ⟨found, hf, hdir⟩
          exact ⟨found', by simp [FileTree.plant, descend?, Entries.get?_insert, hc, hf'], hd⟩
        · refine ⟨found, ?_, hdir⟩
          simpa [FileTree.plant, descend?, Entries.get?_insert, hn] using hf

namespace Spot

variable {t t' : FileTree} {names : List String} {s s' after : Spot} {segment : String}

/-- A spot in a tree with the names that lead to it, innermost first. -/
inductive Lies (t : FileTree) : List String → Spot → Prop
  | top : Lies t [] ⟨t, []⟩
  | child {names : List String} {s : Spot} {entries : Entries FileTree} {n : String}
      {node : FileTree} : Lies t names s → s.node = .directory entries →
      Entries.get? entries n = some node →
      Lies t (n :: names) ⟨node, (n, s.node) :: s.above⟩

namespace Lies

theorem names_eq (h : Lies t names s) : s.names = names.reverse := by
  have hmap : s.above.map (·.1) = names := by
    induction h with
    | top => rfl
    | child _ _ _ ih => simp [ih]
  rw [Spot.names, hmap]

theorem descend? (h : Lies t names s) : t.descend? names.reverse = some s.node := by
  induction h with
  | top => rfl
  | child hs hd hn ih => simp [descend?_append, ih, hd, FileTree.descend?, hn]

theorem hasDirectory_iff (h : Lies t names s) :
    t.HasDirectory names.reverse ↔ s.node.IsDirectory := by
  constructor
  · rintro ⟨node, hn, hd⟩
    rw [h.descend?] at hn
    exact Option.some.inj hn ▸ hd
  · intro hd
    exact ⟨s.node, h.descend?, hd⟩

theorem up (h : Lies t names s) : Lies t names.tail s.up := by
  cases h with
  | top => exact .top
  | child hs _ _ => exact hs

end Lies

theorem isDirectory_of_step (h : s.step segment = .ok after) : s.node.IsDirectory := by
  cases hs : s.node with
  | file content => simp [step, hs] at h
  | directory entries => exact ⟨entries, rfl⟩

section

variable {entries : Entries FileTree}

theorem step_stay (hs : s.node = .directory entries) (h : segment = "" ∨ segment = ".") :
    s.step segment = .ok s := by
  simp [step, hs, h]

theorem step_up (hs : s.node = .directory entries) (h : segment = "..") :
    s.step segment = .ok s.up := by
  simp [step, hs, h]

theorem step_name (hs : s.node = .directory entries)
    (hplain : segment ≠ "" ∧ segment ≠ "." ∧ segment ≠ "..")
    (hlen : segment.utf8ByteSize ≤ nameLimit) {node : FileTree}
    (hn : Entries.get? entries segment = some node) :
    s.step segment = .ok ⟨node, (segment, s.node) :: s.above⟩ := by
  obtain ⟨h0, h1, h2⟩ := hplain
  simp [step, hs, h0, h1, h2, Nat.not_lt.mpr hlen, hn]

end

theorem step_cases (h : s.step segment = .ok after) :
    ((segment = "" ∨ segment = ".") ∧ after = s) ∨ (segment = ".." ∧ after = s.up) ∨
    ∃ entries node, s.node = .directory entries ∧
      (segment ≠ "" ∧ segment ≠ "." ∧ segment ≠ "..") ∧ segment.utf8ByteSize ≤ nameLimit ∧
      Entries.get? entries segment = some node ∧
      after = ⟨node, (segment, s.node) :: s.above⟩ := by
  obtain ⟨entries, hs⟩ := isDirectory_of_step h
  by_cases hstay : segment = "" ∨ segment = "."
  · exact .inl ⟨hstay, by simpa [step, hs, hstay] using h.symm⟩
  by_cases hup : segment = ".."
  · exact .inr (.inl ⟨hup, by simpa [step, hs, hup] using h.symm⟩)
  by_cases hlen : nameLimit < segment.utf8ByteSize
  · simp [step, hs, hstay, hup, hlen] at h
  cases hn : Entries.get? entries segment with
  | none => simp [step, hs, hstay, hup, hlen, hn] at h
  | some node =>
    have hplain := not_or.mp hstay
    refine .inr (.inr ⟨entries, node, hs, ⟨hplain.1, hplain.2, hup⟩, Nat.not_lt.mp hlen, hn, ?_⟩)
    simpa [step, hs, hstay, hup, hlen, hn] using h.symm

section

variable {segments : List String}

theorem follow_cons (s : Spot) (segment : String) (segments : List String) :
    s.follow (segment :: segments) = (s.step segment).bind (·.follow segments) := by
  simp only [follow, List.foldlM_cons]
  rfl

theorem follow_cons_eq_ok_iff : s.follow (segment :: segments) = .ok after ↔
    ∃ next, s.step segment = .ok next ∧ next.follow segments = .ok after := by
  rw [follow_cons]
  cases s.step segment <;> simp [Except.bind]

theorem follow_append_eq_ok {middle : Spot} {more : List String}
    (h : s.follow segments = .ok middle) (h' : middle.follow more = .ok after) :
    s.follow (segments ++ more) = .ok after := by
  induction segments generalizing s with
  | nil =>
    obtain rfl := Except.ok.inj h
    exact h'
  | cons segment segments ih =>
    obtain ⟨next, hs, hnext⟩ := follow_cons_eq_ok_iff.mp h
    exact follow_cons_eq_ok_iff.mpr ⟨next, hs, ih hnext⟩

theorem isDirectory_of_follow (h : s.follow segments = .ok after)
    (hdir : after.node.IsDirectory) : s.node.IsDirectory := by
  cases segments with
  | nil =>
    obtain rfl := Except.ok.inj h
    exact hdir
  | cons segment segments =>
    obtain ⟨next, hs, -⟩ := follow_cons_eq_ok_iff.mp h
    exact isDirectory_of_step hs

end

/-- A step between directories can also be taken in another tree, if that has the same
directories. -/
theorem Lies.step (hkept : ∀ path, t.HasDirectory path → t'.HasDirectory path)
    (hl : Lies t names s) (hl' : Lies t' names s') (h : s.step segment = .ok after)
    (hdir : after.node.IsDirectory) :
    ∃ further after', s'.step segment = .ok after' ∧ Lies t further after ∧
      Lies t' further after' := by
  obtain ⟨entries', hs'⟩ : s'.node.IsDirectory :=
    hl'.hasDirectory_iff.mp (hkept _ (hl.hasDirectory_iff.mpr (isDirectory_of_step h)))
  rcases step_cases h with ⟨hstay, rfl⟩ | ⟨hup, rfl⟩ | ⟨entries, node, hs, hplain, hlen, hn, rfl⟩
  · exact ⟨names, s', step_stay hs' hstay, hl, hl'⟩
  · exact ⟨names.tail, s'.up, step_up hs' hup, hl.up, hl'.up⟩
  · have hbelow := hl.child hs hn
    obtain ⟨node', hd', -⟩ := hkept _ (hbelow.hasDirectory_iff.mpr hdir)
    rw [List.reverse_cons, descend?_append, hl'.descend?] at hd'
    have hn' : Entries.get? entries' segment = some node' := by
      simpa [hs', FileTree.descend?] using hd'
    exact ⟨_, _, step_name hs' hplain hlen hn', hbelow, hl'.child hs' hn'⟩

theorem Lies.follow (hkept : ∀ path, t.HasDirectory path → t'.HasDirectory path)
    {segments : List String} (hl : Lies t names s) (hl' : Lies t' names s')
    (h : s.follow segments = .ok after) (hdir : after.node.IsDirectory) :
    ∃ further after', s'.follow segments = .ok after' ∧ Lies t further after ∧
      Lies t' further after' := by
  induction segments generalizing s s' names with
  | nil =>
    obtain rfl := Except.ok.inj h
    exact ⟨names, s', rfl, hl, hl'⟩
  | cons segment segments ih =>
    obtain ⟨next, hs, hnext⟩ := follow_cons_eq_ok_iff.mp h
    have hnextdir : next.node.IsDirectory := isDirectory_of_follow hnext hdir
    obtain ⟨further, next', hs', hm, hm'⟩ := hl.step hkept hl' hs hnextdir
    obtain ⟨further, after', hf, hlast⟩ := ih hm hm' hnext
    exact ⟨further, after', follow_cons_eq_ok_iff.mpr ⟨next', hs', hf⟩, hlast⟩

end Spot

section

variable {t : FileTree} {trail : List String} {s : Spot} {name : String} {node : FileTree}

theorem HasDirectory.plant_below {names : List String} {entries : Entries FileTree}
    (hl : Spot.Lies t trail s) (hnode : s.node = .directory entries)
    (hfree : ∀ inner, Entries.get? entries name ≠ some (.directory inner))
    (h : t.HasDirectory names) :
    (FileTree.plant node t (trail.reverse ++ [name])).HasDirectory names := by
  refine h.plant node ?_
  rintro ⟨old, ho, inner, rfl⟩
  rw [descend?_append, hl.descend?] at ho
  exact hfree inner (by simpa [descend?, hnode] using ho)

theorem get?_of_planted {after : FileTree} (h : after = plant node t (trail.reverse ++ [name]))
    (hl : Spot.Lies after trail s) (hdir : s.node.IsDirectory) :
    ∃ entries, s.node = .directory entries ∧ Entries.get? entries name = some node := by
  obtain ⟨entries, hentries⟩ := hdir
  have hfound := descend?_plant node t (trail.reverse ++ [name])
  rw [← h, descend?_append, hl.descend?, hentries] at hfound
  exact ⟨entries, hentries, by simpa [descend?] using hfound⟩

end

end FileTree

namespace FileSystem

theorem segments_ne_nil {s : FileSystem} {path : String} {segments : List String}
    (h : s.route path = .ok segments) : segments ≠ [] := by
  have hsegments : (Path.segments path.toList).map String.ofList ≠ [] := by
    simpa using Path.segments_ne_nil path.toList
  unfold route at h
  split at h
  · cases h
  split at h
  · cases h
  split at h
  · cases h
  obtain rfl := Except.ok.inj h
  split
  · exact hsegments
  · exact List.append_ne_nil_of_right_ne_nil _ hsegments

theorem write_cases {s after : FileSystem} {path content : String}
    (h : s.write path content = .ok after) : ∃ before name folder entries,
      s.route path = .ok (before ++ [name]) ∧ s.top.follow before = .ok folder ∧
      folder.node = .directory entries ∧ (name ≠ "" ∧ name ≠ "." ∧ name ≠ "..") ∧
      name.utf8ByteSize ≤ FileTree.nameLimit ∧
      (∀ inner, Entries.get? entries name ≠ some (.directory inner)) ∧
      after = ⟨.plant (.file content.toUTF8) s.root (folder.names ++ [name]), s.here⟩ := by
  unfold write at h
  cases hroute : s.route path with
  | error fault => simp [hroute, bind, Except.bind] at h
  | ok segments =>
    have hne := segments_ne_nil hroute
    cases hfollow : s.top.follow segments.dropLast with
    | error fault => simp [hroute, hfollow, bind, Except.bind] at h
    | ok folder =>
      simp only [hroute, hfollow, bind, Except.bind, List.getLast?_eq_some_getLast hne,
        Option.getD_some] at h
      cases hnode : folder.node with
      | file old => simp [hnode] at h
      | directory entries =>
        simp only [hnode] at h
        split at h
        · cases h
        split at h
        · cases h
        rename_i hplain hlen
        refine ⟨segments.dropLast, segments.getLast hne, folder, entries, ?_, hfollow, hnode,
          ⟨fun h => hplain (.inl h), fun h => hplain (.inr (.inl h)),
            fun h => hplain (.inr (.inr h))⟩, Nat.not_lt.mp hlen, ?_⟩
        · rw [List.dropLast_concat_getLast hne]
        split at h
        · cases h
        · rename_i hother
          exact ⟨fun inner => hother inner, (Except.ok.inj h).symm⟩

/-- What has been written is read back. -/
theorem read_of_write {s after : FileSystem} {path content : String}
    (h : s.write path content = .ok after) : after.read path = .ok content := by
  obtain ⟨before, name, folder, entries, hroute, hfollow, hnode, hplain, hlen, hfree, hafter⟩ :=
    write_cases h
  have hdir : folder.node.IsDirectory := ⟨entries, hnode⟩
  obtain ⟨trail, -, -, hl, -⟩ := FileTree.Spot.Lies.top.follow (fun _ h => h) .top hfollow hdir
  have hplanted : after.root = .plant (.file content.toUTF8) s.root (trail.reverse ++ [name]) := by
    rw [hafter, hl.names_eq]
  have hkept : ∀ names, s.root.HasDirectory names → after.root.HasDirectory names := by
    intro names hnames
    exact hplanted ▸ hnames.plant_below hl hnode hfree
  -- The same way leads through the new tree, to the same names.
  obtain ⟨trail', folder', hfollow', hm, hm'⟩ :=
    FileTree.Spot.Lies.top.follow hkept .top hfollow hdir
  obtain rfl : trail' = trail := List.reverse_inj.mp (hm.names_eq.symm.trans hl.names_eq)
  have hdir' : folder'.node.IsDirectory :=
    hm'.hasDirectory_iff.mp (hkept _ (hm.hasDirectory_iff.mpr hdir))
  obtain ⟨entries', hentries, hget⟩ := FileTree.get?_of_planted hplanted hm' hdir'
  have hlast := FileTree.Spot.step_name hentries hplain hlen hget
  have hroute' : after.route path = .ok (before ++ [name]) := by
    rw [hafter]
    exact hroute
  have hplace : after.top.follow (before ++ [name]) =
      .ok ⟨.file content.toUTF8, (name, folder'.node) :: folder'.above⟩ :=
    FileTree.Spot.follow_append_eq_ok hfollow'
      (FileTree.Spot.follow_cons_eq_ok_iff.mpr ⟨_, hlast, rfl⟩)
  have htext : String.fromUTF8? content.toUTF8 = some content := dif_pos content.isValidUTF8
  simp only [read, place, hroute', hplace, bind, Except.bind, FileTree.text, htext]

theorem access_write (s : FileSystem) (path content : String) :
    access.write path content s = match s.write path content with
      | .ok s' => (.ok (), s')
      | .error fault => (.error fault, s) := by
  change (match s.write path content with
    | .ok s' => (do set s'; return Except.ok () : StateM FileSystem (Except FileFault Unit))
    | .error fault => return Except.error fault) s = _
  cases s.write path content <;> rfl

theorem access_lawful : FileSystem.access.Lawful where
  read _ _ := rfl
  write path content s fault h := by
    rw [access_write] at h ⊢
    cases hw : s.write path content with
    | ok s' => simp [hw] at h
    | error fault => rfl
  kept path content s s' h := by
    rw [access_write] at h
    cases hw : s.write path content with
    | ok after =>
      rw [hw] at h
      cases h
      exact .inr (read_of_write hw)
    | error fault =>
      rw [hw] at h
      cases h

end FileSystem

end TagTemplate
