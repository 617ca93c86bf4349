import TagTemplate.CommandLine.Run
import TagTemplate.Proofs.Pointing
import TagTemplate.Proofs.Storage

/-! The command line from its files to its one effect. Everything is read before anything
is written, so a run that fails leaves no trace but its complaint, and a run that succeeds
has written just what the template renders. -/

namespace TagTemplate

namespace CommandLine

/-- The settings in the file that is named, or the default ones if none is. -/
def ConfigAt (look : String → Except FileFault String) (file : Option String) (s : Settings) :
    Prop :=
  match file with
  | none => s = .default
  | some path => ∃ text, look path = .ok text ∧ Settings.read text = .ok s

/-- The table in the file that is named; none if none is. -/
def TableAt {α : Type} (look : String → Except FileFault String) (decode : Json → Option α)
    (file : Option String) (table : Option α) : Prop :=
  match file with
  | none => table = none
  | some path => ∃ text json a, look path = .ok text ∧ Json.read? text = some json ∧
      decode json = some a ∧ table = some a

/-- The settings in use: the command line replaces folder and extension, if it names them. -/
def inUse (values : Values) (config : Settings) : Settings :=
  ⟨(values.lookup .folder).getD config.folder, (values.lookup .extension).getD config.extension,
    config.globals⟩

def SourceAt (look : String → Except FileFault String) (g : Settings) (name source : String) :
    Prop :=
  ∃ path, g.toFolder.path? name = some path ∧ look path = .ok source

/-- The source of the template and the inputs of the render, as the files have them. -/
structure Prepared (look : String → Except FileFault String) (name : String) (values : Values)
    (source : String) (inputs : Inputs) : Prop where
  settings : ∃ config, ConfigAt look (values.lookup .config) config ∧
    inputs.globals = some config.globals ∧ SourceAt look (inUse values config) name source
  data : ∃ table, TableAt look Json.toValues? (values.lookup .data) table ∧
    inputs.data = table.getD []
  strings : ∃ table, TableAt look Json.toTexts? (values.lookup .strings) table ∧
    inputs.strings = table.getD []
  form : TableAt look Json.toTexts? (values.lookup .form) inputs.form

/-- The files are all in order, and so is the template, which renders to the output. -/
def Renders (look : String → Except FileFault String) (name : String) (values : Values)
    (output : String) : Prop :=
  ∃ source inputs t, Prepared look name values source inputs ∧
    Template.compile source name = .ok t ∧ t.render inputs = .ok output

def Fails (source name : String) (inputs : Inputs) (e : TemplateError) : Prop :=
  Template.compile source name = .error e ∨
    ∃ t, Template.compile source name = .ok t ∧ t.render inputs = .error e

/-- An error of a source has a place in it, and so a report. -/
theorem Fails.located {source name : String} {inputs : Inputs} {e : TemplateError}
    (h : Fails source name inputs e) : ∃ offset, e.offset? = some offset ∧
      e.template? = some name ∧ ∃ r, report? e source = some r := by
  have hscan := tagScan_pieces 0 source.toList
  have hmarks : ∃ tag, e.Marks source name tag := by
    rcases h with he | ⟨t, hc, he⟩
    · cases hs : Template.ofSource source.toList with
      | ok roots => simp [Template.compile, hs] at he
      | error f =>
        obtain rfl : f.toError source.toList name = e := by simpa [Template.compile, hs] using he
        obtain ⟨tag, ht, ho⟩ := (Template.ofSource_error_iff.mp hs).exists_tag
        exact ⟨tag, hscan.marks ht rfl (congrArg some ho.symm)⟩
    · obtain ⟨rfl, -, hs⟩ := Template.compile_eq_ok_iff.mp hc
      obtain ⟨before, v, after, f, hvs, -, hf, rfl⟩ := Template.exists_visit_of_failure he
      have hpart := Template.part_mem_of_mem_visits (show v ∈ t.visits inputs by simp [hvs])
      obtain ⟨_, ⟨tag, ht, ho, -⟩, -⟩ := Template.exists_tag_of_failure hs hpart hf
      exact ⟨tag, hscan.marks ht rfl (congrArg some ho.symm)⟩
  obtain ⟨tag, hm⟩ := hmarks
  obtain ⟨before, after, snippet, -, -, hr, -⟩ := hm.label
  exact ⟨tag.offset, hm.offset, hm.template, _, hr⟩

def Breaks (look : String → Except FileFault String) (name : String) (values : Values)
    (source : String) (e : TemplateError) : Prop :=
  ∃ inputs, Prepared look name values source inputs ∧ Fails source name inputs e

end CommandLine

section

variable {σ ε α β : Type} {s s' : σ} {a : α}

theorem bind_eq {x : StateM σ α} (h : x s = (a, s')) (f : α → StateM σ β) :
    (x >>= f) s = f a s' := by
  have hb : (x >>= f) s = f (x s).1 (x s).2 := rfl
  rw [hb, h]

theorem lift_eq {x : StateM σ α} (h : x s = (a, s')) :
    (ExceptT.lift x : ExceptT ε (StateM σ) α) s = (.ok a, s') := by
  have hl : (ExceptT.lift x : ExceptT ε (StateM σ) α) s = (.ok (x s).1, (x s).2) := rfl
  rw [hl, h]

end

/-- An action that changes nothing, by the answers it gives. Some of its complaints are known
as well. -/
def Decides {σ α : Type} (x : ExceptT Complaint (StateM σ) α) (s : σ) (P : α → Prop)
    (F : Complaint → Prop) : Prop :=
  ∃ r, x s = (r, s) ∧ (∀ a, r = .ok a ↔ P a) ∧ ∀ e, F e → r = .error e

namespace Decides

variable {σ α β : Type} {x : ExceptT Complaint (StateM σ) α}
  {f : α → ExceptT Complaint (StateM σ) β} {s : σ} {P P' : α → Prop} {F F' : Complaint → Prop}
  {Q : α → β → Prop} {G : α → Complaint → Prop}

theorem pure (a : α) : Decides (Pure.pure a : ExceptT Complaint (StateM σ) α) s (· = a) fun _ => False :=
  ⟨.ok a, rfl, fun b => by simp [eq_comm], nofun⟩

theorem throw (e : Complaint) : Decides (MonadExcept.throw e : ExceptT Complaint (StateM σ) α) s
    (fun _ => False) (· = e) :=
  ⟨.error e, rfl, by simp, by simp⟩

theorem lift {x : StateM σ α} (h : (x s).2 = s) :
    Decides (ExceptT.lift x : ExceptT Complaint (StateM σ) α) s (· = (x s).1) fun _ => False := by
  have hx : x s = ((x s).1, s) := Prod.ext rfl h
  exact ⟨.ok (x s).1, lift_eq hx, fun b => by simp [eq_comm], nofun⟩

theorem congr (h : Decides x s P F) (hP : ∀ a, P' a ↔ P a) (hF : ∀ e, F' e → F e) :
    Decides x s P' F' := by
  obtain ⟨r, hx, hr, he⟩ := h
  exact ⟨r, hx, fun a => (hr a).trans (hP a).symm, fun e h => he e (hF e h)⟩

theorem bind (hx : Decides x s P F) (hf : ∀ a, P a → Decides (f a) s (Q a) (G a)) :
    Decides (x >>= f) s (fun b => ∃ a, P a ∧ Q a b) fun e => F e ∨ ∃ a, P a ∧ G a e := by
  obtain ⟨r, hx, hr, he⟩ := hx
  cases r with
  | error e =>
    have hno : ∀ a, ¬ P a := fun a ha => nomatch (hr a).mpr ha
    refine ⟨.error e, by rw [bind_apply, hx], fun b => ?_, fun e' h => ?_⟩
    · simp [hno]
    · rcases h with h | ⟨a, ha, -⟩
      · exact congrArg _ (Except.error.inj (he e' h))
      · exact absurd ha (hno a)
  | ok a =>
    have ha : P a := (hr a).mp rfl
    have honly : ∀ b, P b → b = a := fun b hb => (Except.ok.inj ((hr b).mpr hb)).symm
    obtain ⟨r, hfa, hr', he'⟩ := hf a ha
    refine ⟨r, by rw [bind_apply, hx]; exact hfa, fun b => ?_, fun e h => ?_⟩
    · constructor
      · intro hb
        exact ⟨a, ha, (hr' b).mp hb⟩
      · rintro ⟨a', ha', hb⟩
        obtain rfl := honly a' ha'
        exact (hr' b).mpr hb
    · rcases h with h | ⟨a', ha', h⟩
      · exact nomatch he e h
      · obtain rfl := honly a' ha'
        exact he' e h

end Decides

namespace FileAccess.Lawful

variable {σ : Type} {files : FileAccess (StateM σ)}

theorem read_bind (h : files.Lawful) (path : String) {β : Type}
    (k : Except FileFault String → StateM σ β) (s : σ) :
    (files.read path >>= k) s = k (files.look s path) s := by
  have hr : files.read path s = (files.look s path, s) := Prod.ext rfl (h.read path s)
  exact bind_eq hr k

theorem load_settings (h : files.Lawful) (s : σ) (path : String) :
    ∃ r, Settings.load files path s = (r, s) ∧
      ∀ g, r = .ok g ↔ ∃ text, files.look s path = .ok text ∧ Settings.read text = .ok g := by
  rw [Settings.load, h.read_bind]
  cases hl : files.look s path with
  | error fault => exact ⟨_, rfl, by simp⟩
  | ok text =>
    refine ⟨_, rfl, fun g => ?_⟩
    cases hr : Settings.read text <;> simp [Except.mapError, hr]

theorem load_source (h : files.Lawful) (folder : Folder) (s : σ) (name : String) :
    ∃ r, folder.load files name s = (r, s) ∧ ∀ source, r = .ok source ↔
      ∃ path, folder.path? name = some path ∧ files.look s path = .ok source := by
  unfold Folder.load
  cases hp : folder.path? name with
  | none => exact ⟨_, rfl, by simp⟩
  | some path =>
    refine ⟨Folder.answer name (files.look s path), h.read_bind path _ s, fun source => ?_⟩
    cases hl : files.look s path with
    | ok text => simp [Folder.answer, hl]
    | error fault => cases fault <;> simp [Folder.answer, hl]

end FileAccess.Lawful

namespace CommandLine

variable {σ : Type} {files : FileAccess (StateM σ)} {name : String} {values : Values}

theorem settings_decides (h : files.Lawful) (s : σ) : Decides (settings files values) s
    (fun g => ∃ config, ConfigAt (files.look s) (values.lookup .config) config ∧
      g = inUse values config) fun _ => False := by
  have hnext : ∀ config, Decides (do
      let s ← (pure config : ExceptT Complaint (StateM σ) Settings)
      pure (inUse values s)) s (· = inUse values config) fun _ => False := fun config =>
    ((Decides.pure config).bind fun c _ => .pure (inUse values c)).congr
      (fun g => by simp) (fun _ he => he.elim)
  unfold settings
  cases hc : values.lookup .config with
  | none => exact (hnext .default).congr (fun g => by simp [ConfigAt]) fun _ he => he
  | some path =>
    obtain ⟨r, hr, hiff⟩ := h.load_settings s path
    have hlift := Decides.lift (x := Settings.load files path) (s := s) (by rw [hr])
    refine (hlift.bind (Q := fun r g => ∃ config, r = .ok config ∧ g = inUse values config)
      (G := fun _ _ => False) fun a _ => ?_).congr (fun g => ?_) (fun _ he => he.elim)
    · cases a with
      | ok config => exact (hnext config).congr (fun g => by simp) fun _ he => he
      | error e =>
        exact ((Decides.throw _).bind (Q := fun _ _ => False) (G := fun _ _ => False)
          (fun _ he => he.elim)).congr (fun g => by simp) (fun _ he => he.elim)
    · simp only [hr, exists_eq_left, hiff, ConfigAt]

theorem table_decides {α : Type} (h : files.Lawful) (s : σ) (option : Switch) (what : String)
    (decode : Json → Option α) : Decides (table? files values option what decode) s
      (TableAt (files.look s) decode (values.lookup option)) fun _ => False := by
  unfold table?
  cases hc : values.lookup option with
  | none => exact (Decides.pure none).congr (fun a => Iff.rfl) nofun
  | some path =>
    have hlift := Decides.lift (x := files.read path) (s := s) (h.read path s)
    refine (hlift.bind (Q := fun r table => ∃ text json a, r = .ok text ∧
      Json.read? text = some json ∧ decode json = some a ∧ table = some a)
      (G := fun _ _ => False) fun r _ => ?_).congr (fun a => ?_) nofun
    · cases r with
      | error fault => exact (Decides.throw _).congr (by simp) nofun
      | ok text =>
        dsimp only
        cases hj : (Json.read? text).bind decode with
        | none =>
          refine (Decides.throw _).congr (fun table => ?_) (fun _ he => he.elim)
          constructor
          · rintro ⟨_, json, a, ht, hjson, ha, -⟩
            obtain rfl := Except.ok.inj ht
            simp [hjson, ha] at hj
          · exact False.elim
        | some a =>
          refine (Decides.pure (some a)).congr (fun table => ?_) (fun _ he => he.elim)
          obtain ⟨json, hjson, ha⟩ := Option.bind_eq_some_iff.mp hj
          constructor
          · rintro ⟨_, json', a', ht, hjson', ha', rfl⟩
            obtain rfl := Except.ok.inj ht
            obtain rfl := Option.some.inj (hjson'.symm.trans hjson)
            exact ha'.symm.trans ha
          · rintro rfl
            exact ⟨text, json, a, rfl, hjson, ha, rfl⟩
    · simp only [exists_eq_left]
      exact Iff.rfl

theorem render_ofGlobals (load : Loader (StateM σ)) (globals : Entries Value) (name : String)
    (request : Request) (s : σ) : ∃ c, (Catalog.ofGlobals globals).render load name request s =
      ((((load name s).1.bind (Template.compile · name)).bind
        (·.render ⟨request.strings, request.data, some globals, request.form⟩), c),
        (load name s).2) := by
  have hr : (Catalog.ofGlobals globals).render load name request s =
      ((((Catalog.ofGlobals globals).store name (load name s).1).1.bind fun h =>
        h.template.render
          (((Catalog.ofGlobals globals).store name (load name s).1).2.inputs request),
        ((Catalog.ofGlobals globals).store name (load name s).1).2), (load name s).2) := rfl
  refine ⟨_, hr.trans (congrArg (fun r => ((r, _), _)) ?_)⟩
  unfold Catalog.store
  cases (load name s).1.bind (Template.compile · name) <;> rfl

/-- The report reloads the source by the name in the error. -/
theorem report_reloads (h : files.Lawful) (g : Settings) (e : TemplateError) (s : σ) :
    ∃ r, report (g.toFolder.load files) e s = (r, s) ∧ ∀ offset n source,
      e.offset? = some offset → e.template? = some n → SourceAt (files.look s) g n source →
      r = report? e source := by
  cases ho : e.offset? with
  | none => exact ⟨none, by simp only [report, ho]; rfl, nofun⟩
  | some offset =>
    cases ht : e.template? with
    | none => exact ⟨none, by simp only [report, ho, ht]; rfl, nofun⟩
    | some n =>
      obtain ⟨r, hr, hiff⟩ := h.load_source g.toFolder s n
      cases r with
      | error e' =>
        refine ⟨none, ?_, fun _ n' source _ hn hs => ?_⟩
        · simp only [report, ho, ht]
          exact bind_eq hr _
        · obtain rfl := Option.some.inj hn
          exact nomatch (hiff source).mpr hs
      | ok loaded =>
        refine ⟨report? e loaded, ?_, fun _ n' source _ hn hs => ?_⟩
        · simp only [report, ho, ht]
          exact bind_eq hr _
        · obtain rfl := Option.some.inj hn
          rw [Except.ok.inj ((hiff source).mpr hs)]

theorem render_answers (h : files.Lawful) (g : Settings) (name : String) (request : Request)
    (s : σ) : ∃ result c,
    (Catalog.ofGlobals g.globals).render (g.toFolder.load files) name request s =
      ((result, c), s) ∧
    (∀ output, result = .ok output ↔ ∃ source t, SourceAt (files.look s) g name source ∧
      Template.compile source name = .ok t ∧
      t.render ⟨request.strings, request.data, some g.globals, request.form⟩ = .ok output) ∧
    ∀ source e, SourceAt (files.look s) g name source →
      Fails source name ⟨request.strings, request.data, some g.globals, request.form⟩ e →
      result = .error e := by
  obtain ⟨loaded, hload, hiff⟩ := h.load_source g.toFolder s name
  obtain ⟨c, hc⟩ := render_ofGlobals (g.toFolder.load files) g.globals name request s
  rw [hload] at hc
  refine ⟨_, c, hc, fun output => ?_, fun source e hs he => ?_⟩
  · constructor
    · intro hr
      cases loaded with
      | error e => cases hr
      | ok source =>
        have hs : SourceAt (files.look s) g name source := (hiff source).mp rfl
        cases ht : Template.compile source name with
        | error e => simp [Except.bind, ht] at hr
        | ok t => exact ⟨source, t, hs, ht, by simpa [Except.bind, ht] using hr⟩
    · rintro ⟨source, t, hs, ht, hr⟩
      rw [(hiff source).mpr hs]
      simpa [Except.bind, ht] using hr
  · rw [(hiff source).mpr hs]
    rcases he with he | ⟨t, ht, he⟩
    · simp [Except.bind, he]
    · simp [Except.bind, ht, he]

/-- The answer of the library, and the complaint about a source that is to blame. -/
theorem answer_decides (h : files.Lawful) (g : Settings) (name : String) (request : Request)
    (s : σ) :
    Decides (do
      let load := g.toFolder.load files
      let (result, _) ← ExceptT.lift ((Catalog.ofGlobals g.globals).render load name request)
      match result with
      | .ok output => return output
      | .error e => throw (.rendering e (← ExceptT.lift (report load e))) :
        ExceptT Complaint (StateM σ) String) s
      (fun output => ∃ source t, SourceAt (files.look s) g name source ∧
        Template.compile source name = .ok t ∧
        t.render ⟨request.strings, request.data, some g.globals, request.form⟩ = .ok output)
      fun complaint => ∃ source e, SourceAt (files.look s) g name source ∧
        Fails source name ⟨request.strings, request.data, some g.globals, request.form⟩ e ∧
        complaint = .rendering e (report? e source) := by
  obtain ⟨result, c, hc, hiff, hfail⟩ := render_answers h g name request s
  have hlift := Decides.lift (s := s)
    (x := (Catalog.ofGlobals g.globals).render (g.toFolder.load files) name request) (by rw [hc])
  refine (hlift.bind (Q := fun p output => p.1 = .ok output) (G := fun p complaint => ∃ e r,
    p.1 = .error e ∧ report (g.toFolder.load files) e s = (r, s) ∧
      complaint = .rendering e r) fun p _ => ?_).congr (fun output => ?_) fun complaint hf => ?_
  · obtain ⟨result, c⟩ := p
    cases result with
    | ok output =>
      exact (Decides.pure output).congr (fun b => by simp [eq_comm]) (by simp)
    | error e =>
      obtain ⟨r, hr, -⟩ := report_reloads h g e s
      have hreport := Decides.lift (s := s)
        (x := report (g.toFolder.load files) e) (by rw [hr])
      refine (hreport.bind (Q := fun _ _ => False) (G := fun r complaint =>
        complaint = .rendering e r) fun r _ => .throw (Complaint.rendering e r)).congr
          (fun b => by simp) ?_
      rintro _ ⟨e', r', he, hr', rfl⟩
      obtain rfl := Except.error.inj he
      exact .inr ⟨r', by rw [hr'], rfl⟩
  · simp only [hc, exists_eq_left]
    exact (hiff output).symm
  · obtain ⟨source, e, hs, he, rfl⟩ := hf
    obtain ⟨r, hr, hreport⟩ := report_reloads h g e s
    obtain ⟨offset, ho, hn, -⟩ := Fails.located he
    rw [hreport offset name source ho hn hs] at hr
    exact .inr ⟨_, rfl, e, _, by rw [hc, hfail source e hs he], hr, rfl⟩

theorem Prepared.exists_tables {look : String → Except FileFault String} {source : String}
    {inputs : Inputs} (h : Prepared look name values source inputs) :
    ∃ config data strings form, ConfigAt look (values.lookup .config) config ∧
      TableAt look Json.toValues? (values.lookup .data) data ∧
      TableAt look Json.toTexts? (values.lookup .strings) strings ∧
      TableAt look Json.toTexts? (values.lookup .form) form ∧
      SourceAt look (inUse values config) name source ∧
      inputs = ⟨strings.getD [], data.getD [], some config.globals, form⟩ := by
  obtain ⟨⟨config, hconfig, hglobals, hsource⟩, ⟨data, hdata, hd⟩, ⟨strings, hstrings, hs⟩,
    hform⟩ := h
  obtain ⟨_, _, _, form⟩ := inputs
  subst hglobals hd hs
  exact ⟨config, data, strings, form, hconfig, hdata, hstrings, hform, hsource, rfl⟩

theorem rendering_decides (h : files.Lawful) (name : String) (values : Values) (s : σ) :
    Decides (rendering files name values) s (Renders (files.look s) name values)
      fun complaint => ∃ source e, Breaks (files.look s) name values source e ∧
        complaint = .rendering e (report? e source) := by
  refine ((settings_decides h s).bind fun g _ =>
    (table_decides h s .data "data" Json.toValues?).bind fun data _ =>
    (table_decides h s .strings "strings" Json.toTexts?).bind fun strings _ =>
    (table_decides h s .form "form" Json.toTexts?).bind fun form _ =>
    answer_decides h g name ⟨strings.getD [], data.getD [], form⟩ s).congr
      (fun output => ?_) fun complaint hf => ?_
  · constructor
    · rintro ⟨source, inputs, t, hp, hc, hr⟩
      obtain ⟨config, data, strings, form, hconfig, hdata, hstrings, hform, hsource, rfl⟩ :=
        hp.exists_tables
      exact ⟨_, ⟨config, hconfig, rfl⟩, data, hdata, strings, hstrings, form, hform, source, t,
        hsource, hc, hr⟩
    · rintro ⟨_, ⟨config, hconfig, rfl⟩, data, hdata, strings, hstrings, form, hform, source, t,
        hsource, hc, hr⟩
      exact ⟨source, _, t, ⟨⟨config, hconfig, rfl, hsource⟩, ⟨data, hdata, rfl⟩,
        ⟨strings, hstrings, rfl⟩, hform⟩, hc, hr⟩
  · obtain ⟨source, e, ⟨inputs, hp, he⟩, rfl⟩ := hf
    obtain ⟨config, data, strings, form, hconfig, hdata, hstrings, hform, hsource, rfl⟩ :=
      hp.exists_tables
    exact .inr ⟨_, ⟨config, hconfig, rfl⟩, .inr ⟨data, hdata, .inr ⟨strings, hstrings,
      .inr ⟨form, hform, source, e, hsource, he, rfl⟩⟩⟩⟩

/-- Where the output of a run has gone: to the file that is named, or else to standard output,
and never to both. -/
def Delivered (files : FileAccess (StateM σ)) (values : Values) (output : String) (s : σ)
    (stdout : String) (s' : σ) : Prop :=
  match values.lookup .output with
  | none => stdout = output ∧ s' = s
  | some path => stdout = "" ∧ files.write path output s = (.ok (), s') ∧
      (s' = s ∨ files.look s' path = .ok output)

theorem run_render {arguments : List String} (ha : Invocation.ofArguments? arguments =
    some (.render name values)) {r : Except Complaint String} {s s' : σ}
    (h : render files name values s = (r, s')) : run files arguments s =
      (match r with
      | .ok output => ⟨0, output, ""⟩
      | .error complaint => ⟨1, "", complaint.message⟩, s') := by
  simp only [run, ha]
  refine (bind_eq (x := (render files name values).run) h _).trans ?_
  cases r <;> rfl

/-- A run either complains and has changed nothing, or delivers what the template renders. -/
theorem run_cases (h : files.Lawful) {arguments : List String}
    (ha : Invocation.ofArguments? arguments = some (.render name values)) (s : σ) :
    (∃ complaint : Complaint, run files arguments s = (⟨1, "", complaint.message⟩, s) ∧
      (∀ output stdout s', Renders (files.look s) name values output →
        ¬ Delivered files values output s stdout s') ∧
      ∀ source e, Breaks (files.look s) name values source e →
        complaint = .rendering e (report? e source)) ∨
    ∃ output stdout s', run files arguments s = (⟨0, stdout, ""⟩, s') ∧
      Renders (files.look s) name values output ∧ Delivered files values output s stdout s' ∧
      ∀ source e, ¬ Breaks (files.look s) name values source e := by
  obtain ⟨r, hr, hiff, hfail⟩ := rendering_decides h name values s
  have hbreaks : ∀ source e, Breaks (files.look s) name values source e →
      r = .error (.rendering e (report? e source)) :=
    fun source e hb => hfail _ ⟨source, e, hb, rfl⟩
  cases r with
  | error complaint =>
    have hrender : render files name values s = (.error complaint, s) := by
      rw [render, bind_apply, hr]
    refine .inl ⟨complaint, run_render ha hrender, fun output _ _ ho => ?_, fun source e hb => ?_⟩
    · exact nomatch (hiff output).mpr ho
    · exact Except.error.inj (hbreaks source e hb)
  | ok output =>
    have hnone : ∀ source e, ¬ Breaks (files.look s) name values source e :=
      fun source e hb => nomatch hbreaks source e hb
    have houtput := (hiff output).mp rfl
    cases hp : values.lookup .output with
    | none =>
      have hrender : render files name values s = (.ok output, s) := by
        rw [render, bind_apply, hr]
        simp only [hp]
        rfl
      exact .inr ⟨output, output, s, run_render ha hrender, houtput, by simp [Delivered, hp], hnone⟩
    | some path =>
      rcases hw : files.write path output s with ⟨written, s'⟩
      have hrender : render files name values s = (match written with
          | .ok () => .ok ""
          | .error fault => .error (.unwritten path fault), s') := by
        rw [render, bind_apply, hr]
        simp only [hp]
        rw [bind_apply, lift_eq hw]
        cases written <;> rfl
      have hrun := run_render ha hrender
      cases written with
      | ok u =>
        have hkept := h.kept path output s s' hw
        exact .inr ⟨output, "", s', hrun, houtput, by simp [Delivered, hp, hw, hkept], hnone⟩
      | error fault =>
        -- The write has not happened, and no other output could be written instead.
        obtain rfl : s' = s := by
          have hs := h.write path output s fault
          rw [hw] at hs
          exact hs rfl
        refine .inl ⟨_, hrun, fun output' stdout s'' ho hd => ?_, fun source e hb => ?_⟩
        · obtain rfl := Except.ok.inj ((hiff output').mpr ho)
          simp only [Delivered, hp, hw] at hd
          cases hd.2.1
        · exact absurd hb (hnone source e)

end CommandLine

/-- A run that does not ask for help is all or nothing. If it fails, standard output is empty
and every file is as it was; it succeeds just when settings, tables, source and template are
in order and the output of the render has gone to the file that is named, or to standard
output if none is. An error of the template is reported with its annotated source. -/
theorem run_is_all_or_nothing {σ : Type} {files : FileAccess (StateM σ)} (h : files.Lawful)
    {arguments : List String} (hhelp : Invocation.ofArguments? arguments ≠ some .help) (s : σ) :
    ∃ outcome s', CommandLine.run files arguments s = (outcome, s') ∧
      (outcome.exitCode ≠ 0 → outcome.stdout = "" ∧ s' = s) ∧
      (outcome.exitCode = 0 ↔ ∃ name values output,
        Invocation.ofArguments? arguments = some (.render name values) ∧
        CommandLine.Renders (files.look s) name values output ∧
        CommandLine.Delivered files values output s outcome.stdout s') ∧
      ∀ name values source e, Invocation.ofArguments? arguments = some (.render name values) →
        CommandLine.Breaks (files.look s) name values source e →
        outcome.exitCode = 1 ∧ ∃ report, report? e source = some report ∧
          outcome.stderr = report := by
  cases ha : Invocation.ofArguments? arguments with
  | none =>
    have hrun : CommandLine.run files arguments s = (⟨2, "", usage⟩, s) := by
      simp only [CommandLine.run, ha]
      rfl
    exact ⟨_, s, hrun, by simp, by simp, by simp⟩
  | some invocation =>
    cases invocation with
    | help => exact absurd ha hhelp
    | render name values =>
      rcases CommandLine.run_cases h ha s with
        ⟨complaint, hrun, hnone, hbreaks⟩ | ⟨output, stdout, s', hrun, ho, hd, hnone⟩
      · refine ⟨_, s, hrun, by simp, ?_, ?_⟩
        · refine ⟨nofun, ?_⟩
          rintro ⟨_, _, output, hi, ho, hd⟩
          obtain ⟨rfl, rfl⟩ := by simpa using hi
          exact absurd hd (hnone output _ _ ho)
        · intro _ _ source e hi hb
          obtain ⟨rfl, rfl⟩ := by simpa using hi
          have hcomplaint := hbreaks source e hb
          obtain ⟨inputs, -, hf⟩ := hb
          obtain ⟨_, -, -, report, hreport⟩ := hf.located
          refine ⟨rfl, report, hreport, ?_⟩
          rw [hcomplaint, hreport]
          rfl
      · refine ⟨_, s', hrun, by simp, ?_, ?_⟩
        · exact ⟨fun _ => ⟨name, values, output, rfl, ho, hd⟩, fun _ => rfl⟩
        · intro _ _ source e hi hb
          obtain ⟨rfl, rfl⟩ := by simpa using hi
          exact absurd hb (hnone source e)

theorem run_is_all_or_nothing_into_file :
    let files : FileSystem := ⟨.directory [("site", .directory [("views", .directory
      [("page.htm", .file "Hi".toUTF8), ("bad.htm", .file "é{%?gone}".toUTF8)])])], ["site"]⟩
    let values : CommandLine.Values := [(.folder, "views"), (.extension, "htm"), (.output, "out")]
    (∃ files', CommandLine.run FileSystem.access
        ["page", "-d", "views", "-e", "htm", "-o", "out"] files = (⟨0, "", ""⟩, files') ∧
      CommandLine.Renders (FileSystem.access.look files) "page" values "Hi" ∧
      files'.read "out" = .ok "Hi") ∧
    ∃ report, report? (.evaluation "bad" 2 (.variableNotFound "gone")) "é{%?gone}" = some report ∧
      CommandLine.run FileSystem.access
        ["bad", "-d", "views", "-e", "htm", "-o", "out"] files = (⟨1, "", report⟩, files) := by
  intro files values
  refine ⟨?_, ?_⟩
  · have hi : Invocation.ofArguments? ["page", "-d", "views", "-e", "htm", "-o", "out"] =
        some (.render "page" values) := by decide +kernel
    obtain ⟨outcome, files', hrun, -, hiff, -⟩ :=
      run_is_all_or_nothing FileSystem.access_lawful (hi.trans_ne nofun) files
    have houtcome : (CommandLine.run FileSystem.access
        ["page", "-d", "views", "-e", "htm", "-o", "out"] files).1 = ⟨0, "", ""⟩ := by
      decide +kernel
    have hread : (CommandLine.run FileSystem.access
        ["page", "-d", "views", "-e", "htm", "-o", "out"] files).2.read "out" = .ok "Hi" := by
      decide +kernel
    rw [hrun] at houtcome hread
    obtain rfl : outcome = ⟨0, "", ""⟩ := houtcome
    obtain ⟨_, _, output, hi', hrenders, hdelivered⟩ := hiff.mp rfl
    obtain ⟨rfl, rfl⟩ := by simpa [hi] using hi'
    obtain ⟨-, -, rfl | hkept⟩ := hdelivered
    · exact absurd hread (by decide +kernel)
    · obtain rfl := Except.ok.inj (hkept.symm.trans hread)
      exact ⟨files', hrun, hrenders, hread⟩
  · have hi : Invocation.ofArguments? ["bad", "-d", "views", "-e", "htm", "-o", "out"] =
        some (.render "bad" values) := by decide +kernel
    obtain ⟨outcome, files', hrun, hfail, -, hbreaks⟩ :=
      run_is_all_or_nothing FileSystem.access_lawful (hi.trans_ne nofun) files
    have hprepared : CommandLine.Prepared (FileSystem.access.look files) "bad" values "é{%?gone}"
        ⟨[], [], some [], none⟩ := by
      refine ⟨⟨.default, rfl, rfl, "views/bad.htm", ?_, ?_⟩, ⟨none, rfl, rfl⟩, ⟨none, rfl, rfl⟩, rfl⟩
      · decide +kernel
      · rfl
    have hcompile : Template.compile "é{%?gone}" "bad" = .ok ⟨"bad", "é{%?gone}",
      [.text ⟨0, ⟨0, 2⟩⟩ "é", .fetch ⟨1, ⟨2, 10⟩⟩ "gone"]⟩ := by cbv
    have hfails : CommandLine.Fails "é{%?gone}" "bad" ⟨[], [], some [], none⟩
        (.evaluation "bad" 2 (.variableNotFound "gone")) :=
      .inr ⟨_, hcompile, by decide +kernel⟩
    obtain ⟨hexit, report, hreport, herr⟩ := hbreaks _ _ _ _ hi ⟨_, hprepared, hfails⟩
    obtain ⟨hout, rfl⟩ := hfail (by simp [hexit])
    obtain ⟨exitCode, stdout, stderr⟩ := outcome
    subst hexit hout herr
    exact ⟨stderr, hreport, hrun⟩

end TagTemplate
