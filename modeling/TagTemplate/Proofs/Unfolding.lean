import TagTemplate.Proofs.Forest
import TagTemplate.Proofs.Growth

/-! Following the numbers of a table down from its roots, and the trees of nodes whose
rows give a forest of constructs back. -/

namespace TagTemplate

def Template.content? (t : Template) (id : Nat) : Option Content :=
  t.table[id]?.map Row.content

theorem Template.content?_of_mem {t : Template} {source : List Char}
    (h : ofSource source = .ok t.roots) {q : Part} (hq : q ∈ t.parts) :
    t.content? q.id = some q.content := by
  rw [content?, getElem?_table (numbered h).1, part?_of_mem (nodup_parts h) hq]
  rfl

namespace Construct

mutual

/-- The rows under a number are those of a construct. -/
def IsAt (content : Nat → Option Content) (id : Nat) : Construct → Prop
  | text run => content id = some (.text (String.ofList run.chars))
  | fetch _ reference => content id = some (.fetch (String.ofList reference.chars))
  | localeText margins key =>
    content id = some (.localeText (String.ofList key.chars)
      (String.ofList (margins.tag ('!' :: key.chars) [])))
  | field _ args => content id = some (.field (texts args))
  | conditional _ args body later _ =>
    (later = [] → ∃ ids, content id = some (.conditional (texts args) false ids) ∧
      AllAt content ids body) ∧
    (later ≠ [] → ∃ first others ids,
      content id = some (.conditional (texts args) true (first :: others)) ∧
      content first = some (.elseIf (texts args) ids) ∧ AllAt content ids body ∧
      LaterAt content others later)
  | loop _ args body _ =>
    ∃ ids, content id = some (.loop (texts args) ids) ∧ AllAt content ids body

def AllAt (content : Nat → Option Content) (ids : List Nat) : List Construct → Prop
  | [] => ids = []
  | c :: cs => ∃ i is, ids = i :: is ∧ c.IsAt content i ∧ AllAt content is cs

def LaterAt (content : Nat → Option Content) (ids : List Nat) :
    List (Alternative Construct) → Prop
  | [] => ids = []
  | a :: as => ∃ i is, ids = i :: is ∧ AlternativeAt content i a ∧ LaterAt content is as

def AlternativeAt (content : Nat → Option Content) (id : Nat) : Alternative Construct → Prop
  | ⟨_, some args, body⟩ =>
    ∃ ids, content id = some (.elseIf (texts args) ids) ∧ AllAt content ids body
  | ⟨_, none, body⟩ => ∃ ids, content id = some (.otherwise ids) ∧ AllAt content ids body

end

/-- What is looked up under the numbers of some parts is what they hold. -/
def Agrees (content : Nat → Option Content) (ps : List Part) : Prop :=
  ∀ q ∈ ps, content q.id = some q.content

def Depicts (n : Node) (c : Construct) : Prop :=
  ∀ content, Agrees content n.parts → c.IsAt content n.site.id

def DepictAll (ns : List Node) (cs : List Construct) : Prop :=
  ∀ content, Agrees content (Node.partsAll ns) → AllAt content (Node.ids ns) cs

def DepictLater (bs : List (Branch Node)) (later : List (Alternative Construct)) : Prop :=
  ∀ content owner, Agrees content (Node.partsBranches owner bs) →
    LaterAt content (bs.map fun b => b.site.id) later

theorem DepictAll.nil : DepictAll [] [] :=
  fun _ _ => rfl

theorem DepictAll.cons {n : Node} {c : Construct} {ns : List Node} {cs : List Construct}
    (h : Depicts n c) (hs : DepictAll ns cs) : DepictAll (n :: ns) (c :: cs) :=
  fun content ha => ⟨_, _, rfl, h content fun q hq => ha q (List.mem_append_left _ hq),
    hs content fun q hq => ha q (List.mem_append_right _ hq)⟩

theorem DepictLater.nil : DepictLater [] [] :=
  fun _ _ _ => rfl

theorem DepictLater.cons {margins : Margins} {guard : Option (List Argument)}
    {body : List Construct} {ns : List Node} {bs : List (Branch Node)}
    {later : List (Alternative Construct)} (site : Site) (h : DepictAll ns body)
    (hs : DepictLater bs later) :
    DepictLater (⟨site, guard.map texts, ns⟩ :: bs) (⟨margins, guard, body⟩ :: later) := by
  intro content owner ha
  rw [Node.partsBranches_cons] at ha
  have hb := ha (.branch owner ⟨site, guard.map texts, ns⟩) (List.mem_cons_self ..)
  have hbody := h content fun q hq => ha q (by simp [hq])
  refine ⟨_, _, rfl, ?_, hs content owner fun q hq => ha q (by simp [hq])⟩
  cases guard with
  | none => exact ⟨_, hb, hbody⟩
  | some args => exact ⟨_, hb, hbody⟩

theorem depicts_loop {opening closing : Margins} {args : List Argument}
    {body : List Construct} {ns : List Node} (site : Site) (h : DepictAll ns body) :
    Depicts (.loop site (texts args) ns) (.loop opening args body closing) :=
  fun content ha => ⟨_, ha _ (List.mem_cons_self ..),
    h content fun q hq => ha q (List.mem_cons_of_mem _ hq)⟩

theorem depicts_plain {opening closing : Margins} {args : List Argument}
    {body : List Construct} {ns : List Node} (site : Site) (h : DepictAll ns body) :
    Depicts (.conditional site (texts args) ns) (.conditional opening args body [] closing) :=
  fun content ha => ⟨fun _ => ⟨_, ha _ (List.mem_cons_self ..),
    h content fun q hq => ha q (List.mem_cons_of_mem _ hq)⟩, fun hne => absurd rfl hne⟩

theorem depicts_branched {opening closing : Margins} {args : List Argument}
    {body : List Construct} {later : List (Alternative Construct)} {ns : List Node}
    {bs : List (Branch Node)} (site first : Site) (hne : later ≠ []) (h : DepictAll ns body)
    (hs : DepictLater bs later) :
    Depicts (.choice site (texts args) (⟨first, some (texts args), ns⟩ :: bs))
      (.conditional opening args body later closing) := by
  intro content ha
  refine ⟨fun he => absurd he hne, fun _ => ?_⟩
  have hc := ha _ (List.mem_cons_self ..)
  have hf : Agrees content (Node.partsBranches site.id (⟨first, some (texts args), ns⟩ :: bs)) :=
    fun q hq => ha q (List.mem_cons_of_mem _ hq)
  rw [Node.partsBranches_cons] at hf
  exact ⟨_, _, _, hc, hf _ (List.mem_cons_self ..), h content fun q hq => hf q (by simp [hq]),
    hs content site.id fun q hq => hf q (by simp [hq])⟩

end Construct

end TagTemplate
