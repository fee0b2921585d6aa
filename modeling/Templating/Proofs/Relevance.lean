import Templating.Proofs.Termination

/-!
# Relevance

What a template is resolved to depends only on the texts that it leads to. Two resolutions that find the
same under all names of a set that is closed under references take the same course from the same cache:
by induction on the course, whatever is held on it needs only names of the set, so that both look up the
same ones. How many sources are asked for a name, and which of them answers, is up to each registry.
-/

namespace Templating

open Resolve Drafts

/-! ### What a search finds -/

namespace Registry

variable (registry : Registry)

/-- The text that a search finds, or why it finds none. -/
def text (name : String) : Except Error String := (registry.find name none).found.map Prod.snd

/-- The questions that a search puts to the sources. -/
def questions (name : String) : List Read := (registry.find name none).asked.map (⟨·, name, true⟩)

/-- The sources that are searched, as if they were one. -/
def asOne : Source where
  read name _ := registry.text name
  texts := registry.texts
  mem_texts h := by
    unfold text at h
    rcases hfound : (registry.find _ none).found with e | ⟨key, text⟩
    · rw [hfound] at h
      cases h
    · rw [hfound] at h
      obtain rfl := Except.ok.inj h
      exact mem_texts_of_find hfound

variable {registry} {other : Registry} {name : String}

theorem drafts_eq_match_text (registry : Registry) (name : String) :
    registry.drafts name =
      match registry.text name with
      | .error e => .error e
      | .ok text =>
        match parse text with
        | .ok nodes => .ok (Document.ofNodes name nodes)
        | .error problem => .error (.parse name text [problem]) := by
  unfold drafts draft text
  rcases (registry.find name none).found with e | found <;> rfl

theorem drafts_eq_of_text_eq (h : registry.text name = other.text name) :
    registry.drafts name = other.drafts name := by
  rw [drafts_eq_match_text, drafts_eq_match_text, h]

theorem text_error {e : Error} (h : registry.text name = .error e) :
    (∃ why, e = .illegalAccess why) ∨ e = .noTemplateExists name := by
  unfold text at h
  rcases hfound : (registry.find name none).found with e' | found
  · rw [hfound] at h
    obtain rfl : e' = e := Except.error.inj h
    exact find_error hfound
  · rw [hfound] at h
    cases h

theorem text_single_asOne (registry : Registry) (name : String) :
    (single registry.asOne).text name = registry.text name := by
  have hsearch : (single registry.asOne).text name =
      (searchAmong name [("default", registry.asOne)]).found.map Prod.snd := rfl
  rw [hsearch]
  unfold searchAmong
  cases htext : registry.text name with
  | ok text =>
    have hread : Readable.read registry.asOne name true = .ok text := htext
    rw [hread]
    rfl
  | error e =>
    have hread : Readable.read registry.asOne name true = .error e := htext
    rw [hread]
    rcases text_error htext with ⟨why, rfl⟩ | rfl <;> rfl

theorem questions_single (source : Source) (name : String) :
    (single source).questions name = [⟨"default", name, true⟩] := by
  have hsearch : (single source).questions name =
      (searchAmong name [("default", source)]).asked.map (⟨·, name, true⟩) := rfl
  rw [hsearch]
  unfold searchAmong
  split <;> rfl

end Registry

namespace Surroundings

/-- Both find the same under each name of a set that is closed under references. -/
structure AgreeOn (reach : Set String) (world other : Surroundings) : Prop where
  missing : world.missing = other.missing
  text : ∀ name ∈ reach, world.registry.text name = other.registry.text name
  closed : ∀ name ∈ reach, ∀ n, Refers world.registry.drafts name n → n ∈ reach

end Surroundings

/-! ### Two runs -/

/-- A document needs only names of a set. -/
structure Document.StaysIn (reach : Set String) (d : Document) : Prop where
  isExact : d.IsExact
  unresolved : ∀ name ∈ d.unresolved, name ∈ reach

/-- Two runs have the same cache, and have looked up the same names. -/
structure Progress.Beside (reach : Set String) (world other : Surroundings) (p q : Progress) : Prop where
  cache : q.cache = p.cache
  held : ∀ name d, p.cache.held name = some d → d.StaysIn reach
  reads : ∃ names : List String, (∀ name ∈ names, name ∈ reach) ∧
    p.reads = names.flatMap world.registry.questions ∧ q.reads = names.flatMap other.registry.questions

variable {reach : Set String} {d : Document}

theorem Document.StaysIn.rebuild (h : d.StaysIn reach) {atHand : Table Document}
    (hall : ∀ n e, Table.get? atHand n = some e → e.StaysIn reach) : (d.rebuild atHand).StaysIn reach where
  isExact := Document.isExact_rebuild d atHand
  unresolved name hname := by
    rcases Drafts.mem_unresolved_rebuild h.isExact hname with ⟨hneeded, -⟩ | ⟨m, e, hget, hneeded⟩
    · exact h.unresolved name hneeded
    · have he := hall m e hget
      exact he.unresolved name (he.isExact.unresolved_eq.symm ▸ hneeded)

variable {world other : Surroundings} {p q : Progress} {name : String}

theorem Progress.Beside.searched (h : p.Beside reach world other q) (hname : name ∈ reach) :
    (p.searched world.registry name none).Beside reach world other (q.searched other.registry name none) where
  cache := h.cache
  held := h.held
  reads := by
    obtain ⟨names, hnames, hp, hq⟩ := h.reads
    refine ⟨names ++ [name], fun n hn => ?_, ?_, ?_⟩
    · rcases List.mem_append.1 hn with hn | hn
      · exact hnames n hn
      · exact List.mem_singleton.1 hn ▸ hname
    · rw [List.flatMap_append, List.flatMap_singleton, ← hp]
      rfl
    · rw [List.flatMap_append, List.flatMap_singleton, ← hq]
      rfl

namespace Surroundings

theorem AgreeOn.staysIn (h : AgreeOn reach world other) (hname : name ∈ reach)
    (hd : world.registry.drafts name = .ok d) : d.StaysIn reach where
  isExact := world.registry.wellFormed_drafts.isExact hd
  unresolved n hn := h.closed name hname n ⟨d, hd, hn⟩

theorem lookUp_beside (hagree : AgreeOn reach world other) (hname : name ∈ reach)
    (hbeside : p.Beside reach world other q) {p' : Progress} {r : Except Error (Document × Bool)}
    (h : exec (world.lookUp name none) p = (r, p')) :
    ∃ q', exec (other.lookUp name none) q = (r, q') ∧ p'.Beside reach world other q' ∧
      ∀ found, r = .ok found → found.1.StaysIn reach := by
  cases hheld : p.cache.held name with
  | some d =>
    rw [exec_lookUp_of_held world hheld] at h
    cases h
    have hother : q.cache.held (cacheKey name none) = some d := hbeside.cache ▸ hheld
    refine ⟨q, exec_lookUp_of_held other hother, hbeside, fun found hfound => ?_⟩
    exact Except.ok.inj hfound ▸ hbeside.held name d hheld
  | none =>
    rw [exec_lookUp_of_not_held world hheld] at h
    cases h
    have hother : q.cache.held (cacheKey name none) = none := hbeside.cache ▸ hheld
    have hdraft : world.registry.draft none name = other.registry.draft none name :=
      Registry.drafts_eq_of_text_eq (hagree.text name hname)
    refine ⟨_, hdraft ▸ exec_lookUp_of_not_held other hother, hbeside.searched hname, ?_⟩
    intro found hfound
    cases hd : world.registry.draft none name with
    | error e => rw [hd] at hfound; cases hfound
    | ok d =>
      rw [hd] at hfound
      exact Except.ok.inj hfound ▸ hagree.staysIn hname hd

theorem supplied_eq (hagree : AgreeOn reach world other) (r : Except Error Document) :
    other.supplied r = world.supplied r := by
  unfold supplied
  rw [hagree.missing]

theorem finish_beside (hbeside : p.Beside reach world other q) {r : Except Error Document}
    (hr : ∀ d, r = .ok d → d.StaysIn reach) :
    (finish r q).1 = (finish r p).1 ∧ (finish r p).2.Beside reach world other (finish r q).2 ∧
      ∀ d, (finish r p).1 = .ok d → d.StaysIn reach := by
  cases r with
  | error e => exact ⟨rfl, hbeside, hr⟩
  | ok d =>
    rw [finish_ok, finish_ok]
    refine ⟨rfl, ⟨?_, fun name e he => ?_, hbeside.reads⟩, hr⟩
    · exact congrArg (Cache.stored · d) hbeside.cache
    · rw [Cache.held_stored] at he
      split at he
      · exact hr e (congrArg Except.ok (Option.some.inj he))
      · exact hbeside.held name e he

theorem staysIn_of_supply {found : Option Document} {rest : Table Document}
    (hfound : ∀ d, found = some d → d.StaysIn reach)
    (hrest : ∀ n e, Table.get? rest n = some e → e.StaysIn reach) {n : String} {e : Document}
    (h : Table.get? (supply name found rest) n = some e) : e.StaysIn reach := by
  cases found with
  | none => exact hrest n e h
  | some d =>
    unfold supply at h
    rw [Table.get?_insert] at h
    split at h
    · exact hfound e h
    · exact hrest n e h

theorem eq_ok_of_supplied {r : Except Error Document} (h : world.supplied r = .ok (some d)) : r = .ok d := by
  unfold supplied at h
  split at h
  · rw [Option.some.inj (Except.ok.inj h)]
  · split at h <;> cases h
  · cases h

/-! ### Along a course -/

mutual

theorem Fetches.beside (hagree : AgreeOn reach world other) {chain : List String} {name : String}
    {p p' q : Progress} {call : Call} {r : Except Error Document}
    (h : world.Fetches chain name none p call r p') (hname : name ∈ reach) (hbeside : p.Beside reach world other q) :
    ∃ q', other.Fetches chain name none q call r q' ∧ p'.Beside reach world other q' ∧
      ∀ d, r = .ok d → d.StaysIn reach := by
  cases h with
  | refused look =>
    obtain ⟨q', hlook, hnext, -⟩ := lookUp_beside hagree hname hbeside look
    exact ⟨q', .refused hlook, hnext, fun _ => nofun⟩
  | complete look =>
    obtain ⟨q', hlook, hnext, hfound⟩ := lookUp_beside hagree hname hbeside look
    exact ⟨q', .complete hlook, hnext, fun d hd => Except.ok.inj hd ▸ hfound _ rfl⟩
  | flat look flat =>
    obtain ⟨q', hlook, hnext, hfound⟩ := lookUp_beside hagree hname hbeside look
    obtain ⟨hsame, hlast, hstays⟩ := finish_beside hnext fun d hd => Except.ok.inj hd ▸ hfound _ rfl
    exact ⟨_, hsame ▸ .flat hlook flat, hlast, hstays⟩
  | passes look unfinished completes =>
    obtain ⟨q', hlook, hnext, hfound⟩ := lookUp_beside hagree hname hbeside look
    obtain ⟨q'', hcompletes, hnext, hmade⟩ := completes.beside hagree (hfound _ rfl) hnext
    obtain ⟨hsame, hlast, hstays⟩ := finish_beside hnext hmade
    exact ⟨_, hsame ▸ .passes hlook unfinished hcompletes, hlast, hstays⟩

theorem Completes.beside (hagree : AgreeOn reach world other) {chain : List String} {d : Document}
    {p p' q : Progress} {passes : List (List Call)} {r : Except Error Document}
    (h : world.Completes chain d p passes r p') (hd : d.StaysIn reach)
    (hbeside : p.Beside reach world other q) :
    ∃ q', other.Completes chain d q passes r q' ∧ p'.Beside reach world other q' ∧
      ∀ e, r = .ok e → e.StaysIn reach := by
  cases h with
  | cyclic back => exact ⟨q, .cyclic back, hbeside, fun _ => nofun⟩
  | failed forward fetches =>
    obtain ⟨q', hfetches, hnext, -⟩ := fetches.beside hagree hd.unresolved hbeside
    exact ⟨q', .failed forward hfetches, hnext, fun _ => nofun⟩
  | last forward fetches stays =>
    obtain ⟨q', hfetches, hnext, hall⟩ := fetches.beside hagree hd.unresolved hbeside
    exact ⟨q', .last forward hfetches stays, hnext, fun e he => Except.ok.inj he ▸ hd.rebuild (hall _ rfl)⟩
  | again forward fetches reveals completes =>
    obtain ⟨q', hfetches, hnext, hall⟩ := fetches.beside hagree hd.unresolved hbeside
    -- what is revealed are names that documents at hand need, so that the next pass stays in the set too
    obtain ⟨q'', hcompletes, hlast, hmade⟩ := completes.beside hagree (hd.rebuild (hall _ rfl)) hnext
    exact ⟨q'', .again forward hfetches reveals hcompletes, hlast, hmade⟩

theorem FetchesAll.beside (hagree : AgreeOn reach world other) {chain names : List String}
    {p p' q : Progress} {calls : List Call} {r : Except Error (Table Document)}
    (h : world.FetchesAll chain names p calls r p') (hnames : ∀ n ∈ names, n ∈ reach)
    (hbeside : p.Beside reach world other q) :
    ∃ q', other.FetchesAll chain names q calls r q' ∧ p'.Beside reach world other q' ∧
      ∀ atHand, r = .ok atHand → ∀ n e, Table.get? atHand n = some e → e.StaysIn reach := by
  cases h with
  | nil => exact ⟨q, .nil, hbeside, fun _ hr n e he => by cases hr; cases he⟩
  | failed fetches missing =>
    obtain ⟨hname, -⟩ := List.forall_mem_cons.1 hnames
    obtain ⟨q', hfetches, hnext, -⟩ := fetches.beside hagree hname hbeside
    exact ⟨q', .failed hfetches ((supplied_eq hagree _).trans missing), hnext, fun _ => nofun⟩
  | @cons _ _ _ _ _ _ _ _ _ found rest fetches answered others =>
    obtain ⟨hname, hrest⟩ := List.forall_mem_cons.1 hnames
    obtain ⟨q', hfetches, hnext, hmade⟩ := fetches.beside hagree hname hbeside
    obtain ⟨q'', hothers, hlast, hall⟩ := others.beside hagree hrest hnext
    refine ⟨q'', .cons hfetches ((supplied_eq hagree _).trans answered) hothers, hlast, ?_⟩
    intro atHand hatHand n e hget
    cases rest with
    | error e => cases hatHand
    | ok rest =>
      obtain rfl := Except.ok.inj hatHand
      exact staysIn_of_supply (fun d hd => hmade d (eq_ok_of_supplied (hd ▸ answered))) (hall rest rfl) hget

end

theorem resolve_beside (hagree : AgreeOn reach world other) (hname : name ∈ reach) :
    (exec (other.resolve name none) ⟨.empty true, []⟩).1 =
        (exec (world.resolve name none) ⟨.empty true, []⟩).1 ∧
      (exec (world.resolve name none) ⟨.empty true, []⟩).2.Beside reach world other
        (exec (other.resolve name none) ⟨.empty true, []⟩).2 := by
  have hstart : Progress.Beside reach world other ⟨.empty true, []⟩ ⟨.empty true, []⟩ :=
    ⟨rfl, fun _ _ => nofun, [], nofun, rfl, rfl⟩
  obtain ⟨call, -, hcourse⟩ := @resolve_course world ⟨.empty true, []⟩ (.empty true) name none
  obtain ⟨q, hsame, hbeside, -⟩ := hcourse.beside hagree hname hstart
  obtain ⟨call', -, hother⟩ := @resolve_course other ⟨.empty true, []⟩ (.empty true) name none
  obtain ⟨-, hresult, rfl⟩ := hother.unique hsame
  exact ⟨hresult, hbeside⟩

end Surroundings

/-! ### What is looked up -/

namespace Renderer

/-- The renderer with the sources that it searches as one. -/
def asOne (renderer : Renderer) : Renderer := { renderer with registry := .single renderer.registry.asOne }

/-- The names that are looked up for a template while nothing is cached. Each search is one question to the
sources as one. -/
def lookups (renderer : Renderer) (template : String) : List String :=
  (exec (renderer.asOne.document template) ⟨.empty true, []⟩).2.reads.map Read.template

/-- A template leads to a name, or is it. -/
def Reaches (renderer : Renderer) (template name : String) : Prop :=
  Relation.ReflTransGen (Refers renderer.registry.drafts) template name

variable {first second : Renderer} {template : String}

theorem document_beside (hmissing : first.missing = second.missing)
    (htext : ∀ name, first.Reaches template name → first.registry.text name = second.registry.text name) :
    (exec (second.document template) ⟨.empty true, []⟩).1 =
        (exec (first.document template) ⟨.empty true, []⟩).1 ∧
      ∃ names : List String, (∀ name ∈ names, first.Reaches template name) ∧
        (exec (first.document template) ⟨.empty true, []⟩).2.reads =
          names.flatMap first.registry.questions ∧
        (exec (second.document template) ⟨.empty true, []⟩).2.reads =
          names.flatMap second.registry.questions := by
  unfold document
  cases hname : template.isEmpty with
  | true =>
    rw [exec_documentFrom_of_isEmpty hname, exec_documentFrom_of_isEmpty hname]
    exact ⟨rfl, [], nofun, rfl, rfl⟩
  | false =>
    have hagree : Surroundings.AgreeOn {name | first.Reaches template name} first.surroundings
        second.surroundings :=
      ⟨hmissing, htext, fun _ hreach _ hrefers => Relation.ReflTransGen.tail hreach hrefers⟩
    rw [exec_documentFrom_of_empty none hname, exec_documentFrom_of_empty none hname]
    obtain ⟨hresult, hbeside⟩ := Surroundings.resolve_beside hagree Relation.ReflTransGen.refl
    exact ⟨hresult, hbeside.reads⟩

theorem lookups_eq_of_reads {names : List String}
    (h : (exec (first.asOne.document template) ⟨.empty true, []⟩).2.reads =
      names.flatMap first.asOne.registry.questions) : first.lookups template = names := by
  have hquestions : first.asOne.registry.questions = fun name => [⟨"default", name, true⟩] :=
    funext (Registry.questions_single _)
  rw [lookups, h, hquestions, List.map_flatMap]
  exact List.flatMap_singleton' names

theorem reaches_asOne (renderer : Renderer) : renderer.asOne.Reaches = renderer.Reaches := by
  have hdrafts : renderer.asOne.registry.drafts = renderer.registry.drafts :=
    funext fun name => Registry.drafts_eq_of_text_eq (renderer.registry.text_single_asOne name)
  unfold Reaches
  rw [hdrafts]

/-- The questions are those of the searches, and only templates that are led to are searched for. -/
theorem reads_document (renderer : Renderer) (template : String) :
    (exec (renderer.document template) ⟨.empty true, []⟩).2.reads =
        (renderer.lookups template).flatMap renderer.registry.questions ∧
      ∀ name ∈ renderer.lookups template, renderer.Reaches template name := by
  obtain ⟨-, names, hnames, hreads, hasOne⟩ := @document_beside renderer renderer.asOne template rfl
    fun name _ => (renderer.registry.text_single_asOne name).symm
  rw [lookups_eq_of_reads hasOne]
  exact ⟨hreads, hnames⟩

theorem lookups_eq (hmissing : first.missing = second.missing)
    (htext : ∀ name, first.Reaches template name → first.registry.text name = second.registry.text name) :
    first.lookups template = second.lookups template := by
  have hasOne : ∀ name, first.asOne.Reaches template name →
      first.asOne.registry.text name = second.asOne.registry.text name := by
    intro name hreach
    rw [reaches_asOne] at hreach
    exact (first.registry.text_single_asOne name).trans
      ((htext name hreach).trans (second.registry.text_single_asOne name).symm)
  obtain ⟨-, names, -, hfirst, hsecond⟩ := @document_beside first.asOne second.asOne template hmissing hasOne
  rw [lookups_eq_of_reads hfirst, lookups_eq_of_reads hsecond]

/-- Resolution depends only on what a template leads to. Where two searches give the same text, or fail in
the same way, for each such name, both renderers answer alike and look up the same names in the same order,
all of them such names: what the sources have under any other is never found out. -/
theorem document_depends_on_reached (first second : Renderer) (template : String)
    (hmissing : first.missing = second.missing)
    (htext : ∀ name, first.Reaches template name → first.registry.text name = second.registry.text name) :
    (exec (first.document template) ⟨.empty true, []⟩).1 =
        (exec (second.document template) ⟨.empty true, []⟩).1 ∧
      first.lookups template = second.lookups template ∧
      (∀ name ∈ first.lookups template, first.Reaches template name) ∧
      (exec (first.document template) ⟨.empty true, []⟩).2.reads =
        (first.lookups template).flatMap first.registry.questions ∧
      (exec (second.document template) ⟨.empty true, []⟩).2.reads =
        (second.lookups template).flatMap second.registry.questions :=
  ⟨(document_beside hmissing htext).1.symm, lookups_eq hmissing htext, (first.reads_document template).2,
    (first.reads_document template).1, (second.reads_document template).1⟩

theorem mem_of_reaches {renderer : Renderer} {names : List String} (hself : template ∈ names)
    (hclosed : ∀ name ∈ names, ∀ d ∈ (renderer.registry.drafts name).toOption, ∀ n ∈ d.unresolved, n ∈ names)
    {name : String} (h : renderer.Reaches template name) : name ∈ names := by
  induction h with
  | refl => exact hself
  | tail _ hrefers ih =>
    obtain ⟨d, hd, hn⟩ := hrefers
    exact hclosed _ ih d (congrArg Except.toOption hd) _ hn

/-- A page that needs a base, which is in another source, and a template that nobody has. -/
def scattered : Renderer :=
  .ofRegistry .blocking .defer
    ⟨[("main", (Memory.holding [("stray", "#extend(\"page\")"),
        ("page", "#extend(\"base\"):#export(\"body\"):text#endexport#endextend#extend(\"gone\")")]).source),
      ("side", (Memory.holding [("base", "<#import(\"body\")>")]).source)],
      ["main", "side"]⟩

/-- The same page and the same base in one source, which has something else under another name. -/
def gathered : Renderer :=
  .ofRegistry .task .defer
    (.single (Memory.holding [("stray", "text"), ("base", "<#import(\"body\")>"),
      ("page", "#extend(\"base\"):#export(\"body\"):text#endexport#endextend#extend(\"gone\")")]).source)

theorem text_scattered {name : String} (h : scattered.Reaches "page" name) :
    scattered.registry.text name = gathered.registry.text name := by
  have hmem : name ∈ ["page", "base", "gone"] := mem_of_reaches (by decide) (by decide +kernel) h
  simp only [List.mem_cons, List.not_mem_nil, or_false] at hmem
  rcases hmem with rfl | rfl | rfl <;> rfl

theorem document_depends_on_reached_scattered :
    (∀ name, scattered.Reaches "page" name →
      scattered.registry.text name = gathered.registry.text name) ∧
      scattered.registry.text "stray" ≠ gathered.registry.text "stray" ∧
      (exec (scattered.document "page") ⟨.empty true, []⟩).1 =
        (exec (gathered.document "page") ⟨.empty true, []⟩).1 ∧
      gathered.lookups "page" = ["page", "base", "gone"] ∧
      (exec (scattered.document "page") ⟨.empty true, []⟩).2.reads =
        [⟨"main", "page", true⟩, ⟨"main", "base", true⟩, ⟨"side", "base", true⟩, ⟨"main", "gone", true⟩,
          ⟨"side", "gone", true⟩] := by
  have hstray : scattered.registry.text "stray" ≠ gathered.registry.text "stray" := fun h =>
    absurd (congrArg Except.toOption h) (by decide +kernel)
  have hlookups : scattered.lookups "page" = ["page", "base", "gone"] := by decide +kernel
  obtain ⟨hresult, hsame, -, hreads, -⟩ :=
    document_depends_on_reached scattered gathered "page" rfl fun _ => text_scattered
  rw [hlookups] at hreads
  exact ⟨fun _ => text_scattered, hstray, hresult, hsame.symm.trans hlookups,
    hreads.trans (by decide +kernel)⟩

end Renderer

end Templating
