import Templating.Proofs.Termination

/-!
# Calls under way

A call for a document taken apart into the steps between which it can be kept waiting: by the cache, by
the sources, by the calls that it makes for the names its document needs. All of these may be under way
at once, and whichever is not kept waiting takes the next step; one of them that fails ends them all. Run
one behind the other, the steps are the course of a resolution.

Whatever the order, each call ends as completion says, and stores nothing but what completes its name. So
no step takes an entry from the cache, and none changes an entry that is flat.
-/

namespace Templating

open Resolve Drafts

/-- A call for a document, as far as it has come. -/
inductive Work where
  /-- The cache is asked for a template, below a chain of names. -/
  | asking (chain : List String) (template : String) (source : Option String)
  /-- The cache has nothing, and the sources are asked. -/
  | reading (chain : List String) (template : String) (source : Option String)
  /-- There is one call for each name that a document needs; the chain ends with its own. -/
  | filling (chain : List String) (d : Document) (parts : List (String × Work))
  | storing (d : Document)
  | done (result : Except Error Document)

namespace Work

/-- A document is gone over, on a chain that ends with its own name. -/
def pass (chain : List String) (d : Document) : Work :=
  match d.unresolved.find? chain.contains with
  | some x => .done (.error (.cyclicalReference x (chain ++ [x])))
  | none => .filling chain d (d.unresolved.map fun name => (name, .asking chain name none))

theorem pass_of_back {chain : List String} {d : Document} {x : String}
    (back : d.unresolved.find? chain.contains = some x) :
    pass chain d = .done (.error (.cyclicalReference x (chain ++ [x]))) := by
  rw [pass, back]

theorem pass_of_forward {chain : List String} {d : Document}
    (forward : d.unresolved.find? chain.contains = none) :
    pass chain d = .filling chain d (d.unresolved.map fun name => (name, .asking chain name none)) := by
  rw [pass, forward]

/-- A document that has been found is completed, below a chain. -/
def complete (chain : List String) (d : Document) : Work :=
  if d.isFlat then .storing d else .pass (chain ++ [d.name]) d

theorem complete_of_flat {d : Document} (h : d.isFlat = true) (chain : List String) :
    complete chain d = .storing d :=
  if_pos h

theorem complete_of_open {d : Document} (h : d.isFlat = false) (chain : List String) :
    complete chain d = pass (chain ++ [d.name]) d :=
  if_neg (Bool.eq_false_iff.1 h)

/-- A template has been looked up, below a chain. -/
def lookedUp (chain : List String) : Except Error (Document × Bool) → Work
  | .ok (d, true) => .done (.ok d)
  | .ok (d, false) => .complete chain d
  | .error e => .done (.error e)

/-- A document has been rebuilt. It is gone over again if that reveals names. -/
def rebuilt (chain : List String) (d next : Document) : Work :=
  if Names.subset next.unresolved d.unresolved then .storing next else .pass chain next

theorem rebuilt_of_stays {d next : Document} (h : Names.subset next.unresolved d.unresolved = true)
    (chain : List String) : rebuilt chain d next = .storing next :=
  if_pos h

theorem rebuilt_of_reveals {d next : Document} (h : Names.subset next.unresolved d.unresolved = false)
    (chain : List String) : rebuilt chain d next = pass chain next :=
  if_neg (Bool.eq_false_iff.1 h)

/-- What a document is completed to is stored, unless completing it failed. -/
def completed : Except Error Document → Work
  | .ok d => .storing d
  | .error e => .done (.error e)

end Work

namespace Surroundings

variable (world : Surroundings)

/-- All calls for some names have ended, and these are the documents that they supply. -/
inductive Gathered : List (String × Work) → Table Document → Prop where
  | nil : Gathered [] []
  | cons {name : String} {r : Except Error Document} {found : Option Document}
    {parts : List (String × Work)} {atHand : Table Document} (answered : world.supplied r = .ok found)
    (others : Gathered parts atHand) :
    Gathered ((name, .done r) :: parts) (supply name found atHand)

/-- A call for a name has ended in a way that ends the call which made it. -/
def Broken (parts : List (String × Work)) (e : Error) : Prop :=
  ∃ name r, (name, Work.done r) ∈ parts ∧ world.supplied r = .error e

/-- One step of a call, over the cache. -/
inductive Advances : Work × Cache → Work × Cache → Prop where
  | served {chain : List String} {template : String} {source : Option String} {d : Document} {cache : Cache}
    (held : cache.held (cacheKey template source) = some d) (flat : d.isFlat = true) :
    Advances (.asking chain template source, cache) (.done (.ok d), cache)
  | stale {chain : List String} {template : String} {source : Option String} {d : Document} {cache : Cache}
    (held : cache.held (cacheKey template source) = some d) (open_ : d.isFlat = false) :
    Advances (.asking chain template source, cache) (.complete chain d, cache)
  | missed {chain : List String} {template : String} {source : Option String} {cache : Cache}
    (missing : cache.held (cacheKey template source) = none) :
    Advances (.asking chain template source, cache) (.reading chain template source, cache)
  | read {chain : List String} {template : String} {source : Option String} {d : Document} {cache : Cache}
    (draft : world.registry.draft source template = .ok d) :
    Advances (.reading chain template source, cache) (.complete chain d, cache)
  | refused {chain : List String} {template : String} {source : Option String} {e : Error} {cache : Cache}
    (draft : world.registry.draft source template = .error e) :
    Advances (.reading chain template source, cache) (.done (.error e), cache)
  | part {chain : List String} {d : Document} {before after : List (String × Work)} {name : String}
    {part next : Work} {cache cache' : Cache} (advances : Advances (part, cache) (next, cache')) :
    Advances (.filling chain d (before ++ (name, part) :: after), cache)
      (.filling chain d (before ++ (name, next) :: after), cache')
  | failed {chain : List String} {d : Document} {parts : List (String × Work)} {e : Error} {cache : Cache}
    (broken : world.Broken parts e) :
    Advances (.filling chain d parts, cache) (.done (.error e), cache)
  | filled {chain : List String} {d : Document} {parts : List (String × Work)} {atHand : Table Document}
    {cache : Cache} (gathered : world.Gathered parts atHand) :
    Advances (.filling chain d parts, cache) (.rebuilt chain d (d.rebuild atHand), cache)
  | stored {d : Document} {cache : Cache} :
    Advances (.storing d, cache) (.done (.ok d), cache.stored d)

/-- Some steps of a call, one after the other. -/
abbrev GetsTo : Work × Cache → Work × Cache → Prop := Relation.ReflTransGen world.Advances

end Surroundings

/-! ### What stays in the cache -/

namespace Cache

/-- No entry is lost, and those that are flat are the same as before. -/
structure Grows (cache next : Cache) : Prop where
  stays : ∀ {name d}, Table.get? cache.documents name = some d →
    ∃ e, Table.get? next.documents name = some e
  flat : ∀ {name d}, Table.get? cache.documents name = some d → d.isFlat = true →
    Table.get? next.documents name = some d

variable {cache next last : Cache}

theorem Grows.refl (cache : Cache) : cache.Grows cache := ⟨fun h => ⟨_, h⟩, fun h _ => h⟩

theorem Grows.trans (h : cache.Grows next) (h' : next.Grows last) : cache.Grows last where
  stays hget := by
    obtain ⟨e, he⟩ := h.stays hget
    exact h'.stays he
  flat hget hflat := h'.flat (h.flat hget hflat) hflat

/-- A document may take the place of one that is not flat, or of itself. -/
theorem grows_stored {d : Document}
    (h : ∀ e, cache.held d.name = some e → e.isFlat = true → e = d) : cache.Grows (cache.stored d) := by
  unfold held at h
  unfold stored
  cases hon : cache.enabled with
  | false => exact .refl cache
  | true =>
    rw [hon] at h
    constructor
    · intro name e hget
      by_cases hname : name = d.name
      · exact ⟨d, by simp [Table.get?_insert, hname]⟩
      · exact ⟨e, by simpa [Table.get?_insert, hname] using hget⟩
    · intro name e hget hflat
      by_cases hname : name = d.name
      · subst hname
        simp [Table.get?_insert, h e hget hflat]
      · simpa [Table.get?_insert, hname] using hget

theorem Filled.stored {d : Document} (h : cache.Filled) (made : d.Made) : (cache.stored d).Filled :=
  .insert h made (cache.insert_replace d)

end Cache

namespace Drafts

variable {drafts base : Drafts} {missing : Missing} {chain : List String} {name key : String}
  {d : Document} {r : Except Error Document} {cache : Cache}

theorem Completed.made (hmade : ∀ {n e}, drafts n = .ok e → e.Made)
    (h : Completed drafts missing name d) : d.Made := by
  induction h with
  | flat found => exact hmade found
  | rebuilt found _ _ _ _ ih => exact .rebuild (hmade found) ih

/-- A flat document that a coherent cache has under a name is what the name is completed to. -/
theorem Coherent.grows_stored (hw : drafts.WellFormed) (h : drafts.Coherent base missing cache)
    (hd : Completed drafts missing name d) : cache.Grows (cache.stored d) := by
  refine Cache.grows_stored fun e he hflat => ?_
  rw [hd.name_eq hw] at he
  rcases (h.held he).2 with hdraft | hcompleted
  · exact (Completed.flat hdraft hflat).unique hd
  · exact hcompleted.unique hd

/-! ### What a step does to the cache -/

/-- A step leaves the cache as it is, or stores a document that completes its name. -/
def Adds (drafts : Drafts) (missing : Missing) (cache next : Cache) : Prop :=
  next = cache ∨ ∃ n e, Completed drafts missing n e ∧ next = cache.stored e

variable {next : Cache}

theorem Adds.coherent (hw : drafts.WellFormed) (h : drafts.Adds missing cache next)
    (hc : drafts.Coherent base missing cache) : drafts.Coherent base missing next := by
  rcases h with rfl | ⟨n, e, he, rfl⟩
  · exact hc
  · exact @Coherent.stored drafts base missing ⟨cache, []⟩ hc n e (he.name_eq hw) he

theorem Adds.grows (hw : drafts.WellFormed) (h : drafts.Adds missing cache next)
    (hc : drafts.Coherent base missing cache) : cache.Grows next := by
  rcases h with rfl | ⟨n, e, he, rfl⟩
  · exact .refl _
  · exact hc.grows_stored hw he

theorem Adds.filled (hmade : ∀ {n e}, drafts n = .ok e → e.Made) (h : drafts.Adds missing cache next)
    (hfilled : cache.Filled) : next.Filled := by
  rcases h with rfl | ⟨n, e, he, rfl⟩
  · exact hfilled
  · exact hfilled.stored (he.made hmade)

/-- How a call for a name may end: only a name that is absent ends it with a template that nobody has,
where that is no failure. -/
def Concludes (drafts : Drafts) (missing : Missing) (name : String) : Except Error Document → Prop
  | .ok d => Completed drafts missing name d
  | .error e => ∀ asked, e = .noTemplateExists asked → missing = .defer → Absent drafts missing name

end Drafts

namespace Surroundings

variable {world : Surroundings} {drafts base : Drafts} {key : String} {chain : List String} {name : String}
  {d : Document} {r : Except Error Document}

theorem found_of_supplied {found : Option Document} (h : drafts.Concludes world.missing name r)
    (hr : world.supplied r = .ok found) : drafts.Found world.missing chain name (.ok found) := by
  unfold supplied at hr
  split at hr
  · obtain rfl := Except.ok.inj hr
    exact h
  · next asked =>
    split at hr
    · next hmissing =>
      obtain rfl := Except.ok.inj hr
      exact h asked rfl hmissing
    · cases hr
  · cases hr

/-- An error that ends the call which needs the name is no missing template, where that is no failure. -/
theorem concludes_of_supplied {e : Error} (hr : world.supplied r = .error e) :
    drafts.Concludes world.missing name (.error e) := by
  rintro asked rfl hdefer
  unfold supplied at hr
  split at hr
  · cases hr
  · rw [hdefer] at hr
    cases hr
  · next hother => exact absurd (Except.error.inj hr) (hother asked)

/-! ### What a step keeps of the call -/

/-- What names stand for under a call for a key: documents under their own names, and beyond the key those
that the sources have. -/
structure Setting (world : Surroundings) (drafts base : Drafts) (key : String) : Prop where
  wellFormed : drafts.WellFormed
  made : ∀ {n e}, drafts n = .ok e → e.Made
  agree : ∀ {n}, n ≠ key → base n = world.registry.drafts n

/-- A call for a name below a chain is what it should be. The key is the first name of all, so that it is
on the chain of every other. -/
inductive Sound (world : Surroundings) (drafts base : Drafts) (key : String) :
    List String → String → Work → Prop where
  | asking {chain : List String} {template : String} {source : Option String}
    (rooted : key ∈ chain ++ [cacheKey template source])
    (means : base (cacheKey template source) = world.registry.draft source template) :
    Sound world drafts base key chain (cacheKey template source) (.asking chain template source)
  | reading {chain : List String} {template : String} {source : Option String}
    (rooted : key ∈ chain ++ [cacheKey template source])
    (means : drafts (cacheKey template source) = world.registry.draft source template) :
    Sound world drafts base key chain (cacheKey template source) (.reading chain template source)
  | filling {chain : List String} {name : String} {d : Document} {parts : List (String × Work)}
    (rooted : key ∈ chain ++ [name])
    (stands : drafts name = .ok d ∨ drafts.Completed world.missing name d) (open_ : d.isFlat = false)
    (names : parts.map Prod.fst = d.unresolved)
    (sound : ∀ n part, (n, part) ∈ parts → Sound world drafts base key (chain ++ [name]) n part) :
    Sound world drafts base key chain name (.filling (chain ++ [name]) d parts)
  | storing {chain : List String} {name : String} {d : Document}
    (completes : drafts.Completed world.missing name d) :
    Sound world drafts base key chain name (.storing d)
  | done {chain : List String} {name : String} {r : Except Error Document}
    (concludes : drafts.Concludes world.missing name r) :
    Sound world drafts base key chain name (.done r)

theorem Sound.pass (hs : world.Setting drafts base key) (rooted : key ∈ chain ++ [name])
    (stands : drafts name = .ok d ∨ drafts.Completed world.missing name d) (open_ : d.isFlat = false) :
    world.Sound drafts base key chain name (.pass (chain ++ [name]) d) := by
  cases hback : d.unresolved.find? (chain ++ [name]).contains with
  | some x =>
    rw [Work.pass_of_back hback]
    exact .done fun asked h => by cases h
  | none =>
    rw [Work.pass_of_forward hback]
    refine .filling rooted stands open_ (by simp [Function.comp_def]) fun n part hmem => ?_
    obtain ⟨m, hm, heq⟩ := List.mem_map.1 hmem
    cases heq
    have hfresh : n ∉ chain ++ [name] := by simpa using List.find?_eq_none.1 hback n hm
    have hne : n ≠ key := fun heq => hfresh (heq ▸ rooted)
    exact @Sound.asking world drafts base key _ n none (List.mem_append_left _ rooted) (hs.agree hne)

theorem Sound.complete (hs : world.Setting drafts base key) (rooted : key ∈ chain ++ [name])
    (stands : drafts name = .ok d ∨ drafts.Completed world.missing name d) :
    world.Sound drafts base key chain name (.complete chain d) := by
  have hname : d.name = name := stands.elim hs.wellFormed.name_eq (·.name_eq hs.wellFormed)
  cases hflat : d.isFlat with
  | true =>
    rw [Work.complete_of_flat hflat]
    exact .storing (stands.elim (.flat · hflat) id)
  | false =>
    rw [Work.complete_of_open hflat, hname]
    exact .pass hs rooted stands hflat

theorem foundAll_of_gathered {parts : List (String × Work)} {atHand : Table Document}
    (h : world.Gathered parts atHand)
    (hparts : ∀ n part, (n, part) ∈ parts → world.Sound drafts base key chain n part) :
    drafts.FoundAll world.missing chain (parts.map Prod.fst) (.ok atHand) := by
  induction h with
  | nil => exact .nil
  | @cons n r found parts atHand answered _ ih =>
    have hrest := ih fun m part hmem => hparts m part (List.mem_cons_of_mem _ hmem)
    cases hparts n _ List.mem_cons_self with
    | done concludes =>
      have hfound := @found_of_supplied world drafts chain n r found concludes answered
      cases found with
      | none => exact .none hfound hrest
      | some d => exact .some hfound hrest

theorem Sound.rebuilt (hs : world.Setting drafts base key) (rooted : key ∈ chain ++ [name])
    (stands : drafts name = .ok d ∨ drafts.Completed world.missing name d) (open_ : d.isFlat = false)
    {atHand : Table Document}
    (hall : drafts.FoundAll world.missing (chain ++ [name]) d.unresolved (.ok atHand)) :
    world.Sound drafts base key chain name (.rebuilt (chain ++ [name]) d (d.rebuild atHand)) := by
  have hcompleted : drafts.Completed world.missing name (d.rebuild atHand) := by
    rcases stands with hd | hd
    · exact hall.completed hd open_
    · rwa [hall.rebuild_completed hs.wellFormed hd (hd.merged open_)]
  cases hreveals : Names.subset (d.rebuild atHand).unresolved d.unresolved with
  | true =>
    rw [Work.rebuilt_of_stays hreveals]
    exact .storing hcompleted
  | false =>
    rw [Work.rebuilt_of_reveals hreveals]
    refine .pass hs rooted (.inr hcompleted) (Bool.eq_false_iff.2 fun hflat => ?_)
    rw [Document.isFlat_iff.1 hflat] at hreveals
    cases hreveals

/-- A step keeps a call what it should be, and stores only what completes a name. -/
theorem Sound.advances (hs : world.Setting drafts base key) {a b : Work × Cache}
    (h : world.Sound drafts base key chain name a.1) (hc : drafts.Coherent base world.missing a.2)
    (hab : world.Advances a b) :
    world.Sound drafts base key chain name b.1 ∧ drafts.Adds world.missing a.2 b.2 := by
  -- by induction on the step, since a step of a part is one of the call that waits for it
  induction hab generalizing chain name with
  | served held flat =>
    cases h with
    | asking rooted means =>
      have hstands := (hc.held held).2
      exact ⟨.done (hstands.elim (.flat · flat) id), .inl rfl⟩
  | stale held =>
    cases h with
    | asking rooted means => exact ⟨.complete hs rooted (hc.held held).2, .inl rfl⟩
  | missed missing =>
    cases h with
    | asking rooted means => exact ⟨.reading rooted ((hc.fresh missing).trans means), .inl rfl⟩
  | read draft =>
    cases h with
    | reading rooted means => exact ⟨.complete hs rooted (.inl (means.trans draft)), .inl rfl⟩
  | refused draft =>
    cases h with
    | reading rooted means =>
      exact ⟨.done fun asked he hdefer => ⟨hdefer, asked, he ▸ means.trans draft⟩, .inl rfl⟩
  | @part _ d before after n part next cache cache' _ ih =>
    cases h with
    | filling rooted stands open_ names sound =>
      obtain ⟨hnext, hadds⟩ := ih (sound n part (by simp)) hc
      refine ⟨.filling rooted stands open_ (by simpa using names) fun m other hmem => ?_, hadds⟩
      have hcases : (m, other) = (n, next) ∨ (m, other) ∈ before ++ (n, part) :: after := by
        simp only [List.mem_append, List.mem_cons] at hmem ⊢
        tauto
      rcases hcases with heq | hmem
      · cases heq
        exact hnext
      · exact sound m other hmem
  | failed broken =>
    obtain ⟨n, r, hmem, hr⟩ := broken
    exact ⟨.done (concludes_of_supplied hr), .inl rfl⟩
  | filled gathered =>
    cases h with
    | filling rooted stands open_ names sound =>
      have hall := foundAll_of_gathered gathered sound
      rw [names] at hall
      exact ⟨.rebuilt hs rooted stands open_ hall, .inl rfl⟩
  | stored =>
    cases h with
    | storing completes => exact ⟨.done completes, .inr ⟨_, _, completes, rfl⟩⟩

/-! ### What any number of steps keeps -/

/-- A call and the cache on which it is under way. -/
structure OnCourse (world : Surroundings) (drafts base : Drafts) (key : String) (chain : List String)
    (name : String) (a : Work × Cache) : Prop where
  sound : world.Sound drafts base key chain name a.1
  coherent : drafts.Coherent base world.missing a.2
  filled : a.2.Filled

theorem OnCourse.advances (hs : world.Setting drafts base key) {a b : Work × Cache}
    (h : world.OnCourse drafts base key chain name a) (hab : world.Advances a b) :
    world.OnCourse drafts base key chain name b ∧ a.2.Grows b.2 := by
  obtain ⟨hsound, hadds⟩ := h.sound.advances hs h.coherent hab
  exact ⟨⟨hsound, hadds.coherent hs.wellFormed h.coherent, hadds.filled hs.made h.filled⟩,
    hadds.grows hs.wellFormed h.coherent⟩

theorem OnCourse.getsTo (hs : world.Setting drafts base key) {a b : Work × Cache}
    (h : world.OnCourse drafts base key chain name a) (hab : world.GetsTo a b) :
    world.OnCourse drafts base key chain name b ∧ a.2.Grows b.2 := by
  induction hab with
  | refl => exact ⟨h, .refl _⟩
  | tail _ hstep ih =>
    obtain ⟨hmiddle, hgrows⟩ := ih
    obtain ⟨hlast, hgrows'⟩ := hmiddle.advances hs hstep
    exact ⟨hlast, hgrows.trans hgrows'⟩

theorem setting_standIns {start : Cache} (hstart : start.Filled) (template : String)
    (source : Option String) :
    world.Setting (start.standIns (world.registry.sourced source template))
      (world.registry.sourced source template) (cacheKey template source) where
  wellFormed :=
    Cache.standIns_wellFormed hstart.held (world.registry.wellFormed_sourced source template)
  made := by
    intro n e he
    cases hheld : start.held n with
    | some d =>
      rw [Cache.standIns_of_held hheld] at he
      obtain rfl := Except.ok.inj he
      exact (hstart.get?_documents (Cache.get?_of_held hheld)).2
    | none =>
      rw [Cache.standIns_of_not_held hheld] at he
      obtain ⟨-, nodes, -, rfl⟩ := Registry.exists_parse_of_sourced he
      exact .ofNodes n nodes
  agree := Registry.sourced_of_ne

theorem onCourse_asking {start : Cache} (hstart : start.Filled) (template : String)
    (source : Option String) :
    world.OnCourse (start.standIns (world.registry.sourced source template))
      (world.registry.sourced source template) (cacheKey template source) [] (cacheKey template source)
      (.asking [] template source, start) where
  sound := .asking (by simp) (world.registry.sourced_key source template)
  coherent := Cache.standIns_coherent fun hd => (hstart.held hd).1
  filled := hstart

/-! ### One behind the other -/

theorem GetsTo.part {chain : List String} {d : Document} {before after : List (String × Work)}
    {name : String} {a b : Work × Cache} (h : world.GetsTo a b) :
    world.GetsTo (.filling chain d (before ++ (name, a.1) :: after), a.2)
      (.filling chain d (before ++ (name, b.1) :: after), b.2) := by
  induction h with
  | refl => exact .refl
  | tail _ hstep ih => exact ih.tail (.part hstep)

variable {p q : Progress} {template : String} {source : Option String}

/-- What is looked up, a call comes to by asking the cache and then the sources. -/
theorem getsTo_of_lookUp {result : Except Error (Document × Bool)}
    (h : exec (world.lookUp template source) p = (result, q)) :
    world.GetsTo (.asking chain template source, p.cache) (.lookedUp chain result, q.cache) := by
  cases hheld : p.cache.held (cacheKey template source) with
  | some d =>
    rw [world.exec_lookUp_of_held hheld] at h
    obtain ⟨rfl, rfl⟩ := Prod.mk.inj h
    cases hflat : d.isFlat with
    | true => exact .single (.served hheld hflat)
    | false => exact .single (.stale hheld hflat)
  | none =>
    rw [world.exec_lookUp_of_not_held hheld] at h
    obtain ⟨rfl, rfl⟩ := Prod.mk.inj h
    refine .head (.missed hheld) ?_
    cases hdraft : world.registry.draft source template with
    | ok d => exact .single (.read hdraft)
    | error e => exact .single (.refused hdraft)

theorem getsTo_finish (r : Except Error Document) (p : Progress) :
    world.GetsTo (.completed r, p.cache) (.done (finish r p).1, (finish r p).2.cache) := by
  cases r with
  | ok d =>
    rw [finish_ok]
    exact .single .stored
  | error e => exact .refl

/-- The calls for some names, made one after the other, have come to an end. -/
def Ended (world : Surroundings) (parts : List (String × Work)) : Except Error (Table Document) → Prop
  | .ok atHand => world.Gathered parts atHand
  | .error e => world.Broken parts e

theorem Ended.cons {parts : List (String × Work)} {rest : Except Error (Table Document)}
    {found : Option Document} (hr : world.supplied r = .ok found) (h : world.Ended parts rest) :
    world.Ended ((name, .done r) :: parts) (rest.map (supply name found)) := by
  cases rest with
  | ok atHand => exact Gathered.cons hr h
  | error e =>
    obtain ⟨n, r, hmem, hr⟩ := h
    exact ⟨n, r, List.mem_cons_of_mem _ hmem, hr⟩

mutual

/-- The steps of a course that is run without ever waiting are steps of a call. -/
theorem Fetches.getsTo {chain : List String} {template : String} {source : Option String} {p q : Progress}
    {call : Call} {r : Except Error Document} (h : world.Fetches chain template source p call r q) :
    world.GetsTo (.asking chain template source, p.cache) (.done r, q.cache) := by
  cases h with
  | refused look => exact getsTo_of_lookUp look
  | complete look => exact getsTo_of_lookUp look
  | @flat _ _ _ _ q d look flat =>
    refine (getsTo_of_lookUp look).trans ?_
    rw [Work.lookedUp, Work.complete_of_flat flat]
    exact getsTo_finish (.ok d) q
  | @passes _ _ _ _ q q' d _ r look unfinished completes =>
    refine (getsTo_of_lookUp look).trans ?_
    rw [Work.lookedUp, Work.complete_of_open unfinished]
    exact completes.getsTo.trans (getsTo_finish r q')

theorem Completes.getsTo {chain : List String} {d : Document} {p q : Progress}
    {passes : List (List Call)} {r : Except Error Document} (h : world.Completes chain d p passes r q) :
    world.GetsTo (.pass chain d, p.cache) (.completed r, q.cache) := by
  cases h with
  | cyclic back =>
    rw [Work.pass_of_back back]
    exact .refl
  | failed forward fetches =>
    obtain ⟨parts, hparts, hbroken⟩ := fetches.getsTo d
    rw [Work.pass_of_forward forward]
    exact (hparts []).tail (.failed hbroken)
  | last forward fetches stays =>
    obtain ⟨parts, hparts, hgathered⟩ := fetches.getsTo d
    rw [Work.pass_of_forward forward, Work.completed, ← Work.rebuilt_of_stays stays chain]
    exact (hparts []).tail (.filled hgathered)
  | again forward fetches reveals completes =>
    obtain ⟨parts, hparts, hgathered⟩ := fetches.getsTo d
    have hagain := completes.getsTo
    rw [← Work.rebuilt_of_reveals reveals chain] at hagain
    rw [Work.pass_of_forward forward]
    exact ((hparts []).tail (.filled hgathered)).trans hagain

theorem FetchesAll.getsTo {chain names : List String} {p q : Progress} {calls : List Call}
    {rest : Except Error (Table Document)} (h : world.FetchesAll chain names p calls rest q) (d : Document) :
    ∃ parts, (∀ before, world.GetsTo
        (.filling chain d (before ++ names.map fun n => (n, .asking chain n none)), p.cache)
        (.filling chain d (before ++ parts), q.cache)) ∧
      world.Ended parts rest := by
  cases h with
  | nil => exact ⟨[], fun before => .refl, .nil⟩
  | @failed _ names n _ _ _ r e fetches missing =>
    refine ⟨(n, .done r) :: names.map fun n => (n, .asking chain n none), fun before => ?_, ?_⟩
    · exact fetches.getsTo.part
    · exact ⟨n, r, List.mem_cons_self, missing⟩
  | @cons _ names n _ _ _ _ _ r found rest fetches answered others =>
    obtain ⟨parts, hparts, hended⟩ := others.getsTo d
    refine ⟨(n, .done r) :: parts, fun before => ?_, hended.cons answered⟩
    have hrest := hparts (before ++ [(n, .done r)])
    rw [List.append_assoc, List.append_assoc] at hrest
    exact fetches.getsTo.part.trans hrest

end

end Surroundings

end Templating
