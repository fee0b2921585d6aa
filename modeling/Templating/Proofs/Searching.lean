import Templating.Proofs.Running

/-!
# Registrations and searches

Sources are registered one after the other, and a key that is taken is refused. What the registry searches is
told by the registrations: the keys of the searchable ones that were accepted, in their order. A search asks
the sources of some keys in order, each once and allowing it to leave its view, up to the first that has the
template or forbids it. A thread and a task search alike if every source answers both alike. Nothing of this
depends on what the sources hold, or on how much.
-/

namespace Templating

/-! ### Registrations -/

structure Registration (σ : Type) where
  key : String
  source : σ
  searchable : Bool

namespace Registry

variable {σ : Type}

/-- A registration with its answer. -/
structure Event (σ : Type) where
  call : Registration σ
  answer : Except Error Unit

def Event.key (event : Event σ) : String := event.call.key

/-- The source was accepted, and is searched from then on. -/
def Event.joins (event : Event σ) : Bool := event.answer.isOk && event.call.searchable

/-- The answer to a registration, and the registry after it. -/
def enroll (registry : Registry σ) (call : Registration σ) : Except Error Unit × Registry σ :=
  match registry.register call.key call.source call.searchable with
  | .ok next => (.ok (), next)
  | .error e => (.error e, registry)

/-- What happens when sources are registered one after the other, and the registry after that. -/
def enrollAll (registry : Registry σ) : List (Registration σ) → List (Event σ) × Registry σ
  | [] => ([], registry)
  | call :: calls =>
    let (answer, next) := registry.enroll call
    let (events, last) := enrollAll next calls
    (⟨call, answer⟩ :: events, last)

variable {registry : Registry σ} {call : Registration σ} {events : List (Event σ)}

theorem enroll_of_taken (h : Table.has registry.sources call.key = true) :
    registry.enroll call = (.error (.duplicateSource call.key), registry) := by
  unfold enroll register
  rw [if_pos h]

theorem enroll_of_free (h : Table.has registry.sources call.key = false) :
    registry.enroll call = (.ok (),
      { sources := Table.insert call.key call.source registry.sources
        order := if call.searchable then registry.order ++ [call.key] else registry.order }) := by
  unfold enroll register
  rw [h]
  rfl

theorem enrollAll_cons (calls : List (Registration σ)) :
    registry.enrollAll (call :: calls) =
      (⟨call, (registry.enroll call).1⟩ :: ((registry.enroll call).2.enrollAll calls).1,
        ((registry.enroll call).2.enrollAll calls).2) := rfl

theorem enrollAll_append (calls more : List (Registration σ)) :
    registry.enrollAll (calls ++ more) =
      ((registry.enrollAll calls).1 ++ ((registry.enrollAll calls).2.enrollAll more).1,
        ((registry.enrollAll calls).2.enrollAll more).2) := by
  induction calls generalizing registry with
  | nil => rfl
  | cons call calls ih =>
    rw [List.cons_append, enrollAll_cons, ih]
    rfl

theorem map_call_enrollAll (calls : List (Registration σ)) :
    (registry.enrollAll calls).1.map Event.call = calls := by
  induction calls generalizing registry with
  | nil => rfl
  | cons call calls ih => exact congrArg (call :: ·) ih

/-- What a history of registrations says of the registry that they made of the empty one. -/
structure Follows (registry : Registry σ) (events : List (Event σ)) : Prop where
  /-- A key is refused exactly if it was registered before. -/
  answer : ∀ earlier event later, events = earlier ++ event :: later →
    event.answer = if event.key ∈ earlier.map Event.key then .error (.duplicateSource event.key) else .ok ()
  order : registry.order = (events.filter Event.joins).map Event.key
  nodup : registry.order.Nodup
  /-- A key has the source that it was first registered with. -/
  source : ∀ key, Table.get? registry.sources key =
    (events.find? fun event => event.key == key).map fun event => event.call.source

theorem follows_empty : Follows (empty : Registry σ) [] where
  answer earlier event later h := by cases earlier <;> cases h
  order := rfl
  nodup := List.nodup_nil
  source _ := rfl

theorem isSome_find?_key {key : String} :
    (events.find? fun event => event.key == key).isSome = true ↔ key ∈ events.map Event.key := by
  rw [List.find?_isSome]
  simp only [beq_iff_eq, List.mem_map]

theorem Follows.has_iff (h : registry.Follows events) (key : String) :
    Table.has registry.sources key = true ↔ key ∈ events.map Event.key := by
  unfold Table.has
  rw [h.source, Option.isSome_map, isSome_find?_key]

theorem Follows.mem_of_mem_order (h : registry.Follows events) {key : String} (hkey : key ∈ registry.order) :
    key ∈ events.map Event.key := by
  rw [h.order] at hkey
  obtain ⟨event, hevent, rfl⟩ := List.mem_map.1 hkey
  exact List.mem_map_of_mem (List.mem_filter.1 hevent).1

theorem Follows.answer_concat (h : registry.Follows events) {event : Event σ}
    (hevent : event.answer =
      if event.key ∈ events.map Event.key then .error (.duplicateSource event.key) else .ok ())
    (earlier : List (Event σ)) (e : Event σ) (later : List (Event σ))
    (hsplit : events ++ [event] = earlier ++ e :: later) :
    e.answer = if e.key ∈ earlier.map Event.key then .error (.duplicateSource e.key) else .ok () := by
  rcases List.eq_nil_or_concat later with rfl | ⟨later, last, rfl⟩
  · obtain ⟨rfl, rfl⟩ := List.append_singleton_inj.1 hsplit
    exact hevent
  · rw [List.concat_eq_append, ← List.cons_append, ← List.append_assoc] at hsplit
    exact h.answer earlier e later (List.append_singleton_inj.1 hsplit).1

theorem Follows.refused (h : registry.Follows events) (hkey : call.key ∈ events.map Event.key) :
    registry.Follows (events ++ [⟨call, .error (.duplicateSource call.key)⟩]) where
  answer := h.answer_concat (if_pos hkey).symm
  order := by
    rw [List.filter_append, h.order]
    exact congrArg _ (List.append_nil _).symm
  nodup := h.nodup
  source key := by
    have hlast : Event.key ⟨call, .error (.duplicateSource call.key)⟩ = call.key := rfl
    rw [h.source, List.find?_append, List.find?_singleton, hlast]
    by_cases hsame : call.key = key
    -- the key is found at an earlier registration already
    · rw [Option.or_of_isSome (isSome_find?_key.2 (hsame ▸ hkey))]
    · rw [if_neg (mt beq_iff_eq.1 hsame), Option.or_none]

theorem Follows.accepted (h : registry.Follows events) (hkey : call.key ∉ events.map Event.key) :
    Follows
      { sources := Table.insert call.key call.source registry.sources
        order := if call.searchable then registry.order ++ [call.key] else registry.order }
      (events ++ [⟨call, .ok ()⟩]) where
  answer := h.answer_concat (if_neg hkey).symm
  order := by
    have hlast : ([⟨call, .ok ()⟩] : List (Event σ)).filter Event.joins =
        if call.searchable then [⟨call, .ok ()⟩] else [] := by
      cases hs : call.searchable <;> simp [Event.joins, Except.isOk, Except.toBool, hs]
    rw [List.filter_append, List.map_append, ← h.order, hlast]
    cases call.searchable with
    | true => rfl
    | false => exact (List.append_nil _).symm
  nodup := by
    have hnot : call.key ∉ registry.order := fun hin => hkey (h.mem_of_mem_order hin)
    split
    · exact List.Nodup.append h.nodup (List.nodup_singleton _) (by simpa using hnot)
    · exact h.nodup
  source key := by
    have hlast : Event.key ⟨call, .ok ()⟩ = call.key := rfl
    rw [Table.get?_insert, List.find?_append, List.find?_singleton, hlast]
    by_cases hsame : key = call.key
    -- no earlier registration has the key
    · have hnone : (events.find? fun event => event.key == key) = none := by
        rw [← Option.not_isSome_iff_eq_none, isSome_find?_key, hsame]
        exact hkey
      rw [if_pos hsame, hnone, if_pos (beq_iff_eq.2 hsame.symm)]
      rfl
    · rw [if_neg hsame, if_neg (mt beq_iff_eq.1 (Ne.symm hsame)), Option.or_none, h.source]

theorem Follows.enroll (h : registry.Follows events) (call : Registration σ) :
    (registry.enroll call).2.Follows (events ++ [⟨call, (registry.enroll call).1⟩]) := by
  by_cases htaken : Table.has registry.sources call.key = true
  · rw [enroll_of_taken htaken]
    exact h.refused ((h.has_iff call.key).1 htaken)
  · rw [enroll_of_free (Bool.eq_false_iff.2 htaken)]
    exact h.accepted fun hkey => htaken ((h.has_iff call.key).2 hkey)

theorem Follows.enrollAll (h : registry.Follows events) (calls : List (Registration σ)) :
    (registry.enrollAll calls).2.Follows (events ++ (registry.enrollAll calls).1) := by
  induction calls generalizing registry events with
  | nil => rwa [Registry.enrollAll, List.append_nil]
  | cons call calls ih =>
    have hrest := ih (h.enroll call)
    rwa [List.append_assoc] at hrest

theorem follows_enrollAll (calls : List (Registration σ)) :
    (empty.enrollAll calls).2.Follows (empty.enrollAll calls).1 :=
  follows_empty.enrollAll calls

/-- A registration that is refused can as well be left out. -/
theorem enrollAll_without {before after : List (Registration σ)} {call : Registration σ}
    (h : call.key ∈ before.map Registration.key) :
    (empty.enrollAll (before ++ call :: after)).2 = (empty.enrollAll (before ++ after)).2 := by
  have htaken : Table.has (empty.enrollAll before).2.sources call.key = true := by
    rw [(follows_enrollAll before).has_iff]
    have hcalls := @map_call_enrollAll σ empty before
    rw [← hcalls, List.map_map] at h
    exact h
  rw [enrollAll_append, enrollAll_append, enrollAll_cons, enroll_of_taken htaken]

/-! ### What a search finds -/

section Search

variable [Readable σ] (registry : Registry σ) (template : String)

/-- What the source of a key answers when it may leave its view. -/
def reading (key : String) : Option (Except Error String) :=
  (Table.get? registry.sources key).map fun source => Readable.read source template true

/-- The source of a key fails without forbidding access. -/
def Misses (key : String) : Prop :=
  ∃ e, registry.reading template key = some (.error e) ∧ ∀ why, e ≠ .illegalAccess why

/-- What a search through the sources of some keys comes to, and which of them it asks. -/
inductive Finds (keys : List String) : Search → Prop where
  | found {before after : List String} {key text : String} (hkeys : keys = before ++ key :: after)
    (hbefore : ∀ k ∈ before, registry.Misses template k)
    (h : registry.reading template key = some (.ok text)) : Finds keys ⟨before ++ [key], .ok (key, text)⟩
  | forbidden {before after : List String} {key : String} {why : Denial}
    (hkeys : keys = before ++ key :: after) (hbefore : ∀ k ∈ before, registry.Misses template k)
    (h : registry.reading template key = some (.error (.illegalAccess why))) :
    Finds keys ⟨before ++ [key], .error (.illegalAccess why)⟩
  | nowhere (h : ∀ k ∈ keys, registry.Misses template k) :
    Finds keys ⟨keys, .error (.noTemplateExists template)⟩

variable {registry template} {keys : List String} {search : Search}

theorem Finds.behind {key : String} (h : registry.Finds template keys search)
    (hkey : registry.Misses template key) :
    registry.Finds template (key :: keys) { search with asked := key :: search.asked } := by
  cases h with
  | found hkeys hbefore h =>
    exact .found (congrArg (key :: ·) hkeys) (List.forall_mem_cons.2 ⟨hkey, hbefore⟩) h
  | forbidden hkeys hbefore h =>
    exact .forbidden (congrArg (key :: ·) hkeys) (List.forall_mem_cons.2 ⟨hkey, hbefore⟩) h
  | nowhere h => exact .nowhere (List.forall_mem_cons.2 ⟨hkey, h⟩)

theorem Finds.asked_prefix (h : registry.Finds template keys search) : search.asked <+: keys := by
  cases h with
  | found hkeys => exact ⟨_, by rw [hkeys, List.append_assoc]; rfl⟩
  | forbidden hkeys => exact ⟨_, by rw [hkeys, List.append_assoc]; rfl⟩
  | nowhere => exact List.prefix_rfl

theorem finds_searchAmong {sources : List (String × σ)}
    (h : ∀ entry ∈ sources, Table.get? registry.sources entry.1 = some entry.2) :
    registry.Finds template (sources.map Prod.fst) (searchAmong template sources) := by
  induction sources with
  | nil => exact .nowhere nofun
  | cons entry sources ih =>
    obtain ⟨key, source⟩ := entry
    have hsource : registry.reading template key = some (Readable.read source template true) := by
      unfold reading
      rw [h (key, source) List.mem_cons_self]
      rfl
    have hfirst : ((key, source) :: sources).map Prod.fst = [] ++ key :: sources.map Prod.fst := rfl
    have hrest := ih fun entry he => h entry (List.mem_cons_of_mem _ he)
    rw [searchAmong]
    cases hread : Readable.read source template true with
    | ok text =>
      rw [hread] at hsource
      exact .found hfirst (List.forall_mem_nil _) hsource
    | error e =>
      rw [hread] at hsource
      cases e with
      | illegalAccess why => exact .forbidden hfirst (List.forall_mem_nil _) hsource
      | _ => exact hrest.behind ⟨_, hsource, fun _ => Error.noConfusion⟩

end Search

/-! ### Searches of registered sources -/

/-- The keys that a search goes through: the one that is given, or else all that are searchable. -/
def keysFor (registry : Registry σ) : Option String → List String
  | some key => [key]
  | none => registry.order

section Candidates

theorem candidates_eq {explicit : Option String}
    (hknown : ∀ key, explicit = some key → Table.has registry.sources key = true)
    (hkeys : registry.keysFor explicit ≠ []) :
    registry.candidates explicit =
      .ok (Table.tabulate (Table.get? registry.sources) (registry.keysFor explicit)) := by
  unfold candidates
  cases explicit with
  | some key =>
    dsimp only
    rw [if_pos (hknown key rfl)]
    rfl
  | none =>
    have horder : registry.order.isEmpty = false := List.isEmpty_eq_false_iff.2 hkeys
    dsimp only
    rw [horder]
    rfl

theorem mem_candidates {explicit : Option String} {sources : List (String × σ)}
    (h : registry.candidates explicit = .ok sources) {entry : String × σ} (he : entry ∈ sources) :
    Table.get? registry.sources entry.1 = some entry.2 := by
  obtain ⟨keys, rfl⟩ := exists_of_map_eq_ok h
  exact Table.eq_some_of_mem_tabulate he

theorem Follows.nodup_keysFor (h : registry.Follows events) (explicit : Option String) :
    (registry.keysFor explicit).Nodup := by
  cases explicit with
  | some key => exact List.nodup_singleton key
  | none => exact h.nodup

variable [Readable σ] {template key : String}

theorem find_of_unknown (h : Table.has registry.sources key = false) :
    registry.find template (some key) = ⟨[], .error (.illegalAccess (.unknownSource key))⟩ := by
  unfold find candidates
  dsimp only
  rw [h]
  rfl

theorem find_of_nothing (h : registry.order = []) :
    registry.find template none = ⟨[], .error (.illegalAccess .nothingToSearch)⟩ := by
  unfold find candidates
  dsimp only
  rw [h]
  rfl

theorem Follows.finds (h : registry.Follows events) {explicit : Option String}
    (hknown : ∀ key, explicit = some key → key ∈ events.map Event.key)
    (hkeys : registry.keysFor explicit ≠ []) :
    registry.Finds template (registry.keysFor explicit) (registry.find template explicit) := by
  have hhas : ∀ key ∈ registry.keysFor explicit, Table.has registry.sources key = true := by
    intro key hkey
    rw [h.has_iff]
    cases explicit with
    | some given => exact hknown key (congrArg some (List.mem_singleton.1 hkey).symm)
    | none => exact h.mem_of_mem_order hkey
  have hcandidates := candidates_eq (fun key hkey => (h.has_iff key).2 (hknown key hkey)) hkeys
  unfold find
  rw [hcandidates]
  have hfinds := @finds_searchAmong σ _ registry template
    (Table.tabulate (Table.get? registry.sources) (registry.keysFor explicit))
    fun _ => Table.eq_some_of_mem_tabulate
  have hsearched := Table.keys_tabulate hhas
  rw [Table.keys] at hsearched
  rwa [hsearched] at hfinds

theorem Follows.nodup_asked (h : registry.Follows events) (template : String) (explicit : Option String) :
    (registry.find template explicit).asked.Nodup := by
  have hsearched : (∀ key, explicit = some key → key ∈ events.map Event.key) → registry.keysFor explicit ≠ [] →
      (registry.find template explicit).asked.Nodup := by
    intro hknown hkeys
    have hfinds := @h.finds _ _ _ _ template explicit hknown hkeys
    exact hfinds.asked_prefix.sublist.nodup (h.nodup_keysFor explicit)
  cases explicit with
  | some key =>
    by_cases hkey : key ∈ events.map Event.key
    · exact hsearched (fun k hk => Option.some.inj hk ▸ hkey) (List.cons_ne_nil key [])
    · have hfree : Table.has registry.sources key = false :=
        Bool.eq_false_iff.2 fun hhas => hkey ((h.has_iff key).1 hhas)
      rw [find_of_unknown hfree]
      exact List.nodup_nil
  | none =>
    by_cases horder : registry.order = []
    · rw [find_of_nothing horder]
      exact List.nodup_nil
    · exact hsearched nofun horder

end Candidates

/-! ### Threads and tasks -/

/-- What the source of a key answers when it is asked for a template, with leave to quit its view or not. -/
abbrev Answers (σ : Type) := String → σ → String → Bool → Except Error String

/-- A thread is answered at once. -/
def Answers.atOnce [Readable σ] : Answers σ := fun _ => Readable.read

section Ask

open Resolve

variable (answers : Answers σ)

/-- One question to a source, which is recorded as it is put. -/
def ask (template : String) (escape : Bool) (key : String) (source : σ) :
    Resolve (Except Error String) := do
  modify fun progress => { progress with reads := progress.reads ++ [⟨key, template, escape⟩] }
  pure (answers key source template escape)

/-- Asks one source behind the other. -/
def askEach (template : String) : List (String × σ) → Resolve (String × String)
  | [] => throw (.noTemplateExists template)
  | (key, source) :: sources => do
    match ← ask answers template true key source with
    | .ok text => pure (key, text)
    | .error (.illegalAccess why) => throw (.illegalAccess why)
    | .error _ => askEach template sources

/-- The search of a thread or of a task, by what sources answer it. -/
def findBy (registry : Registry σ) (template : String) (explicit : Option String) : Resolve (String × String) :=
  match registry.candidates explicit with
  | .ok sources => askEach answers template sources
  | .error e => throw e

variable {answers : Answers σ} [Readable σ]

theorem exec_askEach {template : String} {sources : List (String × σ)}
    (h : ∀ entry ∈ sources, answers entry.1 entry.2 = Readable.read entry.2) (p : Progress) :
    exec (askEach answers template sources) p =
      ((searchAmong template sources).found,
        { p with reads := p.reads ++ (searchAmong template sources).asked.map (⟨·, template, true⟩) }) := by
  induction sources generalizing p with
  | nil =>
    rw [searchAmong, List.map_nil, List.append_nil]
    rfl
  | cons entry sources ih =>
    obtain ⟨key, source⟩ := entry
    have hanswer : answers key source template true = Readable.read source template true := by
      rw [h (key, source) List.mem_cons_self]
    have hask : exec (ask answers template true key source) p =
        (.ok (Readable.read source template true), { p with reads := p.reads ++ [⟨key, template, true⟩] }) := by
      rw [← hanswer]
      rfl
    have hrest := fun q => @ih (fun entry he => h entry (List.mem_cons_of_mem _ he)) q
    rw [askEach, exec_bind_ok hask, searchAmong]
    cases Readable.read source template true with
    | ok text => rfl
    | error e =>
      cases e with
      | illegalAccess why => rfl
      | _ =>
        refine (hrest _).trans ?_
        dsimp only
        rw [List.map_cons, List.append_assoc]
        rfl

theorem exec_findBy
    (h : ∀ key source, Table.get? registry.sources key = some source → answers key source = Readable.read source)
    (template : String) (explicit : Option String) (p : Progress) :
    exec (findBy answers registry template explicit) p =
      ((registry.find template explicit).found,
        { p with
          reads := p.reads ++ (registry.find template explicit).asked.map (⟨·, template, true⟩) }) := by
  unfold findBy find
  cases hcandidates : registry.candidates explicit with
  | ok sources =>
    exact exec_askEach (fun entry he => h entry.1 entry.2 (mem_candidates hcandidates he)) p
  | error e =>
    dsimp only
    rw [List.map_nil, List.append_nil]
    rfl

end Ask

/-- What registrations make of a registry, and what its searches come to. An unknown key and a registry with
nothing to search are denied without a question; any other search goes through its keys in order, each asked
at most once and with leave to quit its view. A thread is answered so, and a task too if the sources answer
both alike. -/
theorem registered_searches [Readable σ] (calls : List (Registration σ)) :
    let events := (empty.enrollAll calls).1
    let registry := (empty.enrollAll calls).2
    (∀ source : σ, single source = (empty.enrollAll [⟨"default", source, true⟩]).2) ∧
    events.map Event.call = calls ∧ registry.Follows events ∧
    (∀ before call after, calls = before ++ call :: after → call.key ∈ before.map Registration.key →
      registry = (empty.enrollAll (before ++ after)).2) ∧
    ∀ (template : String) (explicit : Option String),
      let search := registry.find template explicit
      (∀ key, explicit = some key → key ∉ calls.map Registration.key →
        search = ⟨[], .error (.illegalAccess (.unknownSource key))⟩) ∧
      (explicit = none → registry.order = [] → search = ⟨[], .error (.illegalAccess .nothingToSearch)⟩) ∧
      ((∀ key, explicit = some key → key ∈ calls.map Registration.key) → registry.keysFor explicit ≠ [] →
        registry.Finds template (registry.keysFor explicit) search) ∧
      search.asked.Nodup ∧
      (∀ p, Resolve.exec (findBy .atOnce registry template explicit) p =
        (search.found, { p with reads := p.reads ++ search.asked.map (⟨·, template, true⟩) })) ∧
      ∀ answers : Answers σ,
        (∀ key source, Table.get? registry.sources key = some source → answers key source = Readable.read source) →
          findBy answers registry template explicit = findBy .atOnce registry template explicit := by
  intro events registry
  have hfollows : registry.Follows events := follows_enrollAll calls
  have hcalls : events.map Event.call = calls := map_call_enrollAll calls
  have hkeys : events.map Event.key = calls.map Registration.key := by
    rw [← hcalls, List.map_map]
    rfl
  refine ⟨fun _ => rfl, hcalls, hfollows, ?_, fun template explicit => ?_⟩
  · rintro before call after rfl htaken
    exact enrollAll_without htaken
  · intro search
    have hthread := @exec_findBy σ registry .atOnce _ (fun _ _ _ => rfl) template explicit
    refine ⟨?_, ?_, fun hknown => hfollows.finds fun key hkey => hkeys ▸ hknown key hkey,
      hfollows.nodup_asked template explicit, hthread, ?_⟩
    · rintro key rfl hunknown
      refine find_of_unknown (Bool.eq_false_iff.2 fun hhas => hunknown ?_)
      rw [← hkeys]
      exact (hfollows.has_iff key).1 hhas
    · rintro rfl hnothing
      exact find_of_nothing hnothing
    · intro answers hanswers
      refine funext fun p => ?_
      exact (exec_findBy hanswers template explicit p).trans (hthread p).symm

/-- A source that cannot read, one that has the template, registered once by itself and once under a key that
is taken, and one that forbids access: the search ends with the second. -/
theorem registered_searches_mixed :
    let broken : Source := .failing fun template => .readFailed template (.other "broken")
    let forbidding : Source := .failing fun template => .illegalAccess (.other template)
    let holding : Source := ((Memory.empty defaultExtension).insert "t" "text").source
    let before : List (Registration Source) := [⟨"a", broken, true⟩, ⟨"s", holding, false⟩, ⟨"b", holding, true⟩]
    let refused : Registration Source := ⟨"a", holding, true⟩
    let after : List (Registration Source) := [⟨"c", forbidding, true⟩]
    let registry := (empty.enrollAll (before ++ refused :: after)).2
    let answers : Answers Source := fun key source =>
      if key = "lost" then fun template _ => .error (.noTemplateExists template) else source.read
    (refused.key ∈ before.map Registration.key ∧ registry = (empty.enrollAll (before ++ after)).2) ∧
      (registry.keysFor none = ["a", "b", "c"] ∧
        registry.Finds "t" (registry.keysFor none) (registry.find "t" none)) ∧
      (∀ key source, Table.get? registry.sources key = some source → answers key source = source.read) ∧
      findBy answers registry "t" none = findBy .atOnce registry "t" none ∧
      (registry.find "t" none).asked = ["a", "b"] := by
  intro broken forbidding holding before refused after registry answers
  obtain ⟨-, -, -, hwithout, hsearch⟩ := registered_searches (before ++ refused :: after)
  obtain ⟨-, -, hfinds, -, -, htask⟩ := hsearch "t" none
  have htaken : refused.key ∈ before.map Registration.key := by decide
  have hkeys : registry.keysFor none = ["a", "b", "c"] := by decide +kernel
  have hanswers : ∀ key source, Table.get? registry.sources key = some source →
      answers key source = source.read := by
    intro key source hsource
    have hunknown : Table.has registry.sources "lost" = false := by decide +kernel
    refine if_neg fun hlost => ?_
    rw [hlost, Table.has_eq_false_iff.1 hunknown] at hsource
    cases hsource
  have hsearched : registry.keysFor none ≠ [] := hkeys ▸ List.cons_ne_nil "a" ["b", "c"]
  exact ⟨⟨htaken, hwithout before refused after rfl htaken⟩, ⟨hkeys, hfinds nofun hsearched⟩, hanswers,
    htask answers hanswers, by decide +kernel⟩

end Registry

end Templating
