import Mathlib.Data.Set.Card
import Templating.Cache

/-!
# Histories of a cache

Threads, tasks and tasks that are handed the access of a thread insert, retrieve and remove documents and
turn the switch, in any order. What the cache holds is then told by the history alone: under each name the
document of the latest insertion that the switch was on for and that succeeded, if no removal that the
switch was on for came after it.
-/

namespace Templating

namespace Table

variable {α : Type} {t : Table α} {key : String}

theorem mem_keys_iff : key ∈ keys t ↔ ∃ value, get? t key = some value := by
  induction t with
  | nil => simp [keys]
  | cons entry t ih =>
    obtain ⟨k, v⟩ := entry
    have hkeys : keys ((k, v) :: t) = k :: keys t := rfl
    rw [hkeys, List.mem_cons, get?_cons, ih]
    by_cases h : key = k <;> simp [h]

theorem Sorted.nodup_keys (h : Sorted t) : (keys t).Nodup := h.imp fun hlt => String.ne_of_lt hlt

theorem Sorted.length_eq_encard (h : Sorted t) :
    (t.length : ℕ∞) = Set.encard {key | ∃ value, get? t key = some value} := by
  have hset : {key | ∃ value, get? t key = some value} = ((keys t).toFinset : Set String) :=
    Set.ext fun key => by rw [Finset.mem_coe, List.mem_toFinset, mem_keys_iff, Set.mem_ofPred_eq]
  rw [hset, Set.encard_coe_eq_coe_finsetCard, List.toFinset_card_of_nodup h.nodup_keys, keys, List.length_map]

end Table

namespace Cache

/-! ### Operations -/

/-- How an operation is issued. -/
inductive Route where
  | blocking
  | task
  /-- By a task, through the access of a thread that it is handed. -/
  | handed
deriving DecidableEq

def Route.access : Route → Access
  | .blocking => .blocking
  | .task => .task
  | .handed => .blocking

inductive Op where
  | insert (d : Document) (replace : Bool)
  | retrieve (name : String)
  | remove (name : String)
  | switch (on : Bool)

inductive Answer where
  | inserted (result : Except Error Document)
  | retrieved (result : Except Error (Option Document))
  | removed (result : Except Error Removal)
  | switched

inductive Answer.Failed : Answer → Prop where
  | inserted (e : Error) : Failed (.inserted (.error e))
  | retrieved (e : Error) : Failed (.retrieved (.error e))
  | removed (e : Error) : Failed (.removed (.error e))

/-- The answer to an operation, and the cache after it. -/
def perform (cache : Cache) (route : Route) : Op → Answer × Cache
  | .insert d replace =>
    match cache.insert d replace with
    | .ok next => (.inserted (.ok d), next)
    | .error e => (.inserted (.error e), cache)
  | .retrieve name => (.retrieved (cache.retrieve route.access name), cache)
  | .remove name =>
    match cache.remove name with
    | .ok (removal, next) => (.removed (.ok removal), next)
    | .error e => (.removed (.error e), cache)
  | .switch on => (.switched, cache.setEnabled on)

/-- An operation that was issued: whether the switch was on, and the answer. -/
structure Event where
  enabled : Bool
  op : Op
  answer : Answer

/-- What happens when operations are issued one after the other, and the cache after them. -/
def replay (cache : Cache) : List (Route × Op) → List Event × Cache
  | [] => ([], cache)
  | (route, op) :: history =>
    let (answer, next) := cache.perform route op
    let (events, last) := replay next history
    (⟨cache.enabled, op, answer⟩ :: events, last)

/-- How a history leaves the switch. -/
def leftOn (start : Bool) (history : List (Route × Op)) : Bool :=
  history.foldl (fun on call => match call.2 with
    | .switch turned => turned
    | _ => on) start

/-! ### What a history says -/

/-- A document was inserted while the switch was on, and that succeeded. -/
def Event.Puts (event : Event) (d : Document) : Prop :=
  event.enabled = true ∧ (∃ replace, event.op = .insert d replace) ∧ event.answer = .inserted (.ok d)

/-- A name was removed while the switch was on. -/
def Event.Drops (event : Event) (name : String) : Prop := event.enabled = true ∧ event.op = .remove name

/-- Nothing was inserted under a name, nor was it removed. -/
def Event.Spares (event : Event) (name : String) : Prop :=
  (∀ d, event.Puts d → d.name ≠ name) ∧ ¬ event.Drops name

/-- A document was inserted under a name, and that name was spared ever since. -/
def Held (events : List Event) (name : String) (d : Document) : Prop :=
  ∃ earlier event later, events = earlier ++ event :: later ∧ event.Puts d ∧ d.name = name ∧
    ∀ next ∈ later, next.Spares name

variable {cache : Cache} {events : List Event} {event : Event} {name : String} {d : Document}
  {route : Route} {op : Op}

theorem not_held_nil : ¬ Held [] name d := by
  rintro ⟨earlier, event, later, h, -⟩
  cases earlier <;> cases h

theorem held_concat : Held (events ++ [event]) name d ↔
    (event.Puts d ∧ d.name = name) ∨ (Held events name d ∧ event.Spares name) := by
  constructor
  · rintro ⟨earlier, put, later, hevents, hputs, hname, hspared⟩
    rcases List.eq_nil_or_concat later with rfl | ⟨later, last, rfl⟩
    · obtain ⟨-, rfl⟩ := List.append_singleton_inj.1 hevents
      exact .inl ⟨hputs, hname⟩
    · rw [List.concat_eq_append] at hevents hspared
      rw [← List.cons_append, ← List.append_assoc] at hevents
      obtain ⟨rfl, rfl⟩ := List.append_singleton_inj.1 hevents
      have hlater : ∀ next ∈ later, next.Spares name :=
        fun next hnext => hspared next (List.mem_append_left _ hnext)
      exact .inr ⟨⟨earlier, put, later, rfl, hputs, hname, hlater⟩,
        hspared event (List.mem_append_right _ (List.mem_singleton_self event))⟩
  · rintro (⟨hputs, hname⟩ | ⟨⟨earlier, put, later, rfl, hputs, hname, hspared⟩, hlast⟩)
    · exact ⟨events, event, [], rfl, hputs, hname, fun _ h => absurd h List.not_mem_nil⟩
    · refine ⟨earlier, put, later ++ [event], by simp, hputs, hname, fun next hnext => ?_⟩
      rcases List.mem_append.1 hnext with hnext | hnext
      · exact hspared next hnext
      · exact List.mem_singleton.1 hnext ▸ hlast

/-! ### One operation -/

theorem perform_of_failed (h : (cache.perform route op).1.Failed) : (cache.perform route op).2 = cache := by
  cases op with
  | insert d replace =>
    unfold perform at h ⊢
    dsimp only at h ⊢
    split at h
    · cases h
    · rfl
  | remove name =>
    unfold perform at h ⊢
    dsimp only at h ⊢
    split at h
    · cases h
    · rfl
  | retrieve name => rfl
  | switch on => cases h

theorem perform_insert_of_disabled (h : cache.enabled = false) (route : Route) (d : Document)
    (replace : Bool) : cache.perform route (.insert d replace) = (.inserted (.ok d), cache) := by
  simp [perform, insert_of_disabled h]

/-- While the switch is on, a document is in the way of another that may not replace it. -/
theorem perform_insert_cases (h : cache.enabled = true) (route : Route) (d : Document) (replace : Bool) :
    ((replace = false ∧ ∃ e, Table.get? cache.documents d.name = some e) ∧
      cache.perform route (.insert d replace) = (.inserted (.error (.keyExists d.name)), cache)) ∨
    (¬ (replace = false ∧ ∃ e, Table.get? cache.documents d.name = some e) ∧
      cache.perform route (.insert d replace) =
        (.inserted (.ok d), { cache with documents := Table.insert d.name d cache.documents })) := by
  cases replace with
  | true => exact .inr ⟨fun hin => Bool.noConfusion hin.1, by simp [perform, insert, h]⟩
  | false =>
    cases hget : Table.get? cache.documents d.name with
    | none =>
      have hfree : ¬ ∃ e, (none : Option Document) = some e := by simp
      exact .inr ⟨fun hin => hfree hin.2, by simp [perform, insert, Table.has, h, hget]⟩
    | some e => exact .inl ⟨⟨rfl, e, rfl⟩, by simp [perform, insert, Table.has, h, hget]⟩

theorem perform_remove_of_disabled (h : cache.enabled = false) (route : Route) (name : String) :
    cache.perform route (.remove name) = (.removed (.error .cachingDisabled), cache) := by
  simp [perform, remove, h]

theorem perform_remove_of_enabled (h : cache.enabled = true) (route : Route) (name : String) :
    cache.perform route (.remove name) =
      (.removed (.ok (if Table.has cache.documents name then .removed else .notFound)),
        { cache with documents := Table.erase name cache.documents }) := by
  simp [perform, remove, h]

theorem perform_retrieve_of_enabled (h : cache.enabled = true) (route : Route) (name : String) :
    cache.perform route (.retrieve name) = (.retrieved (.ok (Table.get? cache.documents name)), cache) := by
  rw [perform, retrieve_of_enabled h]

/-- While the switch is off, a task is told that there is nothing, and a thread that the cache is off. -/
theorem perform_retrieve_of_disabled (h : cache.enabled = false) (route : Route) (name : String) :
    cache.perform route (.retrieve name) =
      (.retrieved (if route = .task then .ok none else .error .cachingDisabled), cache) := by
  cases route <;> simp [perform, retrieve, Route.access, h]

theorem perform_of_disabled (h : cache.enabled = false) (route : Route) (op : Op) :
    (cache.perform route op).2 = cache ∨ op = .switch true := by
  cases op with
  | insert d replace => exact .inl (by rw [perform_insert_of_disabled h])
  | remove name => exact .inl (by rw [perform_remove_of_disabled h])
  | retrieve name => exact .inl rfl
  | switch on =>
    cases on with
    | true => exact .inr rfl
    | false =>
      have hsame : cache.setEnabled false = cache := by rw [setEnabled, ← h]
      exact .inl hsame

theorem documents_perform_of_disabled (h : cache.enabled = false) (route : Route) (op : Op) :
    (cache.perform route op).2.documents = cache.documents := by
  rcases perform_of_disabled h route op with hsame | rfl
  · rw [hsame]
  · rfl

theorem perform_eq_of_route (route other : Route) (h : cache.enabled = true ∨ ∀ name, op ≠ .retrieve name) :
    cache.perform route op = cache.perform other op := by
  cases op with
  | retrieve name =>
    rcases h with hon | hop
    · rw [perform_retrieve_of_enabled hon, perform_retrieve_of_enabled hon]
    · exact absurd rfl (hop name)
  | _ => rfl

/-- What a history says is what the cache has. -/
structure Refines (events : List Event) (cache : Cache) : Prop where
  held : ∀ name d, Table.get? cache.documents name = some d ↔ Held events name d
  sorted : Table.Sorted cache.documents

theorem refines_empty (start : Bool) : Refines [] (.empty start) where
  held _ _ := iff_of_false (fun h => by cases h) not_held_nil
  sorted := List.Pairwise.nil

theorem Refines.idle (h : Refines events cache) {next : Cache} (hnext : next.documents = cache.documents)
    (hputs : ∀ d, ¬ event.Puts d) (hdrops : ∀ name, ¬ event.Drops name) :
    Refines (events ++ [event]) next where
  held name d := by
    have hspares : event.Spares name := ⟨fun e hput => absurd hput (hputs e), hdrops name⟩
    rw [hnext, held_concat, h.held]
    exact ⟨fun hheld => .inr ⟨hheld, hspares⟩,
      fun hheld => hheld.elim (fun hput => absurd hput.1 (hputs d)) And.left⟩
  sorted := hnext ▸ h.sorted

theorem Refines.inserted (h : Refines events cache) (hon : cache.enabled = true) (d : Document)
    (replace : Bool) :
    Refines (events ++ [⟨cache.enabled, .insert d replace, .inserted (.ok d)⟩])
      { cache with documents := Table.insert d.name d cache.documents } where
  held name e := by
    have hputs : ∀ f, Event.Puts ⟨cache.enabled, .insert d replace, .inserted (.ok d)⟩ f ↔ f = d := by
      intro f
      refine ⟨fun hput => ?_, fun hf => hf ▸ ⟨hon, ⟨replace, rfl⟩, rfl⟩⟩
      exact (Except.ok.inj (Answer.inserted.inj hput.2.2)).symm
    have hspares : Event.Spares ⟨cache.enabled, .insert d replace, .inserted (.ok d)⟩ name ↔
        d.name ≠ name := by
      refine ⟨fun hspared => hspared.1 d ((hputs d).2 rfl), fun hne => ⟨fun f hput => ?_, fun hdrop => ?_⟩⟩
      · exact (hputs f).1 hput ▸ hne
      · cases hdrop.2
    rw [held_concat, hputs, hspares, ← h.held, Table.get?_insert]
    split
    · next hname =>
      subst hname
      simp only [ne_eq, not_true_eq_false, and_false, or_false, Option.some.injEq]
      exact ⟨fun he => ⟨he.symm, he ▸ rfl⟩, fun he => he.1.symm⟩
    · next hname =>
      refine ⟨fun hget => .inr ⟨hget, Ne.symm hname⟩, fun hheld => hheld.elim (fun hput => ?_) And.left⟩
      exact absurd (hput.2.symm.trans (congrArg Document.name hput.1)) hname
  sorted := h.sorted.insert d.name d

theorem Refines.removed (h : Refines events cache) (hon : cache.enabled = true) (name : String)
    (answer : Answer) :
    Refines (events ++ [⟨cache.enabled, .remove name, answer⟩])
      { cache with documents := Table.erase name cache.documents } where
  held n e := by
    have hputs : ∀ f, ¬ Event.Puts ⟨cache.enabled, .remove name, answer⟩ f := fun f hput => by
      obtain ⟨replace, hop⟩ := hput.2.1
      cases hop
    have hspares : Event.Spares ⟨cache.enabled, .remove name, answer⟩ n ↔ n ≠ name := by
      refine ⟨fun hspared heq => hspared.2 ⟨hon, heq ▸ rfl⟩, fun hne => ⟨fun f hput => ?_, fun hdrop => ?_⟩⟩
      · exact absurd hput (hputs f)
      · exact hne (Op.remove.inj hdrop.2).symm
    rw [held_concat, hspares, ← h.held, Table.get?_erase]
    split
    · next heq => simp [hputs, heq]
    · next hne => simp [hputs, hne]
  sorted := h.sorted.erase name

theorem Refines.perform (h : Refines events cache) (route : Route) (op : Op) :
    Refines (events ++ [⟨cache.enabled, op, (cache.perform route op).1⟩]) (cache.perform route op).2 := by
  cases hon : cache.enabled with
  | false =>
    refine h.idle (documents_perform_of_disabled hon route op) (fun d hput => ?_) fun name hdrop => ?_
    · cases hput.1
    · cases hdrop.1
  | true =>
    cases op with
    | insert d replace =>
      rcases perform_insert_cases hon route d replace with ⟨-, hrefused⟩ | ⟨-, hstored⟩
      · rw [hrefused]
        refine h.idle rfl (fun f hput => ?_) fun name hdrop => ?_
        · cases hput.2.2
        · cases hdrop.2
      · rw [hstored, ← hon]
        exact h.inserted hon d replace
    | retrieve name =>
      exact h.idle rfl (fun d hput => hput.2.1.elim fun _ => Op.noConfusion) fun _ hdrop => by cases hdrop.2
    | remove name =>
      rw [perform_remove_of_enabled hon, ← hon]
      exact h.removed hon name _
    | switch on =>
      exact h.idle rfl (fun d hput => hput.2.1.elim fun _ => Op.noConfusion) fun _ hdrop => by cases hdrop.2

/-! ### Whole histories -/

theorem Refines.replay (h : Refines events cache) (history : List (Route × Op)) :
    Refines (events ++ (cache.replay history).1) (cache.replay history).2 := by
  induction history generalizing cache events with
  | nil => rwa [Cache.replay, List.append_nil]
  | cons call history ih =>
    obtain ⟨route, op⟩ := call
    have hrest := ih (h.perform route op)
    rw [List.append_assoc] at hrest
    exact hrest

theorem enabled_perform (cache : Cache) (route : Route) (op : Op) :
    (cache.perform route op).2.enabled = leftOn cache.enabled [(route, op)] := by
  cases op with
  | insert d replace =>
    cases hon : cache.enabled with
    | false => rw [perform_insert_of_disabled hon]; exact hon
    | true => rcases perform_insert_cases hon route d replace with ⟨-, h⟩ | ⟨-, h⟩ <;> rw [h] <;> exact hon
  | remove name =>
    cases hon : cache.enabled with
    | false => rw [perform_remove_of_disabled hon]; exact hon
    | true => rw [perform_remove_of_enabled hon]; exact hon
  | retrieve name => rfl
  | switch on => rfl

theorem enabled_replay (cache : Cache) (history : List (Route × Op)) :
    (cache.replay history).2.enabled = leftOn cache.enabled history := by
  induction history generalizing cache with
  | nil => rfl
  | cons call history ih =>
    obtain ⟨route, op⟩ := call
    exact (ih _).trans (congrArg (leftOn · history) (enabled_perform cache route op))

theorem replay_until_on (h : cache.enabled = false) {meanwhile : List (Route × Op)}
    (hoff : ∀ call ∈ meanwhile, call.2 ≠ .switch true) (route : Route) :
    (cache.replay (meanwhile ++ [(route, .switch true)])).2 = cache.setEnabled true := by
  induction meanwhile with
  | nil => rfl
  | cons call meanwhile ih =>
    obtain ⟨hcall, hrest⟩ := List.forall_mem_cons.1 hoff
    have hsame := (perform_of_disabled h call.1 call.2).resolve_right hcall
    have hnext : (cache.replay (call :: meanwhile ++ [(route, .switch true)])).2 =
        ((cache.perform call.1 call.2).2.replay (meanwhile ++ [(route, .switch true)])).2 := rfl
    rw [hnext, hsame]
    exact ih hrest

/-- A cache does what a history says: it is a map of names with a switch. -/
structure Obeys (cache : Cache) (events : List Event) : Prop where
  /-- While the switch is on, every way of asking gives what the history holds under a name. -/
  retrieves : cache.enabled = true → ∀ route name, ∃ found,
    cache.perform route (.retrieve name) = (.retrieved (.ok found), cache) ∧
      ∀ d, found = some d ↔ Held events name d
  /-- Switched on or off, the count is the number of names that the history holds. -/
  counts : (cache.count : ℕ∞) = Set.encard {name | ∃ d, Held events name d}
  /-- Only a document that may not replace another is refused, and only while the switch is on. -/
  refuses : ∀ route d replace e, (cache.perform route (.insert d replace)).1 = .inserted (.error e) ↔
    cache.enabled = true ∧ replace = false ∧ (∃ f, Held events d.name f) ∧ e = .keyExists d.name
  /-- What is issued while the switch is off, and what fails, leaves all entries. -/
  keeps : ∀ route op, cache.enabled = false ∨ (cache.perform route op).1.Failed →
    (cache.perform route op).2.documents = cache.documents
  /-- Off and on again is as before, whatever was issued meanwhile. -/
  restores : ∀ off on meanwhile, (∀ call ∈ meanwhile, call.2 ≠ .switch true) →
    (cache.replay ((off, .switch false) :: (meanwhile ++ [(on, .switch true)]))).2 = cache.setEnabled true
  /-- It matters who asks only when a document is retrieved while the switch is off. -/
  agrees : ∀ route other op, (cache.enabled = true ∨ ∀ name, op ≠ .retrieve name) →
    cache.perform route op = cache.perform other op
  /-- Then a thread is told that the cache is off, and a task that there is nothing. -/
  differs : cache.enabled = false → ∀ route name, cache.perform route (.retrieve name) =
    (.retrieved (if route = .task then .ok none else .error .cachingDisabled), cache)

theorem Refines.obeys (h : Refines events cache) : cache.Obeys events where
  retrieves hon route name := ⟨_, perform_retrieve_of_enabled hon route name, h.held name⟩
  counts := by
    rw [count, h.sorted.length_eq_encard]
    simp only [h.held]
  refuses route d replace e := by
    cases hon : cache.enabled with
    | false =>
      rw [perform_insert_of_disabled hon]
      exact iff_of_false nofun fun hin => by cases hin.1
    | true =>
      simp only [← h.held, true_and]
      rcases perform_insert_cases hon route d replace with ⟨⟨hkeep, hheld⟩, hrefused⟩ | ⟨hfree, hstored⟩
      · rw [hrefused]
        refine ⟨fun he => ⟨hkeep, hheld, ?_⟩, fun he => he.2.2 ▸ rfl⟩
        exact (Except.error.inj (Answer.inserted.inj he)).symm
      · rw [hstored]
        exact iff_of_false nofun fun hin => hfree ⟨hin.1, hin.2.1⟩
  keeps route op hkeep := by
    rcases hkeep with hoff | hfailed
    · exact documents_perform_of_disabled hoff route op
    · rw [perform_of_failed hfailed]
  restores off on meanwhile hoff := by
    have hdisabled : (cache.setEnabled false).enabled = false := rfl
    exact replay_until_on hdisabled hoff on
  agrees route other _ hop := perform_eq_of_route route other hop
  differs hoff := perform_retrieve_of_disabled hoff

/-- Over every history of operations, whoever issues them, the cache is a map with a switch: it holds under
each name the document that was inserted last, if that is not removed since, where only what was issued
while the switch was on counts. -/
theorem replay_obeys (start : Bool) (history : List (Route × Op)) :
    ((empty start).replay history).2.enabled = leftOn start history ∧
      ((empty start).replay history).2.Obeys ((empty start).replay history).1 :=
  ⟨enabled_replay (empty start) history, ((refines_empty start).replay history).obeys⟩

/-- A document is inserted. While the switch is off, another takes its name and the name is removed. -/
def interrupted : List (Route × Op) :=
  [(.blocking, .insert (.ofNodes "page" [.raw "first"]) false), (.handed, .switch false),
    (.task, .insert (.ofNodes "page" [.raw "second"]) true), (.blocking, .remove "page"),
    (.handed, .switch true)]

/-- The first document is there again. -/
theorem replay_obeys_interrupted :
    (((empty true).replay interrupted).2.perform .task (.retrieve "page")).1 =
        .retrieved (.ok (some (.ofNodes "page" [.raw "first"]))) ∧
      (((empty true).replay interrupted).2.perform .task
        (.insert (.ofNodes "page" [.raw "second"]) false)).1 = .inserted (.error (.keyExists "page")) := by
  obtain ⟨hleft, hobeys⟩ := replay_obeys true interrupted
  have hon : ((empty true).replay interrupted).2.enabled = true := hleft
  have hheld : Held ((empty true).replay interrupted).1 "page" (.ofNodes "page" [.raw "first"]) :=
    ⟨[], _, _, rfl, ⟨rfl, ⟨false, rfl⟩, rfl⟩, rfl,
      by simp [empty, setEnabled, Event.Spares, Event.Puts, Event.Drops]⟩
  obtain ⟨found, hfound, htells⟩ := hobeys.retrieves hon .task "page"
  rw [hfound, (htells _).2 hheld]
  exact ⟨rfl, (hobeys.refuses .task _ false _).2 ⟨hon, rfl, ⟨_, hheld⟩, rfl⟩⟩

end Cache

end Templating
