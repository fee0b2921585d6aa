import Templating.Proofs.Sessions

/-!
# Resolvers

The resolution as it is written once for threads and for tasks: over what a cache and sources are asked,
and with two ways to ask for several documents. A thread goes through them in a loop; a task hands them to
a function that is to make progress on all of them. If that function takes steps that never wait in order
and stops at the first that fails, every resolver does what a resolution does.
-/

namespace Templating

open Resolve

/-! ### Steps at once -/

/-- Makes one step of several, with the results in their order. -/
abbrev Join := List (Resolve (Option Document)) → Resolve (List (Option Document))

/-- What comes out of some steps that are taken one behind the other, none of them waiting, until one
fails. -/
inductive Polled : List (Resolve (Option Document)) → Progress → Except Error (List (Option Document)) →
    Progress → Prop where
  | done (p : Progress) : Polled [] p (.ok []) p
  | failed {step : Resolve (Option Document)} {steps : List (Resolve (Option Document))} {p q : Progress}
    {e : Error} (h : exec step p = (.error e, q)) : Polled (step :: steps) p (.error e) q
  | later {step : Resolve (Option Document)} {steps : List (Resolve (Option Document))} {p q r : Progress}
    {a : Option Document} {e : Error} (h : exec step p = (.ok a, q)) (hs : Polled steps q (.error e) r) :
    Polled (step :: steps) p (.error e) r
  | all {step : Resolve (Option Document)} {steps : List (Resolve (Option Document))} {p q r : Progress}
    {a : Option Document} {as : List (Option Document)} (h : exec step p = (.ok a, q))
    (hs : Polled steps q (.ok as) r) : Polled (step :: steps) p (.ok (a :: as)) r

/-- Steps that never wait are polled in order, up to the first that fails. -/
def Join.PollsInOrder (join : Join) : Prop :=
  ∀ steps p result q, Polled steps p result q → exec (join steps) p = (result, q)

/-- The loop of a thread. -/
def inOrder : Join
  | [] => pure []
  | step :: steps => do
    let a ← step
    let as ← inOrder steps
    pure (a :: as)

theorem polled_inOrder (steps : List (Resolve (Option Document))) (p : Progress) :
    Polled steps p (exec (inOrder steps) p).1 (exec (inOrder steps) p).2 := by
  induction steps generalizing p with
  | nil => exact .done p
  | cons step steps ih =>
    rw [inOrder, exec_bind]
    rcases hstep : exec step p with ⟨_ | a, q⟩
    · exact .failed hstep
    · have hrest := ih q
      dsimp only
      rw [exec_bind]
      rcases hs : exec (inOrder steps) q with ⟨_ | as, r⟩
      · rw [hs] at hrest
        exact .later hstep hrest
      · rw [hs] at hrest
        exact .all hstep hrest

theorem exec_ext {α : Type} {s t : Resolve α} (h : ∀ p, exec s p = exec t p) : s = t := funext h

theorem Join.PollsInOrder.eq_inOrder {join : Join} (h : join.PollsInOrder) : join = inOrder :=
  funext fun steps => exec_ext fun p => h steps p _ _ (polled_inOrder steps p)

/-! ### Effects -/

/-- What a resolver asks of a cache and of sources, and whether it asks for several documents at once. -/
structure Effects where
  concurrent : Bool
  cached : String → Resolve (Option Document)
  store : Document → Resolve Document
  read : String → Option String → Resolve String

namespace Effects

/-- A thread is refused by a cache that is off, and takes that for a miss. -/
def blocking (world : Surroundings) : Effects where
  concurrent := false
  cached name := do
    match (← get).cache.retrieve .blocking name with
    | .ok found => pure found
    | .error .cachingDisabled => pure none
    | .error e => throw e
  store := Surroundings.store
  read := world.read

/-- One source, asked by a task: it answers what it answers a thread. -/
def ask (template key : String) (source : Source) : Resolve (Except Error String) := do
  modify fun progress => { progress with reads := progress.reads ++ [⟨key, template, true⟩] }
  pure (source.read template true)

/-- The search of a task, which is told later by each source. -/
def search (template : String) : List (String × Source) → Resolve String
  | [] => throw (.noTemplateExists template)
  | (key, source) :: sources => do
    match ← ask template key source with
    | .ok text => pure text
    | .error (.illegalAccess why) => throw (.illegalAccess why)
    | .error _ => search template sources

/-- A task is told by the cache itself that there is nothing while it is off. -/
def task (world : Surroundings) : Effects where
  concurrent := true
  cached name := do
    match (← get).cache.retrieve .task name with
    | .ok found => pure found
    | .error e => throw e
  store := Surroundings.store
  read template source :=
    match world.registry.candidates source with
    | .ok sources => search template sources
    | .error e => throw e

theorem exec_search (template : String) (sources : List (String × Source)) (p : Progress) :
    exec (search template sources) p =
      ((Registry.searchAmong template sources).found.map Prod.snd,
        { p with
          reads := p.reads ++ (Registry.searchAmong template sources).asked.map (⟨·, template, true⟩) }) := by
  induction sources generalizing p with
  | nil =>
    rw [Registry.searchAmong, List.map_nil, List.append_nil]
    rfl
  | cons entry sources ih =>
    obtain ⟨key, source⟩ := entry
    have hask : exec (ask template key source) p =
        (.ok (Readable.read source template true), { p with reads := p.reads ++ [⟨key, template, true⟩] }) := rfl
    rw [search, exec_bind_ok hask, Registry.searchAmong]
    cases Readable.read source template true with
    | ok text => rfl
    | error e =>
      cases e with
      | illegalAccess why => rfl
      | _ =>
        refine (ih _).trans ?_
        dsimp only
        rw [List.map_cons, List.append_assoc]
        rfl

end Effects

/-- The effects of whoever asks. -/
def Surroundings.effects (world : Surroundings) : Effects :=
  match world.access with
  | .blocking => .blocking world
  | .task => .task world

/-! ### Resolvers over effects -/

structure Resolver where
  effects : Effects
  join : Join
  missing : Missing

/-- The documents that were found for some names. -/
def externals : List String → List (Option Document) → Table Document
  | name :: names, some d :: found => Table.insert name d (externals names found)
  | _ :: names, none :: found => externals names found
  | _, _ => []

namespace Resolver

variable (resolver : Resolver)

def gather : Join := if resolver.effects.concurrent then resolver.join else inOrder

def reference (fetch : Resolve Document) : Resolve (Option Document) :=
  tryCatch (some <$> fetch) fun
    | .noTemplateExists name =>
      match resolver.missing with
      | .defer => pure none
      | .fail => throw (.noTemplateExists name)
    | e => throw e

/-- A document with the documents that it refers to inlined, again and again as long as that reveals
names. -/
def complete (fetch : String → Resolve (Option Document)) (chain : List String) :
    Nat → Document → Resolve Document
  | 0, d => pure d
  | passes + 1, d => do
    if let some name := d.unresolved.find? chain.contains then
      throw (.cyclicalReference name (chain ++ [name]))
    let found ← resolver.gather (d.unresolved.map fetch)
    let next := d.rebuild (externals d.unresolved found)
    if Names.subset next.unresolved d.unresolved then pure next
    else complete fetch chain passes next

def finish (passes : Nat) (fetch : List String → String → Resolve Document) (d : Document)
    (chain : List String) : Resolve Document := do
  if d.isFlat then resolver.effects.store d
  else
    let chain := chain ++ [d.name]
    let next ← resolver.complete (fun name => resolver.reference (fetch chain name)) chain passes d
    resolver.effects.store next

def fetch (passes : Nat) : Nat → String → Option String → List String → Resolve Document
  | 0, template, _, chain => throw (.cyclicalReference template (chain ++ [template]))
  | depth + 1, template, source, chain => do
    let below := fun chain name => fetch passes depth name none chain
    let key := cacheKey template source
    match ← resolver.effects.cached key with
    | some d => if d.isFlat then pure d else resolver.finish passes below d chain
    | none =>
      let text ← resolver.effects.read template source
      match parse text with
      | .ok nodes => resolver.finish passes below (Document.ofNodes key nodes) chain
      | .error problem => throw (.parse template text [problem])

end Resolver

namespace Surroundings

variable (world : Surroundings)

/-- The resolver of whoever asks; a task makes progress on several documents through `join`. -/
def resolver (join : Join) : Resolver := ⟨world.effects, join, world.missing⟩

variable {world} {join : Join}

theorem effects_cached (name : String) : world.effects.cached name = world.cached name := by
  refine exec_ext fun p => ?_
  rw [exec_cached]
  unfold effects Cache.held
  -- a cache that is off answers a thread and a task differently
  cases world.access with
  | blocking =>
    refine (exec_bind_ok (exec_get p)).trans ?_
    unfold Cache.retrieve
    cases p.cache.enabled <;> rfl
  | task =>
    refine (exec_bind_ok (exec_get p)).trans ?_
    unfold Cache.retrieve
    cases p.cache.enabled <;> rfl

theorem effects_store : world.effects.store = store := by
  unfold effects
  cases world.access <;> rfl

theorem effects_read : world.effects.read = world.read := by
  unfold effects
  cases world.access with
  | blocking => rfl
  | task =>
    refine funext fun template => funext fun source => exec_ext fun p => ?_
    rw [exec_read]
    unfold Effects.task Progress.searched Registry.find
    dsimp only
    cases world.registry.candidates source with
    | ok sources => exact Effects.exec_search template sources p
    | error e =>
      dsimp only
      rw [List.map_nil, List.append_nil]
      rfl

theorem gather_eq (h : join.PollsInOrder) : (world.resolver join).gather = inOrder := by
  unfold Resolver.gather resolver
  rw [h.eq_inOrder, ite_self]

theorem fetchAll_eq (fetch : String → Resolve (Option Document)) (names : List String) :
    fetchAll fetch names = externals names <$> inOrder (names.map fetch) := by
  induction names with
  | nil => rfl
  | cons name names ih =>
    rw [fetchAll, ih, List.map_cons, inOrder]
    simp only [map_eq_pure_bind, bind_assoc, pure_bind]
    refine bind_congr fun found => bind_congr fun rest => ?_
    cases found <;> rfl

theorem resolver_complete (h : join.PollsInOrder) (fetch : String → Resolve (Option Document))
    (chain : List String) (passes : Nat) (d : Document) :
    (world.resolver join).complete fetch chain passes d = complete fetch chain passes d := by
  induction passes generalizing d with
  | zero => rfl
  | succ passes ih =>
    rw [Resolver.complete, complete, gather_eq h]
    cases d.unresolved.find? chain.contains with
    | some name => rfl
    | none => simp only [fetchAll_eq, map_eq_pure_bind, bind_assoc, pure_bind, ih]

theorem resolver_fetch (h : join.PollsInOrder) (passes depth : Nat) (template : String)
    (source : Option String) (chain : List String) :
    (world.resolver join).fetch passes depth template source chain =
      world.fetch passes depth template source chain := by
  induction depth generalizing template source chain with
  | zero => rfl
  | succ depth ih =>
    have hreference : ∀ step, (world.resolver join).reference step = world.orMissing step := fun _ => rfl
    have hstore : (world.resolver join).effects.store = store := effects_store
    have hread : (world.resolver join).effects.read = world.read := effects_read
    have hcached : ∀ name, (world.resolver join).effects.cached name = world.cached name := effects_cached
    rw [Resolver.fetch, fetch, lookUp]
    simp only [Resolver.finish, resolver_complete h, hreference, hstore, hread, hcached, ih, bind_assoc]
    refine bind_congr fun found => ?_
    cases found with
    | some d => rfl
    | none =>
      simp only [bind_assoc]
      refine bind_congr fun text => ?_
      cases parse text <;> rfl

end Surroundings

end Templating
