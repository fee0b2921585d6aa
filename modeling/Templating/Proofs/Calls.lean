import Templating.Proofs.Running

/-!
# Calls

The course of a resolution without any bound: which calls a call makes, pass by pass over its document,
and on which chain of names it stands. A resolution has at most one course.
-/

namespace Templating

open Resolve Drafts

/-- A call for the document of a template: the chain of names that ends with its own, and the calls for
what the document needs, one list for each pass over it. -/
inductive Call where
  | mk (chain : List String) (passes : List (List Call))

namespace Call

def chain : Call → List String
  | mk chain _ => chain

def passes : Call → List (List Call)
  | mk _ passes => passes

/-- A call is itself within a call, or within one that this makes in some pass. -/
inductive Within (call : Call) : Call → Prop where
  | self : Within call call
  | nested {outer next : Call} {calls : List Call} (pass : calls ∈ outer.passes) (mem : next ∈ calls)
    (within : Within call next) : Within call outer

/-- Along the chain of every call within, the names are distinct, and each goes over its document at
most twice. -/
def Orderly (call : Call) : Prop :=
  ∀ inner : Call, inner.Within call → inner.chain.Nodup ∧ inner.passes.length ≤ 2

theorem orderly_mk {chain : List String} {passes : List (List Call)} (hchain : chain.Nodup)
    (hpasses : passes.length ≤ 2) (hcalls : ∀ calls ∈ passes, ∀ call ∈ calls, call.Orderly) :
    Orderly (.mk chain passes) := by
  intro inner hin
  cases hin with
  | self => exact ⟨hchain, hpasses⟩
  | nested pass mem within => exact hcalls _ pass _ mem inner within

end Call

namespace Surroundings

variable (world : Surroundings)

/-- What the answer to a reference means for the document that needs it. -/
def supplied : Except Error Document → Except Error (Option Document)
  | .ok d => .ok (some d)
  | .error (.noTemplateExists name) =>
    match world.missing with
    | .defer => .ok none
    | .fail => .error (.noTemplateExists name)
  | .error e => .error e

theorem exec_orMissing (step : Resolve Document) (p : Progress) :
    exec (world.orMissing step) p = (world.supplied (exec step p).1, (exec step p).2) := by
  unfold orMissing supplied
  rw [exec_tryCatch, exec_map]
  rcases exec step p with ⟨r, q⟩
  cases r with
  | ok d => rfl
  | error e =>
    cases e with
    | noTemplateExists name => cases world.missing <;> rfl
    | _ => rfl

def supply (name : String) (found : Option Document) (rest : Table Document) : Table Document :=
  match found with
  | some d => Table.insert name d rest
  | none => rest

def finish : Except Error Document → Progress → Except Error Document × Progress
  | .ok d, p => exec (store d) p
  | .error e, p => (.error e, p)

theorem finish_ok (d : Document) (p : Progress) :
    finish (.ok d) p = (.ok d, { p with cache := p.cache.stored d }) := exec_store d p

theorem eq_ok_of_finish {r : Except Error Document} {p : Progress} {d : Document}
    (h : (finish r p).1 = .ok d) : r = .ok d ∧ (finish r p).2 = { p with cache := p.cache.stored d } := by
  cases r with
  | error e => cases h
  | ok e =>
    rw [finish_ok] at h ⊢
    obtain rfl := Except.ok.inj h
    exact ⟨rfl, rfl⟩

mutual

/-- Below a chain, the call for a template's document takes one progress to another. -/
inductive Fetches : List String → String → Option String → Progress → Call → Except Error Document →
    Progress → Prop where
  | refused {chain : List String} {template : String} {source : Option String} {p q : Progress}
    {e : Error} (look : exec (world.lookUp template source) p = (.error e, q)) :
    Fetches chain template source p (.mk (chain ++ [cacheKey template source]) []) (.error e) q
  | complete {chain : List String} {template : String} {source : Option String} {p q : Progress}
    {d : Document} (look : exec (world.lookUp template source) p = (.ok (d, true), q)) :
    Fetches chain template source p (.mk (chain ++ [cacheKey template source]) []) (.ok d) q
  | flat {chain : List String} {template : String} {source : Option String} {p q : Progress}
    {d : Document} (look : exec (world.lookUp template source) p = (.ok (d, false), q))
    (flat : d.isFlat = true) :
    Fetches chain template source p (.mk (chain ++ [cacheKey template source]) [])
      (finish (.ok d) q).1 (finish (.ok d) q).2
  | passes {chain : List String} {template : String} {source : Option String} {p q q' : Progress}
    {d : Document} {passes : List (List Call)} {r : Except Error Document}
    (look : exec (world.lookUp template source) p = (.ok (d, false), q)) (unfinished : d.isFlat = false)
    (completes : Completes (chain ++ [d.name]) d q passes r q') :
    Fetches chain template source p (.mk (chain ++ [d.name]) passes) (finish r q').1 (finish r q').2

/-- A document is gone over, on a chain that ends with its own name. -/
inductive Completes : List String → Document → Progress → List (List Call) → Except Error Document →
    Progress → Prop where
  | cyclic {chain : List String} {d : Document} {p : Progress} {x : String}
    (back : d.unresolved.find? chain.contains = some x) :
    Completes chain d p [[]] (.error (.cyclicalReference x (chain ++ [x]))) p
  | failed {chain : List String} {d : Document} {p q : Progress} {calls : List Call} {e : Error}
    (forward : d.unresolved.find? chain.contains = none)
    (fetches : FetchesAll chain d.unresolved p calls (.error e) q) :
    Completes chain d p [calls] (.error e) q
  | last {chain : List String} {d : Document} {p q : Progress} {calls : List Call}
    {atHand : Table Document} (forward : d.unresolved.find? chain.contains = none)
    (fetches : FetchesAll chain d.unresolved p calls (.ok atHand) q)
    (stays : Names.subset (d.rebuild atHand).unresolved d.unresolved = true) :
    Completes chain d p [calls] (.ok (d.rebuild atHand)) q
  | again {chain : List String} {d : Document} {p q q' : Progress} {calls : List Call}
    {atHand : Table Document} {passes : List (List Call)} {r : Except Error Document}
    (forward : d.unresolved.find? chain.contains = none)
    (fetches : FetchesAll chain d.unresolved p calls (.ok atHand) q)
    (reveals : Names.subset (d.rebuild atHand).unresolved d.unresolved = false)
    (completes : Completes chain (d.rebuild atHand) q passes r q') :
    Completes chain d p (calls :: passes) r q'

/-- References are fetched one after the other, until one fails. -/
inductive FetchesAll : List String → List String → Progress → List Call →
    Except Error (Table Document) → Progress → Prop where
  | nil {chain : List String} {p : Progress} : FetchesAll chain [] p [] (.ok []) p
  | failed {chain names : List String} {name : String} {p q : Progress} {call : Call}
    {r : Except Error Document} {e : Error} (fetches : Fetches chain name none p call r q)
    (missing : world.supplied r = .error e) : FetchesAll chain (name :: names) p [call] (.error e) q
  | cons {chain names : List String} {name : String} {p q q' : Progress} {call : Call}
    {calls : List Call} {r : Except Error Document} {found : Option Document}
    {rest : Except Error (Table Document)} (fetches : Fetches chain name none p call r q)
    (answered : world.supplied r = .ok found) (others : FetchesAll chain names q calls rest q') :
    FetchesAll chain (name :: names) p (call :: calls) (rest.map (supply name found)) q'

end

/-! ### One course -/

variable {world}

mutual

theorem Fetches.unique {chain : List String} {template : String} {source : Option String}
    {p q q' : Progress} {call call' : Call} {r r' : Except Error Document}
    (h : world.Fetches chain template source p call r q)
    (h' : world.Fetches chain template source p call' r' q') : call = call' ∧ r = r' ∧ q = q' := by
  cases h with
  | refused look =>
    cases h' with
    | refused look' => cases look.symm.trans look'; exact ⟨rfl, rfl, rfl⟩
    | complete look' => cases look.symm.trans look'
    | flat look' => cases look.symm.trans look'
    | passes look' => cases look.symm.trans look'
  | complete look =>
    cases h' with
    | refused look' => cases look.symm.trans look'
    | complete look' => cases look.symm.trans look'; exact ⟨rfl, rfl, rfl⟩
    | flat look' => cases look.symm.trans look'
    | passes look' => cases look.symm.trans look'
  | flat look flat =>
    cases h' with
    | refused look' => cases look.symm.trans look'
    | complete look' => cases look.symm.trans look'
    | flat look' => cases look.symm.trans look'; exact ⟨rfl, rfl, rfl⟩
    | passes look' unfinished =>
      cases look.symm.trans look'
      cases flat.symm.trans unfinished
  | passes look unfinished completes =>
    cases h' with
    | refused look' => cases look.symm.trans look'
    | complete look' => cases look.symm.trans look'
    | flat look' flat =>
      cases look.symm.trans look'
      cases flat.symm.trans unfinished
    | passes look' _ completes' =>
      cases look.symm.trans look'
      obtain ⟨rfl, rfl, rfl⟩ := completes.unique completes'
      exact ⟨rfl, rfl, rfl⟩

theorem Completes.unique {chain : List String} {d : Document} {p q q' : Progress}
    {passes passes' : List (List Call)} {r r' : Except Error Document}
    (h : world.Completes chain d p passes r q) (h' : world.Completes chain d p passes' r' q') :
    passes = passes' ∧ r = r' ∧ q = q' := by
  cases h with
  | cyclic back =>
    cases h' with
    | cyclic back' => cases back.symm.trans back'; exact ⟨rfl, rfl, rfl⟩
    | failed forward => cases back.symm.trans forward
    | last forward => cases back.symm.trans forward
    | again forward => cases back.symm.trans forward
  | failed forward fetches =>
    cases h' with
    | cyclic back => cases back.symm.trans forward
    | failed _ fetches' =>
      obtain ⟨rfl, he, rfl⟩ := fetches.unique fetches'
      cases he
      exact ⟨rfl, rfl, rfl⟩
    | last _ fetches' => cases (fetches.unique fetches').2.1
    | again _ fetches' => cases (fetches.unique fetches').2.1
  | last forward fetches stays =>
    cases h' with
    | cyclic back => cases back.symm.trans forward
    | failed _ fetches' => cases (fetches.unique fetches').2.1
    | last _ fetches' =>
      obtain ⟨rfl, he, rfl⟩ := fetches.unique fetches'
      cases he
      exact ⟨rfl, rfl, rfl⟩
    | again _ fetches' reveals =>
      obtain ⟨-, he, -⟩ := fetches.unique fetches'
      cases he
      cases stays.symm.trans reveals
  | again forward fetches reveals completes =>
    cases h' with
    | cyclic back => cases back.symm.trans forward
    | failed _ fetches' => cases (fetches.unique fetches').2.1
    | last _ fetches' stays =>
      obtain ⟨-, he, -⟩ := fetches.unique fetches'
      cases he
      cases stays.symm.trans reveals
    | again _ fetches' _ completes' =>
      obtain ⟨rfl, he, rfl⟩ := fetches.unique fetches'
      cases he
      obtain ⟨rfl, rfl, rfl⟩ := completes.unique completes'
      exact ⟨rfl, rfl, rfl⟩

theorem FetchesAll.unique {chain names : List String} {p q q' : Progress} {calls calls' : List Call}
    {r r' : Except Error (Table Document)} (h : world.FetchesAll chain names p calls r q)
    (h' : world.FetchesAll chain names p calls' r' q') : calls = calls' ∧ r = r' ∧ q = q' := by
  cases h with
  | nil =>
    cases h' with
    | nil => exact ⟨rfl, rfl, rfl⟩
  | failed fetches missing =>
    cases h' with
    | failed fetches' missing' =>
      obtain ⟨rfl, rfl, rfl⟩ := fetches.unique fetches'
      cases missing.symm.trans missing'
      exact ⟨rfl, rfl, rfl⟩
    | cons fetches' answered =>
      obtain ⟨-, rfl, -⟩ := fetches.unique fetches'
      cases missing.symm.trans answered
  | cons fetches answered others =>
    cases h' with
    | failed fetches' missing =>
      obtain ⟨-, rfl, -⟩ := fetches.unique fetches'
      cases missing.symm.trans answered
    | cons fetches' answered' others' =>
      obtain ⟨rfl, rfl, rfl⟩ := fetches.unique fetches'
      cases answered.symm.trans answered'
      obtain ⟨rfl, rfl, rfl⟩ := others.unique others'
      exact ⟨rfl, rfl, rfl⟩

end

end Surroundings

end Templating
