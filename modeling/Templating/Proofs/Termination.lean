import Templating.Proofs.Calls
import Templating.Proofs.Cycles
import Templating.Proofs.Requests

/-!
# Termination

Resolution ends without any bound, whatever made documents are cached. By induction on the depth that is
left, the run that counts down takes a course of calls that no count bounds: names on a chain are distinct
and known, so the depth suffices, and what a first pass leaves open is absent, so a second is the last.
-/

namespace Templating

open Resolve Drafts

namespace Surroundings

variable {world : Surroundings} {drafts base : Drafts} {p : Progress}
  {names chain : List String} {name template : String} {source : Option String}

/-- Fetching a document takes an orderly course. -/
def HasCourse (world : Surroundings) (chain : List String) (template : String) (source : Option String)
    (p : Progress) (run : Except Error Document × Progress) : Prop :=
  ∃ call : Call, call.Orderly ∧ world.Fetches chain template source p call run.1 run.2

/-- So does fetching a reference, and it ends as completion says. -/
def Proceeds (world : Surroundings) (drafts base : Drafts) (chain : List String)
    (name : String) (step : Resolve Document) : Prop :=
  ∀ q : Progress, drafts.Coherent base world.missing q.cache →
    drafts.Ends base world.missing q (drafts.Found world.missing chain name) (exec (world.orMissing step) q) ∧
      world.HasCourse chain name none q (exec step q)

theorem fetchAll_course {fetch : String → Resolve Document} {refs : List String}
    (hstep : ∀ n ∈ refs, world.Proceeds drafts base chain n (fetch n))
    (h : drafts.Coherent base world.missing p.cache) {r : Except Error (Table Document)} {q : Progress}
    (hrun : exec (fetchAll (fun n => world.orMissing (fetch n)) refs) p = (r, q)) :
    ∃ calls : List Call, (∀ call ∈ calls, call.Orderly) ∧
      world.FetchesAll chain refs p calls r q := by
  induction refs generalizing p r q with
  | nil =>
    cases hrun
    exact ⟨[], fun _ hc => absurd hc List.not_mem_nil, .nil⟩
  | cons n refs ih =>
    obtain ⟨hends, call, hcall, hfetch⟩ := hstep n List.mem_cons_self p h
    have hanswer := world.exec_orMissing (fetch n) p
    rw [hanswer] at hends
    unfold fetchAll at hrun
    cases hsupplied : world.supplied (exec (fetch n) p).1 with
    | error e =>
      rw [hsupplied] at hanswer
      cases (exec_bind_error hanswer).symm.trans hrun
      exact ⟨[call], fun _ hc => List.mem_singleton.1 hc ▸ hcall, .failed hfetch hsupplied⟩
    | ok found =>
      rw [hsupplied] at hanswer
      rw [exec_bind_ok hanswer] at hrun
      -- the others start from the cache that the first call leaves
      rcases hothers : exec (fetchAll (fun n => world.orMissing (fetch n)) refs) (exec (fetch n) p).2
        with ⟨rest, q'⟩
      obtain ⟨calls, hcalls, hrest⟩ :=
        ih (fun m hm => hstep m (List.mem_cons_of_mem n hm)) hends.coherent hothers
      have hlast : (rest.map (supply n found), q') = (r, q) := by
        cases rest with
        | error e => exact (exec_bind_error hothers).symm.trans hrun
        | ok atHand =>
          rw [exec_bind_ok hothers] at hrun
          cases found <;> exact hrun
      cases hlast
      refine ⟨call :: calls, fun c hc => ?_, .cons hfetch hsupplied hrest⟩
      rcases List.mem_cons.1 hc with rfl | hc
      · exact hcall
      · exact hcalls c hc

section Complete

variable {step : String → Resolve (Option Document)} {fetch : String → Resolve Document}
  {passes : Nat} {d : Document}

theorem exec_complete_of_back {x : String} (h : d.unresolved.find? chain.contains = some x) :
    exec (complete step chain (passes + 1) d) p =
      (.error (.cyclicalReference x (chain ++ [x])), p) := by
  unfold complete
  rw [h]
  rfl

theorem exec_complete_of_error {e : Error} {q : Progress}
    (h : d.unresolved.find? chain.contains = none)
    (hall : exec (fetchAll step d.unresolved) p = (.error e, q)) :
    exec (complete step chain (passes + 1) d) p = (.error e, q) := by
  unfold complete
  rw [h]
  exact exec_bind_error hall

theorem exec_complete_of_ok {atHand : Table Document} {q : Progress}
    (h : d.unresolved.find? chain.contains = none)
    (hall : exec (fetchAll step d.unresolved) p = (.ok atHand, q)) :
    exec (complete step chain (passes + 1) d) p =
      if Names.subset (d.rebuild atHand).unresolved d.unresolved then (.ok (d.rebuild atHand), q)
      else exec (complete step chain passes (d.rebuild atHand)) q := by
  rw [complete, h]
  refine (exec_bind_ok hall).trans ?_
  dsimp only
  split <;> rfl

def HasPasses (world : Surroundings) (most : Nat) (chain : List String) (d : Document) (p : Progress)
    (run : Except Error Document × Progress) : Prop :=
  ∃ passes : List (List Call), passes.length ≤ most ∧
    (∀ calls ∈ passes, ∀ call ∈ calls, call.Orderly) ∧
      world.Completes chain d p passes run.1 run.2

theorem HasPasses.one {calls : List Call} {run : Except Error Document × Progress} {most : Nat}
    (hcalls : ∀ call ∈ calls, call.Orderly) (h : world.Completes chain d p [calls] run.1 run.2) :
    world.HasPasses (most + 1) chain d p run :=
  ⟨[calls], Nat.succ_le_succ (Nat.zero_le most), fun _ hcs => List.mem_singleton.1 hcs ▸ hcalls, h⟩

theorem completed_passes (hw : drafts.WellFormed)
    (hstep : ∀ n, Relation.TransGen (Refers drafts) name n → n ∉ chain ++ [name] →
      world.Proceeds drafts base (chain ++ [name]) n (fetch n))
    (hc : HaveDrafts drafts chain) (hd : drafts.Completed world.missing name d)
    (hm : Document.mergeRaw d.nodes = d.nodes) (h : drafts.Coherent base world.missing p.cache) (most : Nat) :
    world.HasPasses (most + 1) (chain ++ [name]) d p
      (exec (complete (fun n => world.orMissing (fetch n)) (chain ++ [name]) (passes + 1) d) p) := by
  have hforward := hd.forward hw hc
  have hrefs : ∀ n ∈ d.unresolved, world.Proceeds drafts base (chain ++ [name]) n (fetch n) :=
    fun n hn => hstep n (hd.unresolved hw hn).2 (by simpa using List.find?_eq_none.1 hforward n hn)
  have hends := fetchAll_ends (fun n hn q hq => (hrefs n hn q hq).1) h
  rcases hall : exec (fetchAll (fun n => world.orMissing (fetch n)) d.unresolved) p with ⟨r, q⟩
  obtain ⟨calls, hcalls, hfetches⟩ := fetchAll_course hrefs h hall
  rw [hall] at hends
  cases r with
  | error e => exact (FoundAll.not_completed hw hends.result hd).elim
  | ok atHand =>
    have hself : d.rebuild atHand = d := FoundAll.rebuild_completed hw hends.result hd hm
    have hstays : Names.subset (d.rebuild atHand).unresolved d.unresolved = true :=
      Names.subset_iff.2 fun n hn => by rwa [hself] at hn
    rw [exec_complete_of_ok hforward hall, if_pos hstays]
    exact .one hcalls (.last hforward hfetches hstays)

theorem draft_passes (hw : drafts.WellFormed)
    (hstep : ∀ n, Relation.TransGen (Refers drafts) name n → n ∉ chain ++ [name] →
      world.Proceeds drafts base (chain ++ [name]) n (fetch n))
    (hc : HaveDrafts drafts chain) (hd : drafts name = .ok d) (hopen : d.isFlat = false)
    (h : drafts.Coherent base world.missing p.cache) :
    world.HasPasses 2 (chain ++ [name]) d p
      (exec (complete (fun n => world.orMissing (fetch n)) (chain ++ [name]) (passes + 2) d) p) := by
  cases hback : d.unresolved.find? (chain ++ [name]).contains with
  | some x =>
    rw [exec_complete_of_back hback]
    exact .one (fun _ hc => absurd hc List.not_mem_nil) (.cyclic hback)
  | none =>
    have hrefs : ∀ n ∈ d.unresolved, world.Proceeds drafts base (chain ++ [name]) n (fetch n) :=
      fun n hn => hstep n (.single ⟨d, hd, hn⟩) (by simpa using List.find?_eq_none.1 hback n hn)
    have hends := fetchAll_ends (fun n hn q hq => (hrefs n hn q hq).1) h
    rcases hall : exec (fetchAll (fun n => world.orMissing (fetch n)) d.unresolved) p with ⟨r, q⟩
    obtain ⟨calls, hcalls, hfetches⟩ := fetchAll_course hrefs h hall
    rw [hall] at hends
    cases r with
    | error e =>
      rw [exec_complete_of_error hback hall]
      exact .one hcalls (.failed hback hfetches)
    | ok atHand =>
      rw [exec_complete_of_ok hback hall]
      split
      · next hstays => exact .one hcalls (.last hback hfetches hstays)
      · next hreveals =>
        have hnext : drafts.Completed world.missing name (d.rebuild atHand) :=
          FoundAll.completed hends.result hd hopen
        obtain ⟨more, hmost, horderly, hcompletes⟩ := @completed_passes world drafts base q chain
          name fetch passes (d.rebuild atHand) hw hstep hc hnext (Document.mergeRaw_rebuild d atHand)
          hends.coherent 0
        refine ⟨calls :: more, Nat.succ_le_succ hmost, fun cs hcs => ?_,
          .again hback hfetches (Bool.eq_false_iff.2 hreveals) hcompletes⟩
        rcases List.mem_cons.1 hcs with rfl | hcs
        · exact hcalls
        · exact horderly cs hcs

theorem complete_passes (hw : drafts.WellFormed)
    (hstep : ∀ n, Relation.TransGen (Refers drafts) name n → n ∉ chain ++ [name] →
      world.Proceeds drafts base (chain ++ [name]) n (fetch n))
    (hc : HaveDrafts drafts chain) (hd : drafts name = .ok d ∨ drafts.Completed world.missing name d)
    (hopen : d.isFlat = false) (h : drafts.Coherent base world.missing p.cache) :
    world.HasPasses 2 (chain ++ [name]) d p
      (exec (complete (fun n => world.orMissing (fetch n)) (chain ++ [name]) (passes + 2) d) p) := by
  rcases hd with hd | hd
  · exact draft_passes hw hstep hc hd hopen h
  · exact completed_passes hw hstep hc hd (hd.merged hopen) h 1

end Complete

theorem exec_bind_store (step : Resolve Document) (p : Progress) :
    exec (step >>= store) p = finish (exec step p).1 (exec step p).2 := by
  rw [exec_bind]
  rcases exec step p with ⟨r, q⟩
  cases r <;> rfl

theorem fetch_course (hw : drafts.WellFormed) (hrefs : ∀ n m, Refers drafts n m → m ∈ names)
    {passes depth : Nat} (hname : cacheKey template source = name)
    (hbelow : world.Below drafts base names chain name depth)
    (hread : p.cache.held name = none → drafts name = world.registry.draft source template)
    (h : drafts.Coherent base world.missing p.cache) :
    world.HasCourse chain template source p
      (exec (world.fetch (passes + 2) depth template source chain) p) := by
  -- by induction on the depth that is left, which the known names that are not yet on the chain bound
  induction depth generalizing chain name template source p with
  | zero => exact absurd hbelow.within.depth_pos (Nat.lt_irrefl 0)
  | succ depth ih =>
    have hnodup : (chain ++ [cacheKey template source]).Nodup := hname ▸ hbelow.within.nodup
    have halone : (Call.mk (chain ++ [cacheKey template source]) []).Orderly :=
      Call.orderly_mk hnodup (Nat.zero_le 2) fun _ hc => absurd hc List.not_mem_nil
    have hlook := lookUp_ends hname hw hread h
    unfold fetch
    rcases hlooked : exec (world.lookUp template source) p with ⟨r, q⟩
    rw [hlooked] at hlook
    cases r with
    | error e =>
      rw [exec_bind_error hlooked]
      exact ⟨_, halone, .refused hlooked⟩
    | ok found =>
      obtain ⟨d, done⟩ := found
      obtain ⟨hdname, hd, hdone⟩ := hlook.result
      rw [exec_bind_ok hlooked]
      cases done with
      | true => exact ⟨_, halone, .complete hlooked⟩
      | false =>
        cases hflat : d.isFlat with
        | true =>
          simp only [Bool.false_eq_true, if_false, hflat, if_true]
          exact ⟨_, halone, .flat hlooked hflat⟩
        | false =>
          have hfound : ∃ e, drafts name = .ok e := hd.elim (fun hd => ⟨d, hd⟩) Completed.found
          have hstep : ∀ n, Relation.TransGen (Refers drafts) name n → n ∉ chain ++ [name] →
              world.Proceeds drafts base (chain ++ [name]) n
                (world.fetch (passes + 2) depth n none (chain ++ [name])) := by
            intro n hr hn q hq
            have hnext := hbelow.next hrefs hfound hr hn
            have hread : q.cache.held n = none → drafts n = world.registry.draft none n :=
              fun hnone => (hq.fresh hnone).trans (hbelow.agree n hr hn)
            exact ⟨orMissing_ends (fetch_ends hw hrefs rfl hnext hread hq), ih rfl hnext hread hq⟩
          obtain ⟨made, hmost, horderly, hcompletes⟩ := @complete_passes world drafts base q chain
            name _ passes d hw hstep hbelow.drafted hd hflat hlook.coherent
          simp only [Bool.false_eq_true, if_false, hflat, hdname]
          rw [exec_bind_store]
          subst hdname
          exact ⟨_, Call.orderly_mk hbelow.within.nodup hmost horderly, .passes hlooked hflat hcompletes⟩

theorem resolve_course (hcache : p.cache.Filled) (template : String) (source : Option String) :
    world.HasCourse [] template source p (exec (world.resolve template source) p) := by
  have hw := Cache.standIns_wellFormed hcache.held (world.registry.wellFormed_sourced source template)
  have hself : p.cache.held (cacheKey template source) = none →
      p.cache.standIns (world.registry.sourced source template) (cacheKey template source) =
        world.registry.draft source template := fun hnone =>
    (Cache.standIns_of_not_held hnone).trans (world.registry.sourced_key source template)
  unfold resolve
  rw [exec_bind_ok (exec_get p)]
  exact fetch_course hw (fun n m => (known_standIns p.cache).mem_mentioned) rfl
    (.first fun n _ hn => Registry.sourced_of_ne hn) hself
    (Cache.standIns_coherent fun hd => (hcache.held hd).1)

/-- Resolution ends, whatever made documents are cached: without bounds a request has exactly one
course, which the run that counts down gives the result of. On it the names of every chain are distinct,
and no document is gone over more than twice. -/
theorem resolution_ends (hcache : p.cache.Filled) (template : String) (source : Option String) :
    ∃ call : Call, call.Orderly ∧ ∀ other r q, world.Fetches [] template source p other r q ↔
      other = call ∧ (r, q) = exec (world.resolve template source) p := by
  obtain ⟨call, horderly, hcourse⟩ := @resolve_course world p hcache template source
  refine ⟨call, horderly, fun other r q => ⟨fun h => ?_, ?_⟩⟩
  · obtain ⟨rfl, rfl, rfl⟩ := h.unique hcourse
    exact ⟨rfl, rfl⟩
  · rintro ⟨rfl, hrun⟩
    rw [← hrun] at hcourse
    exact hcourse

/-- Somebody has cached a base that needs a lid and a lid, in no source, that needs the base. -/
def knotted : Cache :=
  ⟨true, [("base", .ofNodes "base" [.extend "lid" []]), ("lid", .ofNodes "lid" [.extend "base" []])]⟩

theorem filled_knotted : knotted.Filled := by
  have hbase : Cache.Filled ⟨true, [("base", .ofNodes "base" [.extend "lid" []])]⟩ :=
    .insert (.empty true) (.ofNodes "base" [.extend "lid" []])
      (by rfl : (Cache.empty true).insert _ false = _)
  exact .insert hbase (.ofNodes "lid" [.extend "base" []]) (by rfl : Cache.insert _ _ false = _)

theorem resolution_ends_knotted :
    knotted.Filled ∧ ∃ call : Call, call.Orderly ∧ ∃ q,
      Renderer.entangled.surroundings.Fetches [] "page" none ⟨knotted, []⟩ call
        (.error (.cyclicalReference "base" ["page", "base", "lid", "base"])) q := by
  have hshown : Renderer.shownCycle (exec (Renderer.entangled.surroundings.resolve "page" none)
      ⟨knotted, []⟩).1 = some ("base", ["page", "base", "lid", "base"]) := by decide +kernel
  have hresult := Renderer.eq_of_shownCycle hshown
  obtain ⟨call, horderly, honly⟩ :=
    @resolution_ends Renderer.entangled.surroundings ⟨knotted, []⟩ filled_knotted "page" none
  exact ⟨filled_knotted, call, horderly, _, (honly call _ _).2 ⟨rfl, Prod.ext hresult.symm rfl⟩⟩

end Surroundings

end Templating
