import Templating.Proofs.Running
import Templating.Renderer.Basic

/-!
# How a resolution ends

The steps of a resolution one after the other, from what is fetched for one reference up to the
document of a name. Each ends as completion says, and leaves a cache of drafts and completed documents
behind. A draft is gone over once; what that leaves open is absent, so that going over it again
changes nothing. The names on a chain are distinct, and all but the first are known beforehand:
the count that bounds the depth is never used up.
-/

namespace Templating

open Resolve Drafts

namespace Drafts

variable {drafts : Drafts} {missing : Missing} {chain : List String} {name : String}

/-- What looking up a name finds: its draft, or a document that completes it. -/
def LookedUp (drafts : Drafts) (missing : Missing) (name : String) : Except Error (Document × Bool) → Prop
  | .ok (d, done) => d.name = name ∧ (drafts name = .ok d ∨ Completed drafts missing name d) ∧
      (done = true → d.isFlat = true)
  | .error e => drafts name = .error e

/-- What fetching the document of a reference below a chain finds. -/
def Found (drafts : Drafts) (missing : Missing) (chain : List String) (name : String) :
    Except Error (Option Document) → Prop
  | .ok (some d) => Completed drafts missing name d
  | .ok none => Absent drafts missing name
  | .error e => ¬ Absent drafts missing name ∧ Fails drafts missing chain name e

/-- What fetching the documents of some references finds. The first that fails decides. -/
def FoundAll (drafts : Drafts) (missing : Missing) (chain : List String) (names : List String) :
    Except Error (Table Document) → Prop
  | .ok atHand =>
    (∀ n d, Table.get? atHand n = some d → n ∈ names ∧ Completed drafts missing n d) ∧
      ∀ n ∈ names, Table.get? atHand n = none → Absent drafts missing n
  | .error e => ∃ before x after, names = before ++ x :: after ∧
      (∀ n ∈ before, Absent drafts missing n ∨ ∃ d, Completed drafts missing n d) ∧
      ¬ Absent drafts missing x ∧ Fails drafts missing chain x e

theorem FoundAll.nil : FoundAll drafts missing chain [] (.ok []) := by
  refine ⟨fun n d h => ?_, fun n h => ?_⟩
  · cases h
  · cases h

theorem FoundAll.here {names : List String} {e : Error} (h : Found drafts missing chain name (.error e)) :
    FoundAll drafts missing chain (name :: names) (.error e) :=
  ⟨[], name, names, rfl, fun _ h => absurd h List.not_mem_nil, h.1, h.2⟩

theorem FoundAll.later {names : List String} {e : Error} {found : Option Document}
    (h : Found drafts missing chain name (.ok found))
    (hs : FoundAll drafts missing chain names (.error e)) :
    FoundAll drafts missing chain (name :: names) (.error e) := by
  obtain ⟨before, x, after, rfl, hb, hx⟩ := hs
  refine ⟨name :: before, x, after, rfl, fun n hn => ?_, hx⟩
  rcases List.mem_cons.1 hn with rfl | hn
  · cases found with
    | none => exact .inl h
    | some d => exact .inr ⟨d, h⟩
  · exact hb n hn

theorem FoundAll.none {names : List String} {atHand : Table Document}
    (h : Found drafts missing chain name (.ok none))
    (hs : FoundAll drafts missing chain names (.ok atHand)) :
    FoundAll drafts missing chain (name :: names) (.ok atHand) := by
  refine ⟨fun n d hg => ?_, fun n hn hg => ?_⟩
  · exact ⟨List.mem_cons_of_mem name (hs.1 n d hg).1, (hs.1 n d hg).2⟩
  · rcases List.mem_cons.1 hn with rfl | hn
    · exact h
    · exact hs.2 n hn hg

theorem FoundAll.some {names : List String} {atHand : Table Document} {d : Document}
    (h : Found drafts missing chain name (.ok (some d)))
    (hs : FoundAll drafts missing chain names (.ok atHand)) :
    FoundAll drafts missing chain (name :: names) (.ok (Table.insert name d atHand)) := by
  refine ⟨fun n e hg => ?_, fun n hn hg => ?_⟩
  · rw [Table.get?_insert] at hg
    split at hg
    · next hn =>
      obtain rfl := Option.some.inj hg
      rw [hn]
      exact ⟨List.mem_cons_self, h⟩
    · exact ⟨List.mem_cons_of_mem name (hs.1 n e hg).1, (hs.1 n e hg).2⟩
  · rw [Table.get?_insert] at hg
    split at hg
    · cases hg
    · next hne => exact hs.2 n ((List.mem_cons.1 hn).resolve_left hne) hg

/-- On a chain stand names that have drafts. -/
def HaveDrafts (drafts : Drafts) (chain : List String) : Prop := ∀ n ∈ chain, ∃ d, drafts n = .ok d

theorem HaveDrafts.next (h : HaveDrafts drafts chain) (hn : ∃ d, drafts name = .ok d) :
    HaveDrafts drafts (chain ++ [name]) := by
  intro n hm
  rcases List.mem_append.1 hm with hm | hm
  · exact h n hm
  · exact List.mem_singleton.1 hm ▸ hn

theorem nodup_snoc {x : String} (h : chain.Nodup) (hx : x ∉ chain) : (chain ++ [x]).Nodup := by
  refine List.nodup_append.2 ⟨h, List.nodup_singleton x, ?_⟩
  rintro a ha b hb rfl
  exact hx (List.mem_singleton.1 hb ▸ ha)

theorem Absent.not_mem (h : Absent drafts missing name) (hc : HaveDrafts drafts chain) :
    name ∉ chain := by
  intro hn
  obtain ⟨d, hd⟩ := hc name hn
  exact not_absent_of_ok hd h

theorem Fails.not_absent {e : Error} (h : Fails drafts missing chain name e)
    (he : ∀ asked, e ≠ .noTemplateExists asked) : ¬ Absent drafts missing name := by
  cases h with
  | draft found =>
    rintro ⟨-, asked, ha⟩
    exact he asked (Except.error.inj (found.symm.trans ha))
  | cyclic found => exact not_absent_of_ok found
  | reference found => exact not_absent_of_ok found

theorem Completed.forward {d : Document} (hw : drafts.WellFormed) (hc : HaveDrafts drafts chain)
    (hd : Completed drafts missing name d) : d.unresolved.find? (chain ++ [name]).contains = .none :=
  List.find?_eq_none.2 fun n hn => by
    have hthere : n ∉ chain ++ [name] := (hd.unresolved hw hn).1.not_mem (hc.next hd.found)
    simpa using hthere

theorem FoundAll.completed {atHand : Table Document} {d : Document}
    (hs : FoundAll drafts missing chain d.unresolved (.ok atHand)) (hd : drafts name = .ok d)
    (hopen : d.isFlat = false) : Completed drafts missing name (d.rebuild atHand) :=
  .rebuilt hd hopen (fun n e hg => (hs.1 n e hg).1) (fun n e hg => (hs.1 n e hg).2) hs.2

theorem FoundAll.rebuild_completed {atHand : Table Document} {d : Document} (hw : drafts.WellFormed)
    (hs : FoundAll drafts missing chain d.unresolved (.ok atHand)) (hd : Completed drafts missing name d)
    (hm : Document.mergeRaw d.nodes = d.nodes) : d.rebuild atHand = d := by
  refine Document.rebuild_of_absent (hd.isExact hw) hm fun n hn => ?_
  cases hg : Table.get? atHand n with
  | none => rfl
  | some e => exact ((hs.1 n e hg).2.not_absent (hd.unresolved hw hn).1).elim

theorem FoundAll.not_completed {e : Error} {d : Document} (hw : drafts.WellFormed)
    (hs : FoundAll drafts missing chain d.unresolved (.error e)) :
    ¬ Completed drafts missing name d := by
  obtain ⟨before, x, after, hsplit, -, hx, -⟩ := hs
  exact fun hd => hx (hd.unresolved hw (by rw [hsplit]; simp)).1

end Drafts

namespace Surroundings

variable {world : Surroundings} {drafts base : Drafts} {p : Progress} {names chain : List String}
  {name : String}

/-! ### One reference -/

theorem orMissing_ends {step : Resolve Document}
    (h : drafts.Ends base world.missing p (drafts.Outcome world.missing chain name) (exec step p)) :
    drafts.Ends base world.missing p (drafts.Found world.missing chain name) (exec (world.orMissing step) p) := by
  unfold orMissing
  rw [exec_tryCatch, exec_map]
  rcases hr : exec step p with ⟨r, q⟩
  rw [hr] at h
  obtain ⟨hres, hco, hk⟩ := h
  cases r with
  | ok d => exact ⟨hres, hco, hk⟩
  | error e =>
    have hf : drafts.Fails world.missing chain name e := hres
    have other : (∀ asked, e ≠ .noTemplateExists asked) →
        drafts.Ends base world.missing p (drafts.Found world.missing chain name) (.error e, q) :=
      fun he => ⟨⟨hf.not_absent he, hf⟩, hco, hk⟩
    cases e with
    | noTemplateExists asked =>
      cases hm : world.missing with
      | fail =>
        have ha : ¬ drafts.Absent .fail name := fun ha => by cases ha.1
        rw [hm] at hf hco
        exact ⟨⟨ha, hf⟩, hco, hk⟩
      | defer =>
        rw [hm] at hf hco
        exact ⟨hf.absent, hco, hk⟩
    | _ => exact other fun _ h => by cases h

theorem fetchAll_ends {step : String → Resolve (Option Document)} {refs : List String}
    (hstep : ∀ n ∈ refs, ∀ q : Progress, drafts.Coherent base world.missing q.cache →
      drafts.Ends base world.missing q (drafts.Found world.missing chain n) (exec (step n) q))
    (h : drafts.Coherent base world.missing p.cache) :
    drafts.Ends base world.missing p (drafts.FoundAll world.missing chain refs) (exec (fetchAll step refs) p) := by
  induction refs generalizing p with
  | nil => exact h.ends .nil
  | cons n refs ih =>
    have hrest : ∀ m ∈ refs, ∀ q : Progress, drafts.Coherent base world.missing q.cache →
        drafts.Ends base world.missing q (drafts.Found world.missing chain m) (exec (step m) q) :=
      fun m hm => hstep m (List.mem_cons_of_mem n hm)
    refine (hstep n List.mem_cons_self p h).bind (fun found q hfound hq => ?_) fun e he => .here he
    refine (ih hrest hq).bind (fun rest q' hs hq' => ?_) fun e he => .later hfound he
    cases found with
    | none => exact hq'.ends (.none hfound hs)
    | some d => exact hq'.ends (.some hfound hs)

/-! ### One document -/

section Complete

variable {step : String → Resolve (Option Document)} {passes : Nat} {d : Document}

/-- A document that completes its name already is left as it is: all that it needs is absent. -/
theorem complete_completed (hw : drafts.WellFormed)
    (hstep : ∀ n, Relation.TransGen (Refers drafts) name n → n ∉ chain ++ [name] →
      ∀ q : Progress, drafts.Coherent base world.missing q.cache →
        drafts.Ends base world.missing q (drafts.Found world.missing (chain ++ [name]) n) (exec (step n) q))
    (hc : HaveDrafts drafts chain) (hd : drafts.Completed world.missing name d)
    (hm : Document.mergeRaw d.nodes = d.nodes) (h : drafts.Coherent base world.missing p.cache) :
    drafts.Ends base world.missing p (drafts.Outcome world.missing chain name)
      (exec (complete step (chain ++ [name]) (passes + 1) d) p) := by
  have hforward := hd.forward hw hc
  have hrefs : ∀ n ∈ d.unresolved, ∀ q : Progress, drafts.Coherent base world.missing q.cache →
      drafts.Ends base world.missing q (drafts.Found world.missing (chain ++ [name]) n) (exec (step n) q) :=
    fun n hn => hstep n (hd.unresolved hw hn).2 (by simpa using List.find?_eq_none.1 hforward n hn)
  unfold complete
  rw [hforward]
  refine (fetchAll_ends hrefs h).bind (fun atHand q hs hq => ?_) fun e he => (he.not_completed hw hd).elim
  have hself : d.rebuild atHand = d := hs.rebuild_completed hw hd hm
  have hsub : Names.subset d.unresolved d.unresolved = true := Names.subset_iff.2 fun _ hn => hn
  simp only [hself, hsub, if_true]
  exact hq.ends hd

/-- A draft is gone over once, and once more if that reveals names. -/
theorem complete_draft (hw : drafts.WellFormed)
    (hstep : ∀ n, Relation.TransGen (Refers drafts) name n → n ∉ chain ++ [name] →
      ∀ q : Progress, drafts.Coherent base world.missing q.cache →
        drafts.Ends base world.missing q (drafts.Found world.missing (chain ++ [name]) n) (exec (step n) q))
    (hc : HaveDrafts drafts chain) (hd : drafts name = .ok d) (hopen : d.isFlat = false)
    (h : drafts.Coherent base world.missing p.cache) :
    drafts.Ends base world.missing p (drafts.Outcome world.missing chain name)
      (exec (complete step (chain ++ [name]) (passes + 2) d) p) := by
  unfold complete
  cases hback : d.unresolved.find? (chain ++ [name]).contains with
  | some x =>
    have hf : drafts.Fails world.missing chain name (.cyclicalReference x (chain ++ [name] ++ [x])) :=
      .cyclic hd hback
    exact h.ends hf
  | none =>
    have hrefs : ∀ n ∈ d.unresolved, ∀ q : Progress, drafts.Coherent base world.missing q.cache →
        drafts.Ends base world.missing q (drafts.Found world.missing (chain ++ [name]) n) (exec (step n) q) :=
      fun n hn => hstep n (.single ⟨d, hd, hn⟩) (by simpa using List.find?_eq_none.1 hback n hn)
    refine (fetchAll_ends hrefs h).bind (fun atHand q hs hq => ?_) fun e he => ?_
    · have hcomplete : drafts.Completed world.missing name (d.rebuild atHand) := hs.completed hd hopen
      dsimp only
      split
      · exact hq.ends hcomplete
      · exact complete_completed hw hstep hc hcomplete (Document.mergeRaw_rebuild d atHand) hq
    · obtain ⟨before, x, after, hsplit, hb, hx, hf⟩ := he
      exact Fails.reference hd hback hsplit hb hx hf

theorem complete_ends (hw : drafts.WellFormed)
    (hstep : ∀ n, Relation.TransGen (Refers drafts) name n → n ∉ chain ++ [name] →
      ∀ q : Progress, drafts.Coherent base world.missing q.cache →
        drafts.Ends base world.missing q (drafts.Found world.missing (chain ++ [name]) n) (exec (step n) q))
    (hc : HaveDrafts drafts chain) (hd : drafts name = .ok d ∨ drafts.Completed world.missing name d)
    (hopen : d.isFlat = false) (h : drafts.Coherent base world.missing p.cache) :
    drafts.Ends base world.missing p (drafts.Outcome world.missing chain name)
      (exec (complete step (chain ++ [name]) (passes + 2) d) p) := by
  rcases hd with hd | hd
  · exact complete_draft hw hstep hc hd hopen h
  · exact complete_completed hw hstep hc hd (hd.merged hopen) h

end Complete

/-! ### One name -/

/-- The names of a chain are distinct and all but the first are known, and the depth that is left
suffices for all that are known. -/
structure Within (names chain : List String) (name : String) (depth : Nat) : Prop where
  nodup : (chain ++ [name]).Nodup
  known : ∀ n ∈ (chain ++ [name]).tail, n ∈ names
  deep : names.length + 2 ≤ (chain ++ [name]).length + depth

theorem Within.first (names : List String) (name : String) : Within names [] name (names.length + 2) where
  nodup := List.nodup_singleton name
  known := fun _ h => absurd h List.not_mem_nil
  deep := Nat.le_add_left _ _

theorem Within.depth_pos {depth : Nat} (h : Within names chain name depth) : 0 < depth := by
  have hnodup : (chain ++ [name]).tail.Nodup := h.nodup.sublist (List.tail_sublist _)
  have hlen : (chain ++ [name]).tail.length ≤ names.length := hnodup.length_le_of_subset h.known
  have hdeep := h.deep
  rw [List.length_tail] at hlen
  omega

theorem Within.next {depth : Nat} (h : Within names chain name (depth + 1)) {n : String}
    (hn : n ∉ chain ++ [name]) (hk : n ∈ names) : Within names (chain ++ [name]) n depth where
  nodup := nodup_snoc h.nodup hn
  known := by
    intro m hm
    have htail : (chain ++ [name] ++ [n]).tail = (chain ++ [name]).tail ++ [n] :=
      List.tail_append_of_ne_nil (by simp)
    rw [htail] at hm
    rcases List.mem_append.1 hm with hm | hm
    · exact h.known m hm
    · exact List.mem_singleton.1 hm ▸ hk
  deep := by
    have hdeep := h.deep
    rw [List.length_append, List.length_singleton]
    omega

/-- What is settled when a name is fetched below a chain: how deep it may go, that the names on the
chain have drafts, and that the sources which are searched have for all that the name leads to the
drafts that are meant. -/
structure Below (world : Surroundings) (drafts base : Drafts) (names chain : List String)
    (name : String) (depth : Nat) : Prop where
  within : Within names chain name depth
  drafted : HaveDrafts drafts chain
  agree : ∀ n, Relation.TransGen (Refers drafts) name n → n ∉ chain ++ [name] →
    base n = world.registry.drafts n

theorem Below.first (h : ∀ n, Relation.TransGen (Refers drafts) name n → n ≠ name →
    base n = world.registry.drafts n) : world.Below drafts base names [] name (names.length + 2) where
  within := .first names name
  drafted := fun _ hn => absurd hn List.not_mem_nil
  agree := fun n hr hn => h n hr fun he => hn (by simp [he])

theorem Below.next {depth : Nat} {n : String}
    (h : world.Below drafts base names chain name (depth + 1))
    (hrefs : ∀ n m, Refers drafts n m → m ∈ names) (hfound : ∃ d, drafts name = .ok d)
    (hr : Relation.TransGen (Refers drafts) name n) (hn : n ∉ chain ++ [name]) :
    world.Below drafts base names (chain ++ [name]) n depth := by
  obtain ⟨m, -, hm⟩ := Relation.TransGen.tail'_iff.1 hr
  refine ⟨h.within.next hn (hrefs m n hm), h.drafted.next hfound, fun k hk hmem => ?_⟩
  exact h.agree k (hr.trans hk) fun hc => hmem (List.mem_append_left _ hc)

theorem store_outcome {step : Resolve Document} (hw : drafts.WellFormed)
    (h : drafts.Ends base world.missing p (drafts.Outcome world.missing chain name) (exec step p)) :
    drafts.Ends base world.missing p (drafts.Outcome world.missing chain name) (exec (step >>= store) p) := by
  refine h.bind (fun d q hd hq => ?_) fun e he => he
  have hcomplete : drafts.Completed world.missing name d := hd
  refine (store_ends hq (hcomplete.name_eq hw) hcomplete).mono ?_
  rintro _ rfl
  exact hd

section Reading

variable {template : String} {source : Option String}

theorem lookUp_ends (hname : cacheKey template source = name) (hw : drafts.WellFormed)
    (hread : p.cache.held name = none → drafts name = world.registry.draft source template)
    (h : drafts.Coherent base world.missing p.cache) :
    drafts.Ends base world.missing p (drafts.LookedUp world.missing name)
      (exec (world.lookUp template source) p) := by
  subst hname
  cases hheld : p.cache.held (cacheKey template source) with
  | some d =>
    have hd := h.held hheld
    have hlook : drafts.LookedUp world.missing (cacheKey template source) (.ok (d, d.isFlat)) :=
      ⟨hd.1, hd.2, id⟩
    rw [world.exec_lookUp_of_held hheld]
    exact h.ends hlook
  | none =>
    have hdraft := hread hheld
    rw [world.exec_lookUp_of_not_held hheld]
    refine @Ends.of_searched drafts base world.missing _ p _ _ world.registry template source ?_
    have hq : drafts.Coherent base world.missing (p.searched world.registry template source).cache := h
    cases hd : world.registry.draft source template with
    | error e => exact hq.ends (hdraft.trans hd)
    | ok d =>
      have hok : drafts (cacheKey template source) = .ok d := hdraft.trans hd
      have hlook : drafts.LookedUp world.missing (cacheKey template source) (.ok (d, false)) :=
        ⟨hw.name_eq hok, .inl hok, fun hf => by cases hf⟩
      exact hq.ends hlook

theorem fetch_ends (hw : drafts.WellFormed) (hrefs : ∀ n m, Refers drafts n m → m ∈ names)
    {passes depth : Nat} (hname : cacheKey template source = name)
    (hbelow : world.Below drafts base names chain name depth)
    (hread : p.cache.held name = none → drafts name = world.registry.draft source template)
    (h : drafts.Coherent base world.missing p.cache) :
    drafts.Ends base world.missing p (drafts.Outcome world.missing chain name)
      (exec (world.fetch (passes + 2) depth template source chain) p) := by
  induction depth generalizing chain name template source p with
  | zero => exact absurd hbelow.within.depth_pos (Nat.lt_irrefl 0)
  | succ depth ih =>
    have hstep : (∃ e, drafts name = .ok e) → ∀ n, Relation.TransGen (Refers drafts) name n →
        n ∉ chain ++ [name] → ∀ q : Progress, drafts.Coherent base world.missing q.cache →
          drafts.Ends base world.missing q (drafts.Found world.missing (chain ++ [name]) n)
            (exec (world.orMissing
              (world.fetch (passes + 2) depth n none (chain ++ [name]))) q) := by
      intro hfound n hr hn q hq
      have hread : q.cache.held n = none → drafts n = world.registry.draft none n :=
        fun hnone => (hq.fresh hnone).trans (hbelow.agree n hr hn)
      exact orMissing_ends (ih rfl (hbelow.next hrefs hfound hr hn) hread hq)
    unfold fetch
    refine (lookUp_ends hname hw hread h).bind (fun found q hlook hq => ?_) fun e he => .draft he
    obtain ⟨d, done⟩ := found
    obtain ⟨hdname, hd, hdone⟩ := hlook
    have hfound : ∃ e, drafts name = .ok e := hd.elim (fun hd => ⟨d, hd⟩) Completed.found
    cases hflat : d.isFlat with
    | true =>
      have hcomplete : drafts.Completed world.missing name d := hd.elim (.flat · hflat) id
      cases done with
      | true => exact hq.ends hcomplete
      | false =>
        simp only [Bool.false_eq_true, if_false, hflat, if_true]
        refine (store_ends hq hdname hcomplete).mono ?_
        rintro _ rfl
        exact hcomplete
    | false =>
      have hopen : done = false := Bool.eq_false_iff.2 fun hd => by simp [hdone hd] at hflat
      simp only [hopen, hflat, hdname, Bool.false_eq_true, if_false]
      exact store_outcome hw (complete_ends hw (hstep hfound) hbelow.drafted hd hflat hq)

/-! ### From the top -/

/-- What a draft needs, the text that it is read from refers to. -/
theorem mem_textReferences {registry : Registry} {d : Document} {n : String}
    (hd : registry.draft source template = .ok d) (hn : n ∈ d.unresolved) :
    n ∈ registry.texts.flatMap textReferences := by
  unfold Registry.draft at hd
  split at hd
  · cases hd
  · next key text hfound =>
    split at hd
    · next nodes hparse =>
      obtain rfl := Except.ok.inj hd
      refine List.mem_flatMap.2 ⟨text, Registry.mem_texts_of_find hfound, ?_⟩
      rw [textReferences, hparse]
      exact hn
    · cases hd

/-- Every name's draft is read from the sources or cached. -/
def Known (world : Surroundings) (drafts : Drafts) (cache : Cache) : Prop :=
  ∀ n, (∃ source template, drafts n = world.registry.draft source template) ∨
    ∃ d, cache.held n = some d ∧ drafts n = .ok d

theorem Known.mem_mentioned {cache : Cache} (h : world.Known drafts cache) {n : String}
    (hr : Refers drafts name n) : n ∈ world.mentioned cache := by
  obtain ⟨d, hd, hn⟩ := hr
  refine Names.mem_ofList.2 (List.mem_append.2 ?_)
  rcases h name with ⟨source, template, h⟩ | ⟨e, he, h⟩
  · exact .inl (mem_textReferences (h.symm.trans hd) hn)
  · obtain rfl := Except.ok.inj (h.symm.trans hd)
    have hmem : (name, e) ∈ cache.documents := Table.mem_of_get? (Cache.get?_of_held he)
    exact .inr (List.mem_flatMap.2 ⟨_, hmem, List.mem_append_left _ hn⟩)

/-- The drafts need only be those of the sources for the names that the request leads to. -/
theorem resolve_ends (hw : drafts.WellFormed) (hknown : world.Known drafts p.cache)
    (hread : ∀ n, Relation.ReflTransGen (Refers drafts) (cacheKey template source) n →
      base n = world.registry.sourced source template n)
    (h : drafts.Coherent base world.missing p.cache) :
    drafts.Ends base world.missing p (drafts.Outcome world.missing [] (cacheKey template source))
      (exec (world.resolve template source) p) := by
  have hself : p.cache.held (cacheKey template source) = none →
      drafts (cacheKey template source) = world.registry.draft source template := fun hnone =>
    (h.fresh hnone).trans ((hread _ .refl).trans (world.registry.sourced_key source template))
  have hbelow : ∀ n, Relation.TransGen (Refers drafts) (cacheKey template source) n →
      n ≠ cacheKey template source → base n = world.registry.drafts n :=
    fun n hr hn => (hread n hr.to_reflTransGen).trans (Registry.sourced_of_ne hn)
  unfold resolve
  rw [exec_bind_ok (exec_get p)]
  exact fetch_ends hw (fun n m => hknown.mem_mentioned) rfl (.first hbelow) hself h

end Reading

end Surroundings

namespace Renderer

variable {renderer : Renderer} {drafts base : Drafts} {p : Progress} {template name : String}
  {source : Option String}

theorem exec_served (template : String) (source : Option String) (p : Progress) :
    exec (served template source) p =
      (.ok ((p.cache.held (cacheKey template source)).filter Document.isFlat), p) := by
  unfold served
  rw [exec_bind_ok (exec_get p)]
  unfold Cache.retrieve Cache.held
  cases p.cache.enabled with
  | false => rfl
  | true =>
    simp only [if_true]
    cases Table.get? p.cache.documents (cacheKey template source) with
    | none => rfl
    | some d =>
      show exec (pure (if d.isFlat then some d else none)) p = _
      rw [exec_pure, Option.filter_some]

theorem exec_documentFrom_of_served {d : Document} (hname : template.isEmpty = false)
    (h : (p.cache.held (cacheKey template source)).filter Document.isFlat = some d) :
    exec (renderer.documentFrom source template) p = (.ok d, p) := by
  have hserved := exec_served template source p
  rw [h] at hserved
  unfold documentFrom
  simp only [hname, Bool.false_eq_true, if_false]
  rw [exec_bind_ok hserved]
  rfl

theorem exec_documentFrom_of_not_served (hname : template.isEmpty = false)
    (h : (p.cache.held (cacheKey template source)).filter Document.isFlat = none) :
    exec (renderer.documentFrom source template) p =
      exec (renderer.surroundings.resolve template source) p := by
  have hserved := exec_served template source p
  rw [h] at hserved
  unfold documentFrom
  simp only [hname, Bool.false_eq_true, if_false]
  rw [exec_bind_ok hserved]

theorem documentFrom_ends (hw : drafts.WellFormed) (hknown : renderer.surroundings.Known drafts p.cache)
    (hread : ∀ n, Relation.ReflTransGen (Refers drafts) (cacheKey template source) n →
      base n = renderer.registry.sourced source template n)
    (h : drafts.Coherent base renderer.missing p.cache) (hname : template.isEmpty = false) :
    drafts.Ends base renderer.missing p (drafts.Outcome renderer.missing [] (cacheKey template source))
      (exec (renderer.documentFrom source template) p) := by
  have hresolve : drafts.Ends base renderer.missing p
      (drafts.Outcome renderer.missing [] (cacheKey template source))
      (exec (renderer.surroundings.resolve template source) p) :=
    @Surroundings.resolve_ends renderer.surroundings drafts base p template source hw hknown hread h
  cases hserved : (p.cache.held (cacheKey template source)).filter Document.isFlat with
  | none =>
    rw [exec_documentFrom_of_not_served hname hserved]
    exact hresolve
  | some d =>
    obtain ⟨hheld, hflat⟩ := Option.filter_eq_some_iff.1 hserved
    have hcomplete : drafts.Completed renderer.missing (cacheKey template source) d :=
      (h.held hheld).2.elim (.flat · hflat) id
    rw [exec_documentFrom_of_served hname hserved]
    exact h.ends hcomplete

/-- How asking for the document of a name ends: the empty name is refused. -/
def Answered (drafts : Drafts) (missing : Missing) (name : String) (r : Except Error Document) : Prop :=
  if name.isEmpty then r = .error (.noTemplateExists "(no key provided)")
  else drafts.Outcome missing [] name r

section

variable {drafts : Drafts} {missing : Missing} {r r' : Except Error Document}

theorem answered_iff_refused (hname : name.isEmpty = true) :
    Answered drafts missing name r ↔ r = .error (.noTemplateExists "(no key provided)") := by
  unfold Answered
  rw [if_pos hname]

theorem answered_iff_outcome (hname : name.isEmpty = false) :
    Answered drafts missing name r ↔ drafts.Outcome missing [] name r := by
  unfold Answered
  rw [if_neg (by simp [hname])]

theorem Answered.completed {d : Document} (h : Answered drafts missing name (.ok d)) :
    name.isEmpty = false ∧ drafts.Completed missing name d := by
  cases hname : name.isEmpty with
  | true => cases (answered_iff_refused hname).1 h
  | false => exact ⟨rfl, (answered_iff_outcome hname).1 h⟩

theorem Answered.unique (h : Answered drafts missing name r) (h' : Answered drafts missing name r') :
    r = r' := by
  cases hname : name.isEmpty with
  | true =>
    rw [answered_iff_refused hname] at h h'
    exact h.trans h'.symm
  | false =>
    rw [answered_iff_outcome hname] at h h'
    exact h.unique h' (.nil drafts name)

end

theorem document_ends (hw : drafts.WellFormed) (hknown : renderer.surroundings.Known drafts p.cache)
    (h : drafts.Coherent renderer.registry.drafts renderer.missing p.cache) (name : String) :
    drafts.Ends renderer.registry.drafts renderer.missing p (Answered drafts renderer.missing name)
      (exec (renderer.document name) p) := by
  unfold document Answered
  cases hempty : name.isEmpty with
  | true =>
    unfold documentFrom
    simp only [hempty, if_true]
    exact h.ends rfl
  | false =>
    have hread : ∀ n, Relation.ReflTransGen (Refers drafts) (cacheKey name none) n →
        renderer.registry.drafts n = renderer.registry.sourced none name n :=
      fun n _ => by rw [Registry.sourced_none]
    exact documentFrom_ends hw hknown hread h hempty

theorem answered_of_not_held (h : ∀ n, p.cache.held n = none) (name : String) :
    Answered renderer.registry.drafts renderer.missing name (exec (renderer.document name) p).1 :=
  (document_ends renderer.registry.wellFormed_drafts (fun n => .inl ⟨none, n, rfl⟩)
    (coherent_of_not_held h) name).result

end Renderer

end Templating
