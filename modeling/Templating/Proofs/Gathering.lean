import Templating.Proofs.Equality
import Templating.Proofs.Histories
import Templating.Proofs.Isolation
import Templating.Proofs.Relevance

/-!
# Gathering

Where a missing template is a failure, a resolution that starts with nothing cached looks up each name that
its template leads to once, and leaves all of them cached. A name is looked up only while it is not held, and
is held as soon as its call is answered; until then only names below it are looked up, and it is none of them
as it does not lead back to itself.
-/

namespace Templating

open Resolve Drafts

def Cache.Holds (cache : Cache) (name : String) : Prop := ∃ d, cache.held name = some d

/-- A cache that is on, of completed documents, with whatever they refer to. -/
structure Cache.Gathered (drafts : Drafts) (cache : Cache) : Prop where
  enabled : cache.enabled = true
  sorted : Table.Sorted cache.documents
  completed : ∀ {name d}, cache.held name = some d → Completed drafts .fail name d
  closed : ∀ {name n}, cache.Holds name → Refers drafts name n → cache.Holds n

/-- Between two states some names were looked up, each of them once: none was held before, and after that all
are, and nothing else is new. -/
structure Progress.Gathers (registry : Registry) (p q : Progress) (names : List String) : Prop where
  reads : q.reads = p.reads ++ names.flatMap registry.questions
  nodup : names.Nodup
  fresh : ∀ n ∈ names, ¬ p.cache.Holds n
  holds : ∀ n, q.cache.Holds n ↔ n ∈ names ∨ p.cache.Holds n

/-! ### One step -/

section

variable {drafts : Drafts} {cache : Cache} {name : String} {d : Document}

theorem Cache.holds_stored (hon : cache.enabled = true) (hname : d.name = name) (n : String) :
    (cache.stored d).Holds n ↔ n = name ∨ cache.Holds n := by
  unfold Holds
  rw [held_stored, hname]
  by_cases hn : n = name
  · simp [hon, hn]
  · simp [hn]

theorem Cache.Gathered.empty (drafts : Drafts) : (Cache.empty true).Gathered drafts where
  enabled := rfl
  sorted := List.Pairwise.nil
  completed hheld := by cases hheld
  closed hholds := by
    obtain ⟨d, hheld⟩ := hholds
    cases hheld

theorem Cache.Gathered.stored (h : cache.Gathered drafts) (hname : d.name = name)
    (hd : Completed drafts .fail name d) (hrefs : ∀ n, Refers drafts name n → cache.Holds n) :
    (cache.stored d).Gathered drafts where
  enabled := (keeps_stored cache d).1.trans h.enabled
  sorted := by
    have hstored : (cache.stored d).documents = Table.insert d.name d cache.documents := by
      rw [Cache.stored, if_pos h.enabled]
    rw [hstored]
    exact h.sorted.insert d.name d
  completed := by
    intro n e hheld
    rw [held_stored, hname] at hheld
    by_cases hn : n = name
    · rw [if_pos ⟨h.enabled, hn⟩] at hheld
      rw [hn, ← Option.some.inj hheld]
      exact hd
    · rw [if_neg fun hboth => hn hboth.2] at hheld
      exact h.completed hheld
  closed := by
    intro m n hholds hrefers
    have hheld : cache.Holds n := by
      rcases (holds_stored h.enabled hname m).1 hholds with rfl | hold
      · exact hrefs n hrefers
      · exact h.closed hold hrefers
    exact (holds_stored h.enabled hname n).2 (.inr hheld)

variable {registry : Registry} {p q r : Progress} {names more : List String}

theorem Progress.Gathers.refl (registry : Registry) (p : Progress) : p.Gathers registry p [] where
  reads := by simp
  nodup := List.nodup_nil
  fresh := by simp
  holds := by simp

theorem Progress.Gathers.append (h : p.Gathers registry q names) (h' : q.Gathers registry r more) :
    p.Gathers registry r (names ++ more) where
  reads := by rw [h'.reads, h.reads, List.flatMap_append, List.append_assoc]
  nodup := by
    refine List.nodup_append.2 ⟨h.nodup, h'.nodup, ?_⟩
    rintro n hn m hm rfl
    exact h'.fresh n hm ((h.holds n).2 (.inl hn))
  fresh := by
    intro n hn hold
    rcases List.mem_append.1 hn with hn | hn
    · exact h.fresh n hn hold
    · exact h'.fresh n hn ((h.holds n).2 (.inr hold))
  holds := by
    intro n
    rw [h'.holds, h.holds, List.mem_append, or_assoc, or_left_comm]

theorem Progress.Gathers.stored (hfresh : ¬ p.cache.Holds name) (hon : q.cache.enabled = true)
    (h : (p.searched registry name none).Gathers registry q names) (hnot : name ∉ names)
    (hname : d.name = name) :
    p.Gathers registry { q with cache := q.cache.stored d } (name :: names) where
  reads := by
    have hsearched : (p.searched registry name none).reads = p.reads ++ registry.questions name := rfl
    rw [List.flatMap_cons, ← List.append_assoc, ← hsearched]
    exact h.reads
  nodup := List.nodup_cons.2 ⟨hnot, h.nodup⟩
  fresh := by
    intro n hn
    rcases List.mem_cons.1 hn with rfl | hn
    · exact hfresh
    · exact h.fresh n hn
  holds := by
    intro n
    have hbefore : q.cache.Holds n ↔ n ∈ names ∨ p.cache.Holds n := h.holds n
    rw [Cache.holds_stored hon hname, hbefore, List.mem_cons, or_assoc]

end

namespace Surroundings

variable {world : Surroundings} {name : String} {p q : Progress} {d : Document}

theorem eq_of_lookUp_complete (h : exec (world.lookUp name none) p = (.ok (d, true), q)) :
    q = p ∧ p.cache.held name = some d := by
  have hheld := held_of_lookUp h rfl
  cases hbefore : p.cache.held name with
  | some e =>
    rw [exec_lookUp_of_held world hbefore] at h
    obtain rfl := (Prod.mk.inj h).2
    exact ⟨rfl, hbefore.symm.trans hheld⟩
  | none =>
    rw [exec_lookUp_of_not_held world hbefore] at h
    obtain rfl := (Prod.mk.inj h).2
    cases hbefore.symm.trans hheld

theorem searched_of_lookUp (hp : p.cache.Gathered world.registry.drafts)
    (h : exec (world.lookUp name none) p = (.ok (d, false), q)) :
    ¬ p.cache.Holds name ∧ world.registry.drafts name = .ok d ∧ q = p.searched world.registry name none := by
  cases hheld : p.cache.held name with
  | some e =>
    -- what is held is flat, and would have been complete as it stands
    have hflat := (hp.completed hheld).isFlat_of_fail world.registry.wellFormed_drafts
    rw [exec_lookUp_of_held world hheld, hflat] at h
    cases h
  | none =>
    rw [exec_lookUp_of_not_held world hheld] at h
    obtain ⟨hresult, rfl⟩ := Prod.mk.inj h
    have hnot : ¬ p.cache.Holds name := by
      rintro ⟨e, he⟩
      cases hheld.symm.trans he
    refine ⟨hnot, ?_, rfl⟩
    cases hd : world.registry.draft none name with
    | error e => rw [hd] at hresult; cases hresult
    | ok e =>
      rw [hd] at hresult
      rw [← (Prod.mk.inj (Except.ok.inj hresult)).1]
      exact hd

theorem eq_some_of_supplied (hmissing : world.missing = .fail) {r : Except Error Document}
    {found : Option Document} (h : world.supplied r = .ok found) : ∃ d, found = some d ∧ r = .ok d := by
  unfold supplied at h
  rw [hmissing] at h
  split at h
  · exact ⟨_, (Except.ok.inj h).symm, rfl⟩
  · cases h
  · cases h

/-! ### Along a course -/

/-- What a call does once what its name refers to is held: it stores the document that it ends with. -/
theorem gathers_stored {names : List String} (hfresh : ¬ p.cache.Holds name)
    (hd : Completed world.registry.drafts .fail name d) (hq : q.cache.Gathered world.registry.drafts)
    (hrefs : ∀ n, Refers world.registry.drafts name n → q.cache.Holds n)
    (hgathers : (p.searched world.registry name none).Gathers world.registry q names)
    (hbelow : ∀ n ∈ names, Relation.TransGen (Refers world.registry.drafts) name n) :
    (q.cache.stored d).Gathered world.registry.drafts ∧ (q.cache.stored d).held name = some d ∧
      ∃ all, p.Gathers world.registry { q with cache := q.cache.stored d } all ∧
        ∀ n ∈ all, Relation.ReflTransGen (Refers world.registry.drafts) name n := by
  have hname := hd.name_eq world.registry.wellFormed_drafts
  -- were the name itself looked up below, it would lead back to itself
  have hnot : name ∉ names := fun hn => hd.not_transGen_self (hbelow name hn)
  refine ⟨hq.stored hname hd hrefs, ?_, name :: names, .stored hfresh hq.enabled hgathers hnot hname, ?_⟩
  · rw [Cache.held_stored, if_pos ⟨hq.enabled, hname.symm⟩]
  · intro n hn
    rcases List.mem_cons.1 hn with rfl | hn
    · exact .refl
    · exact (hbelow n hn).to_reflTransGen

mutual

theorem Fetches.gathers (hmissing : world.missing = .fail) {chain : List String} {name : String}
    {p q : Progress} {call : Call} {r : Except Error Document}
    (h : world.Fetches chain name none p call r q) (hp : p.cache.Gathered world.registry.drafts) :
    ∀ d, r = .ok d → q.cache.Gathered world.registry.drafts ∧ q.cache.held name = some d ∧
      ∃ names, p.Gathers world.registry q names ∧
        ∀ n ∈ names, Relation.ReflTransGen (Refers world.registry.drafts) name n := by
  intro d hr
  cases h with
  | refused => cases hr
  | complete look =>
    obtain rfl := Except.ok.inj hr
    obtain ⟨rfl, hheld⟩ := eq_of_lookUp_complete look
    exact ⟨hp, hheld, [], .refl _ _, by simp⟩
  | flat look flat =>
    obtain ⟨hd, hlast⟩ := eq_ok_of_finish hr
    obtain rfl := Except.ok.inj hd
    obtain ⟨hfresh, hdraft, rfl⟩ := searched_of_lookUp hp look
    have hrefs : ∀ n, Refers world.registry.drafts name n → p.cache.Holds n :=
      fun n hrefers => (not_refers_of_isFlat hdraft flat n hrefers).elim
    rw [hlast]
    exact gathers_stored hfresh (.flat hdraft flat) hp hrefs (.refl _ _) (by simp)
  | passes look unfinished completes =>
    obtain ⟨rfl, hlast⟩ := eq_ok_of_finish hr
    obtain ⟨hfresh, hdraft, rfl⟩ := searched_of_lookUp hp look
    obtain ⟨hd, hq, hrefs, names, hgathers, hbelow⟩ :=
      completes.gathers hmissing hdraft unfinished hp d rfl
    rw [hlast]
    exact gathers_stored hfresh hd hq hrefs hgathers hbelow

theorem Completes.gathers (hmissing : world.missing = .fail) {chain : List String} {name : String}
    {d : Document} {p q : Progress} {passes : List (List Call)} {r : Except Error Document}
    (h : world.Completes chain d p passes r q) (found : world.registry.drafts name = .ok d)
    (hopen : d.isFlat = false) (hp : p.cache.Gathered world.registry.drafts) :
    ∀ e, r = .ok e → Completed world.registry.drafts .fail name e ∧
      q.cache.Gathered world.registry.drafts ∧
      (∀ n, Refers world.registry.drafts name n → q.cache.Holds n) ∧
      ∃ names, p.Gathers world.registry q names ∧
        ∀ n ∈ names, Relation.TransGen (Refers world.registry.drafts) name n := by
  intro e hr
  cases h with
  | cyclic => cases hr
  | failed => cases hr
  | last _ fetches =>
    obtain rfl := Except.ok.inj hr
    obtain ⟨hq, hall, hholds, names, hgathers, hbelow⟩ := fetches.gathers hmissing hp _ rfl
    refine ⟨FoundAll.completed hall found hopen, hq, ?_, names, hgathers, ?_⟩
    · intro n hrefers
      exact hholds n ((refers_iff_of_ok found).1 hrefers)
    · intro n hn
      obtain ⟨m, hm, hreach⟩ := hbelow n hn
      exact .head' ((refers_iff_of_ok found).2 hm) hreach
  | again _ fetches reveals =>
    -- what a first pass leaves is flat, so that there is no second one
    obtain ⟨-, hall, -⟩ := fetches.gathers hmissing hp _ rfl
    have hflat := (FoundAll.completed hall found hopen).isFlat_of_fail world.registry.wellFormed_drafts
    rw [Document.isFlat_iff.1 hflat] at reveals
    cases reveals

theorem FetchesAll.gathers (hmissing : world.missing = .fail) {chain wanted : List String}
    {p q : Progress} {calls : List Call} {r : Except Error (Table Document)}
    (h : world.FetchesAll chain wanted p calls r q) (hp : p.cache.Gathered world.registry.drafts) :
    ∀ atHand, r = .ok atHand → q.cache.Gathered world.registry.drafts ∧
      FoundAll world.registry.drafts .fail chain wanted (.ok atHand) ∧ (∀ n ∈ wanted, q.cache.Holds n) ∧
      ∃ names, p.Gathers world.registry q names ∧
        ∀ n ∈ names, ∃ m ∈ wanted, Relation.ReflTransGen (Refers world.registry.drafts) m n := by
  intro atHand hr
  cases h with
  | nil =>
    obtain rfl := Except.ok.inj hr
    exact ⟨hp, .nil, by simp, [], .refl _ _, by simp⟩
  | failed => cases hr
  | @cons _ wanted name _ _ _ _ _ _ _ rest fetches answered others =>
    obtain ⟨d, rfl, rfl⟩ := eq_some_of_supplied hmissing answered
    cases rest with
    | error e => cases hr
    | ok rest =>
      obtain rfl := Except.ok.inj hr
      obtain ⟨hnext, hheld, names, hgathers, hbelow⟩ := fetches.gathers hmissing hp d rfl
      obtain ⟨hq, hall, hothers, more, hmore, hrest⟩ := others.gathers hmissing hnext rest rfl
      have hd : Found world.registry.drafts .fail chain name (.ok (some d)) := hnext.completed hheld
      have hholds := (hmore.holds name).2 (.inr ⟨d, hheld⟩)
      refine ⟨hq, .some hd hall, List.forall_mem_cons.2 ⟨hholds, hothers⟩, names ++ more,
        hgathers.append hmore, ?_⟩
      intro n hn
      rcases List.mem_append.1 hn with hn | hn
      · exact ⟨name, List.mem_cons_self, hbelow n hn⟩
      · obtain ⟨m, hm, hreach⟩ := hrest n hn
        exact ⟨m, List.mem_cons_of_mem name hm, hreach⟩

end

theorem exec_resolve_of_completed (h : Completed world.registry.drafts world.missing name d) (enabled : Bool) :
    (exec (world.resolve name none) ⟨.empty enabled, []⟩).1 = .ok d := by
  have hread : ∀ n, Relation.ReflTransGen (Refers world.registry.drafts) (cacheKey name none) n →
      world.registry.drafts n = world.registry.sourced none name n := by
    intro n _
    rw [Registry.sourced_none]
  have hend := @resolve_ends world world.registry.drafts world.registry.drafts ⟨.empty enabled, []⟩ name none
    world.registry.wellFormed_drafts (fun n => .inl ⟨none, n, rfl⟩) hread
    (coherent_of_not_held (Cache.held_eq_none (.inl rfl)))
  have hcompleted : Drafts.Outcome world.registry.drafts world.missing [] name (.ok d) := h
  exact hend.result.unique hcompleted (.nil _ name)

end Surroundings

/-! ### A whole request -/

namespace Renderer

variable {renderer : Renderer} {template : String} {d : Document}

theorem document_gathers (hmissing : renderer.missing = .fail)
    (h : (exec (renderer.document template) ⟨.empty true, []⟩).1 = .ok d) :
    (exec (renderer.document template) ⟨.empty true, []⟩).2.cache.Gathered renderer.registry.drafts ∧
      ∃ names, Progress.Gathers renderer.registry ⟨.empty true, []⟩
          (exec (renderer.document template) ⟨.empty true, []⟩).2 names ∧
        ∀ n, n ∈ names ↔ renderer.Reaches template n := by
  have hname : template.isEmpty = false := by
    apply Bool.eq_false_iff.2
    intro hempty
    rw [document, exec_documentFrom_of_isEmpty hempty] at h
    cases h
  rw [document, exec_documentFrom_of_empty none hname] at h ⊢
  obtain ⟨call, -, hcourse⟩ :=
    @Surroundings.resolve_course renderer.surroundings ⟨.empty true, []⟩ (.empty true) template none
  obtain ⟨hq, hheld, names, hgathers, hbelow⟩ := hcourse.gathers hmissing (.empty _) d h
  refine ⟨hq, names, hgathers, fun n => ⟨hbelow n, fun hreach => ?_⟩⟩
  have hholds : (exec (renderer.surroundings.resolve template none) ⟨.empty true, []⟩).2.cache.Holds n := by
    induction hreach with
    | refl => exact ⟨d, hheld⟩
    | tail _ hrefers ih => exact hq.closed ih hrefers
  rcases (hgathers.holds n).1 hholds with hn | ⟨e, he⟩
  · exact hn
  · cases he

theorem lookups_gathered (hmissing : renderer.missing = .fail)
    (h : (exec (renderer.document template) ⟨.empty true, []⟩).1 = .ok d) :
    (renderer.lookups template).Nodup ∧ ∀ n, n ∈ renderer.lookups template ↔ renderer.Reaches template n := by
  have hasOne := (@document_beside renderer renderer.asOne template rfl
    fun name _ => (renderer.registry.text_single_asOne name).symm).1
  obtain ⟨-, names, hgathers, hnames⟩ := @document_gathers renderer.asOne template d hmissing (hasOne.trans h)
  have hlookups : renderer.lookups template = names := lookups_eq_of_reads hgathers.reads
  rw [reaches_asOne] at hnames
  rw [hlookups]
  exact ⟨hgathers.nodup, hnames⟩

theorem keys_perm_lookups (hmissing : renderer.missing = .fail)
    (h : (exec (renderer.document template) ⟨.empty true, []⟩).1 = .ok d) :
    (Table.keys (exec (renderer.document template) ⟨.empty true, []⟩).2.cache.documents).Perm
      (renderer.lookups template) := by
  obtain ⟨hq, names, hgathers, hnames⟩ := document_gathers hmissing h
  obtain ⟨hnodup, hlookups⟩ := lookups_gathered hmissing h
  apply (List.perm_ext_iff_of_nodup hq.sorted.nodup_keys hnodup).2
  intro n
  rw [Table.mem_keys_iff, hlookups, ← hnames]
  have hheld := hgathers.holds n
  unfold Cache.Holds Cache.held at hheld
  rw [hq.enabled, if_pos rfl] at hheld
  rw [hheld]
  simp [Cache.empty]

/-- Every needed template is looked up exactly once where missing templates are a failure and nothing is
cached: the template itself and the names that it leads to, and nothing else. These are the names that are
cached afterwards, each with the flat document that a resolution of the name alone ends with. It is also what
a request for the name is answered with, unless the name is empty. -/
theorem document_looks_up_once (hmissing : renderer.missing = .fail)
    (h : (exec (renderer.document template) ⟨.empty true, []⟩).1 = .ok d) :
    (renderer.lookups template).Nodup ∧
    (∀ n, n ∈ renderer.lookups template ↔ renderer.Reaches template n) ∧
    (exec (renderer.document template) ⟨.empty true, []⟩).2.reads =
      (renderer.lookups template).flatMap renderer.registry.questions ∧
    (Table.keys (exec (renderer.document template) ⟨.empty true, []⟩).2.cache.documents).Perm
      (renderer.lookups template) ∧
    ∀ n e, Table.get? (exec (renderer.document template) ⟨.empty true, []⟩).2.cache.documents n = some e →
      e.isFlat = true ∧ e.name = n ∧
      (∀ enabled, (exec (renderer.surroundings.resolve n none) ⟨.empty enabled, []⟩).1 = .ok e) ∧
      (n ≠ "" → ∀ enabled, (exec (renderer.document n) ⟨.empty enabled, []⟩).1 = .ok e) := by
  obtain ⟨hnodup, hlookups⟩ := lookups_gathered hmissing h
  obtain ⟨hq, -⟩ := document_gathers hmissing h
  refine ⟨hnodup, hlookups, (renderer.reads_document template).1, keys_perm_lookups hmissing h, ?_⟩
  intro n e hget
  have hheld : (exec (renderer.document template) ⟨.empty true, []⟩).2.cache.held n = some e := by
    rw [Cache.held, if_pos hq.enabled]
    exact hget
  have he := hq.completed hheld
  have hanswers : Drafts.Completed renderer.registry.drafts renderer.missing n e := by
    rw [hmissing]
    exact he
  have hresolve : ∀ enabled,
      (exec (renderer.surroundings.resolve n none) ⟨.empty enabled, []⟩).1 = .ok e :=
    @Surroundings.exec_resolve_of_completed renderer.surroundings n e hanswers
  refine ⟨he.isFlat_of_fail renderer.registry.wellFormed_drafts,
    he.name_eq renderer.registry.wellFormed_drafts, hresolve, fun hn enabled => ?_⟩
  rw [document, exec_documentFrom_of_empty none (by simpa using hn)]
  exact hresolve enabled

/-- Two parts of a page need the same leaf. -/
def diamond : Renderer :=
  .ofRegistry .blocking .fail (.single (Memory.holding
    [("page", "#extend(\"left\")|#extend(\"right\")"), ("left", "(#extend(\"leaf\"))"),
      ("right", "[#extend(\"leaf\")]"), ("leaf", "x")]).source)

theorem document_looks_up_once_diamond :
    diamond.missing = .fail ∧
    (∃ d, (exec (diamond.document "page") ⟨.empty true, []⟩).1 = .ok d ∧ d.nodes = [.raw "(x)|[x]"]) ∧
    diamond.lookups "page" = ["page", "left", "leaf", "right"] ∧
    (diamond.lookups "page").Nodup ∧
    (Table.keys (exec (diamond.document "page") ⟨.empty true, []⟩).2.cache.documents).Perm
      (diamond.lookups "page") ∧
    ∃ e, Table.get? (exec (diamond.document "page") ⟨.empty true, []⟩).2.cache.documents "leaf" = some e ∧
      e.nodes = [.raw "x"] ∧ (exec (diamond.document "leaf") ⟨.empty true, []⟩).1 = .ok e := by
  have hrun : (exec (diamond.document "page") ⟨.empty true, []⟩).1.toOption.map Document.nodes =
      some [.raw "(x)|[x]"] := by decide +kernel
  obtain ⟨d, hd, hnodes⟩ := exists_ok_of_map_toOption hrun
  obtain ⟨hnodup, -, -, hkeys, hcached⟩ := @document_looks_up_once diamond "page" d rfl hd
  have hleaf : (Table.get? (exec (diamond.document "page") ⟨.empty true, []⟩).2.cache.documents "leaf").map
      Document.nodes = some [.raw "x"] := by decide +kernel
  obtain ⟨e, he, hraw⟩ := Option.map_eq_some_iff.1 hleaf
  obtain ⟨-, -, -, hanswer⟩ := hcached "leaf" e he
  exact ⟨rfl, ⟨d, hd, hnodes⟩, by decide +kernel, hnodup, hkeys, e, he, hraw, hanswer (by decide) true⟩

/-- A page needs the template under the empty name. -/
def beneathNothing : Renderer :=
  .ofRegistry .blocking .fail (.single (Memory.holding
    [("", "text"), ("page", "#extend(\"\")")]).source)

/-- The template under the empty name is cached on the way, but nobody can ask for its document. -/
theorem document_of_cached_empty_name_refused :
    ∃ d e, (exec (beneathNothing.document "page") ⟨.empty true, []⟩).1 = .ok d ∧
      Table.get? (exec (beneathNothing.document "page") ⟨.empty true, []⟩).2.cache.documents "" = some e ∧
      (exec (beneathNothing.document "") ⟨.empty true, []⟩).1 ≠ .ok e := by
  have hrun : (exec (beneathNothing.document "page") ⟨.empty true, []⟩).1.toOption.map Document.nodes =
      some [.raw "text"] := by decide +kernel
  obtain ⟨d, hd, -⟩ := exists_ok_of_map_toOption hrun
  have hcached : (Table.get? (exec (beneathNothing.document "page") ⟨.empty true, []⟩).2.cache.documents
      "").map Document.nodes = some [.raw "text"] := by decide +kernel
  obtain ⟨e, he, -⟩ := Option.map_eq_some_iff.1 hcached
  refine ⟨d, e, hd, he, fun hanswer => ?_⟩
  rw [document, exec_documentFrom_of_isEmpty rfl] at hanswer
  cases hanswer

end Renderer

end Templating
