import Mathlib.Data.List.Chain
import Templating.Proofs.Resolving

/-!
# Cycles

Where a missing template is a failure, a document is completed exactly if every template that it leads
to can be read and none of them leads back to itself. The error about a cycle shows one: a path of
references from the template that was asked for, along distinct names and back to one of them.
-/

namespace Templating

open Resolve

namespace Drafts

variable {drafts : Drafts} {missing : Missing} {chain : List String} {name : String}

/-- Every template that a name leads to can be read, and none of them leads back to itself. -/
def Sound (drafts : Drafts) (name : String) : Prop :=
  ∀ n, Relation.ReflTransGen (Refers drafts) name n →
    (∃ d, drafts n = .ok d) ∧ ¬ Relation.TransGen (Refers drafts) n n

/-- A path of references from a template to a name that the path has come by before. -/
structure ShowsCycle (drafts : Drafts) (template name : String) (path : List String) : Prop where
  head : path.head? = some template
  edges : path.IsChain (Refers drafts)
  distinct : path.dropLast.Nodup
  last : path.getLast? = some name
  back : name ∈ path.dropLast

theorem Completed.sound {d : Document} (h : Completed drafts .fail name d) : Sound drafts name := by
  intro n hn
  rcases h.of_reaches hn with ⟨e, he⟩ | ⟨hf, -⟩
  · exact ⟨he.found, he.not_transGen_self⟩
  · cases hf

/-- Where completing fails, a name that is led to cannot be read or leads back to itself. -/
theorem Fails.not_sound {e : Error} (h : Fails drafts missing chain name e)
    (hl : Leads drafts chain name) : ¬ Sound drafts name := by
  induction h with
  | draft found =>
    intro hs
    obtain ⟨d, hd⟩ := (hs _ .refl).1
    rw [found] at hd
    cases hd
  | cyclic found back =>
    intro hs
    exact (hs _ .refl).2 (hl.transGen_self_of_back found back)
  | @reference chain before after name x d e found forward split earlier there fails ih =>
    intro hs
    have hr := refers_of_split found split
    exact ih (hl.next hr) fun n hn => hs n (.head hr hn)

theorem isChain_snoc {x : String} (h : (chain ++ [name]).IsChain (Refers drafts))
    (hr : Refers drafts name x) : (chain ++ [name] ++ [x]).IsChain (Refers drafts) := by
  refine h.append (.singleton x) ?_
  intro a ha b hb
  have hname : name = a := by simpa using ha
  have hx : x = b := by simpa using hb
  rwa [← hname, ← hx]

/-- The chain is a path of references throughout, so the error about a cycle shows one. -/
theorem Fails.showsCycle {template x : String} {path : List String} {e : Error}
    (h : Fails drafts missing chain name e) (he : e = .cyclicalReference x path)
    (hread : ∀ n, drafts n ≠ .error e) (hhead : (chain ++ [name]).head? = some template)
    (hedges : (chain ++ [name]).IsChain (Refers drafts)) (hnodup : (chain ++ [name]).Nodup) :
    ShowsCycle drafts template x path := by
  induction h with
  | draft found => exact (hread _ found).elim
  | @cyclic chain name y d found back =>
    obtain ⟨rfl, rfl⟩ := Error.cyclicalReference.inj he
    have hr : Refers drafts name y := ⟨d, found, List.mem_of_find?_eq_some back⟩
    have hy : y ∈ chain ++ [name] := by simpa using List.find?_some back
    have hdrop : (chain ++ [name] ++ [y]).dropLast = chain ++ [name] := List.dropLast_concat
    refine ⟨?_, isChain_snoc hedges hr, ?_, List.getLast?_concat, ?_⟩
    · rw [List.head?_append, hhead, Option.some_or]
    · rwa [hdrop]
    · rwa [hdrop]
  | @reference chain before after name y d e found forward split earlier there fails ih =>
    have hmem : y ∈ d.unresolved := by rw [split]; simp
    have hr : Refers drafts name y := ⟨d, found, hmem⟩
    have hy : y ∉ chain ++ [name] := by simpa using List.find?_eq_none.1 forward y hmem
    refine ih he hread ?_ (isChain_snoc hedges hr) (nodup_snoc hnodup hy)
    rw [List.head?_append, hhead, Option.some_or]

end Drafts

namespace Registry

theorem drafts_ne_cyclical {registry : Registry} {x : String} {path : List String} (name : String) :
    registry.drafts name ≠ .error (.cyclicalReference x path) := by
  intro h
  rcases draft_error h with ⟨why, he⟩ | he | ⟨text, problem, he⟩
  · cases he
  · cases he
  · cases he

end Registry

namespace Renderer

variable {renderer : Renderer} {p : Progress} {template : String}

/-- Detection of cycles is sound and complete, and its error is a proof. -/
theorem document_ok_iff_sound (hmissing : renderer.missing = .fail) (hcache : p.cache.documents = [])
    (hname : template ≠ "") :
    ((∃ d, (exec (renderer.document template) p).1 = .ok d) ↔
        ∀ n, Relation.ReflTransGen (Drafts.Refers renderer.registry.drafts) template n →
          (∃ d, renderer.registry.drafts n = .ok d) ∧
            ¬ Relation.TransGen (Drafts.Refers renderer.registry.drafts) n n) ∧
      ∀ x path, (exec (renderer.document template) p).1 = .error (.cyclicalReference x path) →
        Drafts.ShowsCycle renderer.registry.drafts template x path := by
  have hend := @answered_of_not_held renderer p (Cache.held_eq_none (.inl hcache)) template
  have hempty : template.isEmpty = false := by simpa using hname
  unfold Answered at hend
  rw [hempty, hmissing] at hend
  cases hr : (exec (renderer.document template) p).1 with
  | ok d =>
    rw [hr] at hend
    have hd : Drafts.Completed renderer.registry.drafts .fail template d := hend
    refine ⟨iff_of_true ⟨d, rfl⟩ hd.sound, fun x path h => ?_⟩
    cases h
  | error e =>
    rw [hr] at hend
    have hf : Drafts.Fails renderer.registry.drafts .fail [] template e := hend
    have hl : Drafts.Leads renderer.registry.drafts [] template := fun n hn => absurd hn List.not_mem_nil
    refine ⟨iff_of_false (fun h => ?_) (hf.not_sound hl), fun x path h => ?_⟩
    · obtain ⟨d, hd⟩ := h
      cases hd
    · refine hf.showsCycle (Except.error.inj h) (fun n hn => ?_) rfl (.singleton template)
        (List.nodup_singleton template)
      rw [Except.error.inj h] at hn
      exact Registry.drafts_ne_cyclical n hn

/-- A page extends a base in a loop; the base and a box extend each other. -/
def entangled : Renderer :=
  .ofRegistry .blocking .fail (.single (Memory.holding
    [("page", "#for(x in xs):#extend(\"base\")#endfor"), ("base", "#extend(\"box\")"),
      ("box", "#if(x):#extend(\"base\")#endif")]).source)

/-- The cycle that an answer shows. -/
def shownCycle : Except Error Document → Option (String × List String)
  | .error (.cyclicalReference name path) => some (name, path)
  | _ => none

theorem eq_of_shownCycle {r : Except Error Document} {name : String} {path : List String}
    (h : shownCycle r = some (name, path)) : r = .error (.cyclicalReference name path) := by
  unfold shownCycle at h
  split at h
  · cases h
    rfl
  · cases h

theorem document_ok_iff_sound_entangled :
    (¬ ∀ n, Relation.ReflTransGen (Drafts.Refers entangled.registry.drafts) "page" n →
        (∃ d, entangled.registry.drafts n = .ok d) ∧
          ¬ Relation.TransGen (Drafts.Refers entangled.registry.drafts) n n) ∧
      Drafts.ShowsCycle entangled.registry.drafts "page" "base" ["page", "base", "box", "base"] := by
  have hrun : shownCycle (exec (entangled.document "page") ⟨.empty true, []⟩).1 =
      some ("base", ["page", "base", "box", "base"]) := by decide +kernel
  have hanswer := eq_of_shownCycle hrun
  obtain ⟨hok, hcycle⟩ := @document_ok_iff_sound entangled ⟨.empty true, []⟩ "page" rfl rfl (by decide)
  refine ⟨fun h => ?_, hcycle _ _ hanswer⟩
  obtain ⟨d, hd⟩ := hok.2 h
  rw [hanswer] at hd
  cases hd

end Renderer

end Templating
