import Mathlib.Logic.Relation
import Templating.Proofs.Rebuilding
import Templating.Renderer.Resolution

/-!
# Completion

What it means to complete a document, said without a cache, a chain or an order of steps. A draft is
what a name stands for before anything is completed. A flat draft is complete; any other is completed
by inlining what its references are completed to, where the absent ones are left in place. No two
documents complete one name, nothing that a completed document still needs is there, and no name that
can be completed leads back to itself.

Beside it stands the way in which completing fails below a chain of names. A name that can be
completed does not fail, and a name that fails does so with one error.
-/

namespace Templating

/-- What each name stands for before anything is completed. -/
abbrev Drafts := String → Except Error Document

namespace Drafts

variable (drafts : Drafts) (missing : Missing)

/-- The draft of the first name needs the second. -/
def Refers (name needed : String) : Prop := ∃ d, drafts name = .ok d ∧ needed ∈ d.unresolved

/-- Nobody has the template, and that is no failure. -/
def Absent (name : String) : Prop :=
  missing = .defer ∧ ∃ asked, drafts name = .error (.noTemplateExists asked)

structure WellFormed : Prop where
  name_eq : ∀ {name d}, drafts name = .ok d → d.name = name
  isExact : ∀ {name d}, drafts name = .ok d → d.IsExact

/-- Besides, every block that a draft hands over stands under its own key. -/
structure Keyed : Prop extends WellFormed drafts where
  keyed : ∀ {name d}, drafts name = .ok d → Node.Keyed d.nodes

/-- A document completes a name. -/
inductive Completed : String → Document → Prop where
  | flat {name : String} {d : Document} (found : drafts name = .ok d) (flat : d.isFlat = true) :
    Completed name d
  | rebuilt {name : String} {d : Document} {atHand : Table Document} (found : drafts name = .ok d)
    (open_ : d.isFlat = false)
    (needed : ∀ n e, Table.get? atHand n = some e → n ∈ d.unresolved)
    (complete : ∀ n e, Table.get? atHand n = some e → Completed n e)
    (absent : ∀ n ∈ d.unresolved, Table.get? atHand n = none → drafts.Absent missing n) :
    Completed name (d.rebuild atHand)

/-- Completing a name below a chain of names fails with an error. -/
inductive Fails : List String → String → Error → Prop where
  | draft {chain : List String} {name : String} {e : Error} (found : drafts name = .error e) :
    Fails chain name e
  | cyclic {chain : List String} {name x : String} {d : Document} (found : drafts name = .ok d)
    (back : d.unresolved.find? (chain ++ [name]).contains = some x) :
    Fails chain name (.cyclicalReference x (chain ++ [name] ++ [x]))
  | reference {chain before after : List String} {name x : String} {d : Document} {e : Error}
    (found : drafts name = .ok d)
    (forward : d.unresolved.find? (chain ++ [name]).contains = none)
    (split : d.unresolved = before ++ x :: after)
    (earlier : ∀ n ∈ before, drafts.Absent missing n ∨ ∃ e, drafts.Completed missing n e)
    (there : ¬ drafts.Absent missing x) (fails : Fails (chain ++ [name]) x e) :
    Fails chain name e

variable {drafts missing} {name : String} {d e : Document}

theorem Completed.found (h : Completed drafts missing name d) : ∃ e, drafts name = .ok e := by
  cases h with
  | flat found => exact ⟨_, found⟩
  | rebuilt found => exact ⟨_, found⟩

theorem refers_iff_of_ok (found : drafts name = .ok d) {n : String} :
    Refers drafts name n ↔ n ∈ d.unresolved := by
  constructor
  · rintro ⟨e, he, hn⟩
    obtain rfl := Except.ok.inj (found.symm.trans he)
    exact hn
  · intro hn
    exact ⟨d, found, hn⟩

theorem not_refers_of_isFlat (found : drafts name = .ok d) (flat : d.isFlat = true) (n : String) :
    ¬ Refers drafts name n := by
  rw [refers_iff_of_ok found, Document.isFlat_iff.1 flat]
  exact List.not_mem_nil

theorem not_absent_of_ok (h : drafts name = .ok d) : ¬ Absent drafts missing name := by
  rintro ⟨-, asked, ha⟩
  rw [ha] at h
  cases h

theorem Completed.not_absent (h : Completed drafts missing name d) : ¬ Absent drafts missing name := by
  obtain ⟨e, he⟩ := h.found
  exact not_absent_of_ok he

theorem Absent.not_refers (h : Absent drafts missing name) (n : String) : ¬ Refers drafts name n := by
  rintro ⟨d, hd, -⟩
  exact not_absent_of_ok hd h

theorem Completed.of_refers (h : Completed drafts missing name d) {n : String}
    (hr : Refers drafts name n) : (∃ e, Completed drafts missing n e) ∨ Absent drafts missing n := by
  cases h with
  | flat found flat => exact (not_refers_of_isFlat found flat n hr).elim
  | @rebuilt _ _ atHand found _ _ complete absent =>
    have hn := (refers_iff_of_ok found).1 hr
    cases hg : Table.get? atHand n with
    | none => exact .inr (absent n hn hg)
    | some e => exact .inl ⟨e, complete n e hg⟩

theorem Completed.of_reaches (h : Completed drafts missing name d) {n : String}
    (hr : Relation.ReflTransGen (Refers drafts) name n) :
    (∃ e, Completed drafts missing n e) ∨ Absent drafts missing n := by
  induction hr with
  | refl => exact .inl ⟨d, h⟩
  | tail _ hr ih =>
    rcases ih with ⟨e, he⟩ | ha
    · exact he.of_refers hr
    · exact (ha.not_refers _ hr).elim

theorem exists_completed (found : drafts name = .ok d)
    (h : ∀ n ∈ d.unresolved, (∃ e, Completed drafts missing n e) ∨ Absent drafts missing n) :
    ∃ e, Completed drafts missing name e := by
  classical
  let done (n : String) : Option Document :=
    if he : ∃ e, Completed drafts missing n e then some he.choose else none
  have hdone : ∀ n e, done n = some e → Completed drafts missing n e := by
    intro n e hg
    unfold done at hg
    split at hg
    · next he => exact Option.some.inj hg ▸ he.choose_spec
    · cases hg
  have hnone : ∀ n, done n = none → ¬ ∃ e, Completed drafts missing n e := by
    intro n hg he
    unfold done at hg
    rw [dif_pos he] at hg
    cases hg
  cases hopen : d.isFlat with
  | true => exact ⟨d, .flat found hopen⟩
  | false =>
    refine ⟨_, @Completed.rebuilt _ _ _ _ (Table.tabulate done d.unresolved) found hopen ?_ ?_ ?_⟩
    · intro n e hg
      rw [Table.get?_tabulate] at hg
      split at hg
      · assumption
      · cases hg
    · intro n e hg
      rw [Table.get?_tabulate] at hg
      split at hg
      · exact hdone n e hg
      · cases hg
    · intro n hn hg
      rw [Table.get?_tabulate, if_pos hn] at hg
      exact (h n hn).resolve_left (hnone n hg)

/-! ### No name leads back to itself -/

theorem Completed.acc (h : Completed drafts missing name d) : Acc (flip (Refers drafts)) name := by
  induction h with
  | flat found flat => exact .intro _ fun n hr => (not_refers_of_isFlat found flat n hr).elim
  | @rebuilt name d atHand found _ _ _ absent ih =>
    refine .intro _ fun n hr => ?_
    have hn := (refers_iff_of_ok found).1 hr
    cases hg : Table.get? atHand n with
    | none => exact .intro _ fun m hm => ((absent n hn hg).not_refers m hm).elim
    | some e => exact ih n e hg

theorem not_transGen_of_acc (h : Acc (flip (Refers drafts)) name) :
    ¬ Relation.TransGen (Refers drafts) name name := by
  induction h with
  | intro name _ ih =>
    intro hc
    obtain ⟨n, hr, hback⟩ := Relation.TransGen.head'_iff.1 hc
    exact ih n hr (Relation.TransGen.tail' hback hr)

theorem Completed.not_transGen_self (h : Completed drafts missing name d) :
    ¬ Relation.TransGen (Refers drafts) name name :=
  not_transGen_of_acc h.acc

/-! ### What a completed document is -/

theorem Completed.name_eq (hw : WellFormed drafts) (h : Completed drafts missing name d) :
    d.name = name := by
  cases h with
  | flat found => exact hw.name_eq found
  | rebuilt found => exact (Document.rebuild_name _ _).trans (hw.name_eq found)

theorem Completed.isExact (hw : WellFormed drafts) (h : Completed drafts missing name d) :
    d.IsExact := by
  cases h with
  | flat found => exact hw.isExact found
  | rebuilt => exact Document.isExact_rebuild _ _

theorem Completed.keyed (hk : Keyed drafts) (h : Completed drafts missing name d) : Node.Keyed d.nodes := by
  cases h with
  | flat found => exact hk.keyed found
  | rebuilt found => exact Document.keyed_rebuild (hk.keyed found) _

theorem Completed.merged (h : Completed drafts missing name d) (hopen : d.isFlat = false) :
    Document.mergeRaw d.nodes = d.nodes := by
  cases h with
  | flat _ flat => rw [flat] at hopen; cases hopen
  | rebuilt => exact Document.mergeRaw_rebuild _ _

/-- What rebuilt nodes need was needed and is not at hand, or something at hand needs it. -/
theorem mem_unresolved_rebuild (hd : d.IsExact) {atHand : Table Document} {n : String}
    (h : n ∈ (d.rebuild atHand).unresolved) :
    (n ∈ d.unresolved ∧ Table.get? atHand n = none) ∨
      ∃ m e, Table.get? atHand m = some e ∧ n ∈ Node.bodyReferences e.nodes := by
  rw [(Document.isExact_rebuild d atHand).unresolved_eq, Document.mem_bodyReferences_rebuild] at h
  rcases Node.mem_bodyReferences_inlineBody h with ⟨hn, hg⟩ | ⟨m, base, hg, hn⟩ | ⟨key, block, hg, -⟩
  · rw [Document.get?_nodesOf] at hg
    exact .inl ⟨by rw [hd.unresolved_eq]; exact hn, Option.map_eq_none_iff.1 hg⟩
  · rw [Document.get?_nodesOf] at hg
    obtain ⟨e, he, rfl⟩ := Option.map_eq_some_iff.1 hg
    exact .inr ⟨m, e, he, hn⟩
  · cases hg

/-- What a completed document still needs is absent, and was needed by a draft on the way. -/
theorem Completed.unresolved (hw : WellFormed drafts) (h : Completed drafts missing name d) {n : String}
    (hn : n ∈ d.unresolved) :
    Absent drafts missing n ∧ Relation.TransGen (Refers drafts) name n := by
  induction h with
  | flat _ flat =>
    rw [Document.isFlat_iff.1 flat] at hn
    cases hn
  | @rebuilt name d atHand found _ needed complete absent ih =>
    rcases mem_unresolved_rebuild (hw.isExact found) hn with ⟨hm, hg⟩ | ⟨m, e, hg, hm⟩
    · exact ⟨absent n hm hg, .single ⟨d, found, hm⟩⟩
    · rw [← ((complete m e hg).isExact hw).unresolved_eq] at hm
      obtain ⟨ha, hr⟩ := ih m e hg hm
      exact ⟨ha, .head ⟨d, found, needed m e hg⟩ hr⟩

theorem Completed.left (hw : WellFormed drafts) (h : Completed drafts missing name d) {n : String}
    (hn : n ∈ Node.bodyReferences d.nodes) :
    Absent drafts missing n ∧ Relation.TransGen (Refers drafts) name n := by
  rw [← (h.isExact hw).unresolved_eq] at hn
  exact h.unresolved hw hn

theorem Completed.closed (hw : WellFormed drafts) (h : Completed drafts missing name d)
    {done : Table Document} (hdone : ∀ n e, Table.get? done n = some e → Completed drafts missing n e) :
    ∀ n ∈ Node.bodyReferences d.nodes, Table.get? done n = none := by
  intro n hn
  cases hget : Table.get? done n with
  | none => rfl
  | some e => exact ((hdone n e hget).not_absent (h.left hw hn).1).elim

theorem Completed.isFlat_of_fail (hw : WellFormed drafts) (h : Completed drafts .fail name d) :
    d.isFlat = true := by
  refine Document.isFlat_iff.2 (List.eq_nil_iff_forall_not_mem.2 fun n hn => ?_)
  obtain ⟨⟨hf, -⟩, -⟩ := h.unresolved hw hn
  cases hf

theorem Completed.unique (h : Completed drafts missing name d) (h' : Completed drafts missing name e) :
    d = e := by
  induction h generalizing e with
  | flat found flat =>
    cases h' with
    | flat found' => exact Except.ok.inj (found.symm.trans found')
    | rebuilt found' open' =>
      obtain rfl := Except.ok.inj (found.symm.trans found')
      rw [flat] at open'
      cases open'
  | @rebuilt name d atHand found hopen needed complete absent ih =>
    cases h' with
    | flat found' flat' =>
      obtain rfl := Except.ok.inj (found.symm.trans found')
      rw [flat'] at hopen
      cases hopen
    | @rebuilt _ _ atHand' found' _ needed' complete' absent' =>
      obtain rfl := Except.ok.inj (found.symm.trans found')
      refine Document.rebuild_congr d fun n => ?_
      cases hg : Table.get? atHand n with
      | some f =>
        cases hg' : Table.get? atHand' n with
        | some g => rw [ih n f hg (complete' n g hg')]
        | none => exact ((complete n f hg).not_absent (absent' n (needed n f hg) hg')).elim
      | none =>
        cases hg' : Table.get? atHand' n with
        | some g => exact ((complete' n g hg').not_absent (absent n (needed' n g hg') hg)).elim
        | none => rfl

/-! ### Failing -/

variable {chain : List String} {err err' : Error}

/-- A missing template is the error of a name only if the name itself is absent, where that is no
failure. -/
theorem Fails.absent {asked : String} (h : Fails drafts .defer chain name (.noTemplateExists asked)) :
    Absent drafts .defer name := by
  generalize he : Error.noTemplateExists asked = e at h
  induction h with
  | draft found => exact ⟨rfl, asked, he ▸ found⟩
  | cyclic => cases he
  | reference _ _ _ _ there _ ih => exact (there (ih he)).elim

/-- Every name of the chain leads to this one. -/
def Leads (drafts : Drafts) (chain : List String) (name : String) : Prop :=
  ∀ n ∈ chain, Relation.TransGen (Refers drafts) n name

theorem Leads.nil (drafts : Drafts) (name : String) : Leads drafts [] name :=
  fun _ hn => absurd hn List.not_mem_nil

theorem Leads.next (h : Leads drafts chain name) {n : String} (hr : Refers drafts name n) :
    Leads drafts (chain ++ [name]) n := by
  intro m hm
  rcases List.mem_append.1 hm with hm | hm
  · exact (h m hm).tail hr
  · rw [List.mem_singleton.1 hm]
    exact .single hr

theorem refers_of_split {before after : List String} {x : String} (found : drafts name = .ok d)
    (split : d.unresolved = before ++ x :: after) : Refers drafts name x :=
  (refers_iff_of_ok found).2 (by simp [split])

/-- A name that needs one of its chain leads back to itself. -/
theorem Leads.transGen_self_of_back (hl : Leads drafts chain name) {x : String} (found : drafts name = .ok d)
    (back : d.unresolved.find? (chain ++ [name]).contains = some x) :
    Relation.TransGen (Refers drafts) name name := by
  have hr : Refers drafts name x := ⟨d, found, List.mem_of_find?_eq_some back⟩
  have hx : x ∈ chain ++ [name] := by simpa using List.find?_some back
  rcases List.mem_append.1 hx with hx | hx
  · exact .head hr (hl x hx)
  · rw [List.mem_singleton.1 hx] at hr
    exact .single hr

theorem Completed.not_fails (h : Completed drafts missing name d) (hl : Leads drafts chain name) :
    ¬ Fails drafts missing chain name err := by
  intro hf
  induction hf generalizing d with
  | draft found =>
    obtain ⟨e, he⟩ := h.found
    rw [found] at he
    cases he
  | cyclic found back => exact h.not_transGen_self (hl.transGen_self_of_back found back)
  | @reference chain before after name x f _ found _ split _ there _ ih =>
    have hr := refers_of_split found split
    rcases h.of_refers hr with ⟨e, he⟩ | ha
    · exact ih he (hl.next hr)
    · exact there ha

theorem split_cases {before before' after after' : List String} {x x' : String}
    (h : before ++ x :: after = before' ++ x' :: after') :
    (before = before' ∧ x = x') ∨ x ∈ before' ∨ x' ∈ before := by
  rcases List.append_eq_append_iff.1 h with ⟨mid, rfl, hm⟩ | ⟨mid, rfl, hm⟩
  · cases mid with
    | nil => exact .inl ⟨by simp, (List.cons.inj hm).1⟩
    | cons y mid => exact .inr (.inl (by simp [(List.cons.inj hm).1]))
  · cases mid with
    | nil => exact .inl ⟨by simp, (List.cons.inj hm).1.symm⟩
    | cons y mid => exact .inr (.inr (by simp [(List.cons.inj hm).1]))

theorem Fails.unique (h : Fails drafts missing chain name err) (h' : Fails drafts missing chain name err')
    (hl : Leads drafts chain name) : err = err' := by
  induction h generalizing err' with
  | draft found =>
    cases h' with
    | draft found' => exact Except.error.inj (found.symm.trans found')
    | cyclic found' => rw [found] at found'; cases found'
    | reference found' => rw [found] at found'; cases found'
  | cyclic found back =>
    cases h' with
    | draft found' => rw [found] at found'; cases found'
    | cyclic found' back' =>
      obtain rfl := Except.ok.inj (found.symm.trans found')
      rw [Option.some.inj (back.symm.trans back')]
    | reference found' forward =>
      obtain rfl := Except.ok.inj (found.symm.trans found')
      rw [back] at forward
      cases forward
  | @reference chain before after name x d e found forward split earlier there fails ih =>
    cases h' with
    | draft found' => rw [found] at found'; cases found'
    | cyclic found' back' =>
      obtain rfl := Except.ok.inj (found.symm.trans found')
      rw [forward] at back'
      cases back'
    | @reference _ before' after' _ x' _ e' found' _ split' earlier' there' fails' =>
      obtain rfl := Except.ok.inj (found.symm.trans found')
      have hr := refers_of_split found split
      have hr' := refers_of_split found split'
      rcases split_cases (split.symm.trans split') with ⟨-, rfl⟩ | hx | hx
      · exact ih fails' (hl.next hr)
      · rcases earlier' x hx with ha | ⟨f, hf⟩
        · exact (there ha).elim
        · exact (hf.not_fails (hl.next hr) fails).elim
      · rcases earlier x' hx with ha | ⟨f, hf⟩
        · exact (there' ha).elim
        · exact (hf.not_fails (hl.next hr') fails').elim

/-- How completing a name below a chain ends. -/
def Outcome (drafts : Drafts) (missing : Missing) (chain : List String) (name : String) :
    Except Error Document → Prop
  | .ok d => Completed drafts missing name d
  | .error e => Fails drafts missing chain name e

theorem Outcome.unique {r r' : Except Error Document} (h : Outcome drafts missing chain name r)
    (h' : Outcome drafts missing chain name r') (hl : Leads drafts chain name) : r = r' := by
  cases r with
  | ok d =>
    cases r' with
    | ok e => rw [Completed.unique h h']
    | error e => exact (Completed.not_fails h hl h').elim
  | error e =>
    cases r' with
    | ok d => exact (Completed.not_fails h' hl h).elim
    | error e' => rw [Fails.unique h h' hl]

end Drafts

end Templating
