import Templating.Proofs.AtOnce

/-!
# Inlining in two rounds

Templates that are not at hand in a first round can be at hand in a second. The two rounds come to what
the second alone comes to, provided that the first leaves no extend behind in a template which is handed
blocks: there the first round fills the places that it finds, but the scope that an extend left behind
stands in is not kept for the second.
-/

namespace Templating

open Document

namespace Node

/-- Some extend of the template, at whatever depth, hands over a block. -/
inductive Hands (template : String) : List Node → Prop where
  | here {nodes : List Node} {exports : Table Export}
    (mem : Node.extend template exports ∈ nodes) (blocks : exports ≠ []) : Hands template nodes
  | inside {nodes body : List Node} {node : Node} (mem : node ∈ nodes) (body_mem : body ∈ node.bodies)
    (hands : Hands template body) : Hands template nodes

variable {template : String} {nodes more : List Node}

theorem Hands.mono (h : Hands template nodes) (hs : ∀ node ∈ nodes, node ∈ more) :
    Hands template more := by
  cases h with
  | here mem blocks => exact .here (hs _ mem) blocks
  | inside mem body_mem hands => exact .inside (hs _ mem) body_mem hands

theorem hands_append : Hands template (nodes ++ more) ↔ Hands template nodes ∨ Hands template more := by
  constructor
  · intro h
    cases h with
    | here mem blocks =>
      rcases List.mem_append.1 mem with mem | mem
      · exact .inl (.here mem blocks)
      · exact .inr (.here mem blocks)
    | inside mem body_mem hands =>
      rcases List.mem_append.1 mem with mem | mem
      · exact .inl (.inside mem body_mem hands)
      · exact .inr (.inside mem body_mem hands)
  · rintro (h | h)
    · exact h.mono fun _ hn => List.mem_append_left more hn
    · exact h.mono fun _ hn => List.mem_append_right nodes hn

theorem hands_cons {node : Node} :
    Hands template (node :: nodes) ↔ Hands template [node] ∨ Hands template nodes :=
  @hands_append template [node] nodes

theorem hands_singleton {node : Node} :
    Hands template [node] ↔
      (∃ exports, node = .extend template exports ∧ exports ≠ []) ∨
        ∃ body ∈ node.bodies, Hands template body := by
  constructor
  · intro h
    cases h with
    | here mem blocks => exact .inl ⟨_, (List.mem_singleton.1 mem).symm, blocks⟩
    | inside mem body_mem hands => exact .inr ⟨_, List.mem_singleton.1 mem ▸ body_mem, hands⟩
  · rintro (⟨exports, rfl, hne⟩ | ⟨body, hb, hh⟩)
    · exact .here (List.mem_singleton_self _) hne
    · exact .inside (List.mem_singleton_self _) hb hh

theorem hands_of_mergeRaw (h : Hands template (mergeRaw nodes)) : Hands template nodes := by
  have raw : ∀ {text}, ¬ Hands template [.raw text] := by
    intro text ht
    rcases hands_singleton.1 ht with ⟨_, he, -⟩ | ⟨_, hb, -⟩
    · cases he
    · cases hb
  induction nodes with
  | nil => exact h
  | cons node nodes ih =>
    rcases mergeRaw_cons_cases node nodes with hm | ⟨a, b, rest, rfl, hb, hm⟩
    · rw [hm] at h
      rcases hands_cons.1 h with h | h
      · exact hands_cons.2 (.inl h)
      · exact hands_cons.2 (.inr (ih h))
    · rw [hm] at h
      rw [hb] at ih
      have hrest := (hands_cons.1 h).resolve_left raw
      exact hands_cons.2 (.inr (ih (hands_cons.2 (.inr hrest))))

/-- What inlined nodes hand blocks to, was handed blocks by the nodes themselves, by something at hand or
by a block that is handed in. -/
theorem hands_of_inlineBody {atHand : Table (List Node)} {imports : Table Block}
    (h : Hands template (inlineBody atHand imports nodes)) :
    Hands template nodes ∨ (∃ t base, Table.get? atHand t = some base ∧ Hands template base) ∨
      ∃ key block, Table.get? imports key = some block ∧ Hands template block := by
  induction hl : atHand.length using Nat.strong_induction_on
    generalizing atHand imports nodes with
  | _ size ih =>
    induction nodes using induction_body with
    | nil =>
      rw [inlineBody_nil] at h
      exact .inl h
    | cons node nodes hn hns =>
      rw [inlineBody_cons] at h
      rcases hands_append.1 h with h | h
      · exact (hn h).imp_left fun hm => hands_cons.2 (.inl hm)
      · exact (hns h).imp_left fun hm => hands_cons.2 (.inr hm)
    | importing key =>
      rw [inlineBody_importing] at h
      cases hget : Table.get? imports key with
      | none =>
        rw [hget] at h
        exact .inl h
      | some block =>
        rw [hget] at h
        exact .inr (.inr ⟨key, block, hget, h⟩)
    | plain node hp hb =>
      rw [inlineBody_plain hp, hands_singleton, bodies_mapBodies] at h
      rcases h with ⟨exports, he, -⟩ | ⟨body, hm, hh⟩
      · have hpe : (node.mapBodies (inlineBody atHand imports)).IsPlain := isPlain_mapBodies.2 hp
        rw [he] at hpe
        exact hpe.elim
      · obtain ⟨body, hbody, rfl⟩ := List.mem_map.1 hm
        exact (hb body hbody hh).imp_left fun hm => hands_singleton.2 (.inr ⟨body, hbody, hm⟩)
    | extend t exports hb =>
      have hblock : ∀ block ∈ inlineBlocks atHand imports exports, Hands template block.2 →
          Hands template [.extend t exports] ∨
            (∃ t base, Table.get? atHand t = some base ∧ Hands template base) ∨
            ∃ key block, Table.get? imports key = some block ∧ Hands template block := by
        intro block hm hh
        obtain ⟨source, hs, rfl⟩ := List.mem_map.1 hm
        exact (hb source hs hh).imp_left fun hm =>
          hands_singleton.2 (.inr ⟨source.2.2, List.mem_map_of_mem hs, hm⟩)
      cases hget : Table.get? atHand t with
      | none =>
        rw [inlineBody_extend_of_absent hget, hands_singleton] at h
        rcases h with ⟨blocks, he, hne⟩ | ⟨body, hm, hh⟩
        · obtain ⟨rfl, rfl⟩ := Node.extend.inj he
          refine .inl (hands_singleton.2 (.inl ⟨exports, rfl, fun hnil => hne ?_⟩))
          rw [hnil]
          rfl
        · rw [bodies_extend_keyed] at hm
          obtain ⟨block, hblk, rfl⟩ := List.mem_map.1 hm
          exact hblock block hblk hh
      | some base =>
        rw [inlineBody_extend_of_get? hget] at h
        rcases ih _ (hl ▸ length_erase_lt hget) h rfl with hh | ⟨u, b, hg, hh⟩ | ⟨key, block, hg, hh⟩
        · exact .inr (.inl ⟨t, base, hget, hh⟩)
        · rw [Table.get?_erase] at hg
          split at hg
          · cases hg
          · exact .inr (.inl ⟨u, b, hg, hh⟩)
        · rw [Table.get?_overlay] at hg
          rcases Option.or_eq_some_iff.1 hg with hg | ⟨-, hg⟩
          · exact hblock _ (List.mem_reverse.1 (Table.mem_of_get? hg)) hh
          · exact .inr (.inr ⟨key, block, hg, hh⟩)

/-! ### Two rounds -/

/-- Where nothing is asked for, the second round only goes through the blocks that were filled in. -/
theorem inlineBody_inlineBody_of_closed {atHand : Table (List Node)} {blocks : Table Block}
    (h : ∀ n, n ∉ bodyReferences nodes) :
    inlineBody atHand [] (inlineBody [] blocks nodes) =
      inlineBody [] (Table.mapValues (inlineBody atHand []) blocks) nodes := by
  induction nodes using induction_body with
  | nil => simp
  | cons node nodes hn hns =>
    have hfront : ∀ n, n ∉ bodyReferences [node] := fun n hm => h n (mem_bodyReferences_cons.2 (.inl hm))
    have hrest : ∀ n, n ∉ bodyReferences nodes :=
      fun n hm => h n (mem_bodyReferences_cons.2 (.inr hm))
    rw [inlineBody_cons, inlineBody_append, hn hfront, hns hrest, ← inlineBody_cons]
  | importing key =>
    rw [inlineBody_importing, inlineBody_importing, Table.get?_mapValues]
    cases Table.get? blocks key with
    | none => exact inlineBody_importing key
    | some block => rfl
  | plain node hp hb =>
    have hbody : ∀ body ∈ node.bodies, (inlineBody atHand [] ∘ inlineBody [] blocks) body =
        inlineBody [] (Table.mapValues (inlineBody atHand []) blocks) body := fun body hm =>
      hb body hm fun n hn => h n (mem_bodyReferences_of_bodies hm hn)
    rw [inlineBody_plain hp, inlineBody_plain hp, inlineBody_plain (isPlain_mapBodies.2 hp),
      mapBodies_mapBodies, mapBodies_congr hbody]
  | extend t exports hb =>
    exact (h t (mem_bodyReferences_extend t exports)).elim

/-- A template of the first round that is complete or handed nothing does in the second what it is
completed to. -/
structure Renewed (first second : Table (List Node)) (template : String) (body : List Node) : Prop where
  keyed : Keyed body
  closed : ∀ n ∈ bodyReferences body, Table.get? first n = none
  alike : ∃ base, Table.get? second template = some base ∧
    Alike (inlineBody second [] body) (inlineBody (Table.erase template second) [] base)

theorem alike_inlineBody_inlineBody {first second : Table (List Node)}
    (hfirst : ∀ t body, Table.get? first t = some body → Renewed first second t body)
    (hhands : ∀ t body, Table.get? first t = some body → Hands t nodes → ∀ n, n ∉ bodyReferences body) :
    Alike (inlineBody second [] (inlineBody first [] nodes)) (inlineBody second [] nodes) := by
  induction nodes using induction_body with
  | nil => simp only [inlineBody_nil]; rfl
  | cons node nodes hn hns =>
    have hfront := hn fun t body hg hh => hhands t body hg (hands_cons.2 (.inl hh))
    have hrest := hns fun t body hg hh => hhands t body hg (hands_cons.2 (.inr hh))
    rw [inlineBody_cons, inlineBody_append, @inlineBody_cons second]
    exact hfront.append hrest
  | importing key =>
    rw [inlineBody_importing, Table.get?_nil]
    rfl
  | plain node hp hb =>
    rw [inlineBody_plain hp, inlineBody_plain (isPlain_mapBodies.2 hp), inlineBody_plain hp,
      mapBodies_mapBodies]
    exact .mapBodies fun body hm => hb body hm fun t b hg hh =>
      hhands t b hg (hands_singleton.2 (.inr ⟨body, hm, hh⟩))
  | extend t exports hb =>
    have hblock : ∀ block ∈ exports,
        Alike (inlineBody second [] (inlineBody first [] block.2.2)) (inlineBody second [] block.2.2) :=
      fun block hm => hb block hm fun u b hg hh =>
        hhands u b hg (hands_singleton.2 (.inr ⟨block.2.2, List.mem_map_of_mem hm, hh⟩))
    have hblocks : inlineBlocks second [] (Table.keyed (inlineBlocks first [] exports)) =
        Table.mapValues (fun block => inlineBody second [] (inlineBody first [] block.2)) exports := by
      rw [inlineBlocks_keyed]
      exact Table.mapValues_mapValues _ _ _
    cases hk : Table.get? first t with
    | none =>
      rw [inlineBody_extend_of_absent hk]
      cases hs : Table.get? second t with
      | none =>
        rw [inlineBody_extend_of_absent hs, inlineBody_extend_of_absent hs, hblocks]
        exact .extend hblock
      | some base =>
        rw [inlineBody_extend_of_get? hs, inlineBody_extend_of_get? hs, hblocks]
        exact .inlineBody (.refl _) ((AlikeTables.refl []).overlay hblock) (.refl base)
    | some body =>
      obtain ⟨hkeyed, hclosed, base, hs, halike⟩ := hfirst t body hk
      have hleft : ∀ n ∈ bodyReferences body, Table.get? (Table.erase t first) n = none := by
        intro n hn
        rw [Table.get?_erase, hclosed n hn, ite_self]
      rw [inlineBody_extend_of_get? hk, inlineBody_extend_of_get? hs, inlineBody_of_absent hleft]
      by_cases hnil : exports = []
      · subst hnil
        show Alike (inlineBody second [] (inlineBody [] [] body)) (inlineBody (Table.erase t second) [] base)
        rw [inlineBody_nil_nil hkeyed]
        exact halike
      · have hflat : ∀ n, n ∉ bodyReferences body :=
          hhands t body hk (hands_singleton.2 (.inl ⟨exports, rfl, hnil⟩))
        have hdone : inlineBody second [] body = body := by
          rw [inlineBody_of_absent fun n hn => (hflat n hn).elim, inlineBody_nil_nil hkeyed]
        have htables : AlikeTables
            (Table.mapValues (inlineBody second []) (Table.overlay [] (inlineBlocks first [] exports)))
            (Table.overlay [] (inlineBlocks second [] exports)) := by
          intro key
          rw [Table.get?_mapValues, Table.get?_overlay, Table.get?_overlay, inlineBlocks, inlineBlocks,
            Table.reverse_mapValues, Table.reverse_mapValues, Table.get?_mapValues, Table.get?_mapValues,
            Table.get?_nil, Option.or_none, Option.or_none]
          cases hget : Table.get? exports.reverse key with
          | none => exact .none
          | some block => exact .some (hblock (key, block) (List.mem_reverse.1 (Table.mem_of_get? hget)))
        have hfill : Alike body (inlineBody (Table.erase t second) [] base) := hdone ▸ halike
        rw [inlineBody_inlineBody_of_closed hflat, ← inlineBody_imports base]
        exact .inlineBody (.refl []) htables hfill

end Node

end Templating
