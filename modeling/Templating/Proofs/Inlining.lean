import Templating.Proofs.Bodies

/-!
# Inlining

Inlining goes through a body node by node. It asks for a template only where an extend of it stands,
and for a block only where its place stands. Filling the places that inlining has left open is the
same as having filled them at once: this is what lets a template be completed by itself before the
blocks that are handed to it are known.
-/

namespace Templating

namespace Node

/-! ### Node by node -/

theorem inlineBody_eq (atHand : Table (List Node)) (imports : Table Block) (nodes : List Node) :
    inlineBody atHand imports nodes =
      fillBody (fun template blocks => (Table.get? atHand template).map
        (inlineBody (Table.erase template atHand) blocks)) imports nodes := by
  rw [inlineBody]
  congr 1
  funext template blocks
  split
  · next h => rw [h]; rfl
  · next base h => rw [h]; rfl

variable {atHand : Table (List Node)} {imports : Table Block}

@[simp] theorem inlineBody_nil : inlineBody atHand imports [] = [] := by
  rw [inlineBody_eq, fillBody]

theorem inlineBody_append (nodes more : List Node) :
    inlineBody atHand imports (nodes ++ more) =
      inlineBody atHand imports nodes ++ inlineBody atHand imports more := by
  simp only [inlineBody_eq, fillBody_append]

theorem inlineBody_cons (node : Node) (nodes : List Node) :
    inlineBody atHand imports (node :: nodes) =
      inlineBody atHand imports [node] ++ inlineBody atHand imports nodes :=
  inlineBody_append [node] nodes

theorem inlineBody_importing (key : String) :
    inlineBody atHand imports [.importing key] = (Table.get? imports key).getD [.importing key] := by
  rw [inlineBody_eq, fillBody_singleton, fill_importing]

theorem inlineBody_plain {node : Node} (h : node.IsPlain) :
    inlineBody atHand imports [node] = [node.mapBodies (inlineBody atHand imports)] := by
  rw [inlineBody_eq, fillBody_singleton, fill_of_isPlain _ _ h]
  rw [mapBodies_congr fun body _ => inlineBody_eq atHand imports body]

theorem inlineBody_raw (text : String) : inlineBody atHand imports [.raw text] = [.raw text] := by
  have hp : (Node.raw text).IsPlain := trivial
  rw [inlineBody_plain hp]
  rfl

/-- The blocks that an extend hands over, inlined where the extend stands. -/
def inlineBlocks (atHand : Table (List Node)) (imports : Table Block) (exports : Table Export) : Table Block :=
  Table.mapValues (fun block => inlineBody atHand imports block.2) exports

theorem inlineBlocks_keyed (atHand : Table (List Node)) (imports blocks : Table Block) :
    inlineBlocks atHand imports (Table.keyed blocks) = Table.mapValues (inlineBody atHand imports) blocks :=
  Table.mapValues_keyed _ _

theorem inlineBody_extend (template : String) (exports : Table Export) :
    inlineBody atHand imports [.extend template exports] =
      ((Table.get? atHand template).map (inlineBody (Table.erase template atHand)
        (Table.overlay imports (inlineBlocks atHand imports exports)))).getD
        [.extend template (Table.keyed (inlineBlocks atHand imports exports))] := by
  have hb : inlineBlocks atHand imports exports = Table.mapValues (fun block => fillBody
      (fun template blocks => (Table.get? atHand template).map
        (inlineBody (Table.erase template atHand) blocks)) imports block.2) exports :=
    Table.mapValues_congr fun block _ => inlineBody_eq atHand imports block.2.2
  rw [inlineBody_eq, fillBody_singleton, fill_extend, hb]

theorem inlineBody_extend_of_get? {template : String} {base : List Node}
    (h : Table.get? atHand template = some base) (exports : Table Export) :
    inlineBody atHand imports [.extend template exports] =
      inlineBody (Table.erase template atHand)
        (Table.overlay imports (inlineBlocks atHand imports exports)) base := by
  rw [inlineBody_extend, h]
  rfl

theorem inlineBody_extend_of_absent {template : String} (h : Table.get? atHand template = none)
    (exports : Table Export) :
    inlineBody atHand imports [.extend template exports] =
      [.extend template (Table.keyed (inlineBlocks atHand imports exports))] := by
  rw [inlineBody_extend, h]
  rfl

theorem inlineBlocks_congr {others : Table (List Node)} {blocks : Table Block}
    {exports : Table Export}
    (h : ∀ block ∈ exports, inlineBody atHand imports block.2.2 = inlineBody others blocks block.2.2) :
    inlineBlocks atHand imports exports = inlineBlocks others blocks exports :=
  Table.mapValues_congr h

/-! ### Only look-ups matter -/

theorem get?_overlay_congr {t u : Table Block} (h : ∀ key, Table.get? t key = Table.get? u key)
    (upper : Table Block) (key : String) :
    Table.get? (Table.overlay t upper) key = Table.get? (Table.overlay u upper) key := by
  rw [Table.get?_overlay, Table.get?_overlay, h]

theorem inlineBody_congr {others : Table (List Node)} {blocks : Table Block}
    (hh : ∀ name, Table.get? atHand name = Table.get? others name)
    (hi : ∀ key, Table.get? imports key = Table.get? blocks key) (nodes : List Node) :
    inlineBody atHand imports nodes = inlineBody others blocks nodes := by
  induction h : atHand.length using Nat.strong_induction_on
    generalizing atHand others imports blocks nodes with
  | _ size ih =>
    induction nodes using induction_body with
    | nil => simp
    | cons node nodes hn hns => rw [inlineBody_cons, hn, hns, ← inlineBody_cons]
    | importing key => rw [inlineBody_importing, inlineBody_importing, hi]
    | plain node hp hb => rw [inlineBody_plain hp, inlineBody_plain hp, mapBodies_congr hb]
    | extend template exports hb =>
      have hblocks := inlineBlocks_congr hb
      cases hget : Table.get? atHand template with
      | none =>
        rw [inlineBody_extend_of_absent hget, inlineBody_extend_of_absent (hh template ▸ hget),
          hblocks]
      | some base =>
        rw [inlineBody_extend_of_get? hget, inlineBody_extend_of_get? (hh template ▸ hget), hblocks]
        refine ih _ (h ▸ length_erase_lt hget) ?_ (get?_overlay_congr hi _) base rfl
        intro name
        rw [Table.get?_erase, Table.get?_erase, hh]

theorem inlineBody_of_absent {nodes : List Node}
    (h : ∀ name ∈ bodyReferences nodes, Table.get? atHand name = none) :
    inlineBody atHand imports nodes = inlineBody [] imports nodes := by
  induction nodes using induction_body with
  | nil => simp
  | cons node nodes hn hns =>
    have hl : ∀ name ∈ bodyReferences [node], Table.get? atHand name = none :=
      fun name hm => h name (mem_bodyReferences_cons.2 (.inl hm))
    have hr : ∀ name ∈ bodyReferences nodes, Table.get? atHand name = none :=
      fun name hm => h name (mem_bodyReferences_cons.2 (.inr hm))
    rw [inlineBody_cons, hn hl, hns hr, ← inlineBody_cons]
  | importing key => rw [inlineBody_importing, inlineBody_importing]
  | plain node hp hb =>
    have hbody : ∀ body ∈ node.bodies, inlineBody atHand imports body = inlineBody [] imports body :=
      fun body hm => hb body hm fun name hn => h name (mem_bodyReferences_of_bodies hm hn)
    rw [inlineBody_plain hp, inlineBody_plain hp, mapBodies_congr hbody]
  | extend template exports hb =>
    have hblocks : inlineBlocks atHand imports exports = inlineBlocks [] imports exports :=
      inlineBlocks_congr fun block hm => hb block hm fun name hn =>
        h name (mem_bodyReferences_of_bodies (List.mem_map_of_mem hm) hn)
    rw [inlineBody_extend_of_absent (h template (mem_bodyReferences_extend template exports)),
      inlineBody_extend_of_absent (Table.get?_nil template), hblocks]

/-! ### Own keys -/

/-- Each block of an extend stands under its own key. -/
def HasOwnKeys : Node → Prop
  | .extend _ exports => ∀ block ∈ exports, block.2.1 = block.1
  | _ => True

theorem HasOwnKeys.mapBodies {node : Node} (h : node.HasOwnKeys) (f : List Node → List Node) :
    (node.mapBodies f).HasOwnKeys := by
  cases node with
  | extend template exports => exact List.forall_mem_map.2 h
  | _ => trivial

theorem hasOwnKeys_keyed (template : String) (blocks : Table Block) :
    (Node.extend template (Table.keyed blocks)).HasOwnKeys :=
  List.forall_mem_map.2 fun _ _ => rfl

theorem hasOwnKeys_of_isPlain {node : Node} (h : node.IsPlain) : node.HasOwnKeys := by
  cases node with
  | extend => exact h.elim
  | _ => trivial

/-- Blocks stand under their own keys, at whatever depth. -/
abbrev Keyed (nodes : List Node) : Prop := Everywhere HasOwnKeys nodes

theorem mapBodies_extend_keyed (f : List Node → List Node) (template : String) (blocks : Table Block) :
    (Node.extend template (Table.keyed blocks)).mapBodies f =
      .extend template (Table.keyed (Table.mapValues f blocks)) := by
  simp only [mapBodies, Table.keyed, Table.mapValues, List.map_map, Function.comp_def]

theorem bodies_extend_keyed (template : String) (blocks : Table Block) :
    (Node.extend template (Table.keyed blocks)).bodies = blocks.map Prod.snd := by
  simp only [bodies, Table.keyed, List.map_map, Function.comp_def]

theorem inlineBody_of_hasOwnKeys {template : String} {exports : Table Export}
    (h : (Node.extend template exports).HasOwnKeys) (absent : Table.get? atHand template = none) :
    inlineBody atHand imports [.extend template exports] =
      [(Node.extend template exports).mapBodies (inlineBody atHand imports)] := by
  have hblocks : Table.keyed (inlineBlocks atHand imports exports) =
      Table.mapValues (fun block => (block.1, inlineBody atHand imports block.2)) exports := by
    rw [Table.keyed, inlineBlocks, Table.mapValues, List.map_map]
    refine List.map_congr_left ?_
    rintro ⟨slot, key, body⟩ hm
    obtain rfl : key = slot := h _ hm
    rfl
  rw [inlineBody_extend_of_absent absent, hblocks, mapBodies]

/-- Inlining puts every block of an extend that it leaves under its own key. -/
theorem keyed_inlineBody (hi : ∀ key block, Table.get? imports key = some block → Keyed block) (nodes : List Node) :
    Keyed (inlineBody atHand imports nodes) := by
  induction hl : atHand.length using Nat.strong_induction_on
    generalizing atHand imports nodes with
  | _ size ih =>
    induction nodes using induction_body with
    | nil =>
      rw [inlineBody_nil]
      exact everywhere_nil
    | cons node nodes hn hns =>
      rw [inlineBody_cons]
      exact everywhere_append.2 ⟨hn, hns⟩
    | importing key =>
      rw [inlineBody_importing]
      cases hget : Table.get? imports key with
      | none => exact everywhere_singleton.2 ⟨trivial, nofun⟩
      | some block => exact hi key block hget
    | plain node hp hb =>
      rw [inlineBody_plain hp]
      refine everywhere_singleton.2 ⟨(hasOwnKeys_of_isPlain hp).mapBodies _, ?_⟩
      rw [bodies_mapBodies]
      exact List.forall_mem_map.2 hb
    | extend template exports hb =>
      have hblocks : ∀ block ∈ inlineBlocks atHand imports exports, Keyed block.2 := List.forall_mem_map.2 hb
      cases hget : Table.get? atHand template with
      | none =>
        rw [inlineBody_extend_of_absent hget]
        refine everywhere_singleton.2 ⟨hasOwnKeys_keyed template _, ?_⟩
        rw [bodies_extend_keyed]
        exact List.forall_mem_map.2 hblocks
      | some base =>
        rw [inlineBody_extend_of_get? hget]
        refine ih _ (hl ▸ length_erase_lt hget) (fun key block hblock => ?_) base rfl
        rw [Table.get?_overlay] at hblock
        rcases Option.or_eq_some_iff.1 hblock with hblock | ⟨-, hblock⟩
        · exact hblocks _ (List.mem_reverse.1 (Table.mem_of_get? hblock))
        · exact hi key block hblock

theorem keyed_of_closed {nodes : List Node} (h : bodyReferences nodes = []) : Keyed nodes := by
  rw [List.eq_nil_iff_forall_not_mem] at h
  induction nodes using induction_body with
  | nil => exact everywhere_nil
  | cons node nodes hn hns =>
    refine everywhere_cons.2 ⟨hn fun n hm => h n ?_, hns fun n hm => h n ?_⟩
    · exact mem_bodyReferences_cons.2 (.inl hm)
    · exact mem_bodyReferences_cons.2 (.inr hm)
  | importing key => exact everywhere_singleton.2 ⟨trivial, nofun⟩
  | extend template exports _ => exact absurd (mem_bodyReferences_extend template exports) (h template)
  | plain node hp hb =>
    refine everywhere_singleton.2 ⟨hasOwnKeys_of_isPlain hp, fun body hm => hb body hm fun n hn => h n ?_⟩
    exact mem_bodyReferences_of_bodies hm hn

/-- With nothing at hand, nodes whose blocks stand under their own keys are inlined to themselves. -/
theorem inlineBody_nil_nil {nodes : List Node} (h : Keyed nodes) : inlineBody [] [] nodes = nodes := by
  induction nodes using induction_body with
  | nil => simp
  | cons node nodes hn hns =>
    obtain ⟨hnode, hnodes⟩ := everywhere_cons.1 h
    rw [inlineBody_cons, hn hnode, hns hnodes, List.singleton_append]
  | importing key => rw [inlineBody_importing]; rfl
  | plain node hp hb =>
    rw [inlineBody_plain hp, mapBodies_id fun body hm => hb body hm ((everywhere_singleton.1 h).2 body hm)]
  | extend template exports hb =>
    obtain ⟨hkeys, hbodies⟩ := everywhere_singleton.1 h
    rw [inlineBody_of_hasOwnKeys hkeys (Table.get?_nil template), mapBodies_id]
    exact List.forall_mem_map.2 fun block hm => hb block hm (hbodies _ (List.mem_map_of_mem hm))

/-- With nothing at hand, nodes refer to the same templates when they are inlined, whichever keys blocks have. -/
theorem mem_bodyReferences_inlineBody_nil_nil {name : String} (nodes : List Node) :
    name ∈ bodyReferences (inlineBody [] [] nodes) ↔ name ∈ bodyReferences nodes := by
  induction nodes using induction_body with
  | nil => rw [inlineBody_nil]
  | cons node nodes hn hns => rw [inlineBody_cons, bodyReferences_append, hn, hns, ← mem_bodyReferences_cons]
  | importing key => rw [inlineBody_importing]; rfl
  | plain node hp hb =>
    rw [inlineBody_plain hp, mem_bodyReferences_singleton, mem_bodyReferences_singleton, mem_references,
      mem_references, bodies_mapBodies]
    refine or_congr ?_ ?_
    · cases node <;> simp [mapBodies]
    · simp only [List.mem_map, exists_exists_and_eq_and]
      exact exists_congr fun body => and_congr_right (hb body)
  | extend template exports hb =>
    rw [inlineBody_extend_of_absent (Table.get?_nil template), mem_bodyReferences_singleton,
      mem_bodyReferences_singleton, mem_references, mem_references, bodies_extend_keyed]
    refine or_congr ?_ ?_
    · simp
    · simp only [inlineBlocks, Table.mapValues, bodies, List.map_map, List.mem_map, Function.comp_apply,
        exists_exists_and_eq_and]
      exact exists_congr fun block => and_congr_right (hb block)

/-! ### Filling later is filling at once -/

theorem inlineBlocks_inlineBlocks {blocks both : Table Block} {exports : Table Export}
    (h : ∀ block ∈ exports,
      inlineBody [] blocks (inlineBody atHand imports block.2.2) = inlineBody atHand both block.2.2) :
    inlineBlocks [] blocks (Table.keyed (inlineBlocks atHand imports exports)) = inlineBlocks atHand both exports := by
  rw [inlineBlocks_keyed]
  simp only [inlineBlocks, Table.mapValues, List.map_map]
  exact List.map_congr_left fun block hm => by simp only [Function.comp_apply, h block hm]

/-- The places left open by inlining below `imports` are filled with `blocks`: that is inlining
below both, of which `imports` hide `blocks` and are filled with them. -/
theorem inlineBody_inlineBody {blocks both : Table Block}
    (h : ∀ key, Table.get? both key =
      ((Table.get? imports key).map (inlineBody [] blocks)).or (Table.get? blocks key))
    (nodes : List Node) :
    inlineBody [] blocks (inlineBody atHand imports nodes) = inlineBody atHand both nodes := by
  induction hl : atHand.length using Nat.strong_induction_on
    generalizing atHand imports both nodes with
  | _ size ih =>
    induction nodes using induction_body with
    | nil => simp
    | cons node nodes hn hns =>
      rw [inlineBody_cons, inlineBody_append, hn, hns, ← inlineBody_cons]
    | importing key =>
      rw [inlineBody_importing, inlineBody_importing, h]
      cases Table.get? imports key with
      | none => rw [Option.getD_none, inlineBody_importing]; rfl
      | some block => rfl
    | plain node hp hb =>
      have hbody : ∀ body ∈ node.bodies,
          (inlineBody [] blocks ∘ inlineBody atHand imports) body = inlineBody atHand both body := hb
      rw [inlineBody_plain hp, inlineBody_plain hp, inlineBody_plain (isPlain_mapBodies.2 hp),
        mapBodies_mapBodies, mapBodies_congr hbody]
    | extend template exports hb =>
      have hblocks := inlineBlocks_inlineBlocks hb
      cases hget : Table.get? atHand template with
      | none =>
        rw [inlineBody_extend_of_absent hget, inlineBody_extend_of_absent hget,
          inlineBody_extend_of_absent (Table.get?_nil template), hblocks]
      | some base =>
        rw [inlineBody_extend_of_get? hget, inlineBody_extend_of_get? hget]
        refine ih _ (hl ▸ length_erase_lt hget) (fun key => ?_) base rfl
        rw [Table.get?_overlay, Table.get?_overlay, ← hblocks, h, inlineBlocks_keyed,
          Table.reverse_mapValues, Table.get?_mapValues, Option.map_or, Option.or_assoc]

theorem inlineBody_imports {blocks : Table Block} (nodes : List Node) :
    inlineBody [] blocks (inlineBody atHand [] nodes) = inlineBody atHand blocks nodes :=
  inlineBody_inlineBody (fun _ => rfl) nodes

/-! ### References -/

/-- Inlining nodes leaves a name in place: they ask for it where it is not at hand, or they ask for a
template at hand whose nodes leave it in place once that template is at hand no longer. -/
inductive Leaves : Table (List Node) → List Node → String → Prop where
  | here {atHand : Table (List Node)} {nodes : List Node} {name : String}
    (asked : name ∈ bodyReferences nodes) (absent : Table.get? atHand name = none) :
    Leaves atHand nodes name
  | through {atHand : Table (List Node)} {nodes base : List Node} {template name : String}
    (asked : template ∈ bodyReferences nodes) (found : Table.get? atHand template = some base)
    (leaves : Leaves (Table.erase template atHand) base name) : Leaves atHand nodes name

theorem Leaves.mono {nodes more : List Node} {name : String} (h : Leaves atHand nodes name)
    (hsub : ∀ n ∈ bodyReferences nodes, n ∈ bodyReferences more) : Leaves atHand more name := by
  cases h with
  | here asked absent => exact .here (hsub _ asked) absent
  | through asked found leaves => exact .through (hsub _ asked) found leaves

/-- What inlined nodes ask for was left in place, or is asked for by a block that is handed in. -/
theorem leaves_or_mem_of_mem_inlineBody {name : String} {nodes : List Node}
    (h : name ∈ bodyReferences (inlineBody atHand imports nodes)) :
    Leaves atHand nodes name ∨
      ∃ key block, Table.get? imports key = some block ∧ name ∈ bodyReferences block := by
  induction hl : atHand.length using Nat.strong_induction_on
    generalizing atHand imports nodes with
  | _ size ih =>
    induction nodes using induction_body with
    | nil => simp [bodyReferences] at h
    | cons node nodes hn hns =>
      rw [inlineBody_cons] at h
      rcases bodyReferences_append.1 h with h | h
      · exact (hn h).imp_left fun hm => hm.mono fun n hn => mem_bodyReferences_cons.2 (.inl hn)
      · exact (hns h).imp_left fun hm => hm.mono fun n hn => mem_bodyReferences_cons.2 (.inr hn)
    | importing key =>
      rw [inlineBody_importing] at h
      cases hget : Table.get? imports key with
      | none => simp [hget, bodyReferences, references, Names.union] at h
      | some block => exact .inr ⟨key, block, hget, by simpa [hget] using h⟩
    | plain node hp hb =>
      rw [inlineBody_plain hp, mem_bodyReferences_singleton, mem_references, bodies_mapBodies] at h
      rcases h with ⟨exports, he⟩ | ⟨body, hm, hn⟩
      · have hpe : (node.mapBodies (inlineBody atHand imports)).IsPlain := isPlain_mapBodies.2 hp
        rw [he] at hpe
        exact hpe.elim
      · obtain ⟨body, hbody, rfl⟩ := List.mem_map.1 hm
        exact (hb body hbody hn).imp_left fun hr => hr.mono fun _ => mem_bodyReferences_of_bodies hbody
    | extend template exports hb =>
      have hblock : ∀ block ∈ inlineBlocks atHand imports exports, name ∈ bodyReferences block.2 →
          Leaves atHand [.extend template exports] name ∨
            ∃ key block, Table.get? imports key = some block ∧ name ∈ bodyReferences block := by
        intro block hm hn
        obtain ⟨source, hs, rfl⟩ := List.mem_map.1 hm
        exact (hb source hs hn).imp_left fun hr =>
          hr.mono fun _ => mem_bodyReferences_of_bodies (List.mem_map_of_mem hs)
      have hasked : template ∈ bodyReferences [.extend template exports] :=
        mem_bodyReferences_extend template exports
      cases hget : Table.get? atHand template with
      | none =>
        rw [inlineBody_extend_of_absent hget, mem_bodyReferences_singleton, mem_references] at h
        rcases h with ⟨blocks, he⟩ | ⟨body, hm, hn⟩
        · obtain ⟨rfl, -⟩ := Node.extend.inj he
          exact .inl (.here hasked hget)
        · rw [bodies_extend_keyed] at hm
          obtain ⟨block, hblk, rfl⟩ := List.mem_map.1 hm
          exact hblock block hblk hn
      | some base =>
        rw [inlineBody_extend_of_get? hget] at h
        rcases ih _ (hl ▸ length_erase_lt hget) h rfl with hleaves | ⟨key, block, hg, hn⟩
        · exact .inl (.through hasked hget hleaves)
        · rw [Table.get?_overlay] at hg
          rcases Option.or_eq_some_iff.1 hg with hg | ⟨-, hg⟩
          · exact hblock _ (List.mem_reverse.1 (Table.mem_of_get? hg)) hn
          · exact .inr ⟨key, block, hg, hn⟩

theorem Leaves.origin {name : String} {nodes : List Node} (h : Leaves atHand nodes name) :
    (name ∈ bodyReferences nodes ∧ Table.get? atHand name = none) ∨
      ∃ template base, Table.get? atHand template = some base ∧ name ∈ bodyReferences base := by
  induction h with
  | here asked absent => exact .inl ⟨asked, absent⟩
  | @through atHand nodes base template name asked found _ ih =>
    rcases ih with ⟨hn, -⟩ | ⟨t, b, hg, hn⟩
    · exact .inr ⟨template, base, found, hn⟩
    · rw [Table.get?_erase] at hg
      split at hg
      · cases hg
      · exact .inr ⟨t, b, hg, hn⟩

/-- What inlined nodes ask for was asked for by the nodes themselves and is not at hand, or is asked
for by something at hand or by a block that is handed in. -/
theorem mem_bodyReferences_inlineBody {name : String} {nodes : List Node}
    (h : name ∈ bodyReferences (inlineBody atHand imports nodes)) :
    (name ∈ bodyReferences nodes ∧ Table.get? atHand name = none) ∨
      (∃ template base, Table.get? atHand template = some base ∧ name ∈ bodyReferences base) ∨
      ∃ key block, Table.get? imports key = some block ∧ name ∈ bodyReferences block :=
  (leaves_or_mem_of_mem_inlineBody h).elim (fun hleaves => hleaves.origin.imp_right .inl) (.inr ∘ .inr)

end Node

end Templating
