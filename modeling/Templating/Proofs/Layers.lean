import Templating.Proofs.Equality
import Templating.Proofs.Resolving

/-!
# Layers of blocks

A template that only extends another puts a layer of blocks around it. Below any number of layers the
place of a block is taken from the innermost layer that has it, and the places in the block itself from
the layers outside of that one only. A document of such a chain has the innermost template's nodes, with
their places taken in this way.
-/

namespace Templating

open Resolve Drafts

namespace Node

/-! ### Taking places -/

section Place

variable (block : String → Option Block)

mutual

/-- The nodes that a node becomes when each place of a known block is taken by it. What is put there
is not gone through again. -/
def place : Node → List Node
  | .raw text => [.raw text]
  | .expression e => [.expression e]
  | .importing key => (block key).getD [.importing key]
  | .extend template exports => [.extend template (placeExports exports)]
  | .loop name collection body => [.loop name collection (placeAll body)]
  | .conditional branches => [.conditional (placeBranches branches)]
  | .exporting key body => [.exporting key (placeAll body)]
  | .custom name params none => [.custom name params none]
  | .custom name params (some body) => [.custom name params (some (placeAll body))]

def placeAll : List Node → List Node
  | [] => []
  | node :: nodes => place node ++ placeAll nodes

def placeBranches : List (Option Expr × List Node) → List (Option Expr × List Node)
  | [] => []
  | (condition, body) :: branches => (condition, placeAll body) :: placeBranches branches

def placeExports : List (String × Export) → List (String × Export)
  | [] => []
  | (slot, key, body) :: exports => (slot, key, placeAll body) :: placeExports exports

end

theorem placeAll_cons (node : Node) (nodes : List Node) :
    placeAll block (node :: nodes) = placeAll block [node] ++ placeAll block nodes := by
  simp only [placeAll, List.append_nil]

theorem placeAll_append (nodes more : List Node) :
    placeAll block (nodes ++ more) = placeAll block nodes ++ placeAll block more := by
  induction nodes with
  | nil => rfl
  | cons node nodes ih => rw [List.cons_append, placeAll, placeAll, ih, List.append_assoc]

theorem placeAll_importing (key : String) :
    placeAll block [.importing key] = (block key).getD [.importing key] := by
  rw [placeAll, placeAll, place, List.append_nil]

theorem placeBranches_eq (branches : List (Option Expr × List Node)) :
    placeBranches block branches = branches.map fun branch => (branch.1, placeAll block branch.2) := by
  induction branches with
  | nil => rfl
  | cons branch branches ih => rw [placeBranches, ih, List.map_cons]

theorem placeExports_eq (exports : Table Export) :
    placeExports block exports = Table.mapValues (fun e => (e.1, placeAll block e.2)) exports := by
  induction exports with
  | nil => rfl
  | cons block exports ih => rw [placeExports, ih, Table.mapValues, Table.mapValues, List.map_cons]

theorem placeAll_singleton {node : Node} (h : ∀ key, node ≠ .importing key) :
    placeAll block [node] = [node.mapBodies (placeAll block)] := by
  rw [placeAll, placeAll, List.append_nil]
  cases node with
  | importing key => exact (h key rfl).elim
  | conditional branches => rw [place, mapBodies, placeBranches_eq]
  | extend template exports => rw [place, mapBodies, placeExports_eq]
  | custom name params body => cases body <;> rfl
  | _ => rfl

end Place

theorem mapBodies_ne_importing {f : List Node → List Node} {node : Node}
    (h : ∀ key, node ≠ .importing key) (key : String) : node.mapBodies f ≠ .importing key := by
  cases node with
  | importing other => exact (h other rfl).elim
  | _ => exact fun he => by cases he

theorem induction_places {motive : List Node → Prop} (nodes : List Node) (nil : motive [])
    (cons : ∀ node nodes, motive [node] → motive nodes → motive (node :: nodes))
    (importing : ∀ key, motive [.importing key])
    (other : ∀ node : Node, (∀ key, node ≠ .importing key) → (∀ body ∈ node.bodies, motive body) →
      motive [node]) :
    motive nodes := by
  induction nodes using induction_body with
  | nil => exact nil
  | cons node nodes hn hns => exact cons node nodes hn hns
  | importing key => exact importing key
  | extend template exports hb => exact other _ (fun _ h => by cases h) (List.forall_mem_map.2 hb)
  | plain node hp hb => exact other node (fun key h => by rw [h] at hp; exact hp) hb

theorem placeAll_none (nodes : List Node) : placeAll (fun _ => none) nodes = nodes := by
  induction nodes using induction_places with
  | nil => rfl
  | cons node nodes hn hns => rw [placeAll_cons, hn, hns, List.singleton_append]
  | importing key => rw [placeAll_importing]; rfl
  | other node hkey hb => rw [placeAll_singleton _ hkey, mapBodies_id hb]

theorem placeAll_placeAll (inner outer : String → Option Block) (nodes : List Node) :
    placeAll outer (placeAll inner nodes) =
      placeAll (fun key => ((inner key).map (placeAll outer)).or (outer key)) nodes := by
  induction nodes using induction_places with
  | nil => rfl
  | cons node nodes hn hns => rw [placeAll_cons, placeAll_append, hn, hns, ← placeAll_cons]
  | importing key =>
    rw [placeAll_importing, placeAll_importing]
    cases inner key with
    | none => exact placeAll_importing outer key
    | some block => rfl
  | other node hkey hb =>
    rw [placeAll_singleton _ hkey, placeAll_singleton _ (mapBodies_ne_importing hkey),
      placeAll_singleton _ hkey, mapBodies_mapBodies]
    exact congrArg (fun n => [n]) (mapBodies_congr hb)

theorem inlineBody_eq_placeAll {nodes : List Node} (h : Keyed nodes) (imports : Table Block) :
    inlineBody [] imports nodes = placeAll (Table.get? imports) nodes := by
  induction nodes using induction_body with
  | nil => exact inlineBody_nil
  | cons node nodes hn hns =>
    obtain ⟨hnode, hnodes⟩ := everywhere_cons.1 h
    rw [inlineBody_cons, placeAll_cons, hn hnode, hns hnodes]
  | importing key => rw [inlineBody_importing, placeAll_importing]
  | extend template exports hb =>
    obtain ⟨hkeys, hbodies⟩ := everywhere_singleton.1 h
    rw [inlineBody_of_hasOwnKeys hkeys (Table.get?_nil template), placeAll_singleton _ (fun _ h => by cases h)]
    exact congrArg (fun n => [n]) (mapBodies_congr (List.forall_mem_map.2 fun block hm =>
      hb block hm (hbodies _ (List.mem_map_of_mem hm))))
  | plain node hp hb =>
    have hbodies := (everywhere_singleton.1 h).2
    rw [inlineBody_plain hp, placeAll_singleton _ (fun key h => by rw [h] at hp; exact hp)]
    exact congrArg (fun n => [n]) (mapBodies_congr fun body hm => hb body hm (hbodies body hm))

/-! ### Layers -/

/-- The block that takes the place of a key below some layers, of which the first is the innermost:
that of the innermost layer which has one, with its own places taken from the layers outside of it. -/
def blockOf : List (Table Block) → String → Option Block
  | [], _ => none
  | layer :: outer, key =>
    match Table.get? layer key with
    | some body => some (placeAll (blockOf outer) body)
    | none => blockOf outer key

theorem blockOf_cons (layer : Table Block) (outer : List (Table Block)) (key : String) :
    blockOf (layer :: outer) key =
      ((Table.get? layer key).map (placeAll (blockOf outer))).or (blockOf outer key) := by
  rw [blockOf]
  cases Table.get? layer key with
  | none => rfl
  | some body => rfl

theorem blockOf_append (layers : List (Table Block)) (layer : Table Block) (key : String) :
    blockOf (layers ++ [layer]) key =
      ((blockOf layers key).map (placeAll (Table.get? layer))).or (Table.get? layer key) := by
  induction layers generalizing key with
  | nil =>
    have hnone : placeAll (blockOf []) = id := funext placeAll_none
    rw [List.nil_append, blockOf_cons, hnone, Option.map_id, id, blockOf, Option.or_none,
      Option.map_none, Option.none_or]
  | cons inner layers ih =>
    have hboth : placeAll (blockOf (layers ++ [layer])) =
        placeAll (Table.get? layer) ∘ placeAll (blockOf layers) := by
      funext nodes
      rw [Function.comp_apply, placeAll_placeAll, funext ih]
    rw [List.cons_append, blockOf_cons, blockOf_cons, ih, hboth, Option.map_or, Option.map_map,
      Option.or_assoc]

/-- Nodes below some layers of blocks. -/
def wrapped (layers : List (Table Block)) (nodes : List Node) : List Node :=
  placeAll (blockOf layers) nodes

theorem wrapped_nil (nodes : List Node) : wrapped [] nodes = nodes := placeAll_none nodes

theorem wrapped_append {layers : List (Table Block)} {nodes : List Node} (h : Keyed (wrapped layers nodes))
    (layer : Table Block) : wrapped (layers ++ [layer]) nodes = inlineBody [] layer (wrapped layers nodes) := by
  rw [inlineBody_eq_placeAll h, wrapped, wrapped, placeAll_placeAll, funext (blockOf_append layers layer)]

end Node

open Node

namespace Drafts

variable {drafts : Drafts} {missing : Missing} {name : String} {nodes : List Node}
  {layers : List (Table Block)}

/-- A chain of templates that ends with a name: each only extends the one before, with blocks that
extend nothing, and the first, which has the nodes, extends nothing either. -/
inductive Layers (drafts : Drafts) (nodes : List Node) : String → List (Table Block) → Prop where
  | base {name : String} (found : drafts name = .ok (.ofNodes name nodes))
    (closed : bodyReferences nodes = []) : Layers drafts nodes name []
  | extend {base name : String} {layers : List (Table Block)} {exports : Table Export}
    (inner : Layers drafts nodes base layers)
    (found : drafts name = .ok (.ofNodes name [.extend base exports]))
    (closed : ∀ block ∈ exports, bodyReferences block.2.2 = []) :
    Layers drafts nodes name (layers ++ [Table.ofEntries (Table.mapValues Prod.snd exports)])

theorem inlineBlocks_of_closed {atHand : Table (List Node)} {exports : Table Export}
    (h : ∀ block ∈ exports, bodyReferences block.2.2 = []) :
    inlineBlocks atHand [] exports = Table.mapValues Prod.snd exports := by
  refine Table.mapValues_congr fun block hb => ?_
  have habsent : ∀ n ∈ bodyReferences block.2.2, Table.get? atHand n = none := by
    rw [h block hb]
    exact fun _ hn => absurd hn List.not_mem_nil
  rw [inlineBody_of_absent habsent, inlineBody_nil_nil (keyed_of_closed (h block hb))]

theorem bodyReferences_extend {base : String} {exports : Table Export}
    (h : ∀ block ∈ exports, bodyReferences block.2.2 = []) {n : String} :
    n ∈ bodyReferences [.extend base exports] ↔ n = base := by
  rw [mem_bodyReferences_singleton, mem_references]
  constructor
  · rintro (⟨_, he⟩ | ⟨body, hb, hn⟩)
    · exact (Node.extend.inj he).1.symm
    · obtain ⟨block, hm, rfl⟩ := List.mem_map.1 hb
      rw [h block hm] at hn
      cases hn
  · rintro rfl
    exact .inl ⟨exports, rfl⟩

theorem Completed.extend {base : String} {exports : Table Export} {d : Document}
    (hd : Completed drafts missing base d)
    (found : drafts name = .ok (.ofNodes name [.extend base exports]))
    (closed : ∀ block ∈ exports, bodyReferences block.2.2 = []) :
    Completed drafts missing name ((Document.ofNodes name [.extend base exports]).rebuild [(base, d)]) := by
  have hneeds : ∀ n, n ∈ (Document.ofNodes name [.extend base exports]).unresolved ↔ n = base :=
    fun n => bodyReferences_extend closed
  have hopen : (Document.ofNodes name [.extend base exports]).isFlat = false := by
    refine Bool.eq_false_iff.2 fun hflat => ?_
    have hbase := (hneeds base).2 rfl
    rw [Document.isFlat_iff.1 hflat] at hbase
    cases hbase
  refine .rebuilt found hopen (fun n e hg => ?_) (fun n e hg => ?_) fun n hn hg => ?_
  · exact (hneeds n).2 (Table.eq_of_get?_singleton hg).1
  · obtain ⟨rfl, rfl⟩ := Table.eq_of_get?_singleton hg
    exact hd
  · rw [(hneeds n).1 hn, Table.get?_cons, if_pos rfl] at hg
    cases hg

theorem alike_rebuild_extend {base : String} {exports : Table Export}
    (closed : ∀ block ∈ exports, bodyReferences block.2.2 = []) (d : Document) :
    Alike ((Document.ofNodes name [.extend base exports]).rebuild [(base, d)]).nodes
      (inlineBody [] (Table.ofEntries (Table.mapValues Prod.snd exports)) d.nodes) := by
  have hbase : Table.get? (Document.nodesOf [(base, d)]) base = some d.nodes := by
    rw [Document.get?_nodesOf, Table.get?_cons, if_pos rfl, Option.map_some]
  have herase : ∀ n, Table.get? (Table.erase base (Document.nodesOf [(base, d)])) n = none := by
    intro n
    rw [Table.get?_erase, Document.get?_nodesOf, Table.get?_cons, Table.get?_nil]
    split
    · rfl
    · rfl
  have hwanted : (Node.extend base exports).references.any (Table.has [(base, d)]) = true :=
    List.any_eq_true.2 ⟨base, mem_bodyReferences_singleton.1 (mem_bodyReferences_extend base exports),
      by simp [Table.has, Table.get?_cons]⟩
  rw [Document.rebuild_nodes_eq]
  refine (Alike.mergeRaw _).trans ?_
  show Alike ((Document.rebuildNode [(base, d)] (.extend base exports)).nodes ++ []) _
  rw [List.append_nil, Document.rebuildNode_of_wanted hwanted]
  show Alike (inlineBody _ [] [.extend base exports]) _
  rw [inlineBody_extend_of_get? hbase, inlineBlocks_of_closed closed,
    @inlineBody_congr _ _ [] _ herase (fun _ => rfl) d.nodes]
  exact .refl _

theorem Layers.exists_completed (h : Layers drafts nodes name layers) :
    ∃ d, Completed drafts missing name d ∧ Alike d.nodes (wrapped layers nodes) := by
  suffices hkeyed : Node.Keyed (wrapped layers nodes) ∧
      ∃ d, Completed drafts missing name d ∧ Alike d.nodes (wrapped layers nodes) from hkeyed.2
  -- every template puts its layer around what the one before it has been completed to
  induction h with
  | @base name found closed =>
    have hflat : (Document.ofNodes name nodes).isFlat = true := Document.isFlat_iff.2 closed
    rw [wrapped_nil]
    exact ⟨keyed_of_closed closed, _, .flat found hflat, .refl nodes⟩
  | @extend base name layers exports inner found closed ih =>
    obtain ⟨hkeyed, d, hd, hlike⟩ := ih
    have hblocks : ∀ key block, Table.get? (Table.ofEntries (Table.mapValues Prod.snd exports)) key = some block →
        Node.Keyed block := by
      intro key block hget
      obtain ⟨source, hsource, heq⟩ := List.mem_map.1 (Table.mem_of_mem_ofEntries (Table.mem_of_get? hget))
      obtain ⟨rfl, rfl⟩ := Prod.mk.inj heq
      exact keyed_of_closed (closed source hsource)
    rw [wrapped_append hkeyed]
    refine ⟨keyed_inlineBody hblocks _, _, hd.extend found closed, (alike_rebuild_extend closed d).trans ?_⟩
    exact .inlineBody (.refl []) (.refl _) hlike

end Drafts

namespace Renderer

variable {renderer : Renderer} {p : Progress} {name : String} {nodes : List Node}
  {layers : List (Table Block)}

/-- Blocks are filled in innermost first along a chain of any length. -/
theorem document_layers (hlayers : Layers renderer.registry.drafts nodes name layers)
    (hcache : p.cache.documents = [] ∨ p.cache.enabled = false) (hname : name.isEmpty = false) :
    ∃ d, (exec (renderer.document name) p).1 = .ok d ∧
      joinAll d.nodes = joinAll (wrapped layers nodes) := by
  obtain ⟨d, hd, hlike⟩ := @Layers.exists_completed _ renderer.missing _ _ _ hlayers
  have hanswer := @answered_of_not_held renderer p (Cache.held_eq_none hcache) name
  have hdone : Answered renderer.registry.drafts renderer.missing name (.ok d) := by
    unfold Answered
    rw [hname]
    exact hd
  exact ⟨d, hanswer.unique hdone, hlike⟩

/-- Two extends hand over blocks for the title; the inner one's has a place for the outer one's name. -/
def stacked : Renderer :=
  .ofRegistry .blocking .fail (.single (Memory.holding
    [("layout", "<#import(\"title\")|#import(\"body\")|#import(\"foot\")>"),
      ("base", "#extend(\"layout\"):#export(\"title\"):base #import(\"name\")#endexport" ++
        "#export(\"body\"):[#import(\"body\")]#endexport#endextend"),
      ("page", "#extend(\"base\"):#export(\"title\"):never#endexport#export(\"body\"):hi#endexport" ++
        "#export(\"name\"):page#endexport#endextend")]).source)

def stackedLayout : List Node :=
  [.raw "<", .importing "title", .raw "|", .importing "body", .raw "|", .importing "foot", .raw ">"]

def stackedLayers : List (Table Block) :=
  [[("body", [.raw "[", .importing "body", .raw "]"]), ("title", [.raw "base ", .importing "name"])],
    [("body", [.raw "hi"]), ("name", [.raw "page"]), ("title", [.raw "never"])]]

theorem layers_stacked : Layers stacked.registry.drafts stackedLayout "page" stackedLayers := by
  have hlayout : stacked.registry.drafts "layout" = .ok (.ofNodes "layout" stackedLayout) :=
    ok_of_toOption (by decide +kernel)
  have hbase : stacked.registry.drafts "base" = .ok (.ofNodes "base" [.extend "layout"
      [("body", "body", [.raw "[", .importing "body", .raw "]"]),
        ("title", "title", [.raw "base ", .importing "name"])]]) :=
    ok_of_toOption (by decide +kernel)
  have hpage : stacked.registry.drafts "page" = .ok (.ofNodes "page" [.extend "base"
      [("body", "body", [.raw "hi"]), ("name", "name", [.raw "page"]), ("title", "title", [.raw "never"])]]) :=
    ok_of_toOption (by decide +kernel)
  exact .extend (.extend (.base hlayout (by decide)) hbase (by decide)) hpage (by decide)

theorem document_layers_stacked :
    Layers stacked.registry.drafts stackedLayout "page" stackedLayers ∧
      ∃ d, (exec (stacked.document "page") ⟨.empty true, []⟩).1 = .ok d ∧
        joinAll d.nodes = [.raw "<base page|[hi]|", .importing "foot", .raw ">"] := by
  obtain ⟨d, hd, hnodes⟩ :=
    @document_layers stacked ⟨.empty true, []⟩ "page" _ _ layers_stacked (.inl rfl) (by decide)
  have hplaces : joinAll (wrapped stackedLayers stackedLayout) =
      [.raw "<base page|[hi]|", .importing "foot", .raw ">"] := by decide +kernel
  exact ⟨layers_stacked, d, hd, hnodes.trans hplaces⟩

/-- A template under the empty name extends a base. -/
def unnamed : Renderer :=
  .ofRegistry .blocking .fail (.single (Memory.holding
    [("", "#extend(\"base\"):#export(\"body\"):hi#endexport#endextend"),
      ("base", "<#import(\"body\")>")]).source)

/-- The search finds a template under the empty name, but nobody can ask for its document. -/
theorem document_of_empty_name_refused :
    Layers unnamed.registry.drafts [.raw "<", .importing "body", .raw ">"] "" [[("body", [.raw "hi"])]] ∧
      ¬ ∃ d, (exec (unnamed.document "") ⟨.empty true, []⟩).1 = .ok d ∧
        joinAll d.nodes =
          joinAll (wrapped [[("body", [.raw "hi"])]] [.raw "<", .importing "body", .raw ">"]) := by
  have hbase : unnamed.registry.drafts "base" =
      .ok (.ofNodes "base" [.raw "<", .importing "body", .raw ">"]) := ok_of_toOption (by decide +kernel)
  have hpage : unnamed.registry.drafts "" =
      .ok (.ofNodes "" [.extend "base" [("body", "body", [.raw "hi"])]]) := ok_of_toOption (by decide +kernel)
  refine ⟨.extend (.base hbase (by decide)) hpage (by decide), ?_⟩
  rintro ⟨d, hd, -⟩
  have hrefused : (exec (unnamed.document "") ⟨.empty true, []⟩).1.toOption = none := by decide +kernel
  rw [hd] at hrefused
  cases hrefused

end Renderer

end Templating
