import Templating.Document.Basic
import Templating.Proofs.Lookups

/-!
# Nodes and their bodies

A node is what it is by itself together with its bodies: those of a loop, of the branches of a
conditional, of the blocks of an extend, of a block and of a tag. What is done to a node at every
depth is done to its bodies, and what holds of a node follows from what holds in its bodies.
-/

namespace Templating

namespace Node

/-- The bodies that stand directly in a node. -/
def bodies : Node → List (List Node)
  | .loop _ _ body => [body]
  | .conditional branches => branches.map Prod.snd
  | .extend _ exports => exports.map fun block => block.2.2
  | .exporting _ body => [body]
  | .custom _ _ body => body.toList
  | _ => []

/-- The node with each of its bodies changed by `f`. -/
def mapBodies (f : List Node → List Node) : Node → Node
  | .loop name collection body => .loop name collection (f body)
  | .conditional branches => .conditional (branches.map fun branch => (branch.1, f branch.2))
  | .extend template exports => .extend template (Table.mapValues (fun block => (block.1, f block.2)) exports)
  | .exporting key body => .exporting key (f body)
  | .custom name params body => .custom name params (body.map f)
  | node => node

@[elab_as_elim]
theorem induction_bodies {motive : Node → Prop}
    (step : ∀ node : Node, (∀ body ∈ node.bodies, ∀ n ∈ body, motive n) → motive node)
    (node : Node) : motive node := by
  have cons : ∀ (n : Node) (body : List Node), motive n → (∀ m ∈ body, motive m) →
      ∀ m ∈ n :: body, motive m := fun n body hn hb m hm => by
    rcases List.mem_cons.1 hm with rfl | hm
    · exact hn
    · exact hb m hm
  -- one motive for each list, option and pair that the constructors hold
  refine @Node.rec motive (fun body => ∀ n ∈ body, motive n)
    (fun branches => ∀ branch ∈ branches, ∀ n ∈ branch.2, motive n)
    (fun exports => ∀ block ∈ exports, ∀ n ∈ block.2.2, motive n)
    (fun body => ∀ b ∈ body, ∀ n ∈ b, motive n)
    (fun branch => ∀ n ∈ branch.2, motive n) (fun entry => ∀ n ∈ entry.2.2, motive n)
    (fun block => ∀ n ∈ block.2, motive n)
    (fun _ => step _ (by simp [bodies])) (fun _ => step _ (by simp [bodies]))
    (fun _ _ body h => step _ (by simpa [bodies] using h))
    (fun _ h => step _ (List.forall_mem_map.2 h)) (fun _ _ h => step _ (List.forall_mem_map.2 h))
    (fun _ => step _ (by simp [bodies]))
    (fun _ body h => step _ (by simpa [bodies] using h))
    (fun _ _ body h => step _ (by simpa [bodies] using h))
    (by simp) cons (by simp) ?_ (by simp) ?_ (by simp) ?_ (fun _ _ h => h) (fun _ _ h => h)
    (fun _ _ h => h) node
  · intro branch branches hb hbs b hm
    rcases List.mem_cons.1 hm with rfl | hm
    · exact hb
    · exact hbs b hm
  · intro block blocks hb hbs b hm
    rcases List.mem_cons.1 hm with rfl | hm
    · exact hb
    · exact hbs b hm
  · intro body h
    simpa using h

theorem bodies_mapBodies (f : List Node → List Node) (node : Node) :
    (node.mapBodies f).bodies = node.bodies.map f := by
  cases node with
  | custom _ _ body => cases body <;> rfl
  | _ => simp [mapBodies, bodies, Table.mapValues]

theorem mapBodies_mapBodies (f g : List Node → List Node) (node : Node) :
    (node.mapBodies f).mapBodies g = node.mapBodies (g ∘ f) := by
  cases node <;> simp [mapBodies, Table.mapValues]

theorem mapBodies_congr {f g : List Node → List Node} {node : Node}
    (h : ∀ body ∈ node.bodies, f body = g body) : node.mapBodies f = node.mapBodies g := by
  cases node with
  | conditional branches =>
    have hb : ∀ branch ∈ branches, f branch.2 = g branch.2 := List.forall_mem_map.1 h
    exact congrArg conditional (List.map_congr_left fun branch hm => by rw [hb branch hm])
  | extend template exports =>
    have hb : ∀ block ∈ exports, f block.2.2 = g block.2.2 := List.forall_mem_map.1 h
    exact congrArg (extend template) (Table.mapValues_congr fun block hm => by rw [hb block hm])
  | custom _ _ body => cases body <;> simp_all [mapBodies, bodies]
  | _ => simp_all [mapBodies, bodies]

theorem mapBodies_id {f : List Node → List Node} {node : Node}
    (h : ∀ body ∈ node.bodies, f body = body) : node.mapBodies f = node := by
  have hid : node.mapBodies id = node := by cases node <;> simp [mapBodies, Table.mapValues]
  exact (mapBodies_congr h).trans hid

/-- A node that is neither the place of a block nor an extend. -/
def IsPlain : Node → Prop
  | .importing _ => False
  | .extend _ _ => False
  | _ => True

theorem isPlain_mapBodies {f : List Node → List Node} {node : Node} :
    (node.mapBodies f).IsPlain ↔ node.IsPlain := by
  cases node <;> rfl

@[elab_as_elim]
theorem induction_body {motive : List Node → Prop} (nodes : List Node) (nil : motive [])
    (cons : ∀ node nodes, motive [node] → motive nodes → motive (node :: nodes))
    (importing : ∀ key, motive [.importing key])
    (extend : ∀ template exports, (∀ block ∈ exports, motive block.2.2) →
      motive [.extend template exports])
    (plain : ∀ node : Node, node.IsPlain → (∀ body ∈ node.bodies, motive body) → motive [node]) :
    motive nodes := by
  have list : ∀ nodes : List Node, (∀ node ∈ nodes, motive [node]) → motive nodes := by
    intro nodes h
    induction nodes with
    | nil => exact nil
    | cons node nodes ih =>
      exact cons node nodes (h node List.mem_cons_self)
        (ih fun n hn => h n (List.mem_cons_of_mem node hn))
  have single : ∀ node : Node, motive [node] := by
    intro node
    induction node using induction_bodies with
    | step node ih =>
      have hb : ∀ body ∈ node.bodies, motive body := fun body hm => list body (ih body hm)
      cases node with
      | importing key => exact importing key
      | extend template exports => exact extend template exports (List.forall_mem_map.1 hb)
      | _ => exact plain _ trivial hb
  exact list nodes fun node _ => single node

/-! ### Nodes at every depth -/

/-- Whether `P` holds of some nodes and of each body within them, at whatever depth. -/
inductive Throughout (P : List Node → Prop) : List Node → Prop where
  | intro {nodes : List Node} (here : P nodes)
    (within : ∀ node ∈ nodes, ∀ body ∈ node.bodies, Throughout P body) : Throughout P nodes

theorem Throughout.mono {P Q : List Node → Prop} (hPQ : ∀ nodes, P nodes → Q nodes) {nodes : List Node}
    (h : Throughout P nodes) : Throughout Q nodes := by
  induction h with
  | intro here _ ih => exact .intro (hPQ _ here) ih

/-- Whether `P` holds of each node, at whatever depth. -/
def Everywhere (P : Node → Prop) (nodes : List Node) : Prop := Throughout (fun nodes => ∀ node ∈ nodes, P node) nodes

section Everywhere

variable {P Q : Node → Prop} {node : Node} {nodes more : List Node}

theorem everywhere_iff :
    Everywhere P nodes ↔ ∀ node ∈ nodes, P node ∧ ∀ body ∈ node.bodies, Everywhere P body := by
  constructor
  · rintro ⟨here, within⟩ node hn
    exact ⟨here node hn, within node hn⟩
  · intro h
    exact .intro (fun node hn => (h node hn).1) fun node hn => (h node hn).2

theorem everywhere_nil : Everywhere P [] := everywhere_iff.2 nofun

theorem everywhere_singleton : Everywhere P [node] ↔ P node ∧ ∀ body ∈ node.bodies, Everywhere P body := by
  rw [everywhere_iff, List.forall_mem_singleton]

theorem everywhere_append : Everywhere P (nodes ++ more) ↔ Everywhere P nodes ∧ Everywhere P more := by
  rw [everywhere_iff, everywhere_iff, everywhere_iff, List.forall_mem_append]

theorem everywhere_cons : Everywhere P (node :: nodes) ↔ Everywhere P [node] ∧ Everywhere P nodes :=
  @everywhere_append P [node] nodes

theorem Everywhere.mono (hPQ : ∀ node, P node → Q node) (h : Everywhere P nodes) : Everywhere Q nodes :=
  Throughout.mono (fun _ here node hn => hPQ node (here node hn)) h

/-- What holds everywhere holds everywhere within each node. -/
theorem Everywhere.within (h : Everywhere P nodes) : Everywhere (fun node => Everywhere P [node]) nodes := by
  induction h with
  | @intro nodes here within ih =>
    exact .intro (fun node hn => everywhere_singleton.2 ⟨here node hn, within node hn⟩) ih

theorem Everywhere.mapBodies (h : Everywhere P [node]) {f : List Node → List Node}
    (hnode : P node → P (node.mapBodies f))
    (hf : ∀ body ∈ node.bodies, Everywhere P body → Everywhere P (f body)) :
    Everywhere P [node.mapBodies f] := by
  obtain ⟨here, within⟩ := everywhere_singleton.1 h
  refine everywhere_singleton.2 ⟨hnode here, ?_⟩
  rw [bodies_mapBodies, List.forall_mem_map]
  exact fun body hm => hf body hm (within body hm)

end Everywhere

/-! ### What the functions on nodes do, in terms of bodies -/

section Fill

variable (expand : String → Table Block → Option (List Node)) (imports : Table Block)

theorem fillBody_eq (nodes : List Node) :
    fillBody expand imports nodes = nodes.flatMap (fill expand imports) := by
  induction nodes with
  | nil => rfl
  | cons node nodes ih => rw [fillBody, ih, List.flatMap_cons]

theorem fillBranches_eq (branches : List (Option Expr × List Node)) :
    fillBranches expand imports branches =
      branches.map fun branch => (branch.1, fillBody expand imports branch.2) := by
  induction branches with
  | nil => rfl
  | cons branch branches ih => rw [fillBranches, ih, List.map_cons]

theorem fillExports_eq (exports : Table Export) :
    fillExports expand imports exports = Table.mapValues (fun block => fillBody expand imports block.2) exports := by
  induction exports with
  | nil => rfl
  | cons block exports ih => rw [fillExports, ih, Table.mapValues, Table.mapValues, List.map_cons]

theorem fill_of_isPlain {node : Node} (h : node.IsPlain) :
    fill expand imports node = [node.mapBodies (fillBody expand imports)] := by
  cases node with
  | importing => exact h.elim
  | extend => exact h.elim
  | conditional branches => simp [fill, mapBodies, fillBranches_eq]
  | custom _ _ body => cases body <;> simp [fill, mapBodies]
  | _ => simp [fill, mapBodies]

theorem fill_importing (key : String) :
    fill expand imports (.importing key) = (Table.get? imports key).getD [.importing key] := by
  rw [fill]

theorem fill_extend (template : String) (exports : Table Export) :
    let blocks := Table.mapValues (fun block => fillBody expand imports block.2) exports
    fill expand imports (.extend template exports) =
      (expand template (Table.overlay imports blocks)).getD [.extend template (Table.keyed blocks)] := by
  rw [fill, fillExports_eq]

theorem fillBody_append (nodes more : List Node) :
    fillBody expand imports (nodes ++ more) =
      fillBody expand imports nodes ++ fillBody expand imports more := by
  simp only [fillBody_eq, List.flatMap_append]

theorem fillBody_singleton (node : Node) : fillBody expand imports [node] = fill expand imports node := by
  rw [fillBody_eq, List.flatMap_singleton]

end Fill

/-! ### References -/

theorem mem_branchReferences {name : String} {branches : List (Option Expr × List Node)} :
    name ∈ branchReferences branches ↔ ∃ branch ∈ branches, name ∈ bodyReferences branch.2 := by
  induction branches with
  | nil => simp [branchReferences]
  | cons branch branches ih => simp [branchReferences, Names.mem_union, ih, or_comm]

theorem mem_exportReferences {name : String} {exports : Table Export} :
    name ∈ exportReferences exports ↔ ∃ block ∈ exports, name ∈ bodyReferences block.2.2 := by
  induction exports with
  | nil => simp [exportReferences]
  | cons block exports ih => simp [exportReferences, Names.mem_union, ih, or_comm]

theorem mem_references {name : String} {node : Node} :
    name ∈ node.references ↔
      (∃ exports, node = .extend name exports) ∨ ∃ body ∈ node.bodies, name ∈ bodyReferences body := by
  cases node with
  | extend template exports =>
    simp only [references, bodies, Names.mem_insert, mem_exportReferences, List.mem_map,
      exists_exists_and_eq_and, Node.extend.injEq, exists_eq_right', eq_comm (a := name)]
  | conditional branches =>
    simp only [references, bodies, mem_branchReferences, List.mem_map, exists_exists_and_eq_and,
      reduceCtorEq, exists_false, false_or]
  | custom _ _ body => cases body <;> simp [references, bodies]
  | _ => simp [references, bodies]

theorem pairwise_bodyReferences (nodes : List Node) : (bodyReferences nodes).Pairwise (· < ·) := by
  cases nodes with
  | nil => exact List.Pairwise.nil
  | cons node nodes => exact Names.pairwise_union (pairwise_bodyReferences nodes) _

theorem bodyReferences_append {name : String} {nodes more : List Node} :
    name ∈ bodyReferences (nodes ++ more) ↔
      name ∈ bodyReferences nodes ∨ name ∈ bodyReferences more := by
  simp only [mem_bodyReferences, List.mem_append, or_and_right, exists_or]

theorem mem_bodyReferences_cons {name : String} {node : Node} {nodes : List Node} :
    name ∈ bodyReferences (node :: nodes) ↔
      name ∈ bodyReferences [node] ∨ name ∈ bodyReferences nodes :=
  @bodyReferences_append name [node] nodes

theorem mem_bodyReferences_singleton {name : String} {node : Node} :
    name ∈ bodyReferences [node] ↔ name ∈ node.references := by
  simp [mem_bodyReferences]

theorem mem_bodyReferences_flatMap {name : String} {f : Node → List Node} {nodes : List Node} :
    name ∈ bodyReferences (nodes.flatMap f) ↔ ∃ node ∈ nodes, name ∈ bodyReferences (f node) := by
  simp only [mem_bodyReferences, List.mem_flatMap]
  exact ⟨fun ⟨n, ⟨node, hnode, hn⟩, hname⟩ => ⟨node, hnode, n, hn, hname⟩,
    fun ⟨node, hnode, n, hn, hname⟩ => ⟨n, ⟨node, hnode, hn⟩, hname⟩⟩

theorem mem_bodyReferences_extend (template : String) (exports : Table Export) :
    template ∈ bodyReferences [.extend template exports] :=
  mem_bodyReferences_singleton.2 (mem_references.2 (.inl ⟨exports, rfl⟩))

theorem mem_bodyReferences_of_bodies {name : String} {node : Node} {body : List Node}
    (hb : body ∈ node.bodies) (hn : name ∈ bodyReferences body) : name ∈ bodyReferences [node] :=
  mem_bodyReferences_singleton.2 (mem_references.2 (.inr ⟨body, hb, hn⟩))

end Node

end Templating
