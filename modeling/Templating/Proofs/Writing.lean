import Templating.Proofs.Rebuilding

/-!
# Writing alike nodes

How the raw texts of nodes are split is not seen in what they write, in any scope. Documents of one
name with alike nodes that need what their nodes refer to are written alike, or refused alike.
-/

namespace Templating

open Document

namespace Node

variable {callables : Callables}

theorem writeBody_cons (scope : Scope) (node : Node) (nodes : List Node) :
    writeBody callables scope (node :: nodes) = do
      let text ← write callables scope node
      let rest ← writeBody callables scope nodes
      return text ++ rest := by
  rw [writeBody]

theorem writeBody_mergeRaw (scope : Scope) (nodes : List Node) :
    writeBody callables scope (mergeRaw nodes) = writeBody callables scope nodes := by
  induction nodes with
  | nil => rfl
  | cons node nodes ih =>
    rcases mergeRaw_cons_cases node nodes with h | ⟨a, b, rest, rfl, hb, h⟩
    · rw [h, writeBody_cons, writeBody_cons, ih]
    · rw [h, writeBody_cons, writeBody_cons, ← ih, hb, writeBody_cons]
      simp only [write]
      cases writeBody callables scope rest with
      | error e => rfl
      | ok text =>
        show Except.ok (a ++ b ++ text) = Except.ok (a ++ (b ++ text))
        rw [String.append_assoc]

theorem writeBranches_congr {f : List Node → List Node} {branches : List (Option Expr × List Node)}
    (h : ∀ branch ∈ branches, ∀ scope,
      writeBody callables scope (f branch.2) = writeBody callables scope branch.2) (scope : Scope) :
    writeBranches callables scope (branches.map fun branch => (branch.1, f branch.2)) =
      writeBranches callables scope branches := by
  induction branches with
  | nil => rfl
  | cons branch branches ih =>
    obtain ⟨condition, body⟩ := branch
    have hbody := h (condition, body) List.mem_cons_self scope
    have hrest := ih fun b hb => h b (List.mem_cons_of_mem _ hb)
    rw [List.map_cons]
    cases condition with
    | none =>
      rw [writeBranches, writeBranches]
      exact hbody
    | some condition =>
      rw [writeBranches, writeBranches, hbody, hrest]

theorem write_mapBodies {f : List Node → List Node} {node : Node}
    (h : ∀ body ∈ node.bodies, ∀ scope,
      writeBody callables scope (f body) = writeBody callables scope body) (scope : Scope) :
    write callables scope (node.mapBodies f) = write callables scope node := by
  cases node with
  | loop name collection body =>
    have hbody := h body (List.mem_singleton_self body)
    simp only [mapBodies, write, hbody]
  | conditional branches =>
    have hbranches := writeBranches_congr (List.forall_mem_map.1 h) scope
    rw [mapBodies, write, write, hbranches]
  | custom name params body =>
    cases body with
    | none => rfl
    | some body =>
      have hbody := h body (List.mem_singleton_self body) scope
      simp only [mapBodies, Option.map_some, write, hbody]
  | _ => simp only [mapBodies, write]

theorem write_joined (node : Node) (scope : Scope) :
    write callables scope node.joined = write callables scope node := by
  have map : ∀ (nodes : List Node) (scope : Scope),
      (∀ n ∈ nodes, ∀ scope, write callables scope n.joined = write callables scope n) →
        writeBody callables scope (nodes.map joined) = writeBody callables scope nodes := by
    intro nodes scope h
    induction nodes with
    | nil => rfl
    | cons n nodes ih =>
      rw [List.map_cons, writeBody_cons, writeBody_cons, h n List.mem_cons_self,
        ih fun m hm => h m (List.mem_cons_of_mem n hm)]
  induction node using induction_bodies generalizing scope with
  | step node ih =>
    rw [joined_eq]
    refine write_mapBodies (fun body hb scope => ?_) scope
    rw [joinAll_eq, writeBody_mergeRaw]
    exact map body scope fun n hn scope => ih body hb n hn scope

theorem writeBody_joinAll (nodes : List Node) (scope : Scope) :
    writeBody callables scope (joinAll nodes) = writeBody callables scope nodes := by
  rw [joinAll_eq, writeBody_mergeRaw]
  induction nodes with
  | nil => rfl
  | cons node nodes ih => rw [List.map_cons, writeBody_cons, writeBody_cons, write_joined, ih]

theorem Alike.writeBody_eq {nodes others : List Node} (h : Alike nodes others) (scope : Scope) :
    writeBody callables scope nodes = writeBody callables scope others := by
  have hjoin : Node.joinAll nodes = Node.joinAll others := h
  rw [← writeBody_joinAll nodes, ← writeBody_joinAll others, hjoin]

end Node

theorem Document.write_eq_of_alike {d e : Document} (hn : d.name = e.name) (hd : d.IsExact)
    (he : e.IsExact) (h : Node.Alike d.nodes e.nodes) (callables : Callables) (context : Table Value) :
    d.write callables context = e.write callables context := by
  have hneeds : d.unresolved = e.unresolved := by
    rw [hd.unresolved_eq, he.unresolved_eq, h.bodyReferences_eq]
  have htext : writeNodes callables d.nodes context = writeNodes callables e.nodes context :=
    h.writeBody_eq _
  unfold write isFlat
  rw [hneeds, hn, htext]

end Templating
