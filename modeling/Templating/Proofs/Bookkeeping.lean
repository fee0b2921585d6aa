import Templating.Proofs.Acceptance
import Templating.Proofs.Equality
import Templating.Proofs.Rebuilding

/-!
# Bookkeeping of references

What a document says it needs is what its nodes ask for, at whatever depth, however often it has been
rebuilt or renamed. So the question whether it is flat keeps every extend away from the writing of nodes:
a flat document is never refused there for an extend that was left in place.
-/

namespace Templating

namespace Node

/-! ### Where extends stand -/

/-- A node stands among some nodes or in a body of one of them, at whatever depth. -/
inductive Occurs (node : Node) : List Node → Prop where
  | here {nodes : List Node} (h : node ∈ nodes) : Occurs node nodes
  | inside {nodes body : List Node} {outer : Node} (ho : outer ∈ nodes) (hb : body ∈ outer.bodies)
    (h : Occurs node body) : Occurs node nodes

theorem exists_occurs_of_mem_references {name : String} {node : Node} (h : name ∈ node.references) :
    ∃ exports, Occurs (.extend name exports) [node] := by
  induction node using induction_bodies with
  | step node ih =>
    rcases mem_references.1 h with ⟨exports, rfl⟩ | ⟨body, hb, hname⟩
    · exact ⟨exports, .here (List.mem_singleton_self _)⟩
    · obtain ⟨n, hn, hname⟩ := mem_bodyReferences.1 hname
      obtain ⟨exports, hoccurs⟩ := ih body hb n hn hname
      refine ⟨exports, .inside (List.mem_singleton_self node) hb ?_⟩
      cases hoccurs with
      | here hmem => exact .here (List.mem_singleton.1 hmem ▸ hn)
      | inside ho hb h => exact .inside (List.mem_singleton.1 ho ▸ hn) hb h

theorem mem_bodyReferences_iff_occurs {name : String} {nodes : List Node} :
    name ∈ bodyReferences nodes ↔ ∃ exports, Occurs (.extend name exports) nodes := by
  constructor
  · intro h
    obtain ⟨node, hn, hname⟩ := mem_bodyReferences.1 h
    obtain ⟨exports, hoccurs⟩ := exists_occurs_of_mem_references hname
    refine ⟨exports, ?_⟩
    cases hoccurs with
    | here hmem => exact .here (List.mem_singleton.1 hmem ▸ hn)
    | inside ho hb h => exact .inside (List.mem_singleton.1 ho ▸ hn) hb h
  · rintro ⟨exports, hoccurs⟩
    induction hoccurs with
    | here h => exact mem_bodyReferences.2 ⟨_, h, mem_references.2 (.inl ⟨exports, rfl⟩)⟩
    | inside ho hb _ ih => exact mem_bodyReferences.2 ⟨_, ho, mem_references.2 (.inr ⟨_, hb, ih⟩)⟩

/-! ### Raw texts side by side -/

/-- No two neighbouring nodes are raw. -/
def Parted (nodes : List Node) : Prop := nodes.IsChain fun a b => a.isRaw = true → b.isRaw = false

theorem parted_mergeRaw (nodes : List Node) : Parted (Document.mergeRaw nodes) := by
  induction nodes with
  | nil => exact .nil
  | cons node nodes ih =>
    rcases Document.mergeRaw_cons_cases node nodes with h | ⟨a, b, rest, -, hb, h⟩
    · rw [h]
      refine List.isChain_cons.2 ⟨fun next hnext hraw => ?_, ih⟩
      obtain ⟨rest, hrest⟩ := List.head?_eq_some_iff.1 hnext
      cases node with
      | raw a =>
        cases next with
        | raw b =>
          have hmerge : Document.mergeRaw (.raw a :: nodes) = .raw (a ++ b) :: rest := by
            simp only [Document.mergeRaw, hrest]
          rw [hmerge, hrest] at h
          exact absurd (List.cons.inj h).2 (List.ne_cons_self)
        | _ => rfl
      | _ => cases hraw
    · rw [h]
      rw [hb] at ih
      exact List.isChain_cons.2 (List.isChain_cons.1 ih)

theorem parted_of_spells {ts : List Token} {nodes : List Node} (h : Grammar.Spells ts nodes)
    (hts : ts.IsChain Lexer.Apart) : Parted nodes := by
  induction h with
  | nil => exact .nil
  | @cons ts us node nodes head tail ih =>
    refine List.isChain_cons.2 ⟨fun next hnext hraw => ?_, ih hts.right_of_append⟩
    cases head with
    | raw a =>
      obtain ⟨rest, rfl⟩ := List.head?_eq_some_iff.1 hnext
      cases tail with
      | cons head' tail' =>
        cases head' with
        | raw b =>
          have hapart : Lexer.Apart (.raw a) (.raw b) := (List.isChain_cons_cons.1 hts).1
          exact absurd trivial (hapart a rfl).1
        | _ => rfl
    | _ => cases hraw

/-! ### Writing without extends -/

/-- An answer that blames no extend. -/
def Blameless {α : Type} (r : Except WriteError α) : Prop := ∀ template, r ≠ .error (.unresolved template)

theorem Blameless.bind {α β : Type} {r : Except WriteError α} {f : α → Except WriteError β}
    (hr : Blameless r) (hf : ∀ a, Blameless (f a)) : Blameless (r >>= f) := by
  intro template h
  cases r with
  | error e => exact hr template (congrArg Except.error (Except.error.inj h))
  | ok a => exact hf a template h

theorem Blameless.ok {α : Type} (a : α) : Blameless (.ok a : Except WriteError α) := fun _ h => by cases h

theorem Blameless.error {α : Type} {e : WriteError} (h : ∀ template, e ≠ .unresolved template) :
    Blameless (.error e : Except WriteError α) :=
  fun template he => h template (Except.error.inj he)

theorem blameless_descend (path : List String) (value : Option Value) (keys : List String) :
    Blameless (Scope.descend path value keys) := by
  induction keys generalizing path value with
  | nil => exact .ok _
  | cons key keys ih =>
    unfold Scope.descend
    split
    · exact ih _ _
    · exact .error fun _ => WriteError.noConfusion

theorem blameless_approximate (op : BinaryOp) (a b : Number) : Blameless (Value.approximate op a b) := by
  unfold Value.approximate
  split
  · exact .error fun _ => WriteError.noConfusion
  · split
    · exact .ok _
    · exact .error fun _ => WriteError.noConfusion

theorem blameless_calculate (op : BinaryOp) (a b : Number) : Blameless (Value.calculate op a b) := by
  unfold Value.calculate
  split
  · split
    · exact .error fun _ => WriteError.noConfusion
    · split
      · exact .ok _
      · exact blameless_approximate op a b
  · exact blameless_approximate op a b

theorem blameless_arithmetic (op : BinaryOp) (lhs rhs : Value) : Blameless (Value.arithmetic op lhs rhs) := by
  unfold Value.arithmetic
  split
  · exact .ok _
  · exact .ok _
  · exact blameless_calculate _ _ _
  · exact .error fun _ => WriteError.noConfusion

theorem blameless_comparison (op : BinaryOp) (lhs rhs : Value) : Blameless (Value.comparison op lhs rhs) := by
  unfold Value.comparison
  split
  · exact .ok _
  · exact .error fun _ => WriteError.noConfusion

theorem blameless_binary (op : BinaryOp) (lhs rhs : Value) : Blameless (Value.binary op lhs rhs) := by
  cases op with
  | and | or | equal | notEqual => exact .ok _
  | less | lessOrEqual | greater | greaterOrEqual => exact blameless_comparison _ lhs rhs
  | add | subtract | multiply | divide | modulo => exact blameless_arithmetic _ lhs rhs

theorem blameless_negate (v : Value) : Blameless v.negate := by
  unfold Value.negate
  split
  · split
    · exact .ok _
    · exact .ok _
  · exact .error fun _ => WriteError.noConfusion

/-- No tag blames an extend itself. -/
def TagsBlameless (tags : Tags) : Prop :=
  ∀ name tag, Table.get? tags name = some tag → ∀ call, Blameless (tag call)

section Write

variable {callables : Callables}

theorem blameless_call (htags : TagsBlameless callables.tags) (name : String) (parameters : List Value)
    (body : Option String) : Blameless (callables.call name parameters body) := by
  unfold Callables.call
  split
  · next tag htag => exact htags name tag htag _
  · exact .error fun _ => WriteError.noConfusion

mutual

theorem blameless_eval (htags : TagsBlameless callables.tags) (scope : Scope) :
    ∀ e : Expr, Blameless (e.eval callables scope)
  | .literal value => by
    unfold Expr.eval
    exact .ok _
  | .path first rest => by
    unfold Expr.eval
    exact blameless_descend _ _ _
  | .unary op operand => by
    have hoperand := blameless_eval htags scope operand
    cases op with
    | not =>
      unfold Expr.eval
      exact hoperand.bind fun _ => .ok _
    | negate =>
      unfold Expr.eval
      exact hoperand.bind blameless_negate
  | .binary op lhs rhs => by
    have hleft := blameless_eval htags scope lhs
    have hright := blameless_eval htags scope rhs
    cases op with
    | and =>
      unfold Expr.eval
      refine hleft.bind fun left => ?_
      split
      · exact hright.bind fun _ => .ok _
      · exact .ok _
    | or =>
      unfold Expr.eval
      refine hleft.bind fun left => ?_
      split
      · exact .ok _
      · exact hright.bind fun _ => .ok _
    | _ =>
      unfold Expr.eval
      exact hleft.bind fun left => hright.bind fun right => blameless_binary _ left right
  | .call name args => by
    unfold Expr.eval
    exact (blameless_evalAll htags scope args).bind fun parameters => blameless_call htags name parameters none

theorem blameless_evalAll (htags : TagsBlameless callables.tags) (scope : Scope) :
    ∀ es : List Expr, Blameless (Expr.evalAll callables scope es)
  | [] => by
    unfold Expr.evalAll
    exact .ok _
  | e :: es => by
    unfold Expr.evalAll
    exact (blameless_eval htags scope e).bind fun _ => (blameless_evalAll htags scope es).bind fun _ => .ok _

end

theorem blameless_writeRounds {round : Frame → Except WriteError String}
    (h : ∀ frame, Blameless (round frame)) (name : String) (last index : Nat) (items : List Value) :
    Blameless (writeRounds round name last index items) := by
  induction items generalizing index with
  | nil => exact .ok _
  | cons item items ih => exact (h _).bind fun _ => (ih _).bind fun _ => .ok _

theorem blameless_writeBody_of {nodes : List Node}
    (h : ∀ node ∈ nodes, ∀ scope, Blameless (write callables scope node)) (scope : Scope) :
    Blameless (writeBody callables scope nodes) := by
  induction nodes with
  | nil => exact .ok _
  | cons node nodes ih =>
    unfold writeBody
    exact (h node List.mem_cons_self scope).bind fun _ =>
      (ih fun n hn => h n (List.mem_cons_of_mem node hn)).bind fun _ => .ok _

theorem blameless_writeBranches_of (htags : TagsBlameless callables.tags)
    {branches : List (Option Expr × List Node)}
    (h : ∀ branch ∈ branches, ∀ scope, Blameless (writeBody callables scope branch.2)) (scope : Scope) :
    Blameless (writeBranches callables scope branches) := by
  induction branches with
  | nil => exact .ok _
  | cons branch branches ih =>
    obtain ⟨condition, body⟩ := branch
    have hbody := h (condition, body) List.mem_cons_self scope
    cases condition with
    | none =>
      unfold writeBranches
      exact hbody
    | some condition =>
      unfold writeBranches
      refine (blameless_eval htags scope condition).bind fun v => ?_
      split
      · exact hbody
      · exact ih fun b hb => h b (List.mem_cons_of_mem _ hb)

/-- A node in which no extend stands is written, or fails for another reason. -/
theorem blameless_write (htags : TagsBlameless callables.tags) {node : Node}
    (h : ∀ name, name ∉ node.references) (scope : Scope) :
    Blameless (write callables scope node) := by
  induction node using induction_bodies generalizing scope with
  | step node ih =>
    have hbody : ∀ body ∈ node.bodies, ∀ scope, Blameless (writeBody callables scope body) := by
      intro body hb
      refine blameless_writeBody_of fun n hn scope => ih body hb n hn (fun name hname => h name ?_) scope
      exact mem_references.2 (.inr ⟨body, hb, mem_bodyReferences.2 ⟨n, hn, hname⟩⟩)
    cases node with
    | raw text => exact .ok _
    | expression e =>
      unfold write
      exact (blameless_eval htags scope e).bind fun _ => .ok _
    | loop name collection body =>
      unfold write
      refine (blameless_eval htags scope collection).bind fun v => ?_
      split
      · exact blameless_writeRounds (fun frame => hbody body (List.mem_singleton_self _) _) _ _ _ _
      · exact .error fun _ => WriteError.noConfusion
    | conditional branches =>
      unfold write
      exact blameless_writeBranches_of htags (List.forall_mem_map.1 hbody) scope
    | extend template exports =>
      exact absurd (mem_references.2 (.inl ⟨exports, rfl⟩)) (h template)
    | importing key => exact .ok _
    | exporting key body => exact .ok _
    | custom name params body =>
      cases body with
      | none =>
        unfold write
        exact (blameless_evalAll htags scope params).bind fun parameters =>
          (blameless_call htags name parameters none).bind fun _ => .ok _
      | some body =>
        unfold write
        exact (blameless_evalAll htags scope params).bind fun parameters =>
          (hbody body (List.mem_singleton_self _) scope).bind fun text =>
            (blameless_call htags name parameters (some text)).bind fun _ => .ok _

end Write

end Node

namespace Document

open Node

/-! ### Documents of texts -/

/-- The document of a text that was read, or what rebuilding with such documents and renaming make. -/
inductive Grown : Document → Prop where
  | read {source : String} {nodes : List Node} (h : parse source = .ok nodes) (name : String) :
    Grown (.ofNodes name nodes)
  | rebuild {d : Document} {atHand : Table Document} (h : Grown d)
    (hall : ∀ n e, Table.get? atHand n = some e → Grown e) : Grown (d.rebuild atHand)
  | renamed {d : Document} (h : Grown d) (name : String) : Grown (d.renamed name)

theorem Grown.isExact {d : Document} (h : d.Grown) : d.IsExact := by
  induction h with
  | read => rfl
  | rebuild => exact isExact_rebuild _ _
  | renamed _ _ ih => exact ih

theorem Grown.parted {d : Document} (h : d.Grown) : Parted d.nodes := by
  induction h with
  | read hparse =>
    obtain ⟨ts, hscan, hspells⟩ := Grammar.parse_eq_ok_iff.1 hparse
    exact parted_of_spells hspells (Lexer.stream_of_scan hscan).isChain_apart
  | @rebuild d atHand =>
    rw [rebuild_nodes_eq]
    exact parted_mergeRaw _
  | renamed _ _ ih => exact ih

theorem mem_external_rebuild {d : Document} {atHand : Table Document} {name : String} :
    name ∈ (d.rebuild atHand).external ↔
      name ∈ d.external ∨ ∃ node ∈ d.nodes, name ∈ (rebuildNode atHand node).revealed := by
  refine (Names.mem_foldl_union _ _ _ _).trans (or_congr_right ?_)
  simp only [List.mem_map, exists_exists_and_eq_and]

theorem mem_unresolved_rebuild {d : Document} {atHand : Table Document} {name : String} :
    name ∈ (d.rebuild atHand).unresolved ↔ ∃ node ∈ d.nodes, name ∈ (rebuildNode atHand node).needed := by
  refine (Names.mem_foldl_union _ _ _ _).trans ?_
  simp only [List.mem_map, exists_exists_and_eq_and, List.not_mem_nil, false_or]

theorem Grown.mem_external {d : Document} (h : d.Grown) {name : String} (hname : name ∈ d.unresolved) :
    name ∈ d.external := by
  induction h with
  | read => exact hname
  | @rebuild d atHand h _ ih =>
    obtain ⟨node, hn, hneeded⟩ := mem_unresolved_rebuild.1 hname
    cases hw : node.references.any (Table.has atHand) with
    | true =>
      rw [rebuildNode_of_wanted hw] at hneeded
      refine mem_external_rebuild.2 (.inr ⟨node, hn, ?_⟩)
      rw [rebuildNode_of_wanted hw]
      exact hneeded
    | false =>
      rw [rebuildNode_of_not_wanted hw] at hneeded
      refine mem_external_rebuild.2 (.inl (ih ?_))
      rw [h.isExact.unresolved_eq]
      exact mem_bodyReferences.2 ⟨node, hn, hneeded⟩
  | renamed _ _ ih => exact ih hname

/-- A flat document holds no extend, so that none can stop it from being written. -/
theorem Grown.blameless {d : Document} (h : d.Grown) (hflat : d.isFlat = true) {callables : Callables}
    (htags : TagsBlameless callables.tags) (context : Table Value) :
    Blameless (writeNodes callables d.nodes context) := by
  have hnone : bodyReferences d.nodes = [] := by rw [← h.isExact.unresolved_eq, isFlat_iff.1 hflat]
  refine blameless_writeBody_of (fun node hn scope => blameless_write htags (fun name hname => ?_) scope) _
  have hmem : name ∈ bodyReferences d.nodes := mem_bodyReferences.2 ⟨node, hn, hname⟩
  rw [hnone] at hmem
  exact List.not_mem_nil hmem

/-- The bookkeeping is exact: a document needs the templates of all extends in its nodes, has needed
them before, forgets none when it is rebuilt, and keeps raw texts joined. Once it needs none, writing it
never fails for an extend left in place, unless a tag says so itself. -/
theorem references_exact {d : Document} (h : d.Grown) :
    (∀ name, name ∈ d.unresolved ↔ ∃ exports, Occurs (.extend name exports) d.nodes) ∧
    (∀ name ∈ d.unresolved, name ∈ d.external) ∧
    (∀ atHand, ∀ name ∈ d.external, name ∈ (d.rebuild atHand).external) ∧
    Parted d.nodes ∧
    (d.isFlat = true → ∀ callables : Callables, TagsBlameless callables.tags →
      ∀ (context : Table Value) (template : String),
        writeNodes callables d.nodes context ≠ .error (.unresolved template) ∧
          d.write callables context ≠ .error (.write (.unresolved template))) := by
  refine ⟨fun name => ?_, fun _ hname => h.mem_external hname,
    fun _ _ hname => mem_external_rebuild.2 (.inl hname), h.parted,
    fun hflat callables htags context template => ?_⟩
  · rw [h.isExact.unresolved_eq]
    exact mem_bodyReferences_iff_occurs
  · have hwrite := h.blameless hflat htags context
    refine ⟨hwrite template, fun he => ?_⟩
    rw [Document.write, if_pos hflat] at he
    cases hr : writeNodes callables d.nodes context with
    | ok text => rw [hr] at he; cases he
    | error e =>
      rw [hr] at he
      obtain rfl : e = .unresolved template := Error.write.inj (Except.error.inj he)
      exact hwrite template hr

/-- A page whose base extends the page in a branch. -/
def turningPage : Document := .ofNodes "page" [.extend "base" []]

def turningBase : Document :=
  .ofNodes "base" [.raw "a", .conditional [(some (.path "x" []), [.extend "page" []])]]

def framingBase : Document := .ofNodes "base" [.raw "[", .importing "body", .raw "]"]

theorem grown_of_parse {source name : String} {nodes : List Node}
    (h : (parse source).toOption = some nodes) : (Document.ofNodes name nodes).Grown := by
  cases hread : parse source with
  | error problem => rw [hread] at h; cases h
  | ok read =>
    rw [hread] at h
    exact .read (Option.some.inj h ▸ hread) name

/-- Rebuilt with a base that extends it, a page still needs the base; with another base it is flat. -/
theorem references_exact_turning :
    (∃ exports, Occurs (.extend "base" exports)
      (turningPage.rebuild [("base", turningBase), ("page", turningPage)]).nodes) ∧
    (turningPage.rebuild [("base", framingBase)]).write ⟨[], []⟩ [] ≠
      .error (.write (.unresolved "base")) := by
  have hpage : turningPage.Grown := @grown_of_parse "#extend(\"base\")" _ _ (by decide +kernel)
  have hbase : turningBase.Grown := @grown_of_parse "a#if(x):#extend(\"page\")#endif" _ _ (by decide +kernel)
  have hframe : framingBase.Grown := @grown_of_parse "[#import(\"body\")]" _ _ (by decide +kernel)
  have hrebuilt : ∀ {atHand : Table Document}, (∀ entry ∈ atHand, entry.2.Grown) →
      (turningPage.rebuild atHand).Grown :=
    fun hall => hpage.rebuild fun _ _ hget => hall _ (Table.mem_of_get? hget)
  have hturning := @hrebuilt [("base", turningBase), ("page", turningPage)]
    (List.forall_mem_cons.2 ⟨hbase, List.forall_mem_singleton.2 hpage⟩)
  have hframing := @hrebuilt [("base", framingBase)] (List.forall_mem_singleton.2 hframe)
  have hneeds : "base" ∈ (turningPage.rebuild [("base", turningBase), ("page", turningPage)]).unresolved := by
    decide +kernel
  have hflat : (turningPage.rebuild [("base", framingBase)]).isFlat = true := by decide +kernel
  have htags : TagsBlameless [] := fun _ _ hget => by cases hget
  exact ⟨((references_exact hturning).1 "base").1 hneeds,
    ((references_exact hframing).2.2.2.2 hflat ⟨[], []⟩ htags [] "base").2⟩

end Document

end Templating
