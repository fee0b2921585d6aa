import Templating.Output.Write
import Templating.Tag.Builtin

/-!
# Meanings

Nodes are written in a scope, but all that they ask of it is what the paths in them mean. So they can be
written with any function that gives paths a meaning, and each round of a loop puts the names of its frame in
front of it. Writing in a scope is writing with the meaning that the paths have there, and it is enough to know
that meaning for the names that the nodes mention.
-/

namespace Templating

/-! ### Mentioned names -/

namespace Expr

mutual

/-- The names that the paths of an expression begin with. -/
def mentions : Expr → List String
  | .literal _ => []
  | .path first _ => [first]
  | .unary _ operand => operand.mentions
  | .binary _ lhs rhs => lhs.mentions ++ rhs.mentions
  | .call _ args => mentionsAll args

def mentionsAll : List Expr → List String
  | [] => []
  | e :: es => e.mentions ++ mentionsAll es

end

end Expr

namespace Node

mutual

/-- The names that the paths of a node begin with, wherever these stand: also in what is handed to another
template and in blocks for nobody, which are not written. -/
def mentions : Node → List String
  | .raw _ => []
  | .expression e => e.mentions
  | .loop _ collection body => collection.mentions ++ bodyMentions body
  | .conditional branches => branchMentions branches
  | .extend _ exports => exportMentions exports
  | .importing _ => []
  | .exporting _ body => bodyMentions body
  | .custom _ params none => Expr.mentionsAll params
  | .custom _ params (some body) => Expr.mentionsAll params ++ bodyMentions body

def bodyMentions : List Node → List String
  | [] => []
  | node :: nodes => node.mentions ++ bodyMentions nodes

def branchMentions : List (Option Expr × List Node) → List String
  | [] => []
  | (none, body) :: branches => bodyMentions body ++ branchMentions branches
  | (some condition, body) :: branches =>
    condition.mentions ++ (bodyMentions body ++ branchMentions branches)

def exportMentions : List (String × Export) → List String
  | [] => []
  | (_, _, body) :: exports => bodyMentions body ++ exportMentions exports

end

end Node

/-! ### Writing with a meaning -/

/-- What the path of a name and some keys means. -/
abbrev Meaning := String → List String → Except WriteError Value

/-- The meaning of paths in a round: a name of its frame means what the frame has under it. -/
def Meaning.within (meaning : Meaning) (frame : Frame) : Meaning := fun first rest =>
  match Table.get? frame first with
  | some value => Scope.descend [first] (some value) rest
  | none => meaning first rest

namespace Expr

mutual

/-- The value of an expression whose paths have a meaning. -/
def evalWith (callables : Callables) (meaning : Meaning) : Expr → Except WriteError Value
  | .literal value => .ok value.value
  | .path first rest => meaning first rest
  | .unary .not operand => do
    let v ← evalWith callables meaning operand
    return .bool !v.truthy
  | .unary .negate operand => do
    let v ← evalWith callables meaning operand
    v.negate
  | .binary .and lhs rhs => do
    let left ← evalWith callables meaning lhs
    if left.truthy then
      let right ← evalWith callables meaning rhs
      return .bool right.truthy
    else return .bool false
  | .binary .or lhs rhs => do
    let left ← evalWith callables meaning lhs
    if left.truthy then return .bool true
    else
      let right ← evalWith callables meaning rhs
      return .bool right.truthy
  | .binary op lhs rhs => do
    let left ← evalWith callables meaning lhs
    let right ← evalWith callables meaning rhs
    left.binary op right
  | .call name args => do
    let parameters ← evalAllWith callables meaning args
    callables.call name parameters none

def evalAllWith (callables : Callables) (meaning : Meaning) : List Expr → Except WriteError (List Value)
  | [] => .ok []
  | e :: es => do
    let v ← evalWith callables meaning e
    let vs ← evalAllWith callables meaning es
    return v :: vs

end

end Expr

namespace Node

mutual

/-- The text of a node whose paths have a meaning. -/
def writeWith (callables : Callables) (meaning : Meaning) : Node → Except WriteError String
  | .raw text => .ok text
  | .expression e => do
    let v ← e.evalWith callables meaning
    return v.display
  | .loop name collection body => do
    let v ← collection.evalWith callables meaning
    match v.items? with
    | some items =>
      writeRounds (fun frame => writeBodyWith callables (meaning.within frame) body) name
        (items.length - 1) 0 items
    | none => throw (.notIterable collection)
  | .conditional branches => writeBranchesWith callables meaning branches
  | .extend template _ => .error (.unresolved template)
  | .importing _ => .ok ""
  | .exporting _ _ => .ok ""
  | .custom name params none => do
    let parameters ← Expr.evalAllWith callables meaning params
    let v ← callables.call name parameters none
    return v.display
  | .custom name params (some body) => do
    let parameters ← Expr.evalAllWith callables meaning params
    let text ← writeBodyWith callables meaning body
    let v ← callables.call name parameters (some text)
    return v.display

def writeBodyWith (callables : Callables) (meaning : Meaning) : List Node → Except WriteError String
  | [] => .ok ""
  | node :: nodes => do
    let text ← writeWith callables meaning node
    let rest ← writeBodyWith callables meaning nodes
    return text ++ rest

def writeBranchesWith (callables : Callables) (meaning : Meaning) :
    List (Option Expr × List Node) → Except WriteError String
  | [] => .ok ""
  | (none, body) :: _ => writeBodyWith callables meaning body
  | (some condition, body) :: branches => do
    let v ← condition.evalWith callables meaning
    if v.truthy then writeBodyWith callables meaning body
    else writeBranchesWith callables meaning branches

end

end Node

/-! ### Scopes as meanings -/

namespace Scope

/-- The paths that begin with some names have a meaning in a scope. -/
def Means (scope : Scope) (names : List String) (meaning : Meaning) : Prop :=
  ∀ first ∈ names, ∀ rest, scope.lookup first rest = meaning first rest

theorem find?_push (scope : Scope) (frame : Frame) (name : String) :
    (scope.push frame).find? name = (Table.get? frame name).or (scope.find? name) := by
  unfold find? push
  rw [List.findSome?_cons]
  cases Table.get? frame name <;> rfl

theorem lookup_push (scope : Scope) (frame : Frame) (first : String) (rest : List String) :
    (scope.push frame).lookup first rest = Meaning.within scope.lookup frame first rest := by
  unfold lookup Meaning.within
  rw [find?_push]
  cases Table.get? frame first <;> rfl

variable {scope other : Scope} {names more : List String} {meaning : Meaning}

theorem means_lookup (scope : Scope) (names : List String) : scope.Means names scope.lookup :=
  fun _ _ _ => rfl

theorem Means.left (h : scope.Means (names ++ more) meaning) : scope.Means names meaning :=
  fun first hfirst => h first (List.mem_append_left more hfirst)

theorem Means.right (h : scope.Means (names ++ more) meaning) : scope.Means more meaning :=
  fun first hfirst => h first (List.mem_append_right names hfirst)

theorem Means.push (h : scope.Means names meaning) (frame : Frame) :
    (scope.push frame).Means names (meaning.within frame) := by
  intro first hfirst rest
  rw [lookup_push]
  unfold Meaning.within
  rw [h first hfirst rest]

theorem means_of_find? (h : ∀ name ∈ names, scope.find? name = other.find? name) :
    scope.Means names other.lookup := by
  intro first hfirst rest
  unfold lookup
  rw [h first hfirst]

end Scope

section Write

variable {callables : Callables} {scope : Scope} {meaning : Meaning}

mutual

theorem Expr.eval_eq_evalWith : ∀ e : Expr, scope.Means e.mentions meaning →
    e.eval callables scope = e.evalWith callables meaning
  | .literal value, _ => by rw [eval, evalWith]
  | .path first rest, h => by
    rw [eval, evalWith]
    rw [mentions] at h
    exact h first (List.mem_singleton_self first) rest
  | .unary op operand, h => by
    rw [mentions] at h
    have hoperand := eval_eq_evalWith operand h
    cases op with
    | _ => rw [eval, evalWith, hoperand]
  | .binary op lhs rhs, h => by
    rw [mentions] at h
    have hleft := eval_eq_evalWith lhs h.left
    have hright := eval_eq_evalWith rhs h.right
    cases op with
    | and => rw [eval, evalWith, hleft, hright]
    | or => rw [eval, evalWith, hleft, hright]
    | _ => simp only [eval, evalWith, hleft, hright]
  | .call name args, h => by
    rw [mentions] at h
    rw [eval, evalWith, evalAll_eq_evalAllWith args h]

theorem Expr.evalAll_eq_evalAllWith : ∀ es : List Expr, scope.Means (mentionsAll es) meaning →
    evalAll callables scope es = evalAllWith callables meaning es
  | [], _ => by rw [evalAll, evalAllWith]
  | e :: es, h => by
    rw [mentionsAll] at h
    rw [evalAll, evalAllWith, eval_eq_evalWith e h.left, evalAll_eq_evalAllWith es h.right]

end

end Write

namespace Node

variable {callables : Callables}

mutual

theorem write_eq_writeWith : ∀ (node : Node) {scope : Scope} {meaning : Meaning},
    scope.Means node.mentions meaning → write callables scope node = writeWith callables meaning node
  | .raw text, _, _, _ => by rw [write, writeWith]
  | .expression e, _, _, h => by
    rw [mentions] at h
    rw [write, writeWith, e.eval_eq_evalWith h]
  | .loop name collection body, scope, meaning, h => by
    rw [mentions] at h
    have hround : (fun frame => writeBody callables (scope.push frame) body) =
        fun frame => writeBodyWith callables (meaning.within frame) body :=
      funext fun frame => writeBody_eq_writeBodyWith body (h.right.push frame)
    rw [write, writeWith, collection.eval_eq_evalWith h.left]
    -- the rounds differ only in what they do with their frame
    refine bind_congr fun v => ?_
    cases v.items? with
    | none => rfl
    | some items => exact congrArg (fun round => writeRounds round name (items.length - 1) 0 items) hround
  | .conditional branches, _, _, h => by
    rw [mentions] at h
    rw [write, writeWith, writeBranches_eq_writeBranchesWith branches h]
  | .extend _ _, _, _, _ => by rw [write, writeWith]
  | .importing _, _, _, _ => by rw [write, writeWith]
  | .exporting _ _, _, _, _ => by rw [write, writeWith]
  | .custom name params none, _, _, h => by
    rw [mentions] at h
    rw [write, writeWith, Expr.evalAll_eq_evalAllWith params h]
  | .custom name params (some body), _, _, h => by
    rw [mentions] at h
    rw [write, writeWith, Expr.evalAll_eq_evalAllWith params h.left,
      writeBody_eq_writeBodyWith body h.right]

theorem writeBody_eq_writeBodyWith : ∀ (nodes : List Node) {scope : Scope} {meaning : Meaning},
    scope.Means (bodyMentions nodes) meaning →
      writeBody callables scope nodes = writeBodyWith callables meaning nodes
  | [], _, _, _ => by rw [writeBody, writeBodyWith]
  | node :: nodes, _, _, h => by
    rw [bodyMentions] at h
    rw [writeBody, writeBodyWith, write_eq_writeWith node h.left, writeBody_eq_writeBodyWith nodes h.right]

theorem writeBranches_eq_writeBranchesWith :
    ∀ (branches : List (Option Expr × List Node)) {scope : Scope} {meaning : Meaning},
      scope.Means (branchMentions branches) meaning →
        writeBranches callables scope branches = writeBranchesWith callables meaning branches
  | [], _, _, _ => by rw [writeBranches, writeBranchesWith]
  | (none, body) :: branches, _, _, h => by
    rw [branchMentions] at h
    rw [writeBranches, writeBranchesWith, writeBody_eq_writeBodyWith body h.left]
  | (some condition, body) :: branches, _, _, h => by
    rw [branchMentions] at h
    rw [writeBranches, writeBranchesWith, condition.eval_eq_evalWith h.left,
      writeBody_eq_writeBodyWith body h.right.left,
      writeBranches_eq_writeBranchesWith branches h.right.right]

end

theorem writeBody_eq_of_find? {scope other : Scope} {nodes : List Node}
    (h : ∀ name ∈ bodyMentions nodes, scope.find? name = other.find? name) :
    writeBody callables scope nodes = writeBody callables other nodes :=
  (writeBody_eq_writeBodyWith nodes (Scope.means_of_find? h)).trans
    (writeBody_eq_writeBodyWith nodes (other.means_lookup _)).symm

end Node

/-! ### Contexts -/

theorem Scope.find?_ofContext (context : Table Value) (name : String) :
    (Scope.ofContext context).find? name = Table.get? context name := rfl

/-- Of a context only the names count that the nodes mention: two contexts in which each of these has the same
value, or none, give the same text or the same error. -/
theorem writeNodes_depends_on_mentions (callables : Callables) {nodes : List Node}
    {context other : Table Value}
    (h : ∀ name ∈ Node.bodyMentions nodes, Table.get? context name = Table.get? other name) :
    writeNodes callables nodes context = writeNodes callables nodes other := by
  refine Node.writeBody_eq_of_find? fun name hname => ?_
  rw [Scope.find?_ofContext, Scope.find?_ofContext, h name hname]

/-- The names of some people, with a dot behind the last. -/
def people : List Node :=
  [.loop "x" (.path "xs" [])
    [.expression (.path "x" ["name"]), .conditional [(some (.path "isLast" []), [.raw "."])]]]

/-- Two contexts that differ in a token, and both have somebody without a name. -/
theorem writeNodes_depends_on_mentions_people :
    let xs : Value := .list [.dict [("name", .text "Ada")], .text "Bob"]
    let context : Table Value := [("token", .text "secret"), ("xs", xs)]
    let other : Table Value := [("xs", xs)]
    (∀ name ∈ Node.bodyMentions people, Table.get? context name = Table.get? other name) ∧
      writeNodes ⟨Tags.builtin, []⟩ people context = writeNodes ⟨Tags.builtin, []⟩ people other ∧
      writeNodes ⟨Tags.builtin, []⟩ people other = .error (.expectedDictionary ["x"]) := by
  intro xs context other
  have h : ∀ name ∈ Node.bodyMentions people, Table.get? context name = Table.get? other name := by
    have hmentions : Node.bodyMentions people = ["xs", "x", "isLast"] := rfl
    rw [hmentions]
    simp [context, other, Table.get?_cons]
  exact ⟨h, writeNodes_depends_on_mentions ⟨Tags.builtin, []⟩ h, rfl⟩

end Templating
