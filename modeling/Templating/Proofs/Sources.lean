import Templating.Syntax.Tree
import Templating.Token.Lexer
import Mathlib.Data.List.Chain

/-!
# Sources of nodes

The text that writes some nodes down, and which nodes can be written down so that the text means what
they are: names must be names, numbers must fit, and the blocks of an extend must be in order.
-/

namespace Templating

namespace Text

/-- Some characters with a backslash before each quote and backslash. -/
def escaped (cs : List Char) : List Char :=
  cs.flatMap fun c => if c = '"' ∨ c = '\\' then ['\\', c] else [c]

/-- Some text between quotes. -/
def literal (s : String) : String := "\"" ++ String.ofList (escaped s.toList) ++ "\""

/-- Some characters with a backslash before each `#`. -/
def guarded (cs : List Char) : List Char := cs.flatMap fun c => if c = '#' then ['\\', '#'] else [c]

/-- A name as tags and values have. -/
def IsName (s : String) : Prop :=
  ∃ c cs, s.toList = c :: cs ∧ Lexer.isNameStart c = true ∧ ∀ d ∈ cs, Lexer.isNamePart d = true

def isName (s : String) : Bool :=
  match s.toList with
  | [] => false
  | c :: cs => Lexer.isNameStart c && cs.all Lexer.isNamePart

theorem isName_iff {s : String} : isName s = true ↔ IsName s := by
  unfold isName IsName
  cases s.toList <;> simp

instance (s : String) : Decidable (IsName s) := decidable_of_iff _ isName_iff

/-- A name that is not a word of its own between parameters. -/
structure IsIdentifier (s : String) : Prop where
  isName : IsName s
  ne_true : s ≠ "true"
  ne_false : s ≠ "false"
  ne_in : s ≠ "in"

theorem isIdentifier_iff {s : String} :
    IsName s ∧ s ≠ "true" ∧ s ≠ "false" ∧ s ≠ "in" ↔ IsIdentifier s :=
  ⟨fun ⟨hname, htrue, hfalse, hin⟩ => ⟨hname, htrue, hfalse, hin⟩,
    fun h => ⟨h.isName, h.ne_true, h.ne_false, h.ne_in⟩⟩

instance (s : String) : Decidable (IsIdentifier s) := decidable_of_iff _ isIdentifier_iff

end Text

open Text

/-! ### Expressions -/

namespace Expr

mutual

/-- The display of an expression, but for its texts, which are literals. -/
def source : Expr → String
  | .literal (.text s) => Text.literal s
  | .literal value => value.display
  | .path first rest => ".".intercalate (first :: rest)
  | .unary op operand => op.symbol ++ operand.source
  | .binary op lhs rhs => "(" ++ lhs.source ++ " " ++ op.symbol ++ " " ++ rhs.source ++ ")"
  | .call name args => name ++ "(" ++ ", ".intercalate (sourceAll args) ++ ")"

def sourceAll : List Expr → List String
  | [] => []
  | e :: es => e.source :: sourceAll es

end

theorem sourceAll_eq (es : List Expr) : sourceAll es = es.map source := by
  induction es with
  | nil => rfl
  | cons e es ih => rw [sourceAll, ih, List.map_cons]

def sourceList (params : List Expr) : String := ", ".intercalate (sourceAll params)

/-- Expressions of which the source can be read. -/
inductive Readable : Expr → Prop where
  | bool (b : Bool) : Readable (.literal (.bool b))
  | int {n : Nat} (h : n < Nat.pow 2 63) : Readable (.literal (.int n))
  | text (s : String) : Readable (.literal (.text s))
  | path {first : String} {rest : List String} (hfirst : IsIdentifier first)
    (hrest : ∀ key ∈ rest, IsIdentifier key) : Readable (.path first rest)
  | unary (op : UnaryOp) {operand : Expr} (h : Readable operand) : Readable (.unary op operand)
  | binary (op : BinaryOp) {lhs rhs : Expr} (hl : Readable lhs) (hr : Readable rhs) :
    Readable (.binary op lhs rhs)
  | call {name : String} {args : List Expr} (hname : IsIdentifier name) (h : ∀ arg ∈ args, Readable arg) :
    Readable (.call name args)

end Expr

/-! ### Nodes -/

namespace Node

mutual

def source : Node → String
  | .raw text => String.ofList (Text.guarded text.toList)
  | .expression e => "#(" ++ e.source ++ ")"
  | .loop name collection body =>
    "#for(" ++ name ++ " in " ++ collection.source ++ "):" ++ sourceBody body ++ "#endfor"
  | .conditional branches => sourceBranches "#if(" branches ++ "#endif"
  | .extend template exports =>
    "#extend(" ++ Text.literal template ++ "):" ++ sourceExports exports ++ "#endextend"
  | .importing key => "#import(" ++ Text.literal key ++ ")"
  | .exporting key body => "#export(" ++ Text.literal key ++ "):" ++ sourceBody body ++ "#endexport"
  | .custom name params none => "#" ++ name ++ "(" ++ Expr.sourceList params ++ ")"
  | .custom name params (some body) =>
    "#" ++ name ++ "(" ++ Expr.sourceList params ++ "):" ++ sourceBody body ++ "#end" ++ name

def sourceBody : List Node → String
  | [] => ""
  | node :: nodes => node.source ++ sourceBody nodes

/-- The branches, the first of them opened as told. -/
def sourceBranches (opening : String) : List (Option Expr × List Node) → String
  | [] => ""
  | (some condition, body) :: branches =>
    opening ++ condition.source ++ "):" ++ sourceBody body ++ sourceBranches "#elseif(" branches
  | (none, body) :: branches => "#else:" ++ sourceBody body ++ sourceBranches "#elseif(" branches

def sourceExports : List (String × Export) → String
  | [] => ""
  | (_, key, body) :: exports =>
    "#export(" ++ Text.literal key ++ "):" ++ sourceBody body ++ "#endexport" ++ sourceExports exports

end

/-- Whether the source of a node ends with a closing tag. -/
def closes : Node → Bool
  | .loop .. | .conditional _ | .extend .. | .exporting .. | .custom _ _ (some _) => true
  | _ => false

/-- Whether a colon behind the source of a node would open a body. -/
def opens : Node → Bool
  | .importing _ | .custom _ _ none => true
  | _ => false

/-- What a node needs, its bodies aside, for its source to be read. -/
def Fits : Node → Prop
  | .raw text => text ≠ ""
  | .expression e => e.Readable
  | .loop name collection _ => IsIdentifier name ∧ collection.Readable
  | .conditional branches =>
    (∃ first ∈ branches.head?, first.1.isSome = true) ∧
      (∀ branch ∈ branches.dropLast, branch.1.isSome = true) ∧
      ∀ branch ∈ branches, ∀ condition ∈ branch.1, condition.Readable
  | .extend _ exports => Table.Sorted exports ∧ ∀ block ∈ exports, block.2.1 = block.1
  | .importing _ => True
  | .exporting _ _ => True
  | .custom name params _ => IsName name ∧ isReserved name = false ∧ ∀ param ∈ params, param.Readable

/-- What two neighbouring nodes need: raw texts are joined already, and none goes on where the name of a
closing tag ends or gives that tag parameters. -/
def Beside (node next : Node) : Prop :=
  ∀ text, next = .raw text → node.isRaw = false ∧
    (node.closes = true → ∀ c ∈ text.toList.head?, Lexer.isNamePart c = false ∧ c ≠ '(')

/-- Raw text that escapes nothing behind it, and raw text that opens no body before it. -/
def Keeps (node next : Node) : Prop :=
  (∀ text, node = .raw text → text.toList.getLast? ≠ some '\\') ∧
    ∀ text, next = .raw text → node.opens = true → text.toList.head? ≠ some ':'

end Node

end Templating
