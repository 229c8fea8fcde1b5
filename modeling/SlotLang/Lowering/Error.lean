import SlotLang.BuildError
import SlotLang.Diagnostic
import SlotLang.Node
import SlotLang.Scopes

/-!
# SlotLang.Lowering.Error

Why lowering stops. A `LoweringError` keeps the cause and what is blamed; a `LoweringReport` is
the same failure in the words that a user sees.
-/

namespace SlotLang

/-- The classes of failures. -/
inductive LoweringKind
  | unresolvedName
  | redeclaration
  | nonAssignableTarget
  | backendRejected
  | unsupportedArity
  | duplicateFunction
  deriving DecidableEq, Repr

namespace LoweringKind

/-- The name of a class. -/
def text : LoweringKind → String
  | unresolvedName => "unresolved-name"
  | redeclaration => "redeclaration"
  | nonAssignableTarget => "non-assignable-target"
  | backendRejected => "backend-rejected-operation"
  | unsupportedArity => "unsupported-arity"
  | duplicateFunction => "duplicate-function"

end LoweringKind

/-- What went wrong. -/
inductive LoweringCause
  /-- A name means nothing in the current function. -/
  | unbound (error : ScopeError)
  /-- A name is declared twice in one scope. -/
  | redeclared (error : ScopeError)
  /-- The target of an assignment is no variable. -/
  | notAssignable (kind : NodeKind) (text : String)
  /-- A parameter is used as if it had a slot. -/
  | parameterHasNoStorage (name : String)
  /-- The function at hand has no such parameter. -/
  | noParameter (function : String) (index : Nat)
  /-- A print has other than one argument. -/
  | printArity (found : Nat)
  /-- The print routine is missing from the module. -/
  | noPrintRoutine (name : String)
  /-- The module or the draft refused. -/
  | rejected (error : BuildError)
  deriving DecidableEq, Repr

namespace LoweringCause

/-- The class of a cause. A function declared twice is told apart from other refusals. -/
def kind : LoweringCause → LoweringKind
  | unbound _ => .unresolvedName
  | redeclared _ => .redeclaration
  | notAssignable _ _ | parameterHasNoStorage _ => .nonAssignableTarget
  | noParameter _ _ | noPrintRoutine _ => .backendRejected
  | printArity _ => .unsupportedArity
  | rejected (.duplicateFunction _) => .duplicateFunction
  | rejected _ => .backendRejected

/-- The cause in words. -/
def message : LoweringCause → String
  | unbound error | redeclared error => error.message
  | notAssignable kind text => s!"cannot assign to {kind.text} node `{text}`"
  | parameterHasNoStorage name => s!"'{name}' is a function parameter and has no storage"
  | noParameter function index => s!"'{function}' has no parameter #{index}"
  | printArity found => s!"print takes exactly one argument, got {found}"
  | noPrintRoutine name => s!"print routine '{name}' is not declared"
  | rejected error => error.message

end LoweringCause

/-- A failure as it is reported. -/
structure LoweringReport where
  kind : LoweringKind
  node : NodeKind
  name : Option String
  origin : Origin
  message : String
  deriving DecidableEq, Repr

namespace LoweringReport

/-- A failure that is blamed on a node, with the name and the place of that node. -/
def blame (kind : LoweringKind) (node : Node) (message : String) : LoweringReport :=
  ⟨kind, node.kind, node.identifier?, node.origin, message⟩

/-- The full text of a report. -/
def text (r : LoweringReport) : String :=
  let name := match r.name with
    | some name => s!" '{name}'"
    | none => ""
  let place := match r.origin.position with
    | some position => s!" (at {position.text})"
    | none => ""
  s!"{r.kind.text} in {r.node.text} node{name}: {r.message}{place}"

/-- Every failure of lowering is fatal. -/
def diagnostic (r : LoweringReport) : Diagnostic :=
  ⟨.fatal, "dragonc.lower." ++ r.node.text, r.origin, r.text⟩

end LoweringReport

/-- A failure of lowering: its cause, and the kind, name and place of the node that is blamed. -/
structure LoweringError where
  cause : LoweringCause
  node : NodeKind
  name : Option String
  origin : Origin
  deriving DecidableEq, Repr

namespace LoweringError

/-- Blames a node. -/
def blame (node : Node) (cause : LoweringCause) : LoweringError :=
  ⟨cause, node.kind, node.identifier?, node.origin⟩

/-- Blames a node, but for the given name. -/
def blameName (node : Node) (name : String) (cause : LoweringCause) : LoweringError :=
  { blame node cause with name := some name }

/-- The failure as it is reported. -/
def report (e : LoweringError) : LoweringReport :=
  ⟨e.cause.kind, e.node, e.name, e.origin, e.cause.message⟩

end LoweringError

end SlotLang
