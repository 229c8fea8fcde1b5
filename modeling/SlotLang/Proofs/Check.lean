import SlotLang.Proofs.Tree

/-!
# SlotLang.Proofs.Check

Which programs are statically correct. The checker walks a tree in the order in which it is
lowered, but it writes no code. All it knows of the function at hand is its `Outline`: which names
are bound and in which role, and whether the body has returned. A node is judged by the types of
its children alone. The first violation ends the walk.
-/

namespace SlotLang

/-- A rule that a program breaks: the class of the rule, and the kind, name and place of the node
that is blamed. -/
structure Violation where
  kind : LoweringKind
  node : NodeKind
  name : Option String
  origin : Origin
  deriving DecidableEq, Repr

namespace Violation

/-- Blames a node. -/
def blame (kind : LoweringKind) (node : Node) : Violation :=
  ⟨kind, node.kind, node.identifier?, node.origin⟩

/-- Blames a node, but for the given name. -/
def blameName (kind : LoweringKind) (node : Node) (name : String) : Violation :=
  { blame kind node with name := some name }

end Violation

namespace LoweringError

/-- What a failure of lowering says about the program, without the words. -/
def violation (e : LoweringError) : Violation :=
  ⟨e.cause.kind, e.node, e.name, e.origin⟩

@[simp] theorem violation_blame (node : Node) (cause : LoweringCause) :
    (blame node cause).violation = .blame cause.kind node := rfl

end LoweringError

/-- What a name is bound to. -/
inductive Role
  /-- A variable, which has a slot. -/
  | slot
  | parameter
  deriving DecidableEq, Repr

/-- What the checker knows of the function at hand and of the module around it. -/
structure Outline where
  result : SourceType
  /-- The number of parameters. -/
  arity : Nat
  /-- The names bound in the function at hand, the latest first. -/
  names : List (String × Role)
  /-- The body has returned, so no instruction can follow. -/
  returned : Bool
  /-- The functions declared so far. -/
  functions : List String
  deriving DecidableEq, Repr

/-- Checking steps: they change the outline and may find a violation. -/
abbrev Check := EStateM Violation Outline

namespace SourceType

/-- The type of the value that a return has to carry, if it carries one. -/
def returns : SourceType → Option Ty
  | int => some .int
  | void => none

end SourceType

namespace Outline

/-- The outline of a function whose body is about to begin. -/
def enter (o : Outline) (result : SourceType) (arity : Nat) : Outline :=
  ⟨result, arity, [], false, o.functions⟩

/-- The role of a name in the function at hand. -/
def role? (o : Outline) (name : String) : Option Role :=
  o.names.lookup name

/-- Binds a name. -/
def bind (o : Outline) (name : String) (role : Role) : Outline :=
  { o with names := (name, role) :: o.names }

end Outline

namespace Check

/-- An instruction needs operands that fit and a body that has not returned. -/
def emit (node : Node) (fits : Bool) : Check Unit := fun o =>
  if fits && !o.returned then .ok () o else .error (.blame .backendRejected node) o

/-- A return needs the value that the function promises and a body that has not returned. -/
def leave (node : Node) (value : Option Ty) : Check Unit := fun o =>
  if value = o.result.returns ∧ o.returned = false then
    .ok () { o with returned := true }
  else
    .error (.blame .backendRejected node) o

/-- The role of a name that has to be bound. -/
def resolve (node : Node) (name : String) : Check Role := fun o =>
  match o.role? name with
  | some role => .ok role o
  | none => .error (.blameName .unresolvedName node name) o

/-- The name has to be that of a variable. -/
def slotOf (node : Node) (name : String) : Check Unit := do
  match ← resolve node name with
  | .slot => return
  | .parameter => throw (.blameName .nonAssignableTarget node name)

/-- Binds a new variable. That the name is free matters before the body may have returned. -/
def declaration (node : Node) (name : String) : Check Unit := fun o =>
  if (o.role? name).isSome then
    .error (.blame .redeclaration node) o
  else if o.returned then
    .error (.blame .backendRejected node) o
  else
    .ok () (o.bind name .slot)

/-- What an assignment may write to. -/
def targetOf (node target : Node) : Check Unit :=
  match target with
  | .use _ name _ => slotOf target name
  | .declare _ name => declaration target name
  | _ => throw (.blame .nonAssignableTarget node)

/-- The value of a variable has to be loaded, that of a parameter is at hand. -/
def useOf (node : Node) (name : String) : UseMode → Check Ty
  | .address => do
    slotOf node name
    return .ptr
  | .value => do
    match ← resolve node name with
    | .slot =>
      emit node true
      return .int
    | .parameter => return .int

/-- The function at hand has to have a parameter of this index. -/
def argumentOf (node : Node) (index : Nat) : Check Unit := fun o =>
  if index < o.arity then .ok () o else .error (.blame .backendRejected node) o

/-- Declares a function: its name must be new, and no parameter can be void. -/
def openFunction (node : Node) (name : String) (params : List Parameter) : Check Unit := fun o =>
  if name ∈ o.functions then
    .error (.blame .duplicateFunction node) o
  else if params.any fun p => p.type = .void then
    .error (.blame .backendRejected node) o
  else
    .ok () { o with functions := o.functions ++ [name] }

/-- Binds a parameter. -/
def bindParam (node : Node) (name : String) : Check Unit := fun o =>
  if (o.role? name).isSome then
    .error (.blameName .redeclaration node name) o
  else
    .ok () (o.bind name .parameter)

/-- Binds the parameters of a function, which must have different names. -/
def bindParams (node : Node) : List Parameter → Check Unit
  | [] => return
  | p :: rest => do
    bindParam node p.name
    bindParams node rest

/-- The end of a body is a return. -/
def implicitReturn : Check Unit :=
  modify fun o => { o with returned := true }

/-- Checks the inside of a function. Of what is found there only the functions matter outside. -/
def inFunction (result : SourceType) (arity : Nat) (body : Check Unit) : Check Unit := fun o =>
  match body (o.enter result arity) with
  | .ok () inner => .ok () { o with functions := inner.functions }
  | .error v inner => .error v inner

end Check

namespace Node

mutual

/-- The type of a node, if it and everything below it is correct. -/
def check : Node → Check Ty
  | node@(binary _ _ left right) => do
    let l ← left.check
    let r ← right.check
    Check.emit node (l = .int && r = .int)
    return .int
  | node@(assign _ target value) => do
    let v ← value.check
    Check.targetOf node target
    Check.emit node (v = .int)
    return .int
  | node@(declare _ name) => do
    Check.declaration node name
    return .ptr
  | node@(use _ name mode) => Check.useOf node name mode
  | node@(step _ name _ _) => do
    Check.slotOf node name
    Check.emit node true
    return .int
  | int _ _ => return .int
  | node@(function _ name result params body) => do
    Check.openFunction node name params
    Check.inFunction result params.length do
      Check.bindParams node params
      checkAll body
      Check.implicitReturn
    return .fn
  | node@(argument _ index) => do
    Check.argumentOf node index
    return .int
  | node@(print _ [arg]) => do
    let v ← arg.check
    Check.emit node v.passable
    return .int
  | node@(print _ _) => throw (.blame .unsupportedArity node)
  | node@(ret _ (some value)) => do
    let v ← value.check
    Check.leave node (some v)
    return .void
  | node@(ret _ none) => do
    Check.leave node none
    return .void

/-- Checks statements in order. -/
def checkAll : List Node → Check Unit
  | [] => return
  | node :: rest => do
    let _ ← node.check
    checkAll rest

end

end Node

namespace Program

/-- Only the print routine is declared before the entry function. The outline has no use for what
is outside of functions. -/
def outline (settings : Settings) : Outline :=
  ⟨.int, 0, [], false, [settings.printRoutine]⟩

/-- A program is correct if the function that it becomes is. -/
def check (settings : Settings) (program : Program) : Except Violation Unit :=
  match (program.main settings).check (outline settings) with
  | .ok _ _ => .ok ()
  | .error v _ => .error v

end Program

end SlotLang
