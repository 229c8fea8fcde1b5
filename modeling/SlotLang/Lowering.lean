import SlotLang.Draft
import SlotLang.Lowering.Error
import SlotLang.Settings

/-!
# SlotLang.Lowering

From trees to code. `Node.lower` appends the code of a node to the draft at hand and yields the
handle of its value. Children come before their parent, the left operand before the right one. The
first failure ends the work, and what was done before it stays done: the state after a failure is
as definite as the state after a success.
-/

namespace SlotLang

/-- What lowering reads and changes. -/
structure Context where
  module : Module
  scopes : Scopes
  /-- The function that receives code at the moment. -/
  draft : Draft
  events : Array Event
  deriving Repr

/-- Lowering steps: they change the context and may fail, and a failure keeps the changes. -/
abbrev Lower := EStateM LoweringError Context

namespace Context

/-- Notes an event. -/
def note (c : Context) (event : Event) : Context :=
  { c with events := c.events.push event }

/-- Lets the draft take an instruction and notes that it did. -/
def emit (instr : Instr) (c : Context) : Except BuildError Handle × Context :=
  match c.draft.emit c.module instr with
  | .error e draft => (.error e, { c with draft })
  | .ok handle draft =>
    (.ok handle, { c with draft }.note (.emitted c.draft.name c.draft.code.length instr))

end Context

namespace Lower

/-- Notes an event. -/
def note (event : Event) : Lower Unit :=
  modify fun c => c.note event

/-- Notes that lowering of a node begins. -/
def enter (node : Node) : Lower Unit := do
  note (.lowering node (← get).draft.name)

/-- Appends an instruction; a refusal is reported to the caller. -/
def tryEmit (instr : Instr) : Lower (Except BuildError Handle) :=
  modifyGet (Context.emit instr)

/-- Appends an instruction; a refusal is blamed on the node. -/
def emit (node : Node) (instr : Instr) : Lower Handle := do
  match ← tryEmit instr with
  | .ok handle => return handle
  | .error e => throw (.blame node (.rejected e))

/-- The meaning of a name in the current function. -/
def resolve (node : Node) (name : String) : Lower Binding := do
  match (← get).scopes.resolve name with
  | .ok binding => return binding
  | .error e => throw (.blameName node name (.unbound e))

/-- The slot of a variable. Parameters have none. -/
def storageOf (node : Node) (name : String) : Lower Handle := do
  match ← resolve node name with
  | .storage handle => return handle
  | .argument _ => throw (.blameName node name (.parameterHasNoStorage name))

/-- Opens a slot for a new variable. -/
def declaration (node : Node) (name : String) : Lower Handle := do
  let make := (·.map Binding.storage) <$> tryEmit (.alloca name)
  match ← (← get).scopes.declareWith name make with
  | .refused e => throw (.blame node (.redeclared e))
  | .failed e => throw (.blame node (.rejected e))
  | .bound binding scopes =>
    modify fun c => { c with scopes }
    return binding.handle

/-- The slot that an assignment writes to: that of a known variable, or that of a variable
declared on the spot. -/
def targetOf (node target : Node) : Lower Handle :=
  match target with
  | .use _ name _ => storageOf target name
  | .declare _ name => do
    enter target
    declaration target name
  | other => throw (.blame node (.notAssignable other.kind other.text))

/-- The value or the slot of a name. -/
def useOf (node : Node) (name : String) : UseMode → Lower Handle
  | .address => storageOf node name
  | .value => do
    match ← resolve node name with
    | .storage handle => emit node (.load handle)
    | .argument handle => return handle

/-- Reads a variable, changes it by one and writes it back. -/
def stepOf (node : Node) (name : String) (order : StepOrder) (direction : Direction) :
    Lower Handle := do
  let slot ← storageOf node name
  let current ← emit node (.load slot)
  let updated ← emit node (.binary direction.toBinOp current (.const 1))
  let _ ← emit node (.store slot updated)
  match order with
  | .pre => return updated
  | .post => return current

/-- The parameter at an index of the function at hand. -/
def argumentOf (node : Node) (index : Nat) : Lower Handle := do
  let draft := (← get).draft
  match draft.arg? index with
  | some handle => return handle
  | none => throw (.blame node (.noParameter draft.name index))

/-- Hands a value to the print routine, behind the format if there is one. -/
def printCall (settings : Settings) (node : Node) (value : Handle) : Lower Handle := do
  match (← get).module.find? settings.printRoutine with
  | none => throw (.blame node (.noPrintRoutine settings.printRoutine))
  | some callee =>
    match settings.printFormat with
    | none => emit node (.call callee [value])
    | some format =>
      let id ← modifyGet fun c =>
        let (id, module) := c.module.intern format
        (id, { c with module })
      emit node (.call callee [.global id, value])

/-- Binds the parameters of a function, counted from an index. Each is lowered as an argument node
that stands where the function stands. -/
def bindParams (node : Node) : Nat → List Parameter → Lower Unit
  | _, [] => return
  | index, p :: rest => do
    let argument := Node.argument node.origin index
    enter argument
    let handle ← argumentOf argument index
    match (← get).scopes.declare p.name (.argument handle) with
    | .error e => throw (.blameName node p.name (.redeclared e))
    | .ok scopes => modify fun c => { c with scopes }
    bindParams node (index + 1) rest

/-- Ends a body that does not end by itself: integer functions yield zero. -/
def implicitReturn (node : Node) (result : SourceType) : Lower Unit := do
  if (← get).draft.isTerminated then
    return
  let value := match result with
    | .int => some (.const 0)
    | .void => none
  let _ ← emit node (.ret value)

/-- Makes a request of the module; a refusal is blamed on the node. -/
def request {α : Type} (node : Node) (work : Module → EStateM.Result BuildError Module α) :
    Lower α := fun c =>
  match work c.module with
  | .ok a module => .ok a { c with module }
  | .error e module => .error (.blame node (.rejected e)) { c with module }

/-- Declares a function and starts its body. -/
def openFunction (node : Node) (name : String) (result : SourceType) (params : List Parameter) :
    Lower Draft := do
  let types := params.map fun p => Param.mk p.name p.type.toTy
  let id ← request node fun m => m.declare name types result.toTy
  match Draft.start (← get).module id with
  | .error e => throw (.blame node (.rejected e))
  | .ok draft => return draft

/-- Writes the body of another function in a scope of its own, and yields the draft. Whether or
not that succeeds, the draft at hand and the scopes are afterwards those of before. -/
def inFunction (draft : Draft) (body : Lower Unit) : Lower Draft := fun c =>
  let leave (inner : Context) : Context :=
    { inner with draft := c.draft, scopes := inner.scopes.exitFunction }
  match body { c with draft, scopes := c.scopes.enterFunction } with
  | .ok () inner => .ok inner.draft (leave inner)
  | .error e inner => .error e (leave inner)

/-- Hands a finished draft over to the module. -/
def finish (node : Node) (draft : Draft) : Lower Unit := do
  note (.sealing draft.name draft.code.length)
  request node draft.finish

end Lower

namespace Node

mutual

/-- Appends the code of a node to the draft and yields the handle of its value. -/
def lower (settings : Settings) : Node → Lower Handle
  | node@(binary _ op left right) => do
    Lower.enter node
    let l ← left.lower settings
    let r ← right.lower settings
    Lower.emit node (.binary op.toBinOp l r)
  | node@(assign _ target value) => do
    Lower.enter node
    let v ← value.lower settings
    let slot ← Lower.targetOf node target
    let _ ← Lower.emit node (.store slot v)
    return v
  | node@(declare _ name) => do
    Lower.enter node
    Lower.declaration node name
  | node@(use _ name mode) => do
    Lower.enter node
    Lower.useOf node name mode
  | node@(step _ name order direction) => do
    Lower.enter node
    Lower.stepOf node name order direction
  | node@(int _ value) => do
    Lower.enter node
    return .const value
  | node@(function _ name result params body) => do
    Lower.enter node
    let draft ← Lower.openFunction node name result params
    let finished ← Lower.inFunction draft do
      Lower.bindParams node 0 params
      lowerAll settings body
      Lower.implicitReturn node result
    Lower.finish node finished
    Lower.note (.completed name)
    return .func finished.func
  | node@(argument _ index) => do
    Lower.enter node
    Lower.argumentOf node index
  | node@(print _ [arg]) => do
    Lower.enter node
    let v ← arg.lower settings
    Lower.printCall settings node v
  | node@(print _ args) => do
    Lower.enter node
    throw (.blame node (.printArity args.length))
  | node@(ret _ (some value)) => do
    Lower.enter node
    let v ← value.lower settings
    Lower.emit node (.ret (some v))
  | node@(ret _ none) => do
    Lower.enter node
    Lower.emit node (.ret none)

/-- Lowers statements in order; their values are dropped. -/
def lowerAll (settings : Settings) : List Node → Lower Unit
  | [] => return
  | node :: rest => do
    let _ ← node.lower settings
    lowerAll settings rest

end

/-- The value that a node can offer without being lowered again. A declaration reads its variable
anew each time; most nodes have nothing to offer. -/
def value? : Node → Lower (Option Handle)
  | node@(declare _ name) => do
    let slot ← Lower.storageOf node name
    some <$> Lower.emit node (.load slot)
  | node@(use _ name mode) => some <$> Lower.useOf node name mode
  | node@(argument _ index) => some <$> Lower.argumentOf node index
  | _ => return none

end Node

end SlotLang
