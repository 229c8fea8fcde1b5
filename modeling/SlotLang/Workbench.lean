import SlotLang.Machine
import SlotLang.Module.Printer
import SlotLang.Program

/-!
# SlotLang.Workbench

Building modules by hand, step by step. A workbench holds any number of modules and drafts, of
which one each is at hand, and one stack of scopes. Drafts are judged against the module at hand,
which need not be the one they were started from. A step that fails does not end the session.
-/

namespace SlotLang

/-- Everything on the bench. -/
structure Workbench where
  settings : Settings
  modules : List Module
  /-- The index of the module at hand. -/
  atModule : Nat
  /-- All drafts ever started; those that were handed over are gone. -/
  drafts : List (Option Draft)
  /-- The index of the draft at hand. -/
  atDraft : Nat
  scopes : Scopes
  events : Array Event
  deriving Repr

/-- One step of a session. -/
inductive Step
  /-- Adds an empty module and turns to it. -/
  | newModule (name : String)
  | useModule (index : Nat)
  | useDraft (index : Nat)
  /-- Declares the print routine of the settings. -/
  | declarePrint
  | declareFunction (name : String) (params : List Param) (result : Ty)
  | declareExternal (name : String) (params : List Param) (variadic : Bool) (result : Ty)
  /-- Starts the body of a function and turns to it. -/
  | newDraft (func : Nat)
  | findFunction (name : String)
  | functionAt (id : Nat)
  | functionNamed (name : String)
  | functionNames
  | intern (text : String)
  | textAt (id : Nat)
  | printModule
  /-- Makes calls on a fresh machine, which prints as the given settings say. -/
  | run (settings : Settings) (calls : List Machine.Call)
  | enterFunction
  | enterScope
  | exitScope
  | exitFunction
  | declare (name : String) (binding : Binding)
  /-- Declares a name with a binding that has to be made first, which fails or succeeds as given. -/
  | declareWith (name : String) (make : Except String Binding)
  | resolve (name : String)
  | isBound (name : String)
  /-- Appends an instruction to the draft. -/
  | emit (instr : Instr)
  | typeOf (handle : Handle)
  | argument (index : Nat)
  | draftCode
  /-- Hands the draft over to the module. The draft is gone even if the module refuses it. -/
  | finish
  | lower (node : Node)
  | valueOf (node : Node)

/-- What a step that succeeds has to say. -/
inductive Answer
  | done
  | index (n : Nat)
  | index? (n : Option Nat)
  | function? (f : Option Func)
  | names (names : List String)
  | text (text : String)
  | text? (text : Option String)
  | runs (runs : List Machine.Run) (output : List String)
  | binding (binding : Binding)
  | flag (value : Bool)
  | handle (handle : Handle)
  | handle? (handle : Option Handle)
  | type (ty : Ty)
  | code (function : String) (code : List Instr)
  /-- How a declaration with a binding to be made ended, and whether the making was tried. -/
  | declared (outcome : Declared String) (made : Bool)

/-- Why a step failed. -/
inductive StepError
  | build (error : BuildError)
  | scope (error : ScopeError)
  | lowering (error : LoweringError)
  /-- No module is at hand. -/
  | noModule
  /-- No draft is at hand. -/
  | noDraft
  deriving DecidableEq, Repr

/-- Steps at work: they change the bench and may fail, and a failure keeps the changes. -/
abbrev Bench := EStateM StepError Workbench

namespace Workbench

/-- A bench with one empty module, no draft and one function scope. -/
def start (settings : Settings) : Workbench :=
  ⟨settings, [.empty "test"], 0, [], 0, .initial, #[]⟩

/-- The draft at hand. -/
def draft? (w : Workbench) : Option Draft :=
  w.drafts[w.atDraft]?.join

/-- The module at hand, or failure. -/
def module : Bench Module := do
  let w ← get
  match w.modules[w.atModule]? with
  | some m => return m
  | none => throw .noModule

/-- The draft at hand, or failure. -/
def draft : Bench Draft := do
  match (← get).draft? with
  | some d => return d
  | none => throw .noDraft

/-- Replaces the module at hand. -/
def setModule (m : Module) : Bench Unit :=
  modify fun w => { w with modules := w.modules.set w.atModule m }

/-- Replaces or removes the draft at hand. -/
def setDraft (d : Option Draft) : Bench Unit :=
  modify fun w => { w with drafts := w.drafts.set w.atDraft d }

/-- A result of the module or the draft. -/
def built {α : Type} : Except BuildError α → Bench α
  | .ok a => return a
  | .error e => throw (.build e)

/-- A result of the scopes. -/
def inScopes {α : Type} : Except ScopeError α → Bench α
  | .ok a => return a
  | .error e => throw (.scope e)

/-- Makes a request of the module at hand, which is replaced also if the request fails. -/
def request {α : Type} (work : Module → EStateM.Result BuildError Module α) : Bench α := do
  match work (← module) with
  | .ok a m => setModule m; return a
  | .error e m => setModule m; throw (.build e)

/-- Makes a declaration and tells its index. -/
def declared (work : Module → EStateM.Result BuildError Module Nat) : Bench Answer :=
  Answer.index <$> request work

/-- Changes the scopes. -/
def rescope (f : Scopes → Scopes) : Bench Answer := do
  modify fun w => { w with scopes := f w.scopes }
  return .done

/-- The module, scopes and draft at hand, as lowering sees them. -/
def context : Bench Context := do
  let w ← get
  return ⟨← module, w.scopes, ← draft, w.events⟩

/-- Takes back what lowering has changed. -/
def restore (c : Context) : Bench Unit := do
  setModule c.module
  setDraft (some c.draft)
  modify fun w => { w with scopes := c.scopes, events := c.events }

/-- Lets lowering work on what is at hand. -/
def lowering {α : Type} (work : Lower α) : Bench α := do
  match work (← context) with
  | .ok a c => restore c; return a
  | .error e c => restore c; throw (.lowering e)

/-- Performs a step. -/
def perform : Step → Bench Answer
  | .newModule name => do
    let index := (← get).modules.length
    modify fun w => { w with modules := w.modules ++ [.empty name], atModule := index }
    return .index index
  | .useModule index => do
    modify fun w => { w with atModule := index }
    return .index index
  | .useDraft index => do
    modify fun w => { w with atDraft := index }
    return .index index
  | .declarePrint => do
    let settings := (← get).settings
    declared fun m => m.declarePrint settings
  | .declareFunction name params result => declared fun m => m.declare name params result
  | .declareExternal name params variadic result =>
    declared fun m => m.declareExternal name params variadic result
  | .newDraft func => do
    let d ← built (Draft.start (← module) func)
    let index := (← get).drafts.length
    modify fun w => { w with drafts := w.drafts ++ [some d], atDraft := index }
    return .index index
  | .findFunction name => return .index? ((← module).find? name)
  | .functionAt id => return .function? ((← module).function? id)
  | .functionNamed name => do
    let m ← module
    return .function? ((m.find? name).bind m.function?)
  | .functionNames => return .names ((← module).functions.map Func.name)
  | .intern text => do
    let (id, m) := (← module).intern text
    setModule m
    return .index id
  | .textAt id => return .text? ((← module).text? id)
  | .printModule => return .text (← module).print
  | .run settings calls => do
    let machine := Machine.ofSettings (← module) settings
    let (runs, transcript) := machine.callAll calls .empty
    modify fun w => { w with events := w.events ++ transcript.events }
    return .runs runs transcript.output
  | .enterFunction => rescope Scopes.enterFunction
  | .enterScope => rescope Scopes.enterScope
  | .exitScope => rescope Scopes.exitScope
  | .exitFunction => rescope Scopes.exitFunction
  | .declare name binding => do
    let scopes ← inScopes ((← get).scopes.declare name binding)
    rescope fun _ => scopes
  | .declareWith name make => do
    let attempt : StateM Bool (Except String Binding) := do set true; return make
    let (outcome, made) := ((← get).scopes.declareWith name attempt).run false
    match outcome with
    | .bound _ scopes => let _ ← rescope fun _ => scopes
    | .refused _ | .failed _ => pure ()
    return .declared outcome made
  | .resolve name => return .binding (← inScopes ((← get).scopes.resolve name))
  | .isBound name => return .flag ((← get).scopes.isBound name)
  | .emit instr => do
    match (← context).emit instr with
    | (.error e, c) =>
      restore c
      throw (.build e)
    | (.ok handle, c) =>
      restore c
      match instr with
      | .store _ _ => return .done
      | _ => return .handle handle
  | .typeOf handle => return .type (← built ((← draft).typeOf (← module) handle))
  | .argument index => return .handle? ((← draft).arg? index)
  | .draftCode => do
    let d ← draft
    return .code d.name d.code
  | .finish => do
    let d ← draft
    setDraft none
    modify fun w => { w with events := w.events.push (.sealing d.name d.code.length) }
    request d.finish
    return .index d.func
  | .lower node => do
    let settings := (← get).settings
    return .handle (← lowering (node.lower settings))
  | .valueOf node => return .handle? (← lowering node.value?)

/-- Performs a step and keeps the bench, whatever becomes of the step. -/
def step (w : Workbench) (s : Step) : Except StepError Answer × Workbench :=
  match perform s w with
  | .ok answer w => (.ok answer, w)
  | .error e w => (.error e, w)

end Workbench

end SlotLang
