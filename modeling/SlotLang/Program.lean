import SlotLang.Lowering

/-!
# SlotLang.Program

Whole programs. The statements of a program become the body of its entry function; functions among
them become functions of the module. A program that fails to lower yields no module.
-/

namespace SlotLang

namespace Module

/-- Declares the external print routine. It takes further arguments, and the format as a parameter
if one is set. -/
def declarePrint (m : Module) (settings : Settings) : EStateM.Result BuildError Module Nat :=
  let params := match settings.printFormat with
    | some _ => [Param.mk "format" .ptr]
    | none => []
  m.declareExternal settings.printRoutine params true .int

end Module

/-- The statements of a program. -/
abbrev Program := List Node

namespace Program

/-- The function that the statements of a program stand in. -/
def entryNode (settings : Settings) : Node :=
  .function .unknown settings.entryFunction .int [] []

/-- A module with the print routine and the entry function declared, and the body of the latter
begun. -/
def start (settings : Settings) : Except LoweringError Context :=
  let blame (e : BuildError) : LoweringError := .blame (entryNode settings) (.rejected e)
  match (Module.empty settings.entryFunction).declarePrint settings with
  | .error e _ => .error (blame e)
  | .ok _ declared =>
    match declared.declare settings.entryFunction [] .int with
    | .error e _ => .error (blame e)
    | .ok id module =>
      match Draft.start module id with
      | .error e => .error (blame e)
      | .ok draft => .ok { module, scopes := .initial, draft, events := #[] }

/-- Lowers the statements into the entry function and completes it. -/
def body (settings : Settings) (program : Program) : Lower Unit := do
  Lower.note (.programStarted program.length settings.entryFunction)
  Node.lowerAll settings program
  Lower.implicitReturn (entryNode settings) .int
  Lower.finish (entryNode settings) (← get).draft

/-- The module of a program, and the events on the way to it. -/
def lower (settings : Settings) (program : Program) : Except LoweringError Module × Array Event :=
  match start settings with
  | .error e => (.error e, #[])
  | .ok context =>
    match program.body settings context with
    | .ok () final => (.ok final.module, final.events)
    | .error e final => (.error e, final.events)

end Program

end SlotLang
