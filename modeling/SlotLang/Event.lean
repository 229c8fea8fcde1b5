import SlotLang.Node

/-!
# SlotLang.Event

What the parts of the system do, step by step. Events are plain values; the log is their text.
-/

namespace SlotLang

/-- One step that is worth a line of the log. -/
inductive Event
  /-- Lowering of a node begins, inside the named function. -/
  | lowering (node : Node) (function : String)
  /-- A draft took an instruction. -/
  | emitted (function : String) (index : Nat) (instr : Instr)
  /-- A draft with this many instructions is about to be sealed. -/
  | sealing (function : String) (count : Nat)
  /-- A function of the tree is complete. -/
  | completed (function : String)
  /-- Lowering of a program with this many statements begins. -/
  | programStarted (count : Nat) (entry : String)
  /-- The machine is about to execute an instruction. -/
  | executing (function : String) (index : Nat) (instr : Instr)
  /-- Valid settings have no print format. -/
  | bareValues (printRoutine : String)
  deriving Repr

namespace Event

/-- A number with at least four digits. -/
def fourDigits (n : Nat) : String :=
  let digits := toString n
  String.ofList (List.replicate (4 - digits.length) '0') ++ digits

/-- The line of the log, with its level in front. -/
def text : Event → String
  | lowering node function => s!"DEBUG [lower] {node.placedText} in '{function}'"
  | emitted function index instr => s!"TRACE [ir] {function}: %{index} <- {instr.trace}"
  | sealing function count => s!"DEBUG [ir] finalizing '{function}' with {count} op(s)"
  | completed function => s!"DEBUG [lower] function '{function}' sealed"
  | programStarted count entry =>
    s!"DEBUG [lower] lowering {count} top-level statement(s) into '{entry}'"
  | executing function index instr => s!"TRACE [vm] {function}:{fourDigits index} {instr.trace}"
  | bareValues printRoutine =>
    s!"WARN no print format configured; '{printRoutine}' will receive the bare value"

end Event

end SlotLang
