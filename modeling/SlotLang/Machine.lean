import SlotLang.Machine.Print
import SlotLang.Diagnostic
import SlotLang.Event
import SlotLang.Settings

/-!
# SlotLang.Machine

Running code. Each call of a defined function opens a frame with its arguments, one register for
each executed instruction and the slots it has allocated. At most `maxFrames` frames are open at a
time, so every run ends. Calls of the print routine write a text and open no frame.
-/

namespace SlotLang

/-- What can go wrong in a run. -/
inductive Fault
  /-- The module has no function of the name that was called from outside. -/
  | notDeclared (name : String)
  /-- A call of an index that the module does not have. -/
  | noFunction (id : Nat)
  /-- An external function other than the print routine. -/
  | noHost
  | print (fault : PrintFault)
  | tooDeep
  | argumentCount (expected found : Nat)
  | noBody
  /-- A read of a slot that nothing was written to, by the instruction at this index. -/
  | uninitialized (index : Nat)
  | noArgument (index : Nat)
  | notComputed (index : Nat)
  | expectedInt (found : ValueKind)
  | expectedPointer (found : ValueKind)
  | arith (fault : ArithFault)
  /-- The code ends without a return. -/
  | fellOff
  /-- A call from outside that yields neither an integer nor nothing. -/
  | returned (found : ValueKind)
  deriving DecidableEq, Repr

/-- The number of frames that can be open at a time. -/
def maxFrames : Nat := 256

namespace Fault

/-- The fault in words. -/
def message : Fault → String
  | notDeclared name => s!"function '{name}' is not declared"
  | noFunction id => s!"no function with id {id}"
  | noHost => "no host implementation for external"
  | print fault => fault.message
  | tooDeep => s!"call depth exceeded {maxFrames}"
  | argumentCount expected found => s!"expects {expected} argument(s), got {found}"
  | noBody => "function has no body"
  | uninitialized index => s!"read of uninitialized storage at %{index}"
  | noArgument index => s!"no argument #{index}"
  | notComputed index => s!"%{index} used before it was computed"
  | expectedInt found => s!"expected int, found {found.text}"
  | expectedPointer found => s!"expected pointer, found {found.text}"
  | arith fault => fault.message
  | fellOff => "fell off the end without a return"
  | returned found => s!"returned a {found.text}"

end Fault

/-- A run that failed, as it is reported. -/
structure ExecReport where
  function : String
  reason : String
  deriving DecidableEq, Repr

namespace ExecReport

/-- The full text of a report. -/
def text (r : ExecReport) : String := s!"in '{r.function}': {r.reason}"

/-- A failed run is an error without a place in the source. -/
def diagnostic (r : ExecReport) : Diagnostic := ⟨.error, "dragonc.vm", .unknown, r.text⟩

end ExecReport

/-- A fault and the function in which it happened. -/
structure ExecError where
  function : String
  fault : Fault
  deriving DecidableEq, Repr

namespace ExecError

/-- The failure as it is reported. -/
def report (e : ExecError) : ExecReport := ⟨e.function, e.fault.message⟩

end ExecError

/-- The activation of a function. -/
structure Frame where
  args : List Value
  /-- Results of the instructions executed so far. -/
  registers : List Value
  slots : List (Option Int64)
  deriving DecidableEq, Repr

namespace Frame

/-- What a handle stands for in this frame. -/
def eval (f : Frame) : Handle → Except Fault Value
  | .const v => .ok (.int v)
  | .arg i =>
    match f.args[i.toNat]? with
    | some v => .ok v
    | none => .error (.noArgument i.toNat)
  | .inst i =>
    match f.registers[i]? with
    | some v => .ok v
    | none => .error (.notComputed i)
  | .global g => .ok (.text g)
  | .func id => .ok (.func id)

/-- What the handles stand for, in order. -/
def evalAll (f : Frame) (hs : List Handle) : Except Fault (List Value) :=
  hs.mapM f.eval

/-- The integer that a handle stands for. -/
def intOf (f : Frame) (h : Handle) : Except Fault Int64 := do
  match ← f.eval h with
  | .int v => .ok v
  | other => .error (.expectedInt other.kind)

/-- The slot that a handle stands for. An index that reached this frame from elsewhere means the
slot of this frame with that index. -/
def slotOf (f : Frame) (h : Handle) : Except Fault Nat := do
  match ← f.eval h with
  | .slot s => if s < f.slots.length then .ok s else .error (.expectedPointer .pointer)
  | other => .error (.expectedPointer other.kind)

/-- The integer in the slot that a handle stands for. The reader is the next instruction. -/
def read (f : Frame) (ptr : Handle) : Except Fault Int64 := do
  match f.slots[← f.slotOf ptr]? with
  | some (some v) => .ok v
  | _ => .error (.uninitialized f.registers.length)

/-- The frame with an integer put into the slot that a handle stands for. -/
def write (f : Frame) (ptr value : Handle) : Except Fault Frame := do
  let s ← f.slotOf ptr
  let v ← f.intOf value
  return { f with slots := f.slots.set s (some v) }

/-- The result of an operation on the integers that two handles stand for. -/
def compute (f : Frame) (op : BinOp) (lhs rhs : Handle) : Except Fault Int64 := do
  let l ← f.intOf lhs
  let r ← f.intOf rhs
  (op.apply l r).mapError Fault.arith

/-- The frame with a fresh slot. -/
def allocate (f : Frame) : Frame :=
  { f with slots := f.slots ++ [none] }

/-- The frame after an instruction with this result. -/
def advance (f : Frame) (result : Value) : Frame :=
  { f with registers := f.registers ++ [result] }

end Frame

/-- What runs leave behind: printed texts and events, in order. -/
structure Transcript where
  output : List String
  events : Array Event
  deriving Repr

namespace Transcript

/-- Nothing has happened. -/
def empty : Transcript := ⟨[], #[]⟩

end Transcript

/-- Steps of a run: they write to the transcript and may fail, and a failure keeps what was
written. -/
abbrev Exec := EStateM ExecError Transcript

namespace Exec

/-- A result, or a fault in the named function. -/
def ofExcept {α : Type} (function : String) : Except Fault α → Exec α
  | .ok a => return a
  | .error fault => throw ⟨function, fault⟩

/-- Prints a text. -/
def write (text : String) : Exec Unit :=
  modify fun t => { t with output := t.output ++ [text] }

/-- Notes an event. -/
def note (event : Event) : Exec Unit :=
  modify fun t => { t with events := t.events.push event }

end Exec

/-- A module that is ready to run, and the name under which its code prints. -/
structure Machine where
  module : Module
  printRoutine : String
  deriving Repr

namespace Machine

/-- A machine that prints as the settings say. -/
def ofSettings (module : Module) (settings : Settings) : Machine :=
  ⟨module, settings.printRoutine⟩

/-- Runs the instructions that remain of a body. Calls go through `call`. -/
def execute (call : Nat → List Value → Exec Value) (function : String) :
    List Instr → Frame → Exec Value
  | [], _ => throw ⟨function, .fellOff⟩
  | instr :: rest, frame => do
    Exec.note (.executing function frame.registers.length instr)
    match instr with
    | .alloca _ => execute call function rest (frame.allocate.advance (.slot frame.slots.length))
    | .load ptr =>
      let v ← Exec.ofExcept function (frame.read ptr)
      execute call function rest (frame.advance (.int v))
    | .store ptr value =>
      let written ← Exec.ofExcept function (frame.write ptr value)
      execute call function rest (written.advance .void)
    | .binary op lhs rhs =>
      let v ← Exec.ofExcept function (frame.compute op lhs rhs)
      execute call function rest (frame.advance (.int v))
    | .call callee args =>
      let values ← Exec.ofExcept function (frame.evalAll args)
      let result ← call callee values
      execute call function rest (frame.advance result)
    | .ret (some value) => Exec.ofExcept function (frame.eval value)
    | .ret none => return .void

/-- Calls an external function, which must be the print routine. The result is the number of bytes
printed. -/
def callExternal (machine : Machine) (f : Func) (args : List Value) : Exec Value := do
  if f.name = machine.printRoutine then
    let text ← Exec.ofExcept f.name ((Print.run machine.module args).mapError Fault.print)
    Exec.write text
    return .int (Int64.ofNat text.utf8ByteSize)
  else
    throw ⟨f.name, .noHost⟩

/-- Calls the function at an index while `room` more frames may be opened. -/
def invoke (machine : Machine) (room : Nat) (id : Nat) (args : List Value) : Exec Value :=
  match machine.module.function? id with
  | none => throw ⟨"<unknown>", .noFunction id⟩
  | some f =>
    if f.isExternal then
      machine.callExternal f args
    else
      match room with
      | 0 => throw ⟨f.name, .tooDeep⟩
      | room + 1 =>
        if args.length = f.params.length then
          match f.body? with
          | none => throw ⟨f.name, .noBody⟩
          | some body => execute (machine.invoke room) f.name body ⟨args, [], []⟩
        else
          throw ⟨f.name, .argumentCount f.params.length args.length⟩

/-- Calls a function by name with integers. A function without a result yields nothing. -/
def call (machine : Machine) (name : String) (args : List Int64) : Exec (Option Int64) := do
  match machine.module.find? name with
  | none => throw ⟨name, .notDeclared name⟩
  | some id =>
    match ← machine.invoke maxFrames id (args.map .int) with
    | .int v => return some v
    | .void => return none
    | other => throw ⟨name, .returned other.kind⟩

/-! ### Sequences of calls -/

/-- A call from outside. -/
structure Call where
  function : String
  args : List Int64
  deriving DecidableEq, Repr

/-- How a call ended, and what it printed. -/
structure Run where
  result : Except ExecError (Option Int64)
  output : List String

/-- Makes calls one after the other; each continues the transcript of those before it. -/
def callAll (machine : Machine) : List Call → Transcript → List Run × Transcript
  | [], t => ([], t)
  | c :: rest, t =>
    let (result, t') := match machine.call c.function c.args t with
      | .ok v t' => (Except.ok v, t')
      | .error e t' => (Except.error e, t')
    let (runs, final) := machine.callAll rest t'
    (⟨result, t'.output.drop t.output.length⟩ :: runs, final)

end Machine

end SlotLang
