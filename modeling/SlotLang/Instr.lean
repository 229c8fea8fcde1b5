import SlotLang.Handle
import SlotLang.Text.Quoted

/-!
# SlotLang.Instr

The instruction set of linear code. The instruction at index `i` of a body leaves its result in
register `i`, so code needs no names of its own for intermediate values.
-/

namespace SlotLang

/-- The integer operations that one instruction can perform. -/
inductive BinOp
  | add
  | sub
  | mul
  | sdiv
  | srem
  | or
  | and
  deriving DecidableEq, Repr

namespace BinOp

/-- The operation in printed code. -/
def mnemonic : BinOp → String
  | add => "add"
  | sub => "sub"
  | mul => "mul"
  | sdiv => "sdiv"
  | srem => "srem"
  | or => "or"
  | and => "and"

/-- The operation in traces. -/
def trace : BinOp → String
  | add => "Add"
  | sub => "Sub"
  | mul => "Mul"
  | sdiv => "SDiv"
  | srem => "SRem"
  | or => "Or"
  | and => "And"

end BinOp

/-- What an instruction does, without its operands. -/
inductive Opcode
  | alloca
  | load
  | store
  | binary (op : BinOp)
  | call
  | ret
  deriving DecidableEq, Repr

namespace Opcode

/-- The word that an instruction starts with in printed code. -/
def mnemonic : Opcode → String
  | alloca => "alloca"
  | load => "load"
  | store => "store"
  | binary op => op.mnemonic
  | call => "call"
  | ret => "ret"

end Opcode

/-- One instruction. -/
inductive Instr
  /-- Opens a fresh slot of the frame and yields its address; the name is for readers of the code.
  -/
  | alloca (name : String)
  /-- Yields the integer in a slot. -/
  | load (ptr : Handle)
  /-- Puts an integer into a slot. -/
  | store (ptr value : Handle)
  /-- Combines two integers. -/
  | binary (op : BinOp) (lhs rhs : Handle)
  /-- Calls a function of the module and yields its result. -/
  | call (callee : Nat) (args : List Handle)
  /-- Leaves the function, with or without a value. -/
  | ret (value : Option Handle)
  deriving DecidableEq, Repr

namespace Instr

/-- The operation of an instruction. -/
def opcode : Instr → Opcode
  | alloca _ => .alloca
  | load _ => .load
  | store _ _ => .store
  | binary op _ _ => .binary op
  | call _ _ => .call
  | ret _ => .ret

/-- Only a return ends a body. -/
def isTerminator : Instr → Bool
  | ret _ => true
  | _ => false

/-- An instruction in traces, with its fields by name. -/
def trace : Instr → String
  | alloca name => "Alloca \x7b name: " ++ Text.quote name ++ " \x7d"
  | load ptr => "Load \x7b ptr: " ++ ptr.trace ++ " \x7d"
  | store ptr value => "Store \x7b ptr: " ++ ptr.trace ++ ", value: " ++ value.trace ++ " \x7d"
  | binary op lhs rhs =>
    "Binary \x7b op: " ++ op.trace ++ ", lhs: " ++ lhs.trace ++ ", rhs: " ++ rhs.trace ++ " \x7d"
  | call callee args =>
    "Call \x7b callee: " ++ toString callee ++
      ", args: [" ++ ", ".intercalate (args.map Handle.trace) ++ "] \x7d"
  | ret (some value) => "Ret \x7b value: Some(" ++ value.trace ++ ") \x7d"
  | ret none => "Ret \x7b value: None \x7d"

end Instr

end SlotLang
