import SlotLang.Instr

/-!
# SlotLang.Machine.Value

What registers hold while code runs, and arithmetic on it.
-/

namespace SlotLang

/-- A value at run time. -/
inductive Value
  | int (value : Int64)
  /-- A slot, by its index in the frame that uses it. -/
  | slot (index : Nat)
  /-- A text of the module. -/
  | text (id : Nat)
  /-- A function of the module. -/
  | func (id : Nat)
  | void
  deriving DecidableEq, Repr

/-- The kinds of values, as faults name them. -/
inductive ValueKind
  | int
  | pointer
  | string
  | function
  | void
  deriving DecidableEq, Repr

namespace ValueKind

/-- The name of a kind. -/
def text : ValueKind → String
  | int => "int"
  | pointer => "pointer"
  | string => "string"
  | function => "function"
  | void => "void"

end ValueKind

namespace Value

/-- The kind of a value. -/
def kind : Value → ValueKind
  | int _ => .int
  | slot _ => .pointer
  | text _ => .string
  | func _ => .function
  | void => .void

end Value

/-- Why an operation has no result. -/
inductive ArithFault
  | divisionByZero
  | remainderByZero
  deriving DecidableEq, Repr

namespace ArithFault

/-- The fault in words. -/
def message : ArithFault → String
  | divisionByZero => "division by zero"
  | remainderByZero => "remainder by zero"

end ArithFault

namespace BinOp

/-- Integers wrap around at 64 bits. Division goes toward zero, the remainder has the sign of the
dividend, and neither is defined for a divisor of zero. -/
def apply : BinOp → Int64 → Int64 → Except ArithFault Int64
  | add, l, r => .ok (l + r)
  | sub, l, r => .ok (l - r)
  | mul, l, r => .ok (l * r)
  | sdiv, l, r => if r = 0 then .error .divisionByZero else .ok (l / r)
  | srem, l, r => if r = 0 then .error .remainderByZero else .ok (l % r)
  | or, l, r => .ok (l ||| r)
  | and, l, r => .ok (l &&& r)

end BinOp

end SlotLang
