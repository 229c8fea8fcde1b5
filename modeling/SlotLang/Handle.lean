/-!
# SlotLang.Handle

Types of code values and the handles that name them. A handle is a plain index: a register or
argument handle means something only inside the function it was made for, a text or function
handle only inside its module.
-/

namespace SlotLang

/-- The types that code distinguishes. -/
inductive Ty
  /-- A 64-bit integer. -/
  | int
  /-- The address of a slot or of a text. -/
  | ptr
  /-- No value. -/
  | void
  /-- A function of the module. -/
  | fn
  deriving DecidableEq, Repr

namespace Ty

/-- The name of a type in printed code. -/
def text : Ty → String
  | int => "i64"
  | ptr => "ptr"
  | void => "void"
  | fn => "fn"

/-- Types of what can be handed to a function. -/
def passable : Ty → Bool
  | int | ptr => true
  | void | fn => false

/-- Types of what a function can give back. -/
def returnable : Ty → Bool
  | int | void => true
  | ptr | fn => false

end Ty

/-- Names something that code can refer to. -/
inductive Handle
  /-- The integer itself. -/
  | const (value : Int64)
  /-- A parameter of the function at hand. Argument handles are 32 bits wide. -/
  | arg (index : UInt32)
  /-- The register of the instruction at this index. -/
  | inst (index : Nat)
  /-- A text of the module. -/
  | global (id : Nat)
  /-- A function of the module. -/
  | func (id : Nat)
  deriving DecidableEq, Repr

namespace Handle

/-- A handle in printed code. -/
def text : Handle → String
  | const v => toString v.toInt
  | arg i => s!"%arg{i.toNat}"
  | inst i => s!"%{i}"
  | global g => s!"@.str{g}"
  | func f => s!"@fn{f}"

/-- A handle in traces, where its kind is spelled out. -/
def trace : Handle → String
  | const v => s!"Const({v.toInt})"
  | arg i => s!"Arg({i.toNat})"
  | inst i => s!"Inst({i})"
  | global g => s!"Global({g})"
  | func f => s!"Func({f})"

end Handle

end SlotLang
