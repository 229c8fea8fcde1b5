import SlotLang.Module

/-!
# SlotLang.Draft

A function under construction. A draft takes one instruction at a time and refuses those whose
operands do not fit; the module learns of the code only when the draft is finished. Operands are
judged against the module that is at hand at that moment.
-/

namespace SlotLang

/-- The code written so far for a declared function. -/
structure Draft where
  /-- The index of the function in the module that declared it. -/
  func : Nat
  name : String
  params : List Ty
  result : Ty
  /-- The instructions so far. -/
  code : List Instr
  /-- The types of the registers that they fill, by position. -/
  types : List Ty
  deriving DecidableEq, Repr

/-- Writing at work: it changes a draft and may fail, and a failure keeps the changes. -/
abbrev Writing := EStateM BuildError Draft

namespace Draft

/-- Starts the body of a declared function. -/
def start (m : Module) (func : Nat) : Except BuildError Draft :=
  match m.function? func with
  | none => .error (.unknownValue (.func func))
  | some f =>
    if f.isExternal then
      .error (.invalidType (.externalBody f.name) .fn)
    else
      .ok ⟨func, f.name, f.params.map Param.ty, f.result, [], []⟩

/-- The code ends in a return, so nothing can follow. -/
def isTerminated (d : Draft) : Bool :=
  (d.code.getLast?.map Instr.isTerminator).getD false

/-- The handle of the parameter at an index. -/
def arg? (d : Draft) (index : Nat) : Option Handle :=
  if index < d.params.length then some (.arg (UInt32.ofNat index)) else none

/-! ### Types of operands -/

/-- The type of what a handle names, if it names anything here. -/
def typeOf? (d : Draft) (m : Module) : Handle → Option Ty
  | .const _ => some .int
  | .arg i => d.params[i.toNat]?
  | .inst i => d.types[i]?
  | .global g => (m.text? g).map fun _ => .ptr
  | .func f => (m.function? f).map fun _ => .fn

/-- The type of what a handle names. -/
def typeOf (d : Draft) (m : Module) (h : Handle) : Except BuildError Ty :=
  match d.typeOf? m h with
  | some ty => .ok ty
  | none => .error (.unknownValue h)

/-- Insists on the type of an operand. -/
def expect (d : Draft) (m : Module) (operation : Opcode) (h : Handle) (expected : Ty) :
    Except BuildError Unit := do
  let found ← d.typeOf m h
  if found = expected then
    .ok ()
  else
    .error (.typeMismatch operation expected found h)

/-- Arguments must have the types of the parameters; those behind them must be passable. -/
def expectArgs (d : Draft) (m : Module) (callee : String) :
    List Param → List Handle → Except BuildError Unit
  | _, [] => .ok ()
  | p :: params, h :: args => do
    d.expect m .call h p.ty
    d.expectArgs m callee params args
  | [], h :: args => do
    let ty ← d.typeOf m h
    if ty.passable then
      d.expectArgs m callee [] args
    else
      .error (.invalidType (.variadicArgument callee) ty)

/-- The number of arguments that a function accepts. -/
def acceptsCount (f : Func) (count : Nat) : Bool :=
  if f.isVariadic then f.params.length ≤ count else count = f.params.length

/-- The type of the register that an instruction fills, provided its operands fit. -/
def resultType (d : Draft) (m : Module) : Instr → Except BuildError Ty
  | .alloca _ => .ok .ptr
  | .load ptr => do
    d.expect m .load ptr .ptr
    .ok .int
  | .store ptr value => do
    d.expect m .store ptr .ptr
    d.expect m .store value .int
    .ok .void
  | .binary op lhs rhs => do
    d.expect m (.binary op) lhs .int
    d.expect m (.binary op) rhs .int
    .ok .int
  | .call callee args =>
    match m.function? callee with
    | none => .error (.unknownValue (.func callee))
    | some f =>
      if acceptsCount f args.length then do
        d.expectArgs m f.name f.params args
        .ok f.result
      else
        .error (.argumentCount f.name f.params.length args.length f.isVariadic)
  | .ret (some value) =>
    if d.result = .void then do
      let found ← d.typeOf m value
      .error (.typeMismatch .ret .void found value)
    else do
      d.expect m .ret value d.result
      .ok .void
  | .ret none =>
    if d.result = .void then
      .ok .void
    else
      .error (.invalidType (.emptyReturn d.name d.result) .void)

/-! ### Growth -/

/-- The draft with one more instruction. -/
def pushInstr (d : Draft) (instr : Instr) : Draft :=
  { d with code := d.code ++ [instr] }

/-- The draft with the type of one more register. -/
def pushType (d : Draft) (ty : Ty) : Draft :=
  { d with types := d.types ++ [ty] }

end Draft

namespace Writing

/-- Appends an instruction and the type of its register, and yields the handle of the register.
Nothing can follow a return. -/
def push (instr : Instr) (ty : Ty) : Writing Handle := do
  let d ← get
  if d.isTerminated then
    throw (.afterTerminator d.name)
  modify fun d => d.pushInstr instr
  modify fun d => d.pushType ty
  return .inst d.code.length

/-- Appends an instruction. The operands are judged first; only then does it matter whether the code
has already ended. -/
def emit (m : Module) (instr : Instr) : Writing Handle := do
  let ty ← MonadExcept.ofExcept ((← get).resultType m instr)
  push instr ty

end Writing

namespace Draft

/-- Appends an instruction and yields the handle of its register, see `Writing.emit`. -/
def emit (d : Draft) (m : Module) (instr : Instr) : EStateM.Result BuildError Draft Handle :=
  Writing.emit m instr d

/-- Hands the code over to a module. -/
def finish (d : Draft) (m : Module) : EStateM.Result BuildError Module Unit :=
  m.define d.func d.code d.types

/-- An instruction that is taken stands at the end of the code, and the type of its register at the
end of the types; one that is refused changes nothing. -/
theorem emit_eq (d : Draft) (m : Module) (instr : Instr) :
    d.emit m instr =
      match d.resultType m instr with
      | .error e => .error e d
      | .ok ty =>
        if d.isTerminated then .error (.afterTerminator d.name) d
        else .ok (.inst d.code.length) { d with
          code := d.code ++ [instr]
          types := d.types ++ [ty] } := by
  simp only [emit, Writing.emit, get_bind_apply]
  cases d.resultType m instr with
  | error e => rfl
  | ok ty =>
    change Writing.push instr ty d = _
    simp only [Writing.push, get_bind_apply]
    split <;> rfl

/-- An instruction is taken exactly if its operands fit and the code has not ended. -/
theorem emit_eq_ok_iff {d d' : Draft} {m : Module} {instr : Instr} {h : Handle} :
    d.emit m instr = .ok h d' ↔
      ∃ ty, d.resultType m instr = .ok ty ∧ d.isTerminated = false ∧
        h = .inst d.code.length ∧
          d' = { d with code := d.code ++ [instr], types := d.types ++ [ty] } := by
  rw [emit_eq]
  cases d.resultType m instr with
  | error e => simp
  | ok ty =>
    cases d.isTerminated with
    | true => simp
    | false => simp [eq_comm]

/-- Nothing is changed before the last check. -/
theorem eq_of_emit_error {d d' : Draft} {m : Module} {instr : Instr} {e : BuildError}
    (h : d.emit m instr = .error e d') : d' = d := by
  rw [emit_eq] at h
  cases hty : d.resultType m instr with
  | error e' =>
    rw [hty] at h
    cases h
    rfl
  | ok ty =>
    rw [hty] at h
    dsimp only at h
    split at h
    · cases h
      rfl
    · cases h

end Draft

end SlotLang
