import SlotLang.Proofs.Tree

/-!
# SlotLang.Proofs.Code

The code of a tree, described rather than computed. `Code` relates a node to the instructions that
stand for it, given what the names of its function are bound to and how many instructions come
before. It knows nothing of modules, drafts or failures, so everything that holds of lowered code
is proved from it by an induction that follows the tree.

Functions among the nodes leave no instructions behind. Their own code is a matter of `Compiled`.
-/

namespace SlotLang

/-- The names of a function and what they are bound to, the latest first. -/
abbrev Bindings := List (String × Binding)

namespace Bindings

variable {bs : Bindings} {x y : String} {b b' : Binding}

/-- The latest binding of a name hides the others. -/
theorem lookup_cons_eq_some_iff :
    List.lookup x ((y, b) :: bs) = some b' ↔
      (x = y ∧ b' = b) ∨ (x ≠ y ∧ bs.lookup x = some b') := by
  by_cases hxy : x = y
  · subst hxy
    simp [eq_comm]
  · have hbeq : (x == y) = false := beq_eq_false_iff_ne.mpr hxy
    simp only [List.lookup_cons, hbeq, hxy, false_and, ne_eq, not_false_eq_true, true_and,
      false_or]

theorem lookup_cons_eq_none_iff :
    List.lookup x ((y, b) :: bs) = none ↔ x ≠ y ∧ bs.lookup x = none := by
  by_cases hxy : x = y
  · subst hxy
    simp
  · have hbeq : (x == y) = false := beq_eq_false_iff_ne.mpr hxy
    simp only [List.lookup_cons, hbeq, hxy, ne_eq, not_false_eq_true, true_and]

end Bindings

/-- An instruction with the type of the register that it fills. -/
structure Line where
  instr : Instr
  ty : Ty
  deriving DecidableEq, Repr

/-- Code that ends in a return. -/
def endsInReturn (lines : List Line) : Bool :=
  (lines.getLast?.map fun line => line.instr.isTerminator).getD false

@[simp] theorem endsInReturn_concat (lines : List Line) (line : Line) :
    endsInReturn (lines ++ [line]) = line.instr.isTerminator := by
  simp [endsInReturn]

/-- Code without a return. -/
def NoReturn (lines : List Line) : Prop :=
  ∀ line ∈ lines, line.instr.isTerminator = false

theorem NoReturn.append {ls rs : List Line} (hl : NoReturn ls) (hr : NoReturn rs) :
    NoReturn (ls ++ rs) := by
  intro line hline
  rcases List.mem_append.mp hline with h | h
  · exact hl line h
  · exact hr line h

theorem NoReturn.endsInReturn_eq {lines : List Line} (h : NoReturn lines) :
    endsInReturn lines = false := by
  cases hl : lines.getLast? with
  | none => simp [endsInReturn, hl]
  | some line =>
      rw [endsInReturn, hl]
      exact h line (List.mem_of_getLast? hl)

namespace Settings

/-- The print routine as a function of the module. -/
def printFunc (settings : Settings) : Func where
  name := settings.printRoutine
  params := match settings.printFormat with
    | some _ => [⟨"format", .ptr⟩]
    | none => []
  result := .int
  isVariadic := true
  isExternal := true
  body? := none
  types := []

/-- What stands before the value in a call of the print routine: the format, which is the only
text that a program ever needs. -/
def formatArgs (settings : Settings) : List Handle :=
  match settings.printFormat with
  | some _ => [.global 0]
  | none => []

end Settings

namespace SourceType

/-- What a function yields that does not return by itself. -/
def implicit : SourceType → Option Handle
  | int => some (.const 0)
  | void => none

/-- A body is complete when it ends in a return. -/
def complete (result : SourceType) (lines : List Line) : List Line :=
  if endsInReturn lines then lines else lines ++ [⟨.ret result.implicit, .void⟩]

end SourceType

namespace StepOrder

/-- Which of two handles a step yields. -/
def select (order : StepOrder) (before after : Handle) : Handle :=
  match order with
  | .pre => after
  | .post => before

end StepOrder

namespace Parameter

/-- A parameter in code. -/
def toParam (p : Parameter) : Param := ⟨p.name, p.type.toTy⟩

/-- The bindings of parameters, counted from an index, on top of others. -/
def bindings : Nat → List Parameter → Bindings → Bindings
  | _, [], bs => bs
  | index, p :: rest, bs =>
    bindings (index + 1) rest ((p.name, .argument (.arg (.ofNat index))) :: bs)

end Parameter

/-- The code that finds the slot an assignment writes to: none for a variable that has been
declared, or that of a declaration on the spot. -/
inductive Target (bs : Bindings) (n : Nat) : Node → List Line → Handle → Bindings → Prop
  | use {origin : Origin} {x : String} {mode : UseMode} {p : Handle} :
      bs.lookup x = some (.storage p) → Target bs n (.use origin x mode) [] p bs
  | declare {origin : Origin} {x : String} :
      bs.lookup x = none →
      Target bs n (.declare origin x) [⟨.alloca x, .ptr⟩] (.inst n)
        ((x, .storage (.inst n)) :: bs)

section

variable (settings : Settings) (arity : Nat) (result : SourceType)

/-- `Code settings arity result bs n node lines h ty bs'`: in a function with `arity` parameters
and result type `result`, where names are bound as in `bs` and `n` instructions have been written,
the code of `node` is `lines`. Its value is in `h` and has type `ty`; names are afterwards bound as
in `bs'`. -/
inductive Code : Bindings → Nat → Node → List Line → Handle → Ty → Bindings → Prop
  | binary {bs bs₁ bs₂ : Bindings} {n : Nat} {origin : Origin} {op : ArithOp} {left right : Node}
      {ls rs : List Line} {l r : Handle} :
      Code bs n left ls l .int bs₁ → Code bs₁ (n + ls.length) right rs r .int bs₂ →
      Code bs n (.binary origin op left right)
        (ls ++ rs ++ [⟨.binary op.toBinOp l r, .int⟩]) (.inst (n + ls.length + rs.length)) .int bs₂
  | assign {bs bs₁ bs₂ : Bindings} {n : Nat} {origin : Origin} {target value : Node}
      {ls ts : List Line} {v p : Handle} :
      Code bs n value ls v .int bs₁ → Target bs₁ (n + ls.length) target ts p bs₂ →
      Code bs n (.assign origin target value) (ls ++ ts ++ [⟨.store p v, .void⟩]) v .int bs₂
  | declare {bs : Bindings} {n : Nat} {origin : Origin} {x : String} :
      bs.lookup x = none →
      Code bs n (.declare origin x) [⟨.alloca x, .ptr⟩] (.inst n) .ptr
        ((x, .storage (.inst n)) :: bs)
  | useAddress {bs : Bindings} {n : Nat} {origin : Origin} {x : String} {p : Handle} :
      bs.lookup x = some (.storage p) →
      Code bs n (.use origin x .address) [] p .ptr bs
  | useVariable {bs : Bindings} {n : Nat} {origin : Origin} {x : String} {p : Handle} :
      bs.lookup x = some (.storage p) →
      Code bs n (.use origin x .value) [⟨.load p, .int⟩] (.inst n) .int bs
  | useParameter {bs : Bindings} {n : Nat} {origin : Origin} {x : String} {p : Handle} :
      bs.lookup x = some (.argument p) →
      Code bs n (.use origin x .value) [] p .int bs
  | step {bs : Bindings} {n : Nat} {origin : Origin} {x : String} {order : StepOrder}
      {direction : Direction} {p : Handle} :
      bs.lookup x = some (.storage p) →
      Code bs n (.step origin x order direction)
        [⟨.load p, .int⟩, ⟨.binary direction.toBinOp (.inst n) (.const 1), .int⟩,
          ⟨.store p (.inst (n + 1)), .void⟩]
        (order.select (.inst n) (.inst (n + 1))) .int bs
  | int {bs : Bindings} {n : Nat} {origin : Origin} {v : Int64} :
      Code bs n (.int origin v) [] (.const v) .int bs
  | function {bs : Bindings} {n : Nat} {origin : Origin} {name : String} {type : SourceType}
      {params : List Parameter} {body : List Node} {id : Nat} :
      Code bs n (.function origin name type params body) [] (.func id) .fn bs
  | argument {bs : Bindings} {n : Nat} {origin : Origin} {index : Nat} :
      index < arity →
      Code bs n (.argument origin index) [] (.arg (.ofNat index)) .int bs
  | print {bs bs₁ : Bindings} {n : Nat} {origin : Origin} {arg : Node} {ls : List Line}
      {v : Handle} {ty : Ty} :
      Code bs n arg ls v ty bs₁ → ty.passable = true →
      Code bs n (.print origin [arg]) (ls ++ [⟨.call 0 (settings.formatArgs ++ [v]), .int⟩])
        (.inst (n + ls.length)) .int bs₁
  | returnValue {bs bs₁ : Bindings} {n : Nat} {origin : Origin} {value : Node} {ls : List Line}
      {v : Handle} :
      Code bs n value ls v .int bs₁ → result = .int →
      Code bs n (.ret origin (some value)) (ls ++ [⟨.ret (some v), .void⟩])
        (.inst (n + ls.length)) .void bs₁
  | returnNothing {bs : Bindings} {n : Nat} {origin : Origin} :
      result = .void →
      Code bs n (.ret origin none) [⟨.ret none, .void⟩] (.inst n) .void bs

/-- The code of statements, one after the other. Only nodes without instructions can follow a
return. -/
inductive CodeAll : Bindings → Nat → List Node → List Line → Bindings → Prop
  | nil {bs : Bindings} {n : Nat} : CodeAll bs n [] [] bs
  | cons {bs bs₁ bs₂ : Bindings} {n : Nat} {node : Node} {rest : List Node} {ls rs : List Line}
      {h : Handle} {ty : Ty} :
      Code settings arity result bs n node ls h ty bs₁ → CodeAll bs₁ (n + ls.length) rest rs bs₂ →
      (ty = .void → rs = []) →
      CodeAll bs n (node :: rest) (ls ++ rs) bs₂

end

/-- The function with a body. -/
def Func.define (f : Func) (lines : List Line) : Func :=
  { f with body? := some (lines.map Line.instr), types := lines.map Line.ty }

/-- A function of a module is the code of a function of the tree. -/
def Compiled (settings : Settings) : Node → Func → Prop
  | .function _ name result params body, f =>
    (params.map Parameter.name).Nodup ∧
      ∃ lines bs, CodeAll settings params.length result (Parameter.bindings 0 params []) 0 body
          lines bs ∧
        f = (Func.pending name (params.map Parameter.toParam) result.toTy).define
          (result.complete lines)
  | _, _ => False

namespace Target

variable {bs bs' : Bindings} {n : Nat} {target : Node} {lines : List Line} {p : Handle}

theorem noReturn (ht : Target bs n target lines p bs') : NoReturn lines := by
  cases ht <;> simp [NoReturn, Instr.isTerminator]

theorem functions_eq (ht : Target bs n target lines p bs') : target.functions = [] := by
  cases ht <;> rfl

theorem hasPrint_eq (ht : Target bs n target lines p bs') : target.hasPrint = false := by
  cases ht <;> rfl

theorem prints_eq (ht : Target bs n target lines p bs') : target.prints = 0 := by
  cases ht <;> rfl

end Target

namespace Code

variable {settings : Settings} {arity : Nat} {result : SourceType}

/-- Only a return has type `void`, and it ends its code. -/
theorem endsInReturn_of_void {bs bs' : Bindings} {n : Nat} {node : Node} {lines : List Line}
    {h : Handle} (hc : Code settings arity result bs n node lines h .void bs') :
    endsInReturn lines = true := by
  cases hc with
  | returnValue => simp [Instr.isTerminator]
  | returnNothing => simp [endsInReturn, Instr.isTerminator]

/-- The code of anything but a return does not leave the function. -/
theorem noReturn {bs bs' : Bindings} {n : Nat} {node : Node} {lines : List Line}
    {h : Handle} {ty : Ty} (hc : Code settings arity result bs n node lines h ty bs')
    (hty : ty ≠ .void) : NoReturn lines := by
  have hone : ∀ {line : Line}, line.instr.isTerminator = false → NoReturn [line] := by
    intro line hline l hl
    rw [List.mem_singleton.mp hl]
    exact hline
  induction hc with
  | binary _ _ ihl ihr => exact ((ihl (by decide)).append (ihr (by decide))).append (hone rfl)
  | assign _ ht ih => exact ((ih (by decide)).append ht.noReturn).append (hone rfl)
  | @print _ _ _ _ _ _ _ ty _ hpass ih =>
      have hty : ty ≠ .void := by
        rintro rfl
        cases hpass
      exact (ih hty).append (hone rfl)
  | step => simp [NoReturn, Instr.isTerminator]
  | declare | useVariable => exact hone rfl
  | useAddress | useParameter | int | function | argument => exact fun _ h => nomatch h
  | returnValue | returnNothing => exact absurd rfl hty

end Code

end SlotLang
