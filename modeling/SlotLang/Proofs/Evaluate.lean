import Mathlib.Algebra.Group.Nat.Defs
import SlotLang.Machine.Print
import SlotLang.Proofs.Tree

/-!
# SlotLang.Proofs.Evaluate

What a tree means, said without code. A call of a function is an `Activation`: variables by name,
arguments by number and the texts printed so far. Nodes are evaluated from left to right; a node
that makes no sense where it stands is `stuck`, which no correct program ever is.
-/

namespace SlotLang

namespace Source

/-- The value of a node. -/
inductive Value
  | int (value : Int64)
  /-- The place of a variable, which is no integer. -/
  | address
  /-- What the declaration of a function yields. -/
  | function
  deriving DecidableEq, Repr

/-- What can go wrong in an evaluation. -/
inductive Fault
  | notDeclared (name : String)
  | argumentCount (expected found : Nat)
  /-- A read of a variable that was never written. -/
  | uninitialized (name : String)
  | arith (fault : ArithFault)
  /-- A print of something that is no integer. -/
  | addressPrinted
  /-- A print format that does not fit one integer. -/
  | format (fault : PrintFault)
  /-- A node that has no meaning where it stands. -/
  | stuck
  deriving DecidableEq, Repr

/-- A fault and the function that is blamed. -/
structure Error where
  function : String
  fault : Fault
  deriving DecidableEq, Repr

/-- Why the evaluation of a body ends early. -/
inductive Stop
  | returned (value : Option Int64)
  | failed (error : Error)
  deriving DecidableEq, Repr

/-- A call of a function under way. -/
structure Activation where
  function : String
  /-- The names of the parameters. -/
  params : List String
  args : List Int64
  /-- The declared variables; one that was never written holds nothing. -/
  locals : String → Option (Option Int64)
  output : List String

namespace Activation

/-- A call that begins. -/
def start (function : String) (params : List String) (args : List Int64) : Activation :=
  ⟨function, params, args, fun _ => none, []⟩

/-- The argument of a number. Argument numbers are 32 bits wide, so in a call with more than
`2 ^ 32` arguments the numbers start over. -/
def argument? (a : Activation) (index : Nat) : Option Int64 :=
  a.args[index % 2 ^ 32]?

/-- In a call with at most `2 ^ 32` arguments each number means its own argument. -/
theorem argument?_eq {a : Activation} {index : Nat} (ha : a.args.length ≤ 2 ^ 32)
    (hi : index < a.args.length) : a.argument? index = a.args[index]? := by
  rw [argument?, Nat.mod_eq_of_lt (Nat.lt_of_lt_of_le hi ha)]

/-- The argument of a parameter. -/
def parameter? (a : Activation) (name : String) : Option Int64 :=
  (a.params.idxOf? name).bind a.argument?

/-- A variable takes on a state: declared and without a value, or holding one. -/
def assign (a : Activation) (name : String) (value : Option Int64) : Activation :=
  { a with locals := fun x => if x = name then some value else a.locals x }

/-- A text is printed. -/
def write (a : Activation) (text : String) : Activation :=
  { a with output := a.output ++ [text] }

end Activation

/-- Evaluation steps: they change the activation, and a stop keeps the changes. -/
abbrev Eval := EStateM Stop Activation

namespace Eval

/-- Ends the evaluation with a fault of the function at hand. -/
def fail {α : Type} (fault : Fault) : Eval α := fun a =>
  .error (.failed ⟨a.function, fault⟩) a

/-- The integer that is needed here. -/
def intOf : Value → Eval Int64
  | .int v => return v
  | .address | .function => fail .stuck

/-- Declares a variable, which holds nothing yet. -/
def declare (name : String) : Eval Unit :=
  modify fun a => a.assign name none

/-- Writes a declared variable. -/
def store (name : String) (value : Int64) : Eval Unit := fun a =>
  match a.locals name with
  | some _ => .ok () (a.assign name (some value))
  | none => fail .stuck a

/-- Reads a declared variable. -/
def load (name : String) : Eval Int64 := fun a =>
  match a.locals name with
  | some (some v) => .ok v a
  | some none => fail (.uninitialized name) a
  | none => fail .stuck a

/-- The argument of a number. -/
def argument (index : Nat) : Eval Value := fun a =>
  match a.argument? index with
  | some v => .ok (.int v) a
  | none => fail .stuck a

/-- A name means the value of a variable, or else the argument of a parameter. -/
def use (name : String) : UseMode → Eval Value
  | .address => return .address
  | .value => fun a =>
    match a.locals name, a.parameter? name with
    | some _, _ => (Value.int <$> load name) a
    | none, some v => .ok (.int v) a
    | none, none => fail .stuck a

end Eval

end Source

namespace ArithOp

/-- The exact result of an operator, reduced to 64 bits. Division goes toward zero. -/
def compute : ArithOp → Int64 → Int64 → Except ArithFault Int64
  | add, l, r => .ok (.ofInt (l.toInt + r.toInt))
  | sub, l, r => .ok (.ofInt (l.toInt - r.toInt))
  | mul, l, r => .ok (.ofInt (l.toInt * r.toInt))
  | div, l, r => if r = 0 then .error .divisionByZero else .ok (.ofInt (l.toInt.tdiv r.toInt))
  | rem, l, r => if r = 0 then .error .remainderByZero else .ok (.ofInt (l.toInt.tmod r.toInt))
  | bitOr, l, r => .ok (l ||| r)
  | bitAnd, l, r => .ok (l &&& r)

end ArithOp

namespace Direction

/-- One more or one less, reduced to 64 bits. -/
def shift : Direction → Int64 → Int64
  | increment, v => .ofInt (v.toInt + 1)
  | decrement, v => .ofInt (v.toInt - 1)

end Direction

namespace Source

/-- How far a print format has been read. -/
structure Display where
  /-- What is printed so far. -/
  text : String
  /-- The integer has been shown. -/
  shown : Bool
  /-- The last character was a percent sign, and the next one says what it means. -/
  percent : Bool

namespace Display

/-- Nothing has been read. -/
def start : Display := ⟨"", false, false⟩

/-- Reads the next character of a format that shows an integer. `%d` and `%i` stand for the integer,
which can be shown only once, and `%%` stands for a percent sign. -/
def read (value : Int64) (d : Display) (c : Char) : Except PrintFault Display :=
  if d.percent then
    if c = '%' then .ok ⟨d.text ++ "%", d.shown, false⟩
    else if c = 'd' ∨ c = 'i' then
      if d.shown then .error .missingArgument
      else .ok ⟨d.text ++ toString value.toInt, true, false⟩
    else .error (.unsupported c)
  else if c = '%' then .ok { d with percent := true }
  else .ok { d with text := d.text ++ String.singleton c }

/-- Nothing follows the last character, so it may not be a percent sign that needs a letter. -/
def finish (d : Display) : Except PrintFault String :=
  if d.percent then .error .danglingPercent else .ok d.text

end Display

end Source

namespace Settings

/-- The text that a printed integer becomes: the format with the integer in it, or else a line with
nothing but the integer in decimal. -/
def printed (settings : Settings) (value : Int64) : Except PrintFault String :=
  match settings.printFormat with
  | some format => format.toList.foldlM (Source.Display.read value) .start >>= Source.Display.finish
  | none => .ok (toString value.toInt ++ "\n")

end Settings

namespace Source.Eval

/-- The value of an operator. -/
def combine (op : ArithOp) (left right : Value) : Eval Value := do
  let l ← intOf left
  let r ← intOf right
  match op.compute l r with
  | .ok v => return .int v
  | .error fault => fail (.arith fault)

/-- Writes a variable, which may be declared on the spot. -/
def assign (target : Node) (value : Int64) : Eval Unit :=
  match target with
  | .use _ name _ => store name value
  | .declare _ name => do
    declare name
    store name value
  | _ => fail .stuck

/-- Changes a variable by one and yields its value after that or before it. -/
def step (name : String) (order : StepOrder) (direction : Direction) : Eval Value := do
  let current ← load name
  let updated := direction.shift current
  store name updated
  match order with
  | .pre => return .int updated
  | .post => return .int current

/-- Prints an integer and yields the number of bytes printed. A print that fails is blamed on the
print routine. -/
def print (settings : Settings) : Value → Eval Value
  | .int v =>
    match settings.printed v with
    | .ok text => do
      modify fun a => a.write text
      return .int (.ofNat text.utf8ByteSize)
    | .error fault => throw (.failed ⟨settings.printRoutine, .format fault⟩)
  | .address => throw (.failed ⟨settings.printRoutine, .addressPrinted⟩)
  | .function => fail .stuck

end Source.Eval

namespace Node

open Source

mutual

/-- Evaluates a node in the activation at hand. -/
def eval (settings : Settings) : Node → Eval Source.Value
  | binary _ op left right => do
    let l ← left.eval settings
    let r ← right.eval settings
    Eval.combine op l r
  | assign _ target value => do
    let v ← Eval.intOf (← value.eval settings)
    Eval.assign target v
    return .int v
  | declare _ name => do
    Eval.declare name
    return .address
  | use _ name mode => Eval.use name mode
  | step _ name order direction => Eval.step name order direction
  | int _ value => return .int value
  | function .. => return .function
  | argument _ index => Eval.argument index
  | print _ [arg] => do
    let v ← arg.eval settings
    Eval.print settings v
  | print _ _ => Eval.fail .stuck
  | ret _ (some value) => do
    let v ← Eval.intOf (← value.eval settings)
    throw (.returned (some v))
  | ret _ none => throw (.returned none)

/-- Evaluates statements in order. -/
def evalAll (settings : Settings) : List Node → Eval Unit
  | [] => return
  | node :: rest => do
    let _ ← node.eval settings
    evalAll settings rest

end

/-- How the call of a function ends, and what it prints. A body that comes to its end yields zero
if the function has to yield an integer. -/
def callWith (settings : Settings) (args : List Int64) :
    Node → Except Source.Error (Option Int64) × List String
  | function _ name result params body =>
    if args.length = params.length then
      match evalAll settings body (.start name (params.map Parameter.name) args) with
      | .ok () a =>
        match result with
        | .int => (.ok (some 0), a.output)
        | .void => (.ok none, a.output)
      | .error (.returned value) a => (.ok value, a.output)
      | .error (.failed error) a => (.error error, a.output)
    else
      (.error ⟨name, .argumentCount params.length args.length⟩, [])
  | node => (.error ⟨node.identifier?.getD "", .stuck⟩, [])

end Node

namespace Program

open Source

/-- How a call from outside ends, and what it prints. Every function of the program can be called,
however deep it stands, and so can the print routine, which prints its arguments on one line. -/
def evaluate (settings : Settings) (program : Program) (name : String) (args : List Int64) :
    Except Source.Error (Option Int64) × List String :=
  if name = settings.printRoutine then
    let text := " ".intercalate (args.map fun v => toString v.toInt) ++ "\n"
    (.ok (some (.ofNat text.utf8ByteSize)), [text])
  else
    match (program.main settings).functions.find? fun node => node.identifier? = some name with
    | some node => node.callWith settings args
    | none => (.error ⟨name, .notDeclared name⟩, [])

end Program

end SlotLang
