import SlotLang.Instr
import SlotLang.Position

/-!
# SlotLang.Node

The syntax tree. Statements and expressions are both nodes: every node can stand where a value is
wanted, and whether it yields a fitting one is found out when it is lowered. Each node carries its
origin, which has no part in what the node means.
-/

namespace SlotLang

/-- The arithmetic and bitwise operators of expressions. -/
inductive ArithOp
  | add
  | sub
  | mul
  | div
  | rem
  | bitOr
  | bitAnd
  deriving DecidableEq, Repr

namespace ArithOp

/-- The operator sign. -/
def symbol : ArithOp → String
  | add => "+"
  | sub => "-"
  | mul => "*"
  | div => "/"
  | rem => "%"
  | bitOr => "|"
  | bitAnd => "&"

/-- The instruction that performs an operator. -/
def toBinOp : ArithOp → BinOp
  | add => .add
  | sub => .sub
  | mul => .mul
  | div => .sdiv
  | rem => .srem
  | bitOr => .or
  | bitAnd => .and

end ArithOp

/-- Which way a variable is stepped. -/
inductive Direction
  | increment
  | decrement
  deriving DecidableEq, Repr

namespace Direction

/-- The operator sign. -/
def symbol : Direction → String
  | increment => "++"
  | decrement => "--"

/-- The operation that makes the step. -/
def toBinOp : Direction → BinOp
  | increment => .add
  | decrement => .sub

end Direction

/-- Which value a step yields: the one after it (`pre`) or the one before it (`post`). -/
inductive StepOrder
  | pre
  | post
  deriving DecidableEq, Repr

/-- Whether a use of a variable means its value or its slot. -/
inductive UseMode
  | value
  | address
  deriving DecidableEq, Repr

/-- The types that source text can name. -/
inductive SourceType
  | int
  | void
  deriving DecidableEq, Repr

namespace SourceType

/-- The type in code. -/
def toTy : SourceType → Ty
  | int => .int
  | void => .void

end SourceType

/-- A parameter as written in a function's head. -/
structure Parameter where
  name : String
  type : SourceType
  deriving DecidableEq, Repr

/-- A statement or expression. -/
inductive Node
  /-- An operator between two operands. -/
  | binary (origin : Origin) (op : ArithOp) (left right : Node)
  /-- Writes a value to a variable, which may be declared on the spot. -/
  | assign (origin : Origin) (target value : Node)
  /-- Introduces a variable. -/
  | declare (origin : Origin) (name : String)
  /-- Mentions a variable or parameter. -/
  | use (origin : Origin) (name : String) (mode : UseMode)
  /-- Adds one to a variable or takes one away. -/
  | step (origin : Origin) (name : String) (order : StepOrder) (direction : Direction)
  /-- An integer literal. -/
  | int (origin : Origin) (value : Int64)
  /-- Introduces a function. -/
  | function (origin : Origin) (name : String) (result : SourceType) (params : List Parameter)
      (body : List Node)
  /-- The parameter at an index of the function around it. -/
  | argument (origin : Origin) (index : Nat)
  /-- Prints a value. -/
  | print (origin : Origin) (args : List Node)
  /-- Leaves the function, with or without a value. -/
  | ret (origin : Origin) (value : Option Node)
  deriving Repr

/-- The kinds of nodes, as diagnostics name them. -/
inductive NodeKind
  | binary
  | assign
  | declare
  | use
  | step
  | int
  | function
  | argument
  | print
  | ret
  deriving DecidableEq, Repr

namespace NodeKind

/-- The name of a kind. -/
def text : NodeKind → String
  | binary => "binary"
  | assign => "assignment"
  | declare => "declaration"
  | use => "use"
  | step => "increment/decrement"
  | int => "integer"
  | function => "function"
  | argument => "argument"
  | print => "print"
  | ret => "return"

end NodeKind

namespace Node

/-- Where a node comes from. -/
def origin : Node → Origin
  | binary o _ _ _ | assign o _ _ | declare o _ | use o _ _ | step o _ _ _ | int o _
  | function o _ _ _ _ | argument o _ | print o _ | ret o _ => o

/-- The kind of a node. -/
def kind : Node → NodeKind
  | binary .. => .binary
  | assign .. => .assign
  | declare .. => .declare
  | use .. => .use
  | step .. => .step
  | int .. => .int
  | function .. => .function
  | argument .. => .argument
  | print .. => .print
  | ret .. => .ret

/-- The name that a node introduces or mentions. -/
def identifier? : Node → Option String
  | declare _ name | use _ name _ | step _ name _ _ | function _ name _ _ _ => some name
  | binary .. | assign .. | int .. | argument .. | print .. | ret .. => none

/-! ### Text -/

/-- A node without its place. Functions and prints show only their outline. -/
def text : Node → String
  | binary _ op left right => "(" ++ left.text ++ " " ++ op.symbol ++ " " ++ right.text ++ ")"
  | assign _ target value => "(" ++ target.text ++ " = " ++ value.text ++ ")"
  | declare _ name => "int " ++ name
  | use _ name .value => name
  | use _ name .address => "&" ++ name
  | step _ name .pre direction => direction.symbol ++ name
  | step _ name .post direction => name ++ direction.symbol
  | int _ value => toString value.toInt
  | function _ name _ params _ =>
    "fn " ++ name ++ "(" ++ ", ".intercalate (params.map Parameter.name) ++ ")"
  | argument _ index => "arg#" ++ toString index
  | print _ args => "print/" ++ toString args.length
  | ret _ (some value) => "return " ++ value.text
  | ret _ none => "return"

/-- A node with its place, if that is known. -/
def placedText (n : Node) : String :=
  match n.origin.position with
  | some position => n.text ++ " @ " ++ position.text
  | none => n.text

/-! ### Equality -/

mutual

/-- Two nodes agree in everything, origins included. -/
def same : Node → Node → Bool
  | binary o₁ op₁ l₁ r₁, binary o₂ op₂ l₂ r₂ => o₁ = o₂ && op₁ = op₂ && l₁.same l₂ && r₁.same r₂
  | assign o₁ t₁ v₁, assign o₂ t₂ v₂ => o₁ = o₂ && t₁.same t₂ && v₁.same v₂
  | declare o₁ n₁, declare o₂ n₂ => o₁ = o₂ && n₁ = n₂
  | use o₁ n₁ m₁, use o₂ n₂ m₂ => o₁ = o₂ && n₁ = n₂ && m₁ = m₂
  | step o₁ n₁ s₁ d₁, step o₂ n₂ s₂ d₂ => o₁ = o₂ && n₁ = n₂ && s₁ = s₂ && d₁ = d₂
  | int o₁ v₁, int o₂ v₂ => o₁ = o₂ && v₁ = v₂
  | function o₁ n₁ t₁ p₁ b₁, function o₂ n₂ t₂ p₂ b₂ =>
    o₁ = o₂ && n₁ = n₂ && t₁ = t₂ && p₁ = p₂ && sameAll b₁ b₂
  | argument o₁ i₁, argument o₂ i₂ => o₁ = o₂ && i₁ = i₂
  | print o₁ a₁, print o₂ a₂ => o₁ = o₂ && sameAll a₁ a₂
  | ret o₁ (some v₁), ret o₂ (some v₂) => o₁ = o₂ && v₁.same v₂
  | ret o₁ none, ret o₂ none => o₁ = o₂
  | _, _ => false

/-- Two lists of nodes agree, node by node. -/
def sameAll : List Node → List Node → Bool
  | [], [] => true
  | n₁ :: r₁, n₂ :: r₂ => n₁.same n₂ && sameAll r₁ r₂
  | _, _ => false

end

mutual

/-- `same` is equality. -/
theorem same_eq_true_iff : ∀ n k : Node, n.same k = true ↔ n = k
  | binary o op l r, k => by
    cases k <;> simp [same, same_eq_true_iff l, same_eq_true_iff r, and_assoc]
  | assign o t v, k => by
    cases k <;> simp [same, same_eq_true_iff t, same_eq_true_iff v, and_assoc]
  | declare o n, k => by cases k <;> simp [same]
  | use o n m, k => by cases k <;> simp [same, and_assoc]
  | step o n s d, k => by cases k <;> simp [same, and_assoc]
  | int o v, k => by cases k <;> simp [same]
  | function o n t p b, k => by cases k <;> simp [same, sameAll_eq_true_iff b, and_assoc]
  | argument o i, k => by cases k <;> simp [same]
  | print o a, k => by cases k <;> simp [same, sameAll_eq_true_iff a]
  | ret o none, k => by
    cases k with
    | ret o' v' => cases v' <;> simp [same]
    | _ => simp [same]
  | ret o (some v), k => by
    cases k with
    | ret o' v' => cases v' <;> simp [same, same_eq_true_iff v]
    | _ => simp [same]

/-- `sameAll` is equality of lists. -/
theorem sameAll_eq_true_iff : ∀ ns ks : List Node, sameAll ns ks = true ↔ ns = ks
  | [], ks => by cases ks <;> simp [sameAll]
  | n :: ns, ks => by
    cases ks <;> simp [sameAll, same_eq_true_iff n, sameAll_eq_true_iff ns]

end

instance : DecidableEq Node := fun n k =>
  decidable_of_iff _ (same_eq_true_iff n k)

end Node

end SlotLang
