import SlotLang.Program

/-!
# SlotLang.Proofs.Tree

What can be read off a tree without giving it a meaning: the functions it declares and where it
prints.
-/

namespace SlotLang

namespace Node

mutual

/-- The functions of a tree in pre-order: a function comes before those inside it. -/
def functions : Node → List Node
  | node@(function _ _ _ _ body) => node :: functionsAll body
  | binary _ _ left right => left.functions ++ right.functions
  | assign _ target value => target.functions ++ value.functions
  | print _ args => functionsAll args
  | ret _ (some value) => value.functions
  | declare .. | use .. | step .. | int .. | argument .. | ret _ none => []

/-- The functions of trees in order. -/
def functionsAll : List Node → List Node
  | [] => []
  | node :: rest => node.functions ++ functionsAll rest

end

mutual

/-- The number of prints that belong to the function around a node. Those inside a function below
it are not counted. -/
def prints : Node → Nat
  | print _ args => printsAll args + 1
  | binary _ _ left right => left.prints + right.prints
  | assign _ target value => target.prints + value.prints
  | ret _ (some value) => value.prints
  | function .. | declare .. | use .. | step .. | int .. | argument .. | ret _ none => 0

/-- The number of prints in statements, without those of the functions among them. -/
def printsAll : List Node → Nat
  | [] => 0
  | node :: rest => node.prints + printsAll rest

end

mutual

/-- A tree prints somewhere, be it inside a function. -/
def hasPrint : Node → Bool
  | print .. => true
  | function _ _ _ _ body => hasPrintAll body
  | binary _ _ left right => left.hasPrint || right.hasPrint
  | assign _ target value => target.hasPrint || value.hasPrint
  | ret _ (some value) => value.hasPrint
  | declare .. | use .. | step .. | int .. | argument .. | ret _ none => false

/-- One of the trees prints somewhere. -/
def hasPrintAll : List Node → Bool
  | [] => false
  | node :: rest => node.hasPrint || hasPrintAll rest

end

mutual

/-- What a function inside a tree prints, the tree prints. -/
theorem hasPrint_of_mem_functions {f : Node} (hf : f.hasPrint = true) :
    ∀ {node : Node}, f ∈ node.functions → node.hasPrint = true
  | .function _ _ _ _ body, h => by
      rcases List.mem_cons.mp h with rfl | h
      · exact hf
      · exact hasPrintAll_of_mem_functionsAll hf h
  | .binary _ _ left right, h => by
      rw [hasPrint, Bool.or_eq_true]
      rcases List.mem_append.mp h with h | h
      · exact .inl (hasPrint_of_mem_functions hf h)
      · exact .inr (hasPrint_of_mem_functions hf h)
  | .assign _ target value, h => by
      rw [hasPrint, Bool.or_eq_true]
      rcases List.mem_append.mp h with h | h
      · exact .inl (hasPrint_of_mem_functions hf h)
      · exact .inr (hasPrint_of_mem_functions hf h)
  | .print _ _, _ => rfl
  | .ret _ (some value), h => by
      rw [hasPrint]
      exact hasPrint_of_mem_functions hf h

theorem hasPrintAll_of_mem_functionsAll {f : Node} (hf : f.hasPrint = true) :
    ∀ {nodes : List Node}, f ∈ functionsAll nodes → hasPrintAll nodes = true
  | node :: rest, h => by
      rw [hasPrintAll, Bool.or_eq_true]
      rcases List.mem_append.mp h with h | h
      · exact .inl (hasPrint_of_mem_functions hf h)
      · exact .inr (hasPrintAll_of_mem_functionsAll hf h)

end

mutual

/-- A tree that prints nowhere has no print to count. -/
theorem prints_eq_zero : ∀ {node : Node}, node.hasPrint = false → node.prints = 0
  | .binary _ _ left right, h => by
      rw [hasPrint, Bool.or_eq_false_iff] at h
      rw [prints, prints_eq_zero h.1, prints_eq_zero h.2]
  | .assign _ target value, h => by
      rw [hasPrint, Bool.or_eq_false_iff] at h
      rw [prints, prints_eq_zero h.1, prints_eq_zero h.2]
  | .ret _ (some value), h => by
      rw [hasPrint] at h
      rw [prints, prints_eq_zero h]
  | .print _ _, h => nomatch h
  | .function .., _ | .declare .., _ | .use .., _ | .step .., _ | .int .., _ | .argument .., _
  | .ret _ none, _ => rfl

theorem printsAll_eq_zero : ∀ {nodes : List Node}, hasPrintAll nodes = false → printsAll nodes = 0
  | [], _ => rfl
  | node :: rest, h => by
      rw [hasPrintAll, Bool.or_eq_false_iff] at h
      rw [printsAll, prints_eq_zero h.1, printsAll_eq_zero h.2]

end

theorem functionsAll_append (nodes rest : List Node) :
    functionsAll (nodes ++ rest) = functionsAll nodes ++ functionsAll rest := by
  induction nodes with
  | nil => rfl
  | cons node nodes ih => rw [List.cons_append, functionsAll, functionsAll, ih, List.append_assoc]

end Node

namespace Program

/-- A program as the function that it becomes. -/
def main (settings : Settings) (program : Program) : Node :=
  .function .unknown settings.entryFunction .int [] program

@[simp] theorem functions_main (settings : Settings) (program : Program) :
    (program.main settings).functions = program.main settings :: Node.functionsAll program := rfl

end Program

end SlotLang
