import SlotLang.Proofs.Translation

/-!
# SlotLang.Proofs.Shape

What a lowered module looks like: which functions it has, in which order and with which types,
where their code returns, and what it calls. All of it is read off `Code`.
-/

namespace SlotLang

/-! ### Calls -/

/-- The callee and the arguments of a call. -/
def Instr.call? : Instr → Option (Nat × List Handle)
  | .call callee args => some (callee, args)
  | _ => none

/-- The calls in code, in order. -/
def calls (lines : List Line) : List (Nat × List Handle) :=
  lines.filterMap fun line => line.instr.call?

@[simp] theorem calls_append (ls rs : List Line) : calls (ls ++ rs) = calls ls ++ calls rs :=
  List.filterMap_append

/-- Code that calls the print routine `count` times and nothing else. Each call passes one value,
behind the format if there is one. -/
def CallsPrint (settings : Settings) (lines : List Line) (count : Nat) : Prop :=
  ∃ values : List Handle, values.length = count ∧
    calls lines = values.map fun v => (0, settings.formatArgs ++ [v])

namespace CallsPrint

variable {settings : Settings} {ls rs : List Line} {i j : Nat}

theorem none (h : calls ls = []) : CallsPrint settings ls 0 := ⟨[], rfl, h⟩

theorem append (hl : CallsPrint settings ls i) (hr : CallsPrint settings rs j) :
    CallsPrint settings (ls ++ rs) (i + j) := by
  obtain ⟨vs, hvs, hl⟩ := hl
  obtain ⟨ws, hws, hr⟩ := hr
  refine ⟨vs ++ ws, ?_, ?_⟩
  · rw [List.length_append, hvs, hws]
  · rw [calls_append, hl, hr, List.map_append]

/-- Instructions that call nothing do not count. -/
theorem append_none (hl : CallsPrint settings ls i) (hr : calls rs = []) :
    CallsPrint settings (ls ++ rs) i := hl.append (none hr)

end CallsPrint

section

variable {settings : Settings} {arity : Nat} {result : SourceType} {bs bs' : Bindings} {n : Nat}

/-- The code of a node has one call for each print that belongs to its function. -/
theorem Code.callsPrint {node : Node} {lines : List Line} {h : Handle} {ty : Ty}
    (hc : Code settings arity result bs n node lines h ty bs') :
    CallsPrint settings lines node.prints := by
  induction hc with
  | binary _ _ ihl ihr => exact (ihl.append ihr).append_none rfl
  | assign _ ht ih =>
      rw [Node.prints, ht.prints_eq, Nat.zero_add]
      refine (ih.append_none ?_).append_none rfl
      cases ht <;> rfl
  | @print _ _ _ _ _ _ v _ _ _ ih => exact ih.append ⟨[v], rfl, rfl⟩
  | returnValue _ _ ih => exact ih.append_none rfl
  | declare | useAddress | useVariable | useParameter | step | int | function | argument
  | returnNothing => exact .none rfl

theorem CodeAll.callsPrint {nodes : List Node} {lines : List Line}
    (hc : CodeAll settings arity result bs n nodes lines bs') :
    CallsPrint settings lines (Node.printsAll nodes) := by
  induction hc with
  | nil => exact .none rfl
  | cons hnode _ _ ih => exact hnode.callsPrint.append ih

/-! ### Returns -/

/-- Code with exactly one return, at its end. -/
def ReturnsLast (lines : List Line) : Prop :=
  ∃ before value, lines = before ++ [⟨.ret value, .void⟩] ∧ NoReturn before

theorem Code.returns {node : Node} {lines : List Line} {h : Handle} {ty : Ty}
    (hc : Code settings arity result bs n node lines h ty bs') :
    (ty ≠ .void ∧ NoReturn lines) ∨ (ty = .void ∧ ReturnsLast lines) := by
  by_cases hty : ty = .void
  · subst hty
    refine .inr ⟨rfl, ?_⟩
    cases hc with
    | returnValue hvalue => exact ⟨_, _, rfl, hvalue.noReturn (by decide)⟩
    | returnNothing => exact ⟨[], none, rfl, fun _ h => nomatch h⟩
  · exact .inl ⟨hty, hc.noReturn hty⟩

theorem CodeAll.returns {nodes : List Node} {lines : List Line}
    (hc : CodeAll settings arity result bs n nodes lines bs') :
    NoReturn lines ∨ ReturnsLast lines := by
  induction hc with
  | nil => exact .inl fun _ h => nomatch h
  | cons hnode _ hvoid ih =>
      rcases hnode.returns with ⟨-, hls⟩ | ⟨hty, hls⟩
      · rcases ih with hrs | ⟨before, value, rfl, hrs⟩
        · exact .inl (hls.append hrs)
        · exact .inr ⟨_, value, (List.append_assoc _ _ _).symm, hls.append hrs⟩
      · rw [hvoid hty, List.append_nil]
        exact .inr hls

/-- A complete body has exactly one return, at its end. -/
theorem CodeAll.complete_returnsLast {nodes : List Node} {lines : List Line}
    (hc : CodeAll settings arity result bs n nodes lines bs') :
    ReturnsLast (result.complete lines) := by
  rcases hc.returns with hno | ⟨before, value, rfl, hno⟩
  · rw [SourceType.complete, hno.endsInReturn_eq]
    exact ⟨lines, result.implicit, rfl, hno⟩
  · have hret : endsInReturn (before ++ [⟨.ret value, .void⟩]) = true := by
      rw [endsInReturn_concat]
      rfl
    rw [SourceType.complete, if_pos hret]
    exact ⟨before, value, rfl, hno⟩

/-- Neither does the return at the end of a body call anything. -/
theorem CallsPrint.complete {lines : List Line} {count : Nat} (h : CallsPrint settings lines count)
    (result : SourceType) : CallsPrint settings (result.complete lines) count := by
  unfold SourceType.complete
  split
  · exact h
  · exact h.append_none rfl

end

/-! ### Modules -/

/-- The shape of a function that comes from the tree: it has the name and the types that it has
there, and a body with one return, at the end, and one call for each print of its own. Each
instruction of the body has a type. -/
def FunctionShape (settings : Settings) : Node → Func → Prop
  | .function _ name result params body, f =>
    f.name = name ∧ f.params = params.map Parameter.toParam ∧ f.result = result.toTy ∧
      f.isExternal = false ∧ f.isVariadic = false ∧
      ∃ lines : List Line, f.body? = some (lines.map Line.instr) ∧ f.types = lines.map Line.ty ∧
        ReturnsLast lines ∧ CallsPrint settings lines (Node.printsAll body)
  | _, _ => False

/-- The shape of a lowered module. -/
structure ModuleShape (settings : Settings) (program : Program) (m : Module) : Prop where
  /-- The first function is the print routine: it is external and variadic, yields an integer and
  has one parameter, an address, if and only if there is a format. -/
  print : ∃ f, m.function? 0 = some f ∧ f.name = settings.printRoutine ∧
    f.isExternal = true ∧ f.isVariadic = true ∧ f.body? = none ∧ f.result = .int ∧
    f.params.map Param.ty = if settings.printFormat.isSome then [.ptr] else []
  /-- Behind it come the entry function and then the functions of the program in pre-order. -/
  functions : List.Forall₂ (FunctionShape settings)
    (.function .unknown settings.entryFunction .int [] program :: Node.functionsAll program)
    (m.functions.drop 1)
  /-- The only text is the format, and only a program that prints needs it. -/
  texts : m.texts =
    if Node.hasPrintAll program then settings.printFormat.toList else []

theorem Compiled.functionShape {settings : Settings} {node : Node} {f : Func}
    (h : Compiled settings node f) : FunctionShape settings node f := by
  cases node with
  | function origin name result params body =>
      obtain ⟨-, lines, bs, hcode, rfl⟩ := h
      exact ⟨rfl, rfl, rfl, rfl, rfl, result.complete lines, rfl, rfl, hcode.complete_returnsLast,
        hcode.callsPrint.complete result⟩
  | _ => exact h.elim

/-- Every lowered module has the shape that its program asks for. -/
theorem lower_moduleShape {settings : Settings} {program : Program} {m : Module}
    (h : (program.lower settings).1 = .ok m) : ModuleShape settings program m := by
  have ht := Program.translated h
  obtain ⟨fs, hfs, hcompiled⟩ := ht.functions
  refine ⟨⟨settings.printFunc, by rw [Module.function?, hfs]; rfl, rfl, rfl, rfl, rfl, rfl, ?_⟩, ?_,
    ht.texts⟩
  · unfold Settings.printFunc
    cases settings.printFormat <;> rfl
  · rw [hfs]
    exact hcompiled.imp fun _ _ hc => hc.functionShape

/-- A program with a function of its own, in which both the program and the function print. -/
def Program.printing : Program :=
  [.function .unknown "f" .void [⟨"a", .int⟩] [.print .unknown [.argument .unknown 0]],
    .print .unknown [.int .unknown 1]]

theorem lower_moduleShape_printing :
    ∃ m, (Program.lower .default .printing).1 = .ok m ∧ ModuleShape .default .printing m := by
  have hok : (Program.lower .default .printing).1.toBool = true := by decide +kernel
  cases hm : (Program.lower .default .printing).1 with
  | error e => rw [hm] at hok; cases hok
  | ok m => exact ⟨m, rfl, lower_moduleShape hm⟩

end SlotLang
