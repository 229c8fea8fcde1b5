import SlotLang.Proofs.Meaning
import SlotLang.Proofs.Unique

/-!
# SlotLang.Proofs.Renaming

Renaming the variables and parameters of a tree. The names of functions are left alone, since they
are names of the module. Under an injective map every look-up finds what it found before, so the
code is the same up to the names that it carries for readers (`Code.rename`).
-/

namespace SlotLang

/-! ### Trees and code -/

/-- A parameter under another name. -/
def Parameter.rename (r : String → String) (p : Parameter) : Parameter :=
  { p with name := r p.name }

namespace Node

mutual

/-- A tree with its variables and parameters renamed. -/
def rename (r : String → String) : Node → Node
  | binary origin op left right => binary origin op (left.rename r) (right.rename r)
  | assign origin target value => assign origin (target.rename r) (value.rename r)
  | declare origin name => declare origin (r name)
  | use origin name mode => use origin (r name) mode
  | step origin name order direction => step origin (r name) order direction
  | int origin value => int origin value
  | function origin name result params body =>
    function origin name result (params.map (Parameter.rename r)) (renameAll r body)
  | argument origin index => argument origin index
  | print origin args => print origin (renameAll r args)
  | ret origin (some value) => ret origin (some (value.rename r))
  | ret origin none => ret origin none

/-- Statements with their variables and parameters renamed. -/
def renameAll (r : String → String) : List Node → List Node
  | [] => []
  | node :: rest => node.rename r :: renameAll r rest

end

end Node

/-- A parameter of a module under another name. -/
def Param.rename (r : String → String) (p : Param) : Param :=
  { p with name := r p.name }

/-- Of the instructions only a fresh slot carries a name. -/
def Instr.rename (r : String → String) : Instr → Instr
  | .alloca name => .alloca (r name)
  | instr => instr

/-- A line with its name renamed, if it carries one. -/
def Line.rename (r : String → String) (line : Line) : Line :=
  { line with instr := line.instr.rename r }

/-- A function with its parameters and variables renamed. Those of external functions do not come
from a tree. -/
def Func.rename (r : String → String) (f : Func) : Func :=
  if f.isExternal then f
  else { f with params := f.params.map (Param.rename r)
                body? := f.body?.map (List.map (Instr.rename r)) }

/-- A module with the parameters and variables of its own functions renamed. -/
def Module.rename (r : String → String) (m : Module) : Module :=
  { m with functions := m.functions.map (Func.rename r) }

section

variable {r : String → String}

theorem Parameter.map_rename_id (params : List Parameter) :
    params.map (Parameter.rename id) = params := List.map_id params

namespace Node

mutual

/-- To leave all names as they are changes nothing. -/
theorem rename_id : ∀ node : Node, node.rename id = node
  | .binary _ _ left right => by rw [rename, rename_id left, rename_id right]
  | .assign _ target value => by rw [rename, rename_id target, rename_id value]
  | .function _ _ _ params body => by
      rw [rename, Parameter.map_rename_id params, renameAll_id body]
  | .print _ args => by rw [rename, renameAll_id args]
  | .ret _ (some value) => by rw [rename, rename_id value]
  | .declare .. | .use .. | .step .. | .int .. | .argument .. | .ret _ none => rfl

theorem renameAll_id : ∀ nodes : List Node, renameAll id nodes = nodes
  | [] => rfl
  | node :: rest => by rw [renameAll, rename_id node, renameAll_id rest]

end

mutual

/-- A renamed tree has the same functions in the same order, each renamed. -/
theorem functions_rename : ∀ node : Node, (node.rename r).functions = node.functions.map (rename r)
  | .binary _ _ left right => by
      rw [rename, functions, functions, functions_rename left, functions_rename right,
        List.map_append]
  | .assign _ target value => by
      rw [rename, functions, functions, functions_rename target, functions_rename value,
        List.map_append]
  | .function _ _ _ _ body => by
      rw [rename, functions, functions, functionsAll_renameAll body, List.map_cons, rename]
  | .print _ args => by rw [rename, functions, functions, functionsAll_renameAll args]
  | .ret _ (some value) => by rw [rename, functions, functions, functions_rename value]
  | .declare .. | .use .. | .step .. | .int .. | .argument .. | .ret _ none => rfl

theorem functionsAll_renameAll : ∀ nodes : List Node,
    functionsAll (renameAll r nodes) = (functionsAll nodes).map (rename r)
  | [] => rfl
  | node :: rest => by
      rw [renameAll, functionsAll, functionsAll, functions_rename node, functionsAll_renameAll rest,
        List.map_append]

end

mutual

/-- Whether a tree prints has nothing to do with names. -/
theorem hasPrint_rename : ∀ node : Node, (node.rename r).hasPrint = node.hasPrint
  | .binary _ _ left right => by
      rw [rename, hasPrint, hasPrint, hasPrint_rename left, hasPrint_rename right]
  | .assign _ target value => by
      rw [rename, hasPrint, hasPrint, hasPrint_rename target, hasPrint_rename value]
  | .function _ _ _ _ body => hasPrintAll_renameAll body
  | .ret _ (some value) => by rw [rename, hasPrint, hasPrint, hasPrint_rename value]
  | .print .. | .declare .. | .use .. | .step .. | .int .. | .argument .. | .ret _ none => rfl

theorem hasPrintAll_renameAll : ∀ nodes : List Node,
    hasPrintAll (renameAll r nodes) = hasPrintAll nodes
  | [] => rfl
  | node :: rest => by
      rw [renameAll, hasPrintAll, hasPrintAll, hasPrint_rename node, hasPrintAll_renameAll rest]

end

end Node

/-! ### Names in scope -/

/-- A list of names with what belongs to them, the names renamed. -/
def renameKeys {β : Type} (r : String → String) (entries : List (String × β)) : List (String × β) :=
  entries.map fun entry => (r entry.1, entry.2)

/-- Different names stay different, so a look-up finds the same entry. -/
theorem lookup_renameKeys (hr : Function.Injective r) {β : Type} (entries : List (String × β))
    (x : String) : (renameKeys r entries).lookup (r x) = entries.lookup x := by
  induction entries with
  | nil => rfl
  | cons entry rest ih =>
      obtain ⟨y, b⟩ := entry
      rw [renameKeys, List.map_cons, List.lookup_cons, List.lookup_cons]
      by_cases hxy : x = y
      · subst hxy
        simp
      · have hne : r x ≠ r y := fun h => hxy (hr h)
        rw [beq_eq_false_iff_ne.mpr hxy, beq_eq_false_iff_ne.mpr hne]
        exact ih

/-! ### Code -/

/-- Names do not end code. -/
theorem endsInReturn_rename (lines : List Line) :
    endsInReturn (lines.map (Line.rename r)) = endsInReturn lines := by
  have hterm : ∀ line : Line, (line.rename r).instr.isTerminator = line.instr.isTerminator := by
    intro line
    obtain ⟨instr, ty⟩ := line
    cases instr <;> rfl
  simp only [endsInReturn, List.getLast?_map, Option.map_map, Function.comp_def, hterm]

theorem SourceType.complete_rename (result : SourceType) (lines : List Line) :
    result.complete (lines.map (Line.rename r)) = (result.complete lines).map (Line.rename r) := by
  rw [complete, complete, endsInReturn_rename]
  split
  · rfl
  · rw [List.map_append]
    rfl

/-- Parameters are bound to the same handles under their new names. -/
theorem Parameter.bindings_rename (params : List Parameter) (index : Nat) (bs : Bindings) :
    bindings index (params.map (Parameter.rename r)) (renameKeys r bs) =
      renameKeys r (bindings index params bs) := by
  induction params generalizing index bs with
  | nil => rfl
  | cons p rest ih => exact ih (index + 1) ((p.name, .argument (.arg (.ofNat index))) :: bs)

section

variable {settings : Settings} {arity : Nat} {result : SourceType} {bs bs' : Bindings} {n : Nat}

theorem Target.rename (hr : Function.Injective r) {target : Node} {lines : List Line} {p : Handle}
    (h : Target bs n target lines p bs') :
    Target (renameKeys r bs) n (target.rename r) (lines.map (Line.rename r)) p
      (renameKeys r bs') := by
  cases h with
  | use hx => exact .use ((lookup_renameKeys hr bs _).trans hx)
  | declare hx => exact .declare ((lookup_renameKeys hr bs _).trans hx)

/-- The code of a renamed node is the renamed code. The names in it are the only difference. -/
theorem Code.rename (hr : Function.Injective r) {node : Node} {lines : List Line} {h : Handle}
    {ty : Ty} (hc : Code settings arity result bs n node lines h ty bs') :
    Code settings arity result (renameKeys r bs) n (node.rename r) (lines.map (Line.rename r)) h ty
      (renameKeys r bs') := by
  -- instructions are numbered by the length of the code before them
  have hlength : ∀ ls : List Line, ls.length = (ls.map (Line.rename r)).length := by simp
  induction hc with
  | @binary _ _ _ _ _ _ _ _ ls rs _ _ _ _ ihl ihr =>
      rw [hlength ls] at ihr
      rw [List.map_append, List.map_append, hlength ls, hlength rs]
      exact .binary ihl ihr
  | @assign _ _ _ _ _ _ _ ls _ _ _ _ ht ih =>
      have ht := ht.rename hr
      rw [hlength ls] at ht
      rw [List.map_append, List.map_append]
      exact .assign ih ht
  | declare hx => exact .declare ((lookup_renameKeys hr _ _).trans hx)
  | useAddress hx => exact .useAddress ((lookup_renameKeys hr _ _).trans hx)
  | useVariable hx => exact .useVariable ((lookup_renameKeys hr _ _).trans hx)
  | useParameter hx => exact .useParameter ((lookup_renameKeys hr _ _).trans hx)
  | step hx => exact .step ((lookup_renameKeys hr _ _).trans hx)
  | int => exact .int
  | function => exact .function
  | argument hlt => exact .argument hlt
  | @print _ _ _ _ _ ls _ _ _ hpass ih =>
      rw [List.map_append, hlength ls]
      exact .print ih hpass
  | @returnValue _ _ _ _ _ ls _ _ hresult ih =>
      rw [List.map_append, hlength ls]
      exact .returnValue ih hresult
  | returnNothing hresult => exact .returnNothing hresult

/-- The same holds for statements, of which those behind a return still have no code. -/
theorem CodeAll.rename (hr : Function.Injective r) {nodes : List Node} {lines : List Line}
    (hc : CodeAll settings arity result bs n nodes lines bs') :
    CodeAll settings arity result (renameKeys r bs) n (Node.renameAll r nodes)
      (lines.map (Line.rename r)) (renameKeys r bs') := by
  induction hc with
  | nil => exact .nil
  | @cons _ _ _ _ _ _ ls rs _ _ hnode _ hvoid ih =>
      rw [List.map_append]
      refine .cons (hnode.rename hr) ?_ fun hty => by rw [hvoid hty, List.map_nil]
      rw [List.length_map]
      exact ih

end

/-! ### Modules -/

@[simp] theorem Func.name_rename (f : Func) : (f.rename r).name = f.name := by
  unfold rename
  split <;> rfl

@[simp] theorem Func.isExternal_rename (f : Func) : (f.rename r).isExternal = f.isExternal := by
  unfold rename
  split <;> rfl

/-- Functions keep their names, so the index of a module stays right. -/
theorem Module.Indexed.rename {m : Module} (h : m.Indexed) : (m.rename r).Indexed := by
  have hnames : (m.rename r).names = m.names := by
    simp [Module.names, Module.rename, Function.comp_def]
  exact ⟨by rw [hnames]; exact h.table, by rw [hnames]; exact h.names⟩

/-- A renamed function is compiled to the renamed function. -/
theorem Compiled.rename (hr : Function.Injective r) {settings : Settings} {node : Node} {f : Func}
    (h : Compiled settings node f) : Compiled settings (node.rename r) (f.rename r) := by
  cases node with
  | function origin name result params body =>
      have hrename : f.rename r = { f with
          params := f.params.map (Param.rename r)
          body? := f.body?.map (List.map (Instr.rename r)) } :=
        if_neg (by rw [h.isExternal]; exact Bool.false_ne_true)
      obtain ⟨hnodup, lines, bs, hcode, rfl⟩ := h
      have hnames : (params.map (Parameter.rename r)).map Parameter.name =
          (params.map Parameter.name).map r := by simp [Parameter.rename]
      have hcode := hcode.rename hr
      rw [← Parameter.bindings_rename, ← List.length_map (Parameter.rename r)] at hcode
      refine ⟨by rw [hnames]; exact hnodup.map hr, lines.map (Line.rename r), _, hcode, ?_⟩
      -- neither the order of instructions nor their types depend on names
      rw [hrename, SourceType.complete_rename]
      simp [Func.define, Func.pending, Parameter.toParam, Parameter.rename, Param.rename,
        Line.rename, Function.comp_def]
  | _ => exact h.elim

/-- A renamed program is translated to the renamed module. The print routine and the texts have no
names that come from the tree. -/
theorem Translated.rename (hr : Function.Injective r) {settings : Settings} {program : Program}
    {m : Module} (h : Translated settings program m) :
    Translated settings (Node.renameAll r program) (m.rename r) := by
  obtain ⟨fs, hfs, hcompiled⟩ := h.functions
  refine ⟨⟨fs.map (Func.rename r), ?_, ?_⟩, ?_, h.indexed.rename⟩
  · rw [Module.rename, hfs]
    rfl
  · have hmain : Program.main settings (Node.renameAll r program) =
        (program.main settings).rename r := rfl
    rw [hmain, Node.functions_rename, List.forall₂_map_left_iff, List.forall₂_map_right_iff]
    exact hcompiled.imp fun _ _ hf => hf.rename hr
  · rw [Node.hasPrintAll_renameAll]
    exact h.texts

end

end SlotLang
