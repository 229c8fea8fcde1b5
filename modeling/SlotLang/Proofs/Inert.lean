import SlotLang.Proofs.Deletion
import SlotLang.Proofs.Execution
import SlotLang.Proofs.Meaning
import SlotLang.Proofs.Unique

/-!
# SlotLang.Proofs.Inert

Function statements are inert. A function leaves no instructions in the body around it, binds no
name there and cannot be called. So when one is struck out, all that is left is lowered to the code
that it was lowered to before, and that code runs as before (`lower_without_function`).
-/

namespace SlotLang

/-! ### Code -/

namespace Node

variable {f : Node}

section

variable {settings : Settings} {arity : Nat} {result : SourceType} {bs bs' : Bindings} {n : Nat}

/-- What is left of a node has the code that the node had. Only the index of the function that the
node may be is not told by `Code`. -/
theorem Drops.code {node node' : Node} {lines : List Line} {h : Handle} {ty : Ty}
    (hd : Drops f node node') (hc : Code settings arity result bs n node lines h ty bs') :
    Code settings arity result bs n node' lines h ty bs' := by
  induction hc generalizing node' with
  | binary hl hr ihl ihr =>
      cases hd with
      | left hd => exact .binary (ihl hd) hr
      | right hd => exact .binary hl (ihr hd)
  | assign hv ht ih =>
      cases hd with
      | target hd => cases ht <;> cases hd
      | value hd => exact .assign (ih hd) ht
  | function =>
      cases hd with
      | body => exact .function
  | print ha hpass ih =>
      generalize hargs : [_] = args at hd
      cases hd with
      | @printed _ before after _ _ hd =>
          cases before with
          | nil =>
              cases hargs
              exact .print (ih hd) hpass
          | cons b before => cases before <;> cases hargs
  | returnValue hv hresult ih =>
      cases hd with
      | returned hd => exact .returnValue (ih hd) hresult
  | declare | useAddress | useVariable | useParameter | step | int | argument | returnNothing =>
      cases hd

theorem DropsAll.codeAll {nodes nodes' : List Node} {lines : List Line}
    (hd : DropsAll f nodes nodes') (hc : CodeAll settings arity result bs n nodes lines bs') :
    CodeAll settings arity result bs n nodes' lines bs' := by
  induction hc generalizing nodes' with
  | nil => cases hd
  | cons hnode hrest hvoid ih =>
      cases hd with
      | here hf =>
          cases hnode with
          | function => exact hrest
          | _ => cases hf
      | head hd => exact .cons (hd.code hnode) hrest hvoid
      | tail hd => exact .cons hnode (ih hd) hvoid

end

/-- Whatever one function of the tree is compiled to, the other is compiled to as well. -/
def KeepsCode (node node' : Node) : Prop :=
  ∀ settings g, Compiled settings node g → Compiled settings node' g

theorem DropsAll.keepsCode {body body' : List Node} (h : DropsAll f body body') (origin : Origin)
    (name : String) (result : SourceType) (params : List Parameter) :
    KeepsCode (.function origin name result params body)
      (.function origin name result params body') := by
  intro settings g hg
  obtain ⟨hnodup, lines, bs, hcode, hg⟩ := hg
  exact ⟨hnodup, lines, bs, h.codeAll hcode, hg⟩

/-- The functions of a tree before and after `f` is struck out: `f` goes with the functions inside
it, those before it keep their code, and those behind it are not touched. -/
def Struck (f : Node) (fs fs' : List Node) : Prop :=
  ∃ pre pre' post, fs = pre ++ f.functions ++ post ∧ fs' = pre' ++ post ∧
    List.Forall₂ KeepsCode pre pre'

namespace Struck

variable {fs fs' : List Node}

theorem here (f : Node) (rest : List Node) : Struck f (f.functions ++ rest) rest :=
  ⟨[], [], rest, rfl, rfl, .nil⟩

theorem append_right (h : Struck f fs fs') (gs : List Node) : Struck f (fs ++ gs) (fs' ++ gs) := by
  obtain ⟨pre, pre', post, rfl, rfl, hkeep⟩ := h
  exact ⟨pre, pre', post ++ gs, by simp, by simp, hkeep⟩

theorem append_left (gs : List Node) (h : Struck f fs fs') : Struck f (gs ++ fs) (gs ++ fs') := by
  obtain ⟨pre, pre', post, rfl, rfl, hkeep⟩ := h
  refine ⟨gs ++ pre, gs ++ pre', post, by simp, by simp, List.rel_append ?_ hkeep⟩
  exact List.forall₂_same.mpr fun _ _ _ _ hg => hg

theorem cons {g g' : Node} (hg : KeepsCode g g') (h : Struck f fs fs') :
    Struck f (g :: fs) (g' :: fs') := by
  obtain ⟨pre, pre', post, rfl, rfl, hkeep⟩ := h
  exact ⟨g :: pre, g' :: pre', post, rfl, rfl, .cons hg hkeep⟩

end Struck

mutual

theorem Drops.functions : ∀ {node node' : Node}, Drops f node node' →
    Struck f node.functions node'.functions
  | _, _, .left h => h.functions.append_right _
  | _, _, .right h => h.functions.append_left _
  | _, _, .target h => h.functions.append_right _
  | _, _, .value h => h.functions.append_left _
  | _, _, .body h => .cons (h.keepsCode _ _ _ _) h.functions
  | _, _, .printed h => by
      rw [Node.functions, Node.functions, functionsAll_append, functionsAll_append]
      exact (h.functions.append_right _).append_left _
  | _, _, .returned h => by
      rw [Node.functions, Node.functions]
      exact h.functions

theorem DropsAll.functions : ∀ {nodes nodes' : List Node}, DropsAll f nodes nodes' →
    Struck f (functionsAll nodes) (functionsAll nodes')
  | _, _, .here _ => .here f _
  | _, _, .head h => h.functions.append_right _
  | _, _, .tail h => h.functions.append_left _

end

mutual

/-- Nothing prints that did not print before. -/
theorem Drops.hasPrint : ∀ {node node' : Node}, Drops f node node' → node'.hasPrint = true →
    node.hasPrint = true
  | _, _, .left h, hp => by
      rw [Node.hasPrint, Bool.or_eq_true] at hp ⊢
      exact hp.imp_left h.hasPrint
  | _, _, .right h, hp => by
      rw [Node.hasPrint, Bool.or_eq_true] at hp ⊢
      exact hp.imp_right h.hasPrint
  | _, _, .target h, hp => by
      rw [Node.hasPrint, Bool.or_eq_true] at hp ⊢
      exact hp.imp_left h.hasPrint
  | _, _, .value h, hp => by
      rw [Node.hasPrint, Bool.or_eq_true] at hp ⊢
      exact hp.imp_right h.hasPrint
  | _, _, .body h, hp => h.hasPrintAll hp
  | _, _, .printed _, _ => rfl
  | _, _, .returned h, hp => by
      rw [Node.hasPrint] at hp ⊢
      exact h.hasPrint hp

theorem DropsAll.hasPrintAll : ∀ {nodes nodes' : List Node}, DropsAll f nodes nodes' →
    Node.hasPrintAll nodes' = true → Node.hasPrintAll nodes = true
  | _, _, .here _, hp => by rw [Node.hasPrintAll, hp, Bool.or_true]
  | _, _, .head h, hp => by
      rw [Node.hasPrintAll, Bool.or_eq_true] at hp ⊢
      exact hp.imp_left h.hasPrint
  | _, _, .tail h, hp => by
      rw [Node.hasPrintAll, Bool.or_eq_true] at hp ⊢
      exact hp.imp_right h.hasPrintAll

end

end Node

/-! ### Runs -/

/-- Code runs alike wherever the functions that it calls do the same. -/
theorem execute_congr {call call' : Nat → List Value → Exec Value} {code : List Instr}
    (h : ∀ callee args, Instr.call callee args ∈ code → call' callee = call callee)
    (function : String) (frame : Frame) :
    Machine.execute call' function code frame = Machine.execute call function code frame := by
  induction code generalizing frame with
  | nil => rfl
  | cons instr rest ih =>
      have ih := ih fun callee args hmem => h callee args (.tail _ hmem)
      cases instr with
      | call callee args => simp only [Machine.execute, ih, h callee args (.head _)]
      | ret value => cases value <;> rfl
      | _ => simp only [Machine.execute, ih]

/-- The only function that is called is the print routine. -/
theorem CallsPrint.callee {settings : Settings} {lines : List Line} {count : Nat}
    (h : CallsPrint settings lines count) {callee : Nat} {args : List Handle}
    (hmem : .call callee args ∈ lines.map Line.instr) : callee = 0 ∧ 0 < count := by
  obtain ⟨values, rfl, hcalls⟩ := h
  obtain ⟨line, hline, hinstr⟩ := List.mem_map.mp hmem
  have hcall : (callee, args) ∈ calls lines :=
    List.mem_filterMap.mpr ⟨line, hline, by rw [hinstr]; rfl⟩
  rw [hcalls] at hcall
  obtain ⟨v, hv, heq⟩ := List.mem_map.mp hcall
  cases heq
  exact ⟨rfl, List.length_pos_of_mem hv⟩

section

variable {settings : Settings} {program program' : Program} {m m' : Module}

/-- Two functions are the same to a machine if they are the same function, even if their modules are
translations of different programs, as long as the text that a print needs is there. -/
theorem Compiled.invoke_eq (ht : Translated settings program m)
    (ht' : Translated settings program' m')
    (htexts : Node.hasPrintAll program' = true → m'.texts = m.texts) {node : Node} {g : Func}
    (hnode : node ∈ (program'.main settings).functions) (hg : Compiled settings node g) {id id' : Nat}
    (hid : m.function? id = some g) (hid' : m'.function? id' = some g) (routine : String)
    (room : Nat) (args : List Value) (t : Transcript) :
    (Machine.mk m' routine).invoke room id' args t = (Machine.mk m routine).invoke room id args t := by
  cases room with
  | zero => rw [Machine.invoke_zero hid' hg.isExternal, Machine.invoke_zero hid hg.isExternal]
  | succ room =>
      rw [Machine.invoke_succ hid' hg.isExternal, Machine.invoke_succ hid hg.isExternal]
      cases node with
      | function origin name result params body =>
          obtain ⟨-, -, -, -, -, lines, hbody, -, -, hcalls⟩ := hg.functionShape
          simp only [hbody]
          have hsame : ∀ callee args, Instr.call callee args ∈ lines.map Line.instr →
              (Machine.mk m' routine).invoke room callee =
                (Machine.mk m routine).invoke room callee := by
            intro callee args hmem
            obtain ⟨rfl, hpos⟩ := hcalls.callee hmem
            -- a function with a call prints, and so does the program
            have hprint : Node.hasPrintAll program' = true := by
              cases hp : Node.hasPrintAll body with
              | true =>
                  have hself : Node.hasPrint (.function origin name result params body) = true := hp
                  exact Node.hasPrint_of_mem_functions hself hnode
              | false =>
                  rw [Node.printsAll_eq_zero hp] at hpos
                  cases hpos
            funext values t
            rw [Machine.invoke_external ht'.print rfl, Machine.invoke_external ht.print rfl,
              Machine.callExternal_apply, Machine.callExternal_apply,
              Print.run_congr (htexts hprint)]
          rw [execute_congr hsame]
      | _ => exact hg.elim

/-- Likewise, a call from outside does not tell the modules apart. -/
theorem Compiled.call_eq (ht : Translated settings program m)
    (ht' : Translated settings program' m')
    (htexts : Node.hasPrintAll program' = true → m'.texts = m.texts) {g : Func}
    (hmem : g ∈ m.functions) (hmem' : g ∈ m'.functions) (routine : String) (args : List Int64) :
    (Machine.mk m' routine).call g.name args = (Machine.mk m routine).call g.name args := by
  obtain ⟨id, hid⟩ : ∃ id, m.function? id = some g := List.mem_iff_getElem?.mp hmem
  obtain ⟨id', hid'⟩ : ∃ id, m'.function? id = some g := List.mem_iff_getElem?.mp hmem'
  have hfind : m.find? g.name = some id := (ht.indexed.find?_eq_some_iff _ _).mpr ⟨g, hid, rfl⟩
  have hfind' : m'.find? g.name = some id' :=
    (ht'.indexed.find?_eq_some_iff _ _).mpr ⟨g, hid', rfl⟩
  obtain ⟨fs, hfs, hcompiled⟩ := ht'.functions
  funext t
  rw [Machine.call_found hfind', Machine.call_found hfind]
  rw [hfs] at hmem'
  rcases List.mem_cons.mp hmem' with rfl | hmem'
  · -- the print routine writes integers without a look at the texts
    rw [Machine.invoke_external hid' rfl, Machine.invoke_external hid rfl,
      Machine.callExternal_apply, Machine.callExternal_apply, Print.run_map, Print.run_map]
  · obtain ⟨i, hi⟩ := List.mem_iff_getElem?.mp hmem'
    obtain ⟨hlt, rfl⟩ := List.getElem?_eq_some_iff.mp hi
    have hlt' : i < (program'.main settings).functions.length := hcompiled.length_eq ▸ hlt
    rw [Compiled.invoke_eq ht ht' htexts (List.getElem_mem hlt') (hcompiled.get hlt' hlt) hid hid']

end

/-! ### Programs -/

/-- What corresponds to an append splits where the append does. -/
theorem forall₂_append_left {α β : Type} {R : α → β → Prop} {xs ys : List α} {zs : List β}
    (h : List.Forall₂ R (xs ++ ys) zs) :
    ∃ us vs, zs = us ++ vs ∧ List.Forall₂ R xs us ∧ List.Forall₂ R ys vs := by
  refine ⟨zs.take xs.length, zs.drop xs.length, (List.take_append_drop _ _).symm, ?_, ?_⟩
  · simpa using List.forall₂_take xs.length h
  · simpa using List.forall₂_drop xs.length h

theorem Node.KeepsCode.compiled {settings : Settings} {nodes nodes' : List Node} {fs : List Func}
    (h : List.Forall₂ KeepsCode nodes nodes') (hfs : List.Forall₂ (Compiled settings) nodes fs) :
    List.Forall₂ (Compiled settings) nodes' fs := by
  induction h generalizing fs with
  | nil => exact hfs
  | cons hkeep _ ih =>
      cases hfs with
      | cons hg hrest => exact .cons (hkeep settings _ hg) (ih hrest)

/-- What is left of a translated program has a translation of its own, which is the old one without
the functions that were struck out. -/
theorem Translated.without {settings : Settings} {program program' : Program} {m : Module} {f : Node}
    (ht : Translated settings program m) (hd : Node.DropsAll f program program') :
    ∃ pre removed post, m.functions = pre ++ removed ++ post ∧
      List.Forall₂ (Compiled settings) f.functions removed ∧
      Translated settings program'
        ⟨m.name, pre ++ post, Module.tableOf ((pre ++ post).map Func.name),
          if Node.hasPrintAll program' then m.texts else []⟩ := by
  have hmain : Node.Drops f (program.main settings) (program'.main settings) := .body hd
  obtain ⟨nodes, nodes', later, hold, hnew, hkeep⟩ := hmain.functions
  obtain ⟨fs, hfs, hcompiled⟩ := ht.functions
  rw [hold] at hcompiled
  obtain ⟨_, post, rfl, hpre, hpost⟩ := forall₂_append_left hcompiled
  obtain ⟨pre, removed, rfl, hpre, hremoved⟩ := forall₂_append_left hpre
  refine ⟨settings.printFunc :: pre, removed, post, hfs, hremoved, ⟨pre ++ post, rfl, ?_⟩, ?_,
    rfl, ?_⟩
  · rw [hnew]
    exact List.rel_append (Node.KeepsCode.compiled hkeep hpre) hpost
  · by_cases hprint : Node.hasPrintAll program' = true
    · simp only [hprint, if_true]
      rw [ht.texts, if_pos (hd.hasPrintAll hprint)]
    · simp only [hprint, Bool.false_eq_true, if_false]
  · -- names that are left are as different as they were
    have hsub : (settings.printFunc :: pre ++ post).Sublist m.functions := by
      rw [hfs]
      exact .cons_cons _ ((List.sublist_append_left pre removed).append (.refl post))
    exact ht.indexed.names.sublist (hsub.map Func.name)

/-- Function statements are inert. If one of them is struck out of an accepted program, what is left
is accepted. Its module is that of the program without the functions that were struck out; it has
no text if nothing is left that prints. Calls of the functions that are left come to the same on
both modules, whatever was printed before and whatever the machine takes for the print routine. -/
theorem lower_without_function {settings : Settings} {program program' : Program} {f : Node}
    {m : Module} (hd : Node.DropsAll f program program') (h : (program.lower settings).1 = .ok m) :
    ∃ m', (program'.lower settings).1 = .ok m' ∧ m'.name = m.name ∧
      (∃ pre removed post, m.functions = pre ++ removed ++ post ∧ m'.functions = pre ++ post ∧
        List.Forall₂ (Compiled settings) f.functions removed) ∧
      m'.index = Module.tableOf m'.names ∧
      m'.texts = (if Node.hasPrintAll program' then m.texts else []) ∧
      ∀ g ∈ m'.functions, ∀ (routine : String) (args : List Int64),
        (Machine.mk m' routine).call g.name args = (Machine.mk m routine).call g.name args := by
  have ht := Program.translated h
  have hk : program.check settings = .ok () := by
    rcases Program.verdict settings program with ⟨m₁, -, hk, -⟩ | ⟨e, he, -⟩
    · exact hk
    · rw [h] at he
      cases he
  obtain ⟨pre, removed, post, hfs, hremoved, ht'⟩ := ht.without hd
  have hname : m.name = settings.entryFunction := Program.lower_name h
  have h' := Program.lower_eq_of_translated (Program.check_without hd hk) ht' hname
  refine ⟨_, h', rfl, ⟨pre, removed, post, hfs, rfl, hremoved⟩, rfl, rfl, ?_⟩
  intro g hg routine args
  refine Compiled.call_eq ht ht' (fun hp => if_pos hp) ?_ hg routine args
  rw [hfs]
  rcases List.mem_append.mp hg with hg | hg
  · exact List.mem_append_left _ (List.mem_append_left _ hg)
  · exact List.mem_append_right _ hg

/-- `fn g() { print(7) }`: a function that prints. -/
def Node.helper : Node :=
  .function .unknown "g" .void [] [.print .unknown [.int .unknown 7]]

/-- `fn f(a) { ..; return a + 1 }` and `fn h(b) { return b * 2 }`, with statements to begin the
first of the functions with. -/
def Program.beginning (statements : List Node) : Program :=
  [.function .unknown "f" .int [⟨"a", .int⟩] (statements ++
      [.ret .unknown (some (.binary .unknown .add (.use .unknown "a" .value) (.int .unknown 1)))]),
    .function .unknown "h" .int [⟨"b", .int⟩]
      [.ret .unknown (some (.binary .unknown .mul (.use .unknown "b" .value) (.int .unknown 2)))]]

/-- The helper is struck out of the body of `f`. The index of `h` becomes another and the format
goes, since nothing else prints, but `h` does what it did. -/
theorem lower_without_function_helper :
    ∃ m m', (Program.lower .default (.beginning [.helper])).1 = .ok m ∧
      (Program.lower .default (.beginning [])).1 = .ok m' ∧
      m.functions.map Func.name = ["printf", "main", "f", "g", "h"] ∧
      m'.functions.map Func.name = ["printf", "main", "f", "h"] ∧
      m.texts.length = 1 ∧ m'.texts = [] ∧
      ∀ (routine : String) (args : List Int64),
        (Machine.mk m' routine).call "h" args = (Machine.mk m routine).call "h" args := by
  have hd : Node.DropsAll .helper (Program.beginning [.helper]) (Program.beginning []) :=
    .head (.body (.here rfl))
  have hold : (Program.lower .default (.beginning [.helper])).1.toOption.map
      (fun m => (m.functions.map Func.name, m.texts.length)) =
        some (["printf", "main", "f", "g", "h"], 1) := by decide +kernel
  have hnew : (Program.lower .default (.beginning [])).1.toOption.map
      (fun m => m.functions.map Func.name) = some ["printf", "main", "f", "h"] := by
    decide +kernel
  cases h : (Program.lower .default (.beginning [.helper])).1 with
  | error e =>
      rw [h] at hold
      cases hold
  | ok m =>
      obtain ⟨m', h', -, -, -, htexts, hcalls⟩ := lower_without_function hd h
      rw [h] at hold
      rw [h'] at hnew
      obtain ⟨hnames, hlength⟩ := Prod.mk.inj (Option.some.inj hold)
      have hnames' : m'.functions.map Func.name = ["printf", "main", "f", "h"] :=
        Option.some.inj hnew
      refine ⟨m, m', rfl, h', hnames, hnames', hlength, htexts, ?_⟩
      have hmem : "h" ∈ m'.functions.map Func.name := by rw [hnames']; decide
      obtain ⟨g, hg, hname⟩ := List.mem_map.mp hmem
      intro routine args
      rw [← hname]
      exact hcalls g hg routine args

end SlotLang
