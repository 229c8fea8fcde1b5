import SlotLang.Proofs.Formulas
import SlotLang.Proofs.Log

/-!
# SlotLang.Proofs.Traces

The log reproduces the code. Functions are written one inside the other, so in the log of a program
the instructions of one function have those of others between them. Names tell them apart: a name is
declared once, and as long as a draft rests nothing is logged under its name.

`Logs.about` says whose names a piece of the log mentions. With it the two accounts of the code are
kept apart, that of the draft at hand (`Logs.taken_eq`), which goes on, and those of the functions
that were completed on the way (`Logs.accounted`), which are closed.
-/

namespace SlotLang

/-! ### Reading the log -/

namespace Event

/-- The function whose code an event is about. -/
def about? : Event → Option String
  | emitted function _ _ | sealing function _ | completed function => some function
  | lowering .. | programStarted .. | executing .. | bareValues _ => none

/-- The event is the end of a function, or comes after it. -/
def isClosing : Event → Bool
  | sealing .. | completed _ => true
  | _ => false

/-- The instruction that a function has received with an event, and its index. -/
def taken? (function : String) : Event → Option (Instr × Nat)
  | emitted name index instr => if name = function then some (instr, index) else none
  | _ => none

/-- An event is about the function that it gives an instruction to. -/
theorem about?_of_taken? {function : String} {e : Event} {p : Instr × Nat}
    (h : e.taken? function = some p) : e.about? = some function := by
  cases e with
  | emitted name index instr =>
      rw [taken?] at h
      split at h
      · next hname => rw [about?, hname]
      · cases h
  | _ => cases h

end Event

/-- The instructions that a function has received according to a log, with their indices. -/
def taken (function : String) (events : List Event) : List (Instr × Nat) :=
  events.filterMap (Event.taken? function)

theorem taken_append (function : String) (es es' : List Event) :
    taken function (es ++ es') = taken function es ++ taken function es' := List.filterMap_append

/-- Where nothing is about a function, it receives nothing. -/
theorem taken_eq_nil {function : String} {es : List Event}
    (h : ∀ e ∈ es, e.about? ≠ some function) : taken function es = [] := by
  refine List.filterMap_eq_nil_iff.mpr fun e he => ?_
  cases ht : e.taken? function with
  | none => rfl
  | some p => exact absurd (Event.about?_of_taken? ht) (h e he)

/-- A log tells all of a function: its code, instruction by instruction, then that it is sealed, and
with that the `closing` events. Nothing is about the function afterwards. -/
def Accounted (events : List Event) (function : String) (code : List Instr)
    (closing : List Event) : Prop :=
  ∃ before after, events = before ++ .sealing function code.length :: (closing ++ after) ∧
    taken function before = code.zipIdx ∧
    (∀ e ∈ before, e.about? = some function → e.isClosing = false) ∧
    ∀ e ∈ after, e.about? ≠ some function

namespace Accounted

variable {es rest : List Event} {function : String} {code : List Instr} {closing : List Event}

theorem append (h : Accounted es function code closing)
    (hrest : ∀ e ∈ rest, e.about? ≠ some function) :
    Accounted (es ++ rest) function code closing := by
  obtain ⟨before, after, rfl, hcode, hopen, hafter⟩ := h
  refine ⟨before, after ++ rest, by simp, hcode, hopen, ?_⟩
  intro e he
  rcases List.mem_append.mp he with he | he
  · exact hafter e he
  · exact hrest e he

theorem prepend (h : Accounted es function code closing)
    (hrest : ∀ e ∈ rest, e.about? ≠ some function) :
    Accounted (rest ++ es) function code closing := by
  obtain ⟨before, after, rfl, hcode, hopen, hafter⟩ := h
  refine ⟨rest ++ before, after, by simp, ?_, ?_, hafter⟩
  · rw [taken_append, taken_eq_nil hrest, hcode, List.nil_append]
  · intro e he habout
    rcases List.mem_append.mp he with he | he
    · exact absurd habout (hrest e he)
    · exact hopen e he habout

end Accounted

/-! ### Names -/

namespace Module

variable {m m₁ : Module} {name : String} {params : List Param} {result : Ty} {id : Nat}

theorem names_declare (h : m.declare name params result = .ok id m₁) :
    m₁.names = m.names ++ [name] := by
  obtain ⟨-, -, -, rfl⟩ := insert_eq_ok_iff.mp h
  simp [names, Func.pending]

/-- A name is declared only if it is free. -/
theorem Indexed.notMem_of_declare (hm : m.Indexed)
    (h : m.declare name params result = .ok id m₁) : name ∉ m.names :=
  (hm.find?_eq_none_iff name).mp (insert_eq_ok_iff.mp h).1

theorem names_finish {d : Draft} (h : d.finish m = .ok () m₁) : m₁.names = m.names :=
  names_define h

end Module

@[simp] theorem Draft.name_append (d : Draft) (lines : List Line) :
    (d.append lines).name = d.name := rfl

theorem Draft.name_mem_names {m m₁ : Module} {name : String} {params : List Param} {result : Ty}
    {id : Nat} {d : Draft} (hdecl : m.declare name params result = .ok id m₁)
    (hstart : Draft.start m₁ id = .ok d) : d.name ∈ m₁.names := by
  rw [(start_declared hdecl hstart).1, Module.names_declare hdecl]
  exact List.mem_concat_self

theorem Edits.names {m m' : Module} {d d' : Draft} (h : Edits m d m' d') : m.names <+: m'.names :=
  h.functions.map _

section

variable {m m₁ m₂ : Module} {inner inner' : Draft} {name : String} {params : List Param}
  {result : Ty} {id : Nat}

/-- A function that is written inside another one has a name that was free before, and so have the
functions inside it. -/
theorem Edits.declared_inside (hm : m.Indexed) (hdecl : m.declare name params result = .ok id m₁)
    (hstart : Draft.start m₁ id = .ok inner) (h : Edits m₁ inner m₂ inner') {n : String}
    (hn : n = inner.name ∨ (n ∉ m₁.names ∧ n ∈ m₂.names)) : n ∉ m.names ∧ n ∈ m₂.names := by
  have hnames := Module.names_declare hdecl
  obtain ⟨hname, -, -⟩ := Draft.start_declared hdecl hstart
  rcases hn with rfl | ⟨hnew, hin⟩
  · rw [hname]
    exact ⟨hm.notMem_of_declare hdecl, h.names.subset (by simp [hnames])⟩
  · exact ⟨fun hold => hnew (by simp [hnames, hold]), hin⟩

/-- The same of the events up to the end of that function, which is about the function itself. -/
theorem Edits.about_inside (hm : m.Indexed) (hdecl : m.declare name params result = .ok id m₁)
    (hstart : Draft.start m₁ id = .ok inner) (h : Edits m₁ inner m₂ inner') {es closing : List Event}
    (hes : ∀ e ∈ es, ∀ n, e.about? = some n →
      (n = inner.name ∧ e.isClosing = false) ∨ (n ∉ m₁.names ∧ n ∈ m₂.names))
    (hclosing : closing ⊆ [.sealing inner'.name inner'.code.length, .completed name]) :
    ∀ e ∈ es ++ closing, ∀ n, e.about? = some n → n ∉ m.names ∧ n ∈ m₂.names := by
  obtain ⟨hname, -, -⟩ := Draft.start_declared hdecl hstart
  intro e he n habout
  refine h.declared_inside hm hdecl hstart ?_
  rcases List.mem_append.mp he with he | he
  · exact (hes e he n habout).imp_left And.left
  · rcases List.mem_pair.mp (hclosing he) with rfl | rfl
    · cases habout
      exact .inl h.draft_name
    · cases habout
      exact .inl hname.symm

/-- The draft of such a function is still that of the function with its name. -/
theorem Edits.self_name (hdecl : m.declare name params result = .ok id m₁)
    (hstart : Draft.start m₁ id = .ok inner) (h : Edits m₁ inner m₂ inner') {f : Func}
    (hf : m₂.functions[inner'.func]? = some f) : f.name = name := by
  obtain ⟨-, -, hfunc⟩ := Draft.start_declared hdecl hstart
  have hfunc' : inner'.func = m.functions.length := by
    obtain ⟨lines, rfl⟩ := h.draft
    exact hfunc
  obtain ⟨-, -, -, rfl⟩ := Module.insert_eq_ok_iff.mp hdecl
  obtain ⟨rest, hrest⟩ := h.functions
  rw [hfunc', ← hrest] at hf
  simp only [List.append_assoc, List.singleton_append, Nat.le_refl, List.getElem?_append_right,
    Nat.sub_self, List.getElem?_cons_zero, Option.some.injEq] at hf
  rw [← hf]
  rfl

end

namespace Logs

variable {m m' : Module} {d d' : Draft} {es : List Event}

/-- What a piece of the log is about: code for the draft at hand, or functions that have been
declared on the way. -/
theorem about (h : Logs m d es m' d') (hm : m.Indexed) : ∀ e ∈ es, ∀ name, e.about? = some name →
    (name = d.name ∧ e.isClosing = false) ∨ (name ∉ m.names ∧ name ∈ m'.names) := by
  induction h with
  | refl | intern | declare => simp
  | enter node => simp [Event.about?]
  | emit he => simp [Event.about?, Event.isClosing]
  | trans h₁ h₂ ih ih' =>
      intro e he name habout
      rcases List.mem_append.mp he with he | he
      · rcases ih hm e he name habout with hown | ⟨hnew, hin⟩
        · exact .inl hown
        · exact .inr ⟨hnew, h₂.edits.names.subset hin⟩
      · rcases ih' (h₁.edits.indexed hm) e he name habout with ⟨rfl, hopen⟩ | ⟨hnew, hin⟩
        · exact .inl ⟨h₁.edits.draft_name, hopen⟩
        · exact .inr ⟨fun hold => hnew (h₁.edits.names.subset hold), hin⟩
  | abandon hdecl hstart hlogs hclosing ih =>
      intro e he name habout
      exact .inr (hlogs.edits.about_inside hm hdecl hstart (ih (hm.insert hdecl))
        (List.Subset.trans hclosing (by simp)) e he name habout)
  | define hdecl hstart hlogs hfinish ih =>
      intro e he name habout
      rw [Module.names_finish hfinish]
      exact .inr (hlogs.edits.about_inside hm hdecl hstart (ih (hm.insert hdecl))
        (List.Subset.refl _) e he name habout)

/-- The draft at hand receives what is logged under its name. -/
theorem taken_eq (h : Logs m d es m' d') (hm : m.Indexed) (hname : d.name ∈ m.names) :
    ∃ lines, d' = d.append lines ∧
      taken d.name es = (lines.map Line.instr).zipIdx d.code.length := by
  induction h with
  | refl | intern | declare | enter => exact ⟨[], (Draft.append_nil _).symm, rfl⟩
  | emit he =>
      obtain ⟨ty, -, -, -, rfl⟩ := Draft.emit_eq_ok_iff.mp he
      exact ⟨[⟨_, ty⟩], rfl, by simp [taken, Event.taken?]⟩
  | trans h₁ h₂ ih ih' =>
      obtain ⟨ls, rfl, hls⟩ := ih hm hname
      obtain ⟨rs, rfl, hrs⟩ := ih' (h₁.edits.indexed hm) (h₁.edits.names.subset hname)
      rw [Draft.name_append, Draft.code_append, List.length_append] at hrs
      refine ⟨ls ++ rs, Draft.append_append _ _ _, ?_⟩
      rw [taken_append, hls, hrs, List.map_append, List.zipIdx_append]
  | abandon hdecl hstart hlogs hclosing _ =>
      -- the draft at hand rests, and its name is too old to be that of a function inside
      have hinside := hlogs.edits.about_inside hm hdecl hstart (hlogs.about (hm.insert hdecl))
        (List.Subset.trans hclosing (by simp))
      exact ⟨[], (Draft.append_nil _).symm,
        taken_eq_nil fun e he habout => (hinside e he _ habout).1 hname⟩
  | define hdecl hstart hlogs hfinish _ =>
      have hinside := hlogs.edits.about_inside hm hdecl hstart (hlogs.about (hm.insert hdecl))
        (List.Subset.refl _)
      exact ⟨[], (Draft.append_nil _).symm,
        taken_eq_nil fun e he habout => (hinside e he _ habout).1 hname⟩

end Logs

/-! ### Functions that are completed -/

/-- A name that was there before still belongs to the same function. -/
theorem Module.Indexed.mem_of_name_mem {m m' : Module} (hm' : m'.Indexed)
    (hfs : m.functions <+: m'.functions) {f : Func} (hf : f ∈ m'.functions)
    (hname : f.name ∈ m.names) : f ∈ m.functions := by
  obtain ⟨g, hg, hgf⟩ := List.mem_map.mp hname
  have heq : g = f := List.inj_on_of_nodup_map hm'.names (hfs.subset hg) hf hgf
  exact heq ▸ hg

/-- A function that was declared and has a body was there before. -/
theorem Module.mem_of_declare {m m₁ : Module} {name : String} {params : List Param} {result : Ty}
    {id : Nat} (hdecl : m.declare name params result = .ok id m₁) {f : Func}
    (hf : f ∈ m₁.functions) {body : List Instr} (hbody : f.body? = some body) :
    f ∈ m.functions := by
  obtain ⟨-, -, -, rfl⟩ := insert_eq_ok_iff.mp hdecl
  rcases List.mem_append.mp hf with hf | hf
  · exact hf
  · cases List.mem_singleton.mp hf
    cases hbody

section

variable {m m₁ m₂ : Module} {inner inner' : Draft} {name : String} {params : List Param}
  {result : Ty} {id : Nat} {es : List Event}

/-- As long as a function is written it has no body, so a function that has one was there before, or
was declared inside. -/
theorem Edits.new_of_body (hdecl : m.declare name params result = .ok id m₁)
    (h : Edits m₁ inner m₂ inner') (hm : m.Indexed) {f : Func} (hf : f ∈ m₂.functions)
    (hnew : f.name ∉ m.names) {body : List Instr} (hbody : f.body? = some body) :
    f.name ∉ m₁.names := by
  intro hold
  have hf₁ := (h.indexed (hm.insert hdecl)).mem_of_name_mem h.functions hf hold
  exact hnew (List.mem_map_of_mem (Module.mem_of_declare hdecl hf₁ hbody))

namespace Logs

/-- The end of a function changes nothing about the functions that were completed inside it. -/
theorem accounted_inside (hdecl : m.declare name params result = .ok id m₁)
    (hstart : Draft.start m₁ id = .ok inner) (h : Logs m₁ inner es m₂ inner') (hm : m.Indexed)
    {closing : List Event}
    (hclosing : closing ⊆ [.sealing inner'.name inner'.code.length, .completed name])
    {f : Func} (hf : f ∈ m₂.functions) (hnew : f.name ∉ m.names) {body : List Instr}
    (hbody : f.body? = some body)
    (hes : f.name ∉ m₁.names → Accounted es f.name body [.completed f.name]) :
    Accounted (es ++ closing) f.name body [.completed f.name] := by
  have hnames := Module.names_declare hdecl
  obtain ⟨hname, -, -⟩ := Draft.start_declared hdecl hstart
  have hnew₁ := h.edits.new_of_body hdecl hm hf hnew hbody
  have hne : name ≠ f.name := fun heq => hnew₁ (by simp [hnames, heq])
  refine (hes hnew₁).append fun e he habout => ?_
  rcases List.mem_pair.mp (hclosing he) with rfl | rfl
  · rw [Event.about?, h.edits.draft_name, hname] at habout
    exact hne (Option.some.inj habout)
  · exact hne (Option.some.inj habout)

/-- The log accounts for a function that is completed: the whole code of the draft was logged, and
nothing else under its name. -/
theorem accounted_self (hm : m.Indexed) (hdecl : m.declare name params result = .ok id m₁)
    (hstart : Draft.start m₁ id = .ok inner) (h : Logs m₁ inner es m₂ inner')
    (closing : List Event) :
    Accounted (es ++ .sealing inner'.name inner'.code.length :: closing) name inner'.code
      closing := by
  have hm₁ := hm.insert hdecl
  obtain ⟨hname, hcode, -⟩ := Draft.start_declared hdecl hstart
  have hmem := Draft.name_mem_names hdecl hstart
  obtain ⟨lines, hinner', htaken⟩ := h.taken_eq hm₁ hmem
  refine ⟨es, [], ?_, ?_, ?_, by simp⟩
  · rw [h.edits.draft_name, hname, List.append_nil]
  · rw [hname, hcode, List.length_nil] at htaken
    rw [htaken, hinner', Draft.code_append, hcode, List.nil_append]
  · intro e he habout
    rcases h.about hm₁ e he _ habout with ⟨-, hopen⟩ | ⟨hnew, -⟩
    · exact hopen
    · exact absurd (hname ▸ hmem) hnew

end Logs

end

namespace Logs

variable {m m' : Module} {d d' : Draft} {es : List Event}

/-- The log accounts for every function that was declared and received its body on the way. -/
theorem accounted (h : Logs m d es m' d') (hm : m.Indexed) (hname : d.name ∈ m.names) :
    ∀ f ∈ m'.functions, f.name ∉ m.names → ∀ body, f.body? = some body →
      Accounted es f.name body [.completed f.name] := by
  induction h with
  | refl | enter | emit =>
      intro f hf hnew
      exact absurd (List.mem_map_of_mem hf) hnew
  | intern text =>
      intro f hf hnew
      rw [Module.functions_intern] at hf
      exact absurd (List.mem_map_of_mem hf) hnew
  | declare hdecl =>
      intro f hf hnew body hbody
      exact absurd (List.mem_map_of_mem (Module.mem_of_declare hdecl hf hbody)) hnew
  | @trans m m₁ m₂ d d₁ d₂ es es' h₁ h₂ ih ih' =>
      intro f hf hnew body hbody
      have hm₁ := h₁.edits.indexed hm
      -- one part of the log accounts for the function, and the other never mentions its name
      by_cases hold : f.name ∈ m₁.names
      · have hf₁ := (h₂.edits.indexed hm₁).mem_of_name_mem h₂.edits.functions hf hold
        refine (ih hm hname f hf₁ hnew body hbody).append ?_
        intro e he habout
        rcases h₂.about hm₁ e he _ habout with ⟨hd, -⟩ | ⟨hfree, -⟩
        · rw [hd, h₁.edits.draft_name] at hnew
          exact hnew hname
        · exact hfree hold
      · refine (ih' hm₁ ?_ f hf hold body hbody).prepend ?_
        · rw [h₁.edits.draft_name]
          exact h₁.edits.names.subset hname
        · intro e he habout
          rcases h₁.about hm e he _ habout with ⟨hd, -⟩ | ⟨-, hin⟩
          · exact hnew (hd ▸ hname)
          · exact hold hin
  | abandon hdecl hstart hlogs hclosing ih =>
      intro f hf hnew body hbody
      refine hlogs.accounted_inside hdecl hstart hm (List.Subset.trans hclosing (by simp)) hf hnew
        hbody fun hnew₁ => ih (hm.insert hdecl) ?_ f hf hnew₁ body hbody
      exact Draft.name_mem_names hdecl hstart
  | define hdecl hstart hlogs hfinish ih =>
      intro f hf hnew body hbody
      obtain ⟨g, hg, -, -, rfl⟩ := Module.define_eq_ok_iff.mp hfinish
      -- the function has had its body before, or it is the one that has just received it
      rcases List.mem_or_eq_of_mem_set hf with hf | rfl
      · refine hlogs.accounted_inside hdecl hstart hm (List.Subset.refl _) hf hnew
          hbody fun hnew₁ => ih (hm.insert hdecl) ?_ f hf hnew₁ body hbody
        exact Draft.name_mem_names hdecl hstart
      · cases hbody
        rw [hlogs.edits.self_name hdecl hstart hg]
        exact hlogs.accounted_self hm hdecl hstart _

end Logs

/-! ### Programs -/

theorem Compiled.exists_body {settings : Settings} {node : Node} {f : Func}
    (h : Compiled settings node f) : ∃ body, f.body? = some body := by
  cases node with
  | function origin name result params body =>
      obtain ⟨-, lines, bs, -, rfl⟩ := h
      exact ⟨_, rfl⟩
  | _ => exact h.elim

namespace Program

variable {settings : Settings} {program : Program} {m : Module} {events : Array Event}

/-- The log of a program that is accepted is that of its entry function, between the events that
begin and end it. -/
theorem lower_logs (h : program.lower settings = (.ok m, events)) :
    ∃ id m₁ draft es m₂ draft',
      (around settings).module.declare settings.entryFunction [] .int = .ok id m₁ ∧
      Draft.start m₁ id = .ok draft ∧ Logs m₁ draft es m₂ draft' ∧ draft'.finish m₂ = .ok () m ∧
      es.filterMap Event.visited? = Node.visitsAll program settings.entryFunction ∧
      events.toList = .programStarted program.length settings.entryFunction ::
        (es ++ [.sealing draft'.name draft'.code.length]) := by
  obtain ⟨id, m₁, draft, inner, hdecl, hstart, hinner, hfinish, rfl⟩ := lower_eq_ok h
  have hinside : Lower.Reports (Lower.inside settings (entryNode settings) .int [] program)
      (Node.visitsAll program) :=
    (Lower.bindParams_reports _ [] 0).bind fun _ =>
      (lowerAll_reports program).bind_quiet fun _ => .implicitReturn _ .int
  have hreported := hinside (opened settings program m₁ draft)
  rw [hinner] at hreported
  obtain ⟨es, hes, hlogs, hvisits⟩ := hreported
  have hname : draft.name = settings.entryFunction := (Draft.start_declared hdecl hstart).1
  refine ⟨id, m₁, draft, es, inner.module, inner.draft, hdecl, hstart, hlogs, hfinish, ?_, ?_⟩
  · rw [hvisits]
    exact congrArg _ hname
  · simp [opened, Context.note, Context.enter, around, hes]

/-- The log tells the whole code of a program, and which nodes were lowered. -/
structure Traced (settings : Settings) (program : Program) (m : Module) (events : List Event) :
    Prop where
  /-- The code of every function is in the log. Only the entry function is not a node. -/
  bodies : ∀ f ∈ m.functions, ∀ body, f.body? = some body →
    Accounted events f.name body
      (if f.name = settings.entryFunction then [] else [.completed f.name])
  /-- The functions of the tree are there, besides the entry function. -/
  functions : ∀ node ∈ Node.functionsAll program, ∃ f ∈ m.functions, node.identifier? = some f.name ∧
    f.name ≠ settings.entryFunction ∧ ∃ body, f.body? = some body
  /-- There are no instructions of anything else. -/
  only : ∀ name index instr, .emitted name index instr ∈ events →
    ∃ f ∈ m.functions, f.name = name ∧ ∃ body, f.body? = some body
  /-- Every node is lowered once, each with the innermost function around it. -/
  visits : events.filterMap Event.visited? = Node.visitsAll program settings.entryFunction

theorem functions_cons (h : (program.lower settings).1 = .ok m) :
    ∃ main fs, m.functions = settings.printFunc :: main :: fs ∧
      Compiled settings (program.main settings) main ∧
      List.Forall₂ (Compiled settings) (Node.functionsAll program) fs := by
  obtain ⟨fs, hfs, hcompiled⟩ := (translated h).functions
  rw [functions_main] at hcompiled
  cases hcompiled with
  | cons hmain hrest => exact ⟨_, _, hfs, hmain, hrest⟩

/-- All functions but the print routine have a body. -/
theorem body_of_mem (h : (program.lower settings).1 = .ok m) {f : Func} (hf : f ∈ m.functions)
    (hname : f.name ≠ settings.printRoutine) : ∃ body, f.body? = some body := by
  obtain ⟨fs, hfs, hcompiled⟩ := (translated h).functions
  rw [hfs] at hf
  rcases List.mem_cons.mp hf with rfl | hf
  · exact absurd rfl hname
  · obtain ⟨i, hi, rfl⟩ := List.getElem_of_mem hf
    exact (hcompiled.get (hcompiled.length_eq ▸ hi) hi).exists_body

theorem exists_of_mem_functionsAll (h : (program.lower settings).1 = .ok m) {node : Node}
    (hnode : node ∈ Node.functionsAll program) :
    ∃ f ∈ m.functions, node.identifier? = some f.name ∧ f.name ≠ settings.entryFunction ∧
      ∃ body, f.body? = some body := by
  obtain ⟨main, fs, hfs, hmain, hcompiled⟩ := functions_cons h
  obtain ⟨i, hi, rfl⟩ := List.getElem_of_mem hnode
  have hi' : i < fs.length := hcompiled.length_eq ▸ hi
  have hcode := hcompiled.get hi hi'
  refine ⟨fs[i], by simp [hfs], hcode.identifier?, ?_, hcode.exists_body⟩
  have hnames := (translated h).indexed.names
  have hentry : settings.entryFunction = main.name := Option.some.inj hmain.identifier?
  rw [Module.names, hfs] at hnames
  simp only [List.map_cons, List.nodup_cons] at hnames
  intro heq
  exact hnames.2.1 (List.mem_map.mpr ⟨fs[i], List.getElem_mem hi', heq.trans hentry⟩)

/-- The code of every function is in the log. -/
theorem lower_accounted (h : program.lower settings = (.ok m, events)) {f : Func}
    (hf : f ∈ m.functions) {body : List Instr} (hbody : f.body? = some body) :
    Accounted events.toList f.name body
      (if f.name = settings.entryFunction then [] else [.completed f.name]) := by
  obtain ⟨id, m₁, draft, es, m₂, draft', hdecl, hstart, hlogs, hfinish, -, hevents⟩ := lower_logs h
  rw [hevents, ← List.singleton_append]
  refine Accounted.prepend ?_ (by simp [Event.about?])
  have hm := indexed_around settings
  obtain ⟨g, hg, -, -, rfl⟩ := Module.define_eq_ok_iff.mp hfinish
  rcases List.mem_or_eq_of_mem_set hf with hf | rfl
  · -- the print routine has no body, so the function was declared inside the entry function
    have hnew : f.name ∉ (around settings).module.names := by
      intro hold
      have hedits := Edits.abandon (d := draft) hdecl hstart hlogs.edits
      have hprint := (hedits.indexed hm).mem_of_name_mem hedits.functions hf hold
      cases List.mem_singleton.mp hprint
      cases hbody
    have hne : f.name ≠ settings.entryFunction := by
      intro heq
      apply hlogs.edits.new_of_body hdecl hm hf hnew hbody
      simp [Module.names_declare hdecl, heq]
    rw [if_neg hne]
    exact hlogs.accounted_inside hdecl hstart hm (by simp) hf hnew hbody fun hnew₁ =>
      hlogs.accounted (hm.insert hdecl) (Draft.name_mem_names hdecl hstart) f hf hnew₁ body hbody
  · cases hbody
    rw [hlogs.edits.self_name hdecl hstart hg, if_pos rfl]
    exact hlogs.accounted_self hm hdecl hstart []

/-- Only functions that have a body in the end receive instructions. -/
theorem body_of_emitted (h : program.lower settings = (.ok m, events)) {name : String} {index : Nat}
    {instr : Instr} (he : .emitted name index instr ∈ events.toList) :
    ∃ f ∈ m.functions, f.name = name ∧ ∃ body, f.body? = some body := by
  obtain ⟨id, m₁, draft, es, m₂, draft', hdecl, hstart, hlogs, hfinish, -, hevents⟩ := lower_logs h
  have hes : Event.emitted name index instr ∈ es := by simpa [hevents] using he
  have hm₁ := (indexed_around settings).insert hdecl
  obtain ⟨hnew, hin⟩ := hlogs.edits.declared_inside (indexed_around settings) hdecl hstart
    ((hlogs.about hm₁ _ hes name rfl).imp_left And.left)
  rw [← Module.names_finish hfinish] at hin
  obtain ⟨f, hf, rfl⟩ := List.mem_map.mp hin
  have hm : (program.lower settings).1 = .ok m := by rw [h]
  exact ⟨f, hf, rfl, body_of_mem hm hf fun hprint => hnew (List.mem_singleton.mpr hprint)⟩

/-- The log of a program that is accepted reproduces its code. -/
theorem lower_traced (h : program.lower settings = (.ok m, events)) :
    Traced settings program m events.toList := by
  have hm : (program.lower settings).1 = .ok m := by rw [h]
  refine ⟨fun f hf body hbody => lower_accounted h hf hbody,
    fun node hnode => exists_of_mem_functionsAll hm hnode,
    fun name index instr he => body_of_emitted h he, ?_⟩
  obtain ⟨id, m₁, draft, es, m₂, draft', -, -, -, -, hvisits, hevents⟩ := lower_logs h
  rw [hevents, List.filterMap_cons_none rfl, List.filterMap_append, hvisits]
  exact List.append_nil _

/-- A program with a function inside a function, in which the code of each goes on behind the
function that stands in it. -/
def interleaved : Program :=
  [.assign .unknown (.declare .unknown "x") (.int .unknown 1),
    .function .unknown "f" .int [⟨"a", .int⟩]
      [.assign .unknown (.declare .unknown "y") (.use .unknown "a" .value),
        .function .unknown "g" .void [] [.print .unknown [.int .unknown 2]],
        .ret .unknown (some (.use .unknown "y" .value))],
    .assign .unknown (.use .unknown "x" .address) (.int .unknown 3)]

theorem lower_traced_interleaved :
    ∃ m events, Program.lower .default interleaved = (.ok m, events) ∧
      Traced .default interleaved m events.toList := by
  have hok : (Program.lower .default interleaved).1.toBool = true := by decide +kernel
  cases h : Program.lower .default interleaved with
  | mk r events =>
      rw [h] at hok
      cases r with
      | error e => cases hok
      | ok m => exact ⟨m, events, rfl, lower_traced h⟩

end Program

end SlotLang
