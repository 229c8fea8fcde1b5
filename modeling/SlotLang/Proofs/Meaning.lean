import SlotLang.Proofs.Execution
import SlotLang.Proofs.Translation

/-!
# SlotLang.Proofs.Meaning

Calls of a lowered program. Every function can be called from outside, also those inside other
functions, and so can the print routine. The machine then gives the answer that the tree has by its
meaning.
-/

namespace SlotLang

open Source (Activation Eval Stop)

/-! ### The start of a call -/

namespace Parameter

/-- A parameter is bound to the handle of its own number. -/
theorem lookup_bindings (x : String) : ∀ (params : List Parameter) (index : Nat) (bs : Bindings),
    (params.map Parameter.name).Nodup →
    (bindings index params bs).lookup x =
      match (params.map Parameter.name).idxOf? x with
      | some i => some (.argument (.arg (.ofNat (index + i))))
      | none => bs.lookup x
  | [], _, _, _ => rfl
  | p :: rest, index, bs, hnd => by
      rw [List.map_cons, List.nodup_cons] at hnd
      rw [bindings, lookup_bindings x rest _ _ hnd.2, List.map_cons, List.idxOf?_cons]
      by_cases hx : p.name = x
      · subst hx
        have hnone : (rest.map Parameter.name).idxOf? p.name = none :=
          List.idxOf?_eq_none_iff.mpr hnd.1
        simp [hnone]
      · have hne : (x == p.name) = false := by simpa using fun h => hx h.symm
        cases (rest.map Parameter.name).idxOf? x with
        | none => simp [hx, List.lookup_cons, hne]
        | some i => simp [hx, Nat.add_assoc, Nat.add_comm 1 i]

end Parameter

/-- A call begins with related states: there are no variables, and each parameter means its
argument. -/
theorem related_start (name : String) {params : List Parameter} {args : List Int64}
    (hnd : (params.map Parameter.name).Nodup) (hargs : args.length = params.length)
    (t : Transcript) :
    Related name t.output params.length (Parameter.bindings 0 params []) 0
      (.start name (params.map Parameter.name) args) ⟨args.map .int, [], []⟩ t := by
  have hlookup := fun x => Parameter.lookup_bindings x params 0 [] hnd
  have hstorage : ∀ x p,
      (Parameter.bindings 0 params []).lookup x = some (.storage p) → False := by
    intro x p hx
    rw [hlookup] at hx
    split at hx <;> cases hx
  refine ⟨rfl, (List.append_nil _).symm, hargs, rfl, rfl, ?_, ?_, ?_⟩
  · intro x p hx
    exact (hstorage x p hx).elim
  · intro x _ p _ _ hx
    exact (hstorage x p hx).elim
  · intro x h hx
    rw [hlookup] at hx
    cases hi : (params.map Parameter.name).idxOf? x with
    | none => rw [hi] at hx; cases hx
    | some i =>
        rw [hi] at hx
        cases hx
        obtain ⟨hlt, -⟩ := List.idxOf?_eq_some_iff.mp hi
        rw [List.length_map, ← hargs] at hlt
        obtain ⟨v, harg, hv⟩ := Frame.eval_arg
          (a := .start name (params.map Parameter.name) args) (f := ⟨args.map .int, [], []⟩) rfl hlt
        refine ⟨rfl, v, by rw [Nat.zero_add]; exact hv, ?_⟩
        change ((params.map Parameter.name).idxOf? x).bind _ = some v
        rw [hi]
        exact harg

/-! ### Calls of functions of the tree -/

/-- How a call ends by the meaning of the tree and on the machine, if texts had been printed
before. -/
def Answers (base : List String) :
    Except Source.Error (Option Int64) × List String →
      EStateM.Result ExecError Transcript Value → Prop
  | (.ok v, texts), r => ∃ t, r = .ok (.ofResult v) t ∧ t.output = base ++ texts
  | (.error e, texts), r => ∃ e' t, r = .error e' t ∧ e.Matches e' ∧ e'.fault.IsDynamic = true ∧
      t.output = base ++ texts

/-- The body of a function answers as the function does. -/
theorem callWith_answers {settings : Settings} {call : Nat → List Value → Exec Value}
    {origin : Origin} {name : String} {result : SourceType} {params : List Parameter}
    {body : List Node} {lines : List Line} {bs : Bindings} {args : List Int64}
    (hcode : CodeAll settings params.length result (Parameter.bindings 0 params []) 0 body lines bs)
    (hnd : (params.map Parameter.name).Nodup) (hargs : args.length = params.length)
    (hp : Node.hasPrintAll body = true → Prints settings call) (t : Transcript) :
    Answers t.output ((Node.function origin name result params body).callWith settings args)
      (Machine.execute call name ((result.complete lines).map Line.instr)
        ⟨args.map .int, [], []⟩ t) := by
  -- what follows the code of the statements is at most the return at the end of the body
  obtain ⟨rest, hrest, himplicit⟩ : ∃ rest,
      (result.complete lines).map Line.instr = lines.map Line.instr ++ rest ∧
        (endsInReturn lines = false → rest = [.ret result.implicit]) := by
    unfold SourceType.complete
    cases endsInReturn lines with
    | true => exact ⟨[], by simp, fun h => nomatch h⟩
    | false => exact ⟨[.ret result.implicit], by simp, fun _ => rfl⟩
  have hruns := hcode.runs rest hp (related_start name hnd hargs t)
  rw [hrest, Node.callWith, if_pos hargs]
  cases he : Node.evalAll settings body (.start name (params.map Parameter.name) args) with
  | error stop a =>
      rw [he] at hruns
      cases stop with
      | returned v => exact hruns
      | failed e => exact hruns
  | ok _ a =>
      rw [he] at hruns
      obtain ⟨f', t', hexec, hr', hlines⟩ := hruns
      rw [hexec, himplicit hlines.endsInReturn_eq]
      cases result with
      | int => exact ⟨_, rfl, hr'.output⟩
      | void => exact ⟨_, rfl, hr'.output⟩

/-! ### The print routine -/

theorem Print.integers_map (args : List Int64) : integers (args.map .int) = .ok args := by
  induction args with
  | nil => rfl
  | cons v rest ih => simp [integers, ih, bind, Except.bind, pure, Except.pure]

/-- Integers that do not follow a format stand on one line. -/
theorem Print.run_map (m : Module) (args : List Int64) :
    run m (args.map .int) = .ok (plain args) := by
  have h := integers_map args
  cases args with
  | nil => rfl
  | cons v rest =>
      rw [List.map_cons] at h ⊢
      simp only [run, h, bind, Except.bind, pure, Except.pure]

section

variable {settings : Settings} {program : Program} {m : Module}

section

variable {text : Nat} (htext : ∀ format, settings.printFormat = some format →
  m.text? text = some format)

include htext

theorem Print.run_int (v : Int64) :
    run m (settings.formatValuesAt text ++ [.int v]) = settings.printed v := by
  rw [Settings.printed_eq]
  unfold Settings.formatValuesAt
  cases hf : settings.printFormat with
  | none => simp [run, integers, bind, Except.bind, pure, Except.pure]
  | some format =>
      simp [run, integers, htext format hf, bind, Except.bind, pure, Except.pure]

theorem Print.run_slot (s : Nat) :
    run m (settings.formatValuesAt text ++ [.slot s]) = .error (.notAnInt .pointer) := by
  unfold Settings.formatValuesAt
  cases hf : settings.printFormat with
  | none => rfl
  | some format =>
      simp only [run, List.cons_append, List.nil_append, htext format hf]
      rfl

end

theorem Translated.print (ht : Translated settings program m) :
    m.function? 0 = some settings.printFunc := by
  obtain ⟨fs, hfs, -⟩ := ht.functions
  rw [Module.function?, hfs]
  rfl

/-- A call of the print routine opens no frame. -/
theorem Machine.invoke_print {id : Nat} (hid : m.function? id = some settings.printFunc)
    (room : Nat) (values : List Value) (t : Transcript) :
    (ofSettings m settings).invoke room id values t =
      match Print.run m values with
      | .ok text => .ok (.int (.ofNat text.utf8ByteSize)) (t.write text)
      | .error fault => .error ⟨settings.printRoutine, .print fault⟩ t := by
  rw [invoke_external hid rfl, callExternal_apply]
  exact if_pos rfl

/-- The print routine of a program that prints does so as the settings say. -/
theorem Translated.prints (ht : Translated settings program m)
    (hprint : Node.hasPrintAll program = true) (room : Nat) :
    Prints settings ((Machine.ofSettings m settings).invoke room) := by
  have htexts : m.texts = settings.printFormat.toList := by rw [ht.texts, if_pos hprint]
  have hformat : ∀ format, settings.printFormat = some format → m.text? 0 = some format := by
    intro format hf
    rw [Module.text?, htexts, hf]
    rfl
  constructor
  · intro v t
    have hcall := Machine.invoke_print ht.print room (settings.formatValues ++ [.int v]) t
    rw [settings.formatValues_eq, Print.run_int hformat] at hcall
    exact hcall
  · intro s t
    rw [Machine.invoke_print ht.print, Settings.formatValues_eq, Print.run_slot hformat]

/-! ### Calls from outside -/

theorem Compiled.identifier? {node : Node} {f : Func} (h : Compiled settings node f) :
    node.identifier? = some f.name := by
  cases node with
  | function =>
      obtain ⟨-, lines, bs, -, rfl⟩ := h
      rfl
  | _ => exact h.elim

theorem Compiled.isExternal {node : Node} {f : Func} (h : Compiled settings node f) :
    f.isExternal = false := by
  cases node with
  | function =>
      obtain ⟨-, lines, bs, -, rfl⟩ := h
      rfl
  | _ => exact h.elim

/-- A function has as many parameters as in the tree. -/
theorem Compiled.params_length {origin : Origin} {name : String} {result : SourceType}
    {params : List Parameter} {body : List Node} {f : Func}
    (h : Compiled settings (.function origin name result params body) f) :
    f.params.length = params.length := by
  obtain ⟨-, lines, bs, -, rfl⟩ := h
  exact List.length_map ..

/-- The functions of a module are found under the names that they have in the tree. -/
theorem findIdx?_of_compiled {nodes : List Node} {fs : List Func}
    (h : List.Forall₂ (Compiled settings) nodes fs) (name : String) :
    match nodes.find? fun node => node.identifier? = some name with
    | some node => ∃ i f, fs.findIdx? (fun f => f.name == name) = some i ∧ fs[i]? = some f ∧
        Compiled settings node f
    | none => fs.findIdx? (fun f => f.name == name) = none := by
  induction h with
  | nil => rfl
  | @cons node f nodes fs hnode _ ih =>
      by_cases hname : f.name = name
      · have hid : node.identifier? = some name := by rw [hnode.identifier?, hname]
        simp only [List.find?_cons, hid, decide_true]
        exact ⟨0, f, by simp [List.findIdx?_cons, hname], rfl, hnode⟩
      · have hid : node.identifier? ≠ some name := by
          rw [hnode.identifier?]
          simpa using hname
        have hbeq : (f.name == name) = false := beq_eq_false_iff_ne.mpr hname
        simp only [List.find?_cons, hid, decide_false, List.findIdx?_cons, hbeq]
        cases hfind : nodes.find? fun node => decide (node.identifier? = some name) with
        | none =>
            rw [hfind] at ih
            simp only [ih]
            rfl
        | some found =>
            rw [hfind] at ih
            obtain ⟨i, g, hi, hg, hc⟩ := ih
            exact ⟨i + 1, g, by simp [hi], hg, hc⟩

/-- A function that receives as many arguments as it has parameters runs its code. Any machine will
do that prints as the settings say, or any at all if the function does not print. -/
theorem Compiled.invoke_answers {origin : Origin} {name : String} {result : SourceType}
    {params : List Parameter} {body : List Node} {f : Func}
    (hc : Compiled settings (.function origin name result params body) f) {machine : Machine}
    {id : Nat} (hf : machine.module.function? id = some f) {args : List Int64}
    (hargs : args.length = params.length) {room : Nat}
    (hp : Node.hasPrintAll body = true → Prints settings (machine.invoke room)) (t : Transcript) :
    Answers t.output ((Node.function origin name result params body).callWith settings args)
      (machine.invoke (room + 1) id (args.map .int) t) := by
  have hlen : (args.map Value.int).length = f.params.length := by
    rw [List.length_map, hargs, hc.params_length]
  rw [Machine.invoke_succ hf hc.isExternal, if_pos hlen]
  obtain ⟨hnd, lines, bs, hcode, rfl⟩ := hc
  exact callWith_answers hcode hnd hargs hp t

theorem Translated.invoke_answers (ht : Translated settings program m) {node : Node} {f : Func}
    (hmem : node ∈ (program.main settings).functions) (hc : Compiled settings node f) {id : Nat}
    (hf : m.function? id = some f) {args : List Int64} (hargs : args.length = f.params.length)
    (room : Nat) (t : Transcript) :
    Answers t.output (node.callWith settings args)
      ((Machine.ofSettings m settings).invoke (room + 1) id (args.map .int) t) := by
  cases node with
  | function origin name result params body =>
      rw [hc.params_length] at hargs
      refine hc.invoke_answers hf hargs ?_ t
      intro h
      have hprint : (Node.function origin name result params body).hasPrint = true := h
      exact ht.prints (Node.hasPrint_of_mem_functions hprint hmem) room
  | _ => exact hc.elim

/-- Otherwise it does not run, by the meaning of the tree as well as on the machine. -/
theorem Compiled.argumentCount {node : Node} {f : Func} (hc : Compiled settings node f) {id : Nat}
    (hf : m.function? id = some f) {args : List Int64} (hargs : args.length ≠ f.params.length)
    (room : Nat) (t : Transcript) :
    node.callWith settings args =
        (.error ⟨f.name, .argumentCount f.params.length args.length⟩, []) ∧
      (Machine.ofSettings m settings).invoke (room + 1) id (args.map .int) t =
        .error ⟨f.name, .argumentCount f.params.length args.length⟩ t := by
  constructor
  · cases node with
    | function origin name result params body =>
        rw [hc.params_length] at hargs ⊢
        rw [Node.callWith, if_neg hargs]
        obtain ⟨-, lines, bs, -, rfl⟩ := hc
        rfl
    | _ => exact hc.elim
  · have hlen : (args.map Value.int).length ≠ f.params.length := by rwa [List.length_map]
    rw [Machine.invoke_succ hf hc.isExternal, if_neg hlen, List.length_map]

/-- All that a call from outside can come to: the name or the number of arguments is wrong, or the
function runs. Then it returns, or it fails for a reason that lies in what it computes. -/
inductive Outcome (m : Module) (name : String) (args : List Int64) (t : Transcript) :
    Except Source.Error (Option Int64) × List String →
      EStateM.Result ExecError Transcript (Option Int64) → Prop
  | notDeclared : m.find? name = none →
      Outcome m name args t (.error ⟨name, .notDeclared name⟩, [])
        (.error ⟨name, .notDeclared name⟩ t)
  | argumentCount {id : Nat} {f : Func} : m.find? name = some id → m.function? id = some f →
      f.isExternal = false → args.length ≠ f.params.length →
      Outcome m name args t (.error ⟨name, .argumentCount f.params.length args.length⟩, [])
        (.error ⟨name, .argumentCount f.params.length args.length⟩ t)
  | returned {v : Option Int64} {texts : List String} {t' : Transcript} :
      t'.output = t.output ++ texts → Outcome m name args t (.ok v, texts) (.ok v t')
  | failed {e : Source.Error} {e' : ExecError} {texts : List String} {t' : Transcript} :
      e.Matches e' → e'.fault.IsDynamic = true → t'.output = t.output ++ texts →
      Outcome m name args t (.error e, texts) (.error e' t')

/-- A call that gets an answer has an outcome. -/
theorem Answers.outcome {name : String} {args : List Int64} {id : Nat} {t : Transcript}
    {answer : Except Source.Error (Option Int64) × List String}
    (hid : m.find? name = some id)
    (h : Answers t.output answer
      ((Machine.ofSettings m settings).invoke maxFrames id (args.map .int) t)) :
    Outcome m name args t answer ((Machine.ofSettings m settings).call name args t) := by
  rw [Machine.call_found hid]
  obtain ⟨result, texts⟩ := answer
  cases result with
  | ok v =>
      obtain ⟨t', hr, ho⟩ := h
      rw [hr]
      cases v with
      | none => exact .returned ho
      | some v => exact .returned ho
  | error e =>
      obtain ⟨e', t', hr, hm, hd, ho⟩ := h
      rw [hr]
      exact .failed hm hd ho

/-- A call of a lowered program does what the program means. -/
theorem Translated.outcome (ht : Translated settings program m) (name : String) (args : List Int64)
    (t : Transcript) :
    Outcome m name args t (program.evaluate settings name args)
      ((Machine.ofSettings m settings).call name args t) := by
  obtain ⟨fs, hfs, hcompiled⟩ := ht.functions
  by_cases hprint : name = settings.printRoutine
  · -- called from outside, the print routine gets integers only and prints them without a format
    subst hprint
    have hid : m.find? settings.printRoutine = some 0 := by
      rw [ht.indexed.find?_eq, hfs]
      simp [Settings.printFunc, List.findIdx?_cons]
    rw [Program.evaluate, if_pos rfl]
    refine Answers.outcome hid ⟨t.write (Print.plain args), ?_, rfl⟩
    rw [Machine.invoke_print ht.print, Print.run_map]
    rfl
  · have hne : (settings.printFunc.name == name) = false :=
      beq_eq_false_iff_ne.mpr fun h => hprint h.symm
    have hfind := findIdx?_of_compiled hcompiled name
    rw [Program.evaluate, if_neg hprint]
    cases hnode : (program.main settings).functions.find? fun node =>
        decide (node.identifier? = some name) with
    | none =>
        rw [hnode] at hfind
        have hid : m.find? name = none := by
          rw [ht.indexed.find?_eq, hfs]
          simp [List.findIdx?_cons, hne, hfind]
        rw [Machine.call_notDeclared hid]
        exact .notDeclared hid
    | some node =>
        rw [hnode] at hfind
        obtain ⟨i, f, hi, hget, hc⟩ := hfind
        have hid : m.find? name = some (i + 1) := by
          rw [ht.indexed.find?_eq, hfs]
          simp [List.findIdx?_cons, hne, hi]
        have hf : m.function? (i + 1) = some f := by
          rw [Module.function?, hfs]
          exact hget
        by_cases hargs : args.length = f.params.length
        · exact Answers.outcome hid (ht.invoke_answers (List.mem_of_find?_eq_some hnode) hc hf hargs
            _ t)
        · have hname : f.name = name := by
            have h := List.find?_some hnode
            rw [hc.identifier?] at h
            simpa using h
          obtain ⟨hmeaning, hinvoke⟩ := hc.argumentCount hf hargs 255 t
          rw [Machine.call_found hid, maxFrames, hinvoke]
          simp only [hmeaning, hname]
          exact .argumentCount hid hf hc.isExternal hargs

end

/-- The entry function is there, and it takes no arguments. -/
theorem Translated.find?_entry {settings : Settings} {program : Program} {m : Module}
    (ht : Translated settings program m) :
    ∃ id f, m.find? settings.entryFunction = some id ∧ m.function? id = some f ∧
      (f.isExternal = false → f.params = []) := by
  obtain ⟨fs, hfs, hcompiled⟩ := ht.functions
  rw [Program.functions_main] at hcompiled
  obtain ⟨f, rest, hmain, -, rfl⟩ := List.forall₂_cons_left_iff.mp hcompiled
  obtain ⟨-, lines, bs, -, rfl⟩ := hmain
  by_cases heq : settings.printRoutine = settings.entryFunction
  · refine ⟨0, settings.printFunc, ?_, ht.print, fun h => nomatch h⟩
    rw [ht.indexed.find?_eq, hfs]
    simp [Settings.printFunc, heq, List.findIdx?_cons]
  · refine ⟨1, _, ?_, by rw [Module.function?, hfs]; rfl, fun _ => rfl⟩
    rw [ht.indexed.find?_eq, hfs]
    simp [Settings.printFunc, Func.define, Func.pending, heq, List.findIdx?_cons]

/-! ### What lowering preserves -/

/-- The machine reproduces an answer: it returns the same value or fails in the corresponding way,
and it prints the same texts behind those of before. -/
def Reproduces (t : Transcript) :
    Except Source.Error (Option Int64) × List String →
      EStateM.Result ExecError Transcript (Option Int64) → Prop
  | (.ok v, texts), .ok v' t' => v' = v ∧ t'.output = t.output ++ texts
  | (.error e, texts), .error e' t' => e.Matches e' ∧ t'.output = t.output ++ texts
  | _, _ => False

/-- Lowering preserves meaning: a call of any function, with any arguments and after any other
calls, gives on the machine the answer that it has by the meaning of the program. In that meaning
a number stands for the argument at its place, unless there are more arguments than numbers. -/
theorem lower_preserves_meaning {settings : Settings} {program : Program} {m : Module}
    (h : (program.lower settings).1 = .ok m) (name : String) (args : List Int64) (t : Transcript) :
    Reproduces t (program.evaluate settings name args)
        ((Machine.ofSettings m settings).call name args t) ∧
      (args.length ≤ 2 ^ 32 → ∀ a : Activation, a.args = args → ∀ index < args.length,
        a.argument? index = args[index]?) := by
  constructor
  · have ho := (Program.translated h).outcome name args t
    generalize program.evaluate settings name args = answer at ho ⊢
    generalize (Machine.ofSettings m settings).call name args t = r at ho ⊢
    cases ho with
    | notDeclared => exact ⟨⟨rfl, rfl⟩, (List.append_nil _).symm⟩
    | argumentCount => exact ⟨⟨rfl, rfl, rfl⟩, (List.append_nil _).symm⟩
    | returned ho => exact ⟨rfl, ho⟩
    | failed hm _ ho => exact ⟨hm, ho⟩
  · rintro hargs a rfl index hi
    exact Activation.argument?_eq hargs hi

/-- `int x = 3; print(x++ - ++x); return x`: the order of reads and writes matters. -/
def Program.steps : Program :=
  [.assign .unknown (.declare .unknown "x") (.int .unknown 3),
    .print .unknown [.binary .unknown .sub (.step .unknown "x" .post .increment)
      (.step .unknown "x" .pre .increment)],
    .ret .unknown (some (.use .unknown "x" .value))]

theorem lower_preserves_meaning_steps :
    ∃ m, (Program.lower .default .steps).1 = .ok m ∧
      Reproduces .empty (.ok (some 5), ["-2\n"])
        ((Machine.ofSettings m .default).call "main" [] .empty) := by
  have hok : (Program.lower .default .steps).1.toBool = true := by decide +kernel
  have hmeaning : Program.evaluate .default .steps "main" [] = (.ok (some 5), ["-2\n"]) := by
    decide +kernel
  cases hm : (Program.lower .default .steps).1 with
  | error e => rw [hm] at hok; cases hok
  | ok m =>
      have h := (lower_preserves_meaning hm "main" [] .empty).1
      rw [hmeaning] at h
      exact ⟨m, rfl, h⟩

/-- Of a call of a lowered program only the name and the number of arguments can be wrong. All
other failures lie in what the program computes: a variable that was never written, a division by
zero, or a print that does not fit its format. A call of the entry function without arguments can
fail in no other way. -/
theorem call_fails_only_dynamically {settings : Settings} {program : Program} {m : Module}
    (h : (program.lower settings).1 = .ok m) {name : String} {args : List Int64}
    {t t' : Transcript} {e : ExecError}
    (he : (Machine.ofSettings m settings).call name args t = .error e t') :
    ((e.fault = .notDeclared name ∧ m.find? name = none) ∨
      (∃ id f, m.find? name = some id ∧ m.function? id = some f ∧ f.isExternal = false ∧
        args.length ≠ f.params.length ∧
        e.fault = .argumentCount f.params.length args.length) ∨
      e.fault.IsDynamic = true) ∧
    (name = settings.entryFunction → args = [] → e.fault.IsDynamic = true) := by
  have ht := Program.translated h
  have ho := ht.outcome name args t
  rw [he] at ho
  generalize program.evaluate settings name args = answer at ho
  obtain ⟨entry, g, hentry, hg, hparams⟩ := ht.find?_entry
  cases ho with
  | notDeclared hid =>
      refine ⟨.inl ⟨rfl, hid⟩, ?_⟩
      rintro rfl -
      rw [hid] at hentry
      cases hentry
  | @argumentCount id f hid hf hext hargs =>
      refine ⟨.inr (.inl ⟨id, f, hid, hf, hext, hargs, rfl⟩), ?_⟩
      rintro rfl rfl
      rw [hid] at hentry
      cases hentry
      rw [hf] at hg
      cases hg
      rw [hparams hext] at hargs
      exact absurd rfl hargs
  | failed _ hd _ => exact ⟨.inr (.inr hd), fun _ _ => hd⟩

/-- The module of the statement `1 / 0`. -/
def Module.division : Module :=
  ⟨"main",
    [Settings.default.printFunc, (Func.pending "main" [] .int).define
      [⟨.binary .sdiv (.const 1) (.const 0), .int⟩, ⟨.ret (some (.const 0)), .void⟩]],
    [("main", 1), ("printf", 0)], []⟩

theorem call_fails_only_dynamically_division :
    (Program.lower .default [.binary .unknown .div (.int .unknown 1) (.int .unknown 0)]).1 =
        .ok .division ∧
      ∃ e t', (Machine.ofSettings .division .default).call "main" [] .empty = .error e t' ∧
        e.fault.IsDynamic = true := by
  have h : (Program.lower .default
      [.binary .unknown .div (.int .unknown 1) (.int .unknown 0)]).1 = .ok .division := rfl
  refine ⟨h, ?_⟩
  cases he : (Machine.ofSettings .division .default).call "main" [] .empty with
  | ok v t' => cases he
  | error e t' => exact ⟨e, t', rfl, (call_fails_only_dynamically h he).2 rfl rfl⟩

end SlotLang
