import SlotLang.Proofs.Bodies
import SlotLang.Proofs.Slots

/-!
# SlotLang.Proofs.Reads

A variable can be read without a node that says so: its declaration is asked for the value, and that
adds one load to the code, each time anew. Such reads may stand anywhere between the statements of a
body. Each of them sees what the statements before it have written last.

The machine is compared with the evaluation of statements and reads by `Realizes`, which speaks of
what a run makes of the code behind. From there one gets back to the frame of the run itself by
putting a probe behind the code: a load and a return of what was loaded.
-/

namespace SlotLang

open Source (Eval)

/-! ### Statements and reads -/

/-- What is done to the body of a function: a statement is lowered, or a declaration is asked for
the value of its variable. -/
inductive BodyStep
  | statement (node : Node)
  | read (origin : Origin) (name : String)

namespace BodyStep

/-- What a step means. A read changes nothing. -/
def eval (settings : Settings) : BodyStep → Eval Source.Value
  | statement node => node.eval settings
  | read _ name => do return .int (← Eval.load name)

/-- Evaluates steps in order. -/
def evalAll (settings : Settings) : List BodyStep → Eval Unit
  | [] => return
  | step :: rest => do
    let _ ← step.eval settings
    evalAll settings rest

/-- The statements among the steps. -/
def statements : List BodyStep → List Node
  | [] => []
  | statement node :: rest => node :: statements rest
  | read _ _ :: rest => statements rest

/-- A step that was done in a context, with the handle that it has yielded. Reads are made in the
scope where the variable is declared and while the body has not returned; that is all it takes for
them to succeed (`value?_declare_ok`). -/
inductive Done (settings : Settings) (c : Context) : BodyStep → Handle → Context → Prop
  | statement {node : Node} {h : Handle} {c' : Context} :
      node.lower settings c = .ok h c' → Done settings c (.statement node) h c'
  | read {origin : Origin} {x : String} {h : Handle} {c' : Context} :
      c.scopes.isBound x = true → c.draft.isTerminated = false →
      (Node.declare origin x).value? c = .ok (some h) c' → Done settings c (.read origin x) h c'

/-- Steps that were done one after the other, with their handles. -/
inductive DoneAll (settings : Settings) :
    Context → List BodyStep → List Handle → Context → Prop
  | nil (c : Context) : DoneAll settings c [] [] c
  | cons {c c₁ c₂ : Context} {step : BodyStep} {h : Handle} {steps : List BodyStep}
      {handles : List Handle} : Done settings c step h c₁ → DoneAll settings c₁ steps handles c₂ →
      DoneAll settings c (step :: steps) (h :: handles) c₂

end BodyStep

/-- Reads drop out of an evaluation that comes through. -/
theorem evalAll_statements {settings : Settings} : ∀ {steps : List BodyStep}
    {a a' : Source.Activation}, BodyStep.evalAll settings steps a = .ok () a' →
    Node.evalAll settings (BodyStep.statements steps) a = .ok () a'
  | [], _, _, h => h
  | .statement node :: rest, a, a', h => by
      obtain ⟨v, a₁, hnode, hrest⟩ := bind_apply_eq_ok h
      rw [BodyStep.statements, Node.evalAll, bind_apply, show node.eval settings a = _ from hnode]
      exact evalAll_statements hrest
  | .read origin x :: rest, a, a', h => by
      obtain ⟨v, a₁, hread, hrest⟩ := bind_apply_eq_ok h
      obtain ⟨w, a₂, hload, hpure⟩ := bind_apply_eq_ok hread
      cases hpure
      have hsame : a₁ = a := by
        unfold Eval.load at hload
        split at hload <;> cases hload
        rfl
      rw [BodyStep.statements, ← hsame]
      exact evalAll_statements hrest

section

variable {settings : Settings} {c c' : Context}

/-- A read that succeeds is one load of the slot of the variable. -/
theorem value?_declare_eq_ok (hc : Placed settings c) {origin : Origin} {x : String}
    {value : Option Handle} (h : (Node.declare origin x).value? c = .ok value c') :
    ∃ p, c.bindings.lookup x = some (.storage p) ∧ ∃ handle, value = some handle ∧
      Lower.emit (.declare origin x) (.load p) c = .ok handle c' := by
  obtain ⟨p, c₁, hp, hl⟩ := bind_apply_eq_ok h
  obtain ⟨rfl, hx⟩ := Lower.storageOf_eq_ok hc hp
  refine ⟨p, hx, ?_⟩
  rw [map_eq_pure_bind] at hl
  obtain ⟨handle, c₂, hload, hpure⟩ := bind_apply_eq_ok hl
  cases hpure
  exact ⟨handle, rfl, hload⟩

namespace BodyStep

/-- A step does to the context what lowering may do. -/
theorem Done.appends (hc : Placed settings c) {step : BodyStep} {h : Handle}
    (hstep : step.Done settings c h c') : Appends c c' := by
  cases hstep with
  | statement hl => exact (lower_onlyAppends _).of_ok hl
  | read _ _ hread =>
      obtain ⟨p, -, handle, -, hload⟩ := value?_declare_eq_ok hc hread
      exact (Lower.OnlyAppends.emit _ _).of_ok hload

theorem Done.realized (hc : Placed settings c) {step : BodyStep} {h : Handle}
    (hstep : step.Done settings c h c') : Realized settings c c' (step.eval settings) h := by
  cases hstep with
  | statement hl => exact lower_realized _ hc hl
  | @read origin x _ _ _ _ hread =>
      obtain ⟨p, hx, handle, heq, hload⟩ := value?_declare_eq_ok hc hread
      cases heq
      exact load_realized hc hx hload

namespace DoneAll

variable {steps : List BodyStep} {handles : List Handle}

/-- One step after the other does what may be done, and what it means is what the code does. -/
theorem realizes (hsteps : DoneAll settings c steps handles c') (hc : Placed settings c) :
    Placed settings c' ∧ Appends c c' ∧
      Realizes settings c c' (fun _ => True) (evalAll settings steps) fun _ _ => True := by
  induction hsteps with
  | nil c =>
      refine ⟨hc, .refl c, .of_lines (Draft.append_nil _).symm ?_⟩
      intro call function base a f t rest _ hr _
      exact ⟨f, t, rfl, hr, .refl f, trivial⟩
  | @cons c c₁ c₂ step h steps handles hstep _ ih =>
      have happends := hstep.appends hc
      have hrealized := hstep.realized hc
      obtain ⟨hc₂, happends₂, hrest⟩ := ih hrealized.placed
      obtain ⟨ty, -, hreal⟩ := hrealized.value
      refine ⟨hc₂, happends.trans happends₂, ?_⟩
      refine hreal.bind happends.edits happends₂.edits fun v => ?_
      intro lines hlines call function base a f t rest hcall hr _
      exact hrest lines hlines rest hcall hr trivial

/-- Every handle that was yielded means something. -/
theorem exists_type (hsteps : DoneAll settings c steps handles c') (hc : Placed settings c) :
    ∀ h ∈ handles, ∃ ty, c'.draft.typeOf? c'.module h = some ty := by
  induction hsteps with
  | nil c => exact fun _ h => nomatch h
  | @cons c c₁ c₂ step h steps handles hstep hrest ih =>
      have hrealized := hstep.realized hc
      obtain ⟨-, happends, -⟩ := hrest.realizes hrealized.placed
      rw [List.forall_mem_cons]
      refine ⟨?_, ih hrealized.placed⟩
      obtain ⟨ty, hty, -⟩ := hrealized.value
      exact ⟨ty, Placed.typeOf?_of_edits happends.edits hty⟩

end DoneAll

end BodyStep

end

/-! ### Runs that get through a piece of code -/

section

variable {call : Nat → List Value → Exec Value} {function : String} {args : List Value}
  {t₀ t : Transcript} {done : List Instr} {f : Frame} {log : StoreLog}

/-- Every instruction that is done has filled a register. -/
theorem Activation.length (h : Activation call function args t₀ done f log t) :
    f.registers.length = done.length := by
  have hadvance : ∀ {g : Frame} (v : Value) (instr : Instr) {code : List Instr},
      g.registers.length = code.length →
      (g.advance v).registers.length = (code ++ [instr]).length := by
    intro g v instr code hg
    simp [Frame.advance, hg]
  induction h with
  | start => rfl
  | @store done f f' log t p v n _ hv hw ih =>
      obtain ⟨s, -, hw⟩ := bind_eq_ok hw
      rw [hv] at hw
      cases hw
      exact hadvance .void _ ih
  | @next done f f' log t instr _ hne hn ih =>
      cases instr with
      | alloca name =>
          cases hn
          exact hadvance _ _ ih
      | load p =>
          obtain ⟨v, -, rfl⟩ := map_eq_ok (Option.some.inj hn)
          exact hadvance _ _ ih
      | binary op l r =>
          obtain ⟨v, -, rfl⟩ := map_eq_ok (Option.some.inj hn)
          exact hadvance _ _ ih
      | store p v => exact absurd rfl (hne p v)
      | call | ret => cases hn
  | call _ _ _ ih => exact hadvance _ _ ih

/-- A body must end in a return: an instruction of another kind that nothing follows is an error. -/
theorem execute_singleton {instr : Instr} (hret : ∀ v, instr ≠ .ret v) (f : Frame)
    (t : Transcript) : ∃ e t', Machine.execute call function [instr] f t = .error e t' := by
  cases hn : f.next? instr with
  | some r =>
      cases r with
      | ok f' => exact ⟨_, _, execute_next hn [] t⟩
      | error fault => exact ⟨_, _, execute_next_error hn [] t⟩
  | none =>
      cases instr with
      | alloca | load | store | binary => cases hn
      | call callee hs =>
          cases hvs : f.evalAll hs with
          | error fault => exact ⟨_, _, execute_call_error callee [] hvs t⟩
          | ok vs =>
              rw [execute_call callee hs [] hvs]
              cases call callee vs (t.executing function f (.call callee hs)) with
              | ok v t' => exact ⟨_, _, rfl⟩
              | error e t' => exact ⟨_, _, rfl⟩
      | ret v => exact absurd rfl (hret v)

/-- Code without returns is done to its end, or an error stops the run, whatever code follows. -/
theorem Activation.reaches_or_fails (h : Activation call function args t₀ done f log t)
    {code : List Instr} (hret : ∀ v, .ret v ∉ code) :
    (∃ f log t, Activation call function args t₀ (done ++ code) f log t) ∨
      ∃ e t, ∀ rest, Machine.execute call function (done ++ code ++ rest) ⟨args, [], []⟩ t₀ =
        .error e t := by
  induction code generalizing done f log t with
  | nil =>
      rw [List.append_nil]
      exact .inl ⟨f, log, t, h⟩
  | cons instr code ih =>
      rcases h.continues instr with ⟨f', log', t', h'⟩ | ⟨r, hr⟩
      · have hrest := ih h' fun v hv => hret v (List.mem_cons_of_mem _ hv)
        rw [List.append_assoc, List.singleton_append] at hrest
        exact hrest
      · have hinstr : ∀ v, instr ≠ .ret v := by
          intro v heq
          exact hret v (heq ▸ List.mem_cons_self)
        obtain ⟨e, t', he⟩ : ∃ e t', Machine.execute call function [instr] f t = .error e t' :=
          execute_singleton hinstr f t
        refine .inr ⟨e, t', fun rest => ?_⟩
        rw [List.append_assoc, h.execute_eq, List.cons_append, hr, ← hr [], he]

section

variable {base : List String} {α : Type}
  {post : α → Source.Activation → Frame → Transcript → Prop}
  {x : EStateM.Result Source.Stop Source.Activation α} {code : List Instr}
  (hruns : ∀ rest, Runs call function base rest post x
    (Machine.execute call function (code ++ rest) ⟨args, [], []⟩ t₀))

include hruns

/-- If a run gets through the code of an evaluation, then the evaluation comes through. -/
theorem Activation.evaluated (h : Activation call function args t₀ code f log t) :
    ∃ v a, x = .ok v a := by
  cases x with
  | ok v a => exact ⟨v, a, rfl⟩
  | error stop a =>
      cases stop with
      | returned v =>
          -- with nothing behind it, the code does not return but comes to its end
          obtain ⟨t', ht', -⟩ := hruns []
          rw [h.execute_eq] at ht'
          cases ht'
      | failed e =>
          obtain ⟨e', t', ht', -⟩ := hruns [.ret none]
          rw [h.execute_eq, execute_ret_none] at ht'
          cases ht'

/-- If a run fails within the code of an evaluation, then the evaluation fails as well. -/
theorem failed_of_execute {e' : ExecError} (hfail : ∀ rest,
      Machine.execute call function (code ++ rest) ⟨args, [], []⟩ t₀ = .error e' t) :
    ∃ e a, x = .error (.failed e) a ∧ e.Matches e' := by
  cases x with
  | ok v a =>
      obtain ⟨g, t', ht', -⟩ := hruns [.ret none]
      rw [hfail, execute_ret_none] at ht'
      cases ht'
  | error stop a =>
      cases stop with
      | returned v =>
          obtain ⟨t', ht', -⟩ := hruns []
          rw [hfail] at ht'
          cases ht'
      | failed e =>
          obtain ⟨e'', t', ht', hmatch, -⟩ := hruns []
          rw [hfail] at ht'
          cases ht'
          exact ⟨e, a, rfl, hmatch⟩

end

/-- The probe: what a load reads can be told by returning it. -/
theorem read_eq_of_execute_eq {p : Handle} {g : Frame} {t t' : Transcript}
    (hlen : g.registers.length = f.registers.length)
    (h : Machine.execute call function [.load p, .ret (some (.inst f.registers.length))] f t =
      Machine.execute call function [.load p, .ret (some (.inst f.registers.length))] g t') :
    f.read p = g.read p := by
  have heval : ∀ (k : Frame) (v : Int64), k.registers.length = f.registers.length →
      (k.advance (.int v)).eval (.inst f.registers.length) = .ok (.int v) := by
    intro k v hk
    rw [← hk]
    exact k.eval_advance (.int v)
  rw [execute_load, execute_load] at h
  cases hf : f.read p with
  | ok v =>
      cases hg : g.read p with
      | ok w =>
          simp only [hf, hg, execute_ret [] (heval f v rfl), execute_ret [] (heval g w hlen)] at h
          injection h with hvalue
          injection hvalue with hvalue
          rw [hvalue]
      | error fault =>
          simp only [hf, hg, execute_ret [] (heval f v rfl)] at h
          cases h
  | error fault =>
      cases hg : g.read p with
      | ok w =>
          simp only [hf, hg, execute_ret [] (heval g w hlen)] at h
          cases h
      | error fault' =>
          simp only [hf, hg] at h
          injection h with herror
          cases herror
          rfl

/-- Behind the code of an evaluation, a variable is read as the evaluation has left it. -/
theorem Activation.read_eq {base : List String} {arity : Nat} {bs : Bindings} {α : Type}
    {x : EStateM.Result Source.Stop Source.Activation α} {code : List Instr}
    (h : Activation call function args t₀ code f log t)
    (hruns : ∀ rest, Runs call function base rest
      (fun _ a g t' => Related function base arity bs code.length a g t') x
      (Machine.execute call function (code ++ rest) ⟨args, [], []⟩ t₀))
    {name : String} {p : Handle} (hp : bs.lookup name = some (.storage p)) :
    ∃ v a w, x = .ok v a ∧ a.locals name = some w ∧
      f.read p = match w with
        | some k => .ok k
        | none => .error (.uninitialized code.length) := by
  obtain ⟨v, a, rfl⟩ := h.evaluated hruns
  obtain ⟨g, t', hexec, hr⟩ := hruns [.load p, .ret (some (.inst f.registers.length))]
  rw [h.execute_eq] at hexec
  have hread := read_eq_of_execute_eq (hr.registers.trans h.length.symm) hexec
  obtain ⟨s, w, hs, hw, hlocal⟩ := hr.storage name p hp
  rw [Frame.read_eq hs hw, hr.registers] at hread
  refine ⟨v, a, w, rfl, hlocal, hread.trans ?_⟩
  cases w <;> rfl

end

/-! ### Functions that are written from scratch -/

/-- A context in which the body of a function is to be written: the draft and the scope are fresh,
and the print routine is there. -/
structure Context.Positioned (settings : Settings) (c : Context) : Prop where
  /-- As in every module that requests have built, no two functions have one name. -/
  module : c.module.Tidy
  print : ∃ id, c.module.function? id = some settings.printFunc
  draft : ∃ id, Draft.start c.module id = .ok c.draft
  scopes : ∃ outer, c.scopes = Scopes.enterFunction outer

namespace Context.Positioned

variable {settings : Settings} {c : Context}

theorem code_eq (hc : c.Positioned settings) : c.draft.code = [] := by
  obtain ⟨id, hstart⟩ := hc.draft
  obtain ⟨f, -, -, hd⟩ := Draft.start_eq_ok hstart
  rw [hd]

theorem bindings_eq (hc : c.Positioned settings) : c.bindings = [] := by
  obtain ⟨outer, hs⟩ := hc.scopes
  rw [Context.bindings, hs]
  rfl

theorem judged (hc : c.Positioned settings) : c.draft.Judged := by
  obtain ⟨id, hstart⟩ := hc.draft
  exact Draft.judged_of_start hc.module hstart

theorem placed (hc : c.Positioned settings) : Placed settings c := by
  obtain ⟨outer, hs⟩ := hc.scopes
  obtain ⟨id, hid⟩ := hc.print
  refine ⟨⟨outer, by rw [hc.bindings_eq]; exact hs⟩, ?_, hc.judged.result, hc.judged.even,
    hc.module.indexed, id, ?_, hid⟩
  · intro x b hx
    rw [hc.bindings_eq] at hx
    cases hx
  · exact (hc.module.indexed.find?_eq_some_iff _ _).mpr ⟨_, hid, rfl⟩

/-- In a scope that was fresh only variables are bound. -/
theorem lookup_eq_storage (hc : c.Positioned settings) {c' : Context} (h : Appends c c')
    {x : String} (hx : c'.scopes.isBound x = true) :
    ∃ p, c'.bindings.lookup x = some (.storage p) := by
  obtain ⟨outer, hs⟩ := hc.scopes
  obtain ⟨inner, hs', hgains⟩ := h.scopes _ _ hs
  rw [hs'] at hx
  obtain ⟨b, hb⟩ := Option.isSome_iff_exists.mp hx
  rcases hgains.gains x b hb with hold | ⟨k, rfl, -, -⟩
  · cases hold
  · refine ⟨.inst k, ?_⟩
    rw [Context.bindings, hs']
    exact hb

/-- A call of the function runs the code that was handed over for it. -/
theorem call_finished (hc : c.Positioned settings) {m m' : Module} {d : Draft}
    (he : Edits c.module c.draft m d) (hfinish : d.finish m = .ok () m') (args : List Int64)
    (t : Transcript) :
    (Machine.ofSettings m' settings).call d.name args t =
      Machine.answer d.name
        (if args.length = d.params.length then
          Machine.execute ((Machine.ofSettings m' settings).invoke (maxFrames - 1)) d.name d.code
            ⟨args.map .int, [], []⟩ t
        else .error ⟨d.name, .argumentCount d.params.length args.length⟩ t) := by
  obtain ⟨id, hstart⟩ := hc.draft
  obtain ⟨f, hf, hext, hd⟩ := Draft.start_eq_ok hstart
  obtain ⟨lines, hlines⟩ := he.draft
  rw [hd] at hlines
  subst hlines
  have hindexed : m'.Indexed := (he.indexed hc.module.indexed).define hfinish
  obtain ⟨g, hg, hext', -, hm'⟩ := Module.define_eq_ok_iff.mp hfinish
  obtain rfl : g = f := Option.some.inj (hg.symm.trans (getElem?_of_isPrefix he.functions hf))
  have hfunc : m'.function? id = some (g.define lines) := by
    obtain ⟨hlt, -⟩ := List.getElem?_eq_some_iff.mp hg
    rw [hm']
    exact List.getElem?_set_self hlt
  have hfind : m'.find? g.name = some id :=
    (hindexed.find?_eq_some_iff _ _).mpr ⟨_, hfunc, rfl⟩
  have hcall : (Machine.ofSettings m' settings).call g.name args t = _ :=
    Machine.call_found hfind args t
  have hinvoke : (Machine.ofSettings m' settings).invoke maxFrames id (args.map .int) t = _ :=
    Machine.invoke_succ hfunc (f := g.define lines) hext' (maxFrames - 1) (args.map .int) t
  rw [List.length_map] at hinvoke
  show (Machine.ofSettings m' settings).call g.name args t = Machine.answer g.name
    (if args.length = (g.params.map Param.ty).length then _ else
      .error ⟨g.name, .argumentCount (g.params.map Param.ty).length args.length⟩ t)
  rw [hcall, hinvoke, List.length_map]
  rfl

/-- The body so far does what the steps mean, in front of whatever code. -/
theorem runs (hc : c.Positioned settings) {c' : Context} {steps : List BodyStep}
    {handles : List Handle} (hsteps : BodyStep.DoneAll settings c steps handles c') {m : Module}
    (hm : c'.module.Extends m) (room : Nat) (function : String) {args : List Int64}
    (hargs : args.length = c.draft.params.length) (t : Transcript) (rest : List Instr) :
    Runs ((Machine.ofSettings m settings).invoke room) function t.output rest
      (fun _ a f t' =>
        Related function t.output args.length c'.bindings c'.draft.code.length a f t')
      (BodyStep.evalAll settings steps (.start function [] args))
      (Machine.execute ((Machine.ofSettings m settings).invoke room) function
        (c'.draft.code ++ rest) ⟨args.map .int, [], []⟩ t) := by
  obtain ⟨-, happends, hreal⟩ := hsteps.realizes hc.placed
  obtain ⟨lines, hlines⟩ := happends.edits.draft
  have hcode : c'.draft.code = lines.map Line.instr := by
    rw [hlines, Draft.code_append, hc.code_eq, List.nil_append]
  have hstart : Related function t.output c.draft.params.length c.bindings c.draft.code.length
      (.start function [] args) ⟨args.map .int, [], []⟩ t := by
    rw [hc.bindings_eq, hc.code_eq, ← hargs]
    refine ⟨rfl, (List.append_nil _).symm, rfl, rfl, rfl, ?_, ?_, ?_⟩
    all_goals
      intros
      contradiction
  rw [hargs]
  conv => rhs; rw [hcode]
  refine (hreal lines hlines rest ⟨m, room, hm, rfl⟩ hstart trivial).mono ?_
  rintro _ a f t' ⟨hr, _⟩
  exact hr

end Context.Positioned

/-! ### Reads see the latest write -/

/-- A call of the function from outside has done the first `n` instructions of its body. -/
def Draft.Reaches (d : Draft) (settings : Settings) (m : Module) (args : List Int64)
    (t : Transcript) (n : Nat) (f : Frame) (t' : Transcript) : Prop :=
  ∃ log, Activation ((Machine.ofSettings m settings).invoke (maxFrames - 1)) d.name
    (args.map .int) t (d.code.take n) f log t'

/-- What becomes of a read of `x` when the function is called, if its load is the instruction at `n`
and these steps were done before it. -/
inductive ReadOutcome (settings : Settings) (m : Module) (d : Draft) (steps : List BodyStep)
    (x : String) (n : Nat) (args : List Int64) (t : Transcript) : Prop
  /-- The number of arguments is wrong, and nothing is run. -/
  | refused : args.length ≠ d.params.length →
      (Machine.ofSettings m settings).call d.name args t =
        .error ⟨d.name, .argumentCount d.params.length args.length⟩ t →
      ReadOutcome settings m d steps x n args t
  /-- An earlier step fails, and the load is never reached. -/
  | stopped {e : Source.Error} {e' : ExecError} {a : Source.Activation} {t' : Transcript} :
      args.length = d.params.length →
      BodyStep.evalAll settings steps (.start d.name [] args) = .error (.failed e) a →
      (∀ f t', ¬ d.Reaches settings m args t n f t') →
      (Machine.ofSettings m settings).call d.name args t = .error e' t' → e.Matches e' →
      ReadOutcome settings m d steps x n args t
  /-- The statements have written the variable, and the register of the load holds its value. -/
  | read {a : Source.Activation} {v : Int64} {f : Frame} {t' : Transcript} :
      args.length = d.params.length →
      Node.evalAll settings (BodyStep.statements steps) (.start d.name [] args) = .ok () a →
      a.locals x = some (some v) → d.Reaches settings m args t (n + 1) f t' →
      f.registers[n]? = some (.int v) → ReadOutcome settings m d steps x n args t
  /-- The statements have not written the variable, and the load stops the run. -/
  | unwritten {a : Source.Activation} {f : Frame} {t' t'' : Transcript} :
      args.length = d.params.length →
      Node.evalAll settings (BodyStep.statements steps) (.start d.name [] args) = .ok () a →
      a.locals x = some none → d.Reaches settings m args t n f t' →
      (Machine.ofSettings m settings).call d.name args t =
        .error ⟨d.name, .uninitialized n⟩ t'' → ReadOutcome settings m d steps x n args t

section

variable {settings : Settings} {c₀ c : Context} {steps : List BodyStep} {handles : List Handle}
  {x : String}

/-- A declared variable can be read until the body returns. -/
theorem value?_declare_ok (hc₀ : c₀.Positioned settings)
    (hsteps : BodyStep.DoneAll settings c₀ steps handles c) (hx : c.scopes.isBound x = true)
    (hopen : c.draft.isTerminated = false) (origin : Origin) :
    ∃ p c₁, c.bindings.lookup x = some (.storage p) ∧
      (Node.declare origin x).value? c = .ok (some (.inst c.draft.code.length)) c₁ ∧
      Emits c ⟨.load p, .int⟩ c₁ := by
  obtain ⟨hc, happends, -⟩ := hsteps.realizes hc₀.placed
  obtain ⟨p, hp⟩ := hc₀.lookup_eq_storage happends hx
  have hptr : c.draft.typeOf? c.module p = some .ptr := hc.typed x _ hp
  obtain ⟨c₁, hemit, he⟩ := Lower.emit_ok (.declare origin x) (Draft.judges_load hptr) hopen
  refine ⟨p, c₁, hp, ?_, he⟩
  simp only [Node.value?, Lower.storageOf, bind_apply, Lower.resolve_apply, hc.resolve?, hp,
    pure_apply, map_apply, hemit]

/-- The run of the function up to a read, and the read. -/
theorem read_outcome (hc₀ : c₀.Positioned settings)
    (hsteps : BodyStep.DoneAll settings c₀ steps handles c) {p : Handle}
    (hp : c.bindings.lookup x = some (.storage p)) (hopen : c.draft.isTerminated = false)
    {m m' : Module} {d : Draft} {later : List Instr} (he : Edits c₀.module c₀.draft m d)
    (hm : c.module.Extends m') (hcode : d.code = c.draft.code ++ .load p :: later)
    (hfinish : d.finish m = .ok () m') (args : List Int64) (t : Transcript) :
    ReadOutcome settings m' d steps x c.draft.code.length args t := by
  have hcall := hc₀.call_finished he hfinish args t
  have htake : d.code.take c.draft.code.length = c.draft.code := by
    rw [hcode, List.take_left' rfl]
  by_cases hargs : args.length = d.params.length
  · rw [if_pos hargs, hcode] at hcall
    obtain ⟨-, happends, -⟩ := hsteps.realizes hc₀.placed
    have hparams : d.params = c₀.draft.params := by
      obtain ⟨lines, rfl⟩ := he.draft
      rfl
    have hruns := hc₀.runs hsteps hm (maxFrames - 1) d.name (hargs.trans (by rw [hparams])) t
    have hret : ∀ v, .ret v ∉ c.draft.code := by
      intro v hv
      have hjudged := happends.edits.judged hc₀.module hc₀.judged
      rw [hjudged.isTerminated_of_mem hv] at hopen
      cases hopen
    rcases Activation.reaches_or_fails .start hret with ⟨f, log, t', hact⟩ | ⟨e', t', hfail⟩
    · rw [List.nil_append] at hact
      obtain ⟨_, a, w, heval, hlocal, hread⟩ := hact.read_eq hruns hp
      have hstatements := evalAll_statements heval
      cases w with
      | some v =>
          have hnext : f.next? (.load p) = some (.ok (f.advance (.int v))) := by
            rw [Frame.next?, hread]
            rfl
          have hact' := hact.next (by simp) hnext
          have htake' : d.code.take (c.draft.code.length + 1) = c.draft.code ++ [.load p] := by
            rw [hcode, List.append_cons, List.take_left' (by simp)]
          rw [← htake'] at hact'
          refine .read hargs hstatements hlocal ⟨log, hact'⟩ ?_
          simp [Frame.advance, ← hact.length]
      | none =>
          rw [hact.execute_eq, execute_load, hread] at hcall
          rw [← htake] at hact
          exact .unwritten hargs hstatements hlocal ⟨log, hact⟩ hcall
    · rw [List.nil_append] at hfail
      obtain ⟨e, a, heval, hmatch⟩ := failed_of_execute hruns hfail
      rw [hfail] at hcall
      refine .stopped hargs heval ?_ hcall hmatch
      rintro f t'' ⟨log, hact⟩
      rw [htake] at hact
      have hend := hact.execute_eq [.ret none]
      rw [hfail, execute_ret_none] at hend
      cases hend
  · rw [if_neg hargs] at hcall
    exact .refused hargs hcall

/-- A declaration that is asked for its value always reads the latest write. Let statements and
reads be done one after the other in the fresh body of a function. As long as the body has not
returned, each variable that is declared in it can be read: that adds one load of its slot, whose
handle is none of those yielded before. Whatever is done to the body and to its module from then on,
when the function is called in the end, its run gets to that load unless an error stops it earlier.
The load then yields the value that the statements before it have last given to the variable, and it
fails for want of a value exactly if they have given it none. -/
theorem declaration_reads_latest_write (hc₀ : c₀.Positioned settings)
    (hsteps : BodyStep.DoneAll settings c₀ steps handles c) (hx : c.scopes.isBound x = true)
    (hopen : c.draft.isTerminated = false) (origin : Origin) :
    ∃ p c₁, c.scopes.resolve? x = some (.storage p) ∧
      (Node.declare origin x).value? c = .ok (some (.inst c.draft.code.length)) c₁ ∧
      Emits c ⟨.load p, .int⟩ c₁ ∧ .inst c.draft.code.length ∉ handles ∧
      ∀ m m' d, Edits c₁.module c₁.draft m d → d.finish m = .ok () m' → ∀ args t,
        ReadOutcome settings m' d steps x c.draft.code.length args t := by
  obtain ⟨hc, happends, -⟩ := hsteps.realizes hc₀.placed
  obtain ⟨p, c₁, hp, hvalue, hemits⟩ := value?_declare_ok hc₀ hsteps hx hopen origin
  refine ⟨p, c₁, (hc.resolve? x).trans hp, hvalue, hemits, ?_, ?_⟩
  · intro hmem
    obtain ⟨ty, hty⟩ := hsteps.exists_type hc₀.placed _ hmem
    have hnone : c.draft.types[c.draft.code.length]? = none :=
      List.getElem?_eq_none (Nat.le_of_eq hc.even)
    simp [Draft.typeOf?, hnone] at hty
  · intro m m' d hlater hfinish args t
    have hread : (BodyStep.read origin x).Done settings c _ c₁ := .read hx hopen hvalue
    have hedits := (hread.appends hc).edits.trans hlater
    have hextends := (Module.Extends.of_edits hedits).trans (.of_define hfinish)
    obtain ⟨lines, rfl⟩ := hlater.draft
    have hcode : (c₁.draft.append lines).code =
        c.draft.code ++ .load p :: lines.map Line.instr := by
      simp [hemits.draft]
    exact read_outcome hc₀ hsteps hp hopen (happends.edits.trans hedits) hextends hcode hfinish
      args t

end

/-- The start of a function that takes nothing and yields an integer, in a module that holds the
print routine and no other function. -/
def Context.blank : Context where
  module := ⟨"m", [Settings.default.printFunc, .pending "main" [] .int],
    [("main", 1), ("printf", 0)], []⟩
  scopes := .initial
  draft := ⟨1, "main", [], .int, [], []⟩
  events := #[]

theorem Context.blank_positioned : Context.blank.Positioned .default := by
  refine ⟨⟨⟨rfl, by decide⟩, ?_, ?_, by decide⟩, ⟨0, rfl⟩, ⟨1, rfl⟩, ⟨[], rfl⟩⟩
  · intro f hf
    rcases List.mem_pair.mp hf with rfl | rfl <;> rfl
  · intro f hf
    rcases List.mem_pair.mp hf with rfl | rfl
    · exact (Func.bare_external ..).proper
    · exact (Func.bare_pending ..).proper

/-- `int x; x = 7;`, a read of `x`, and `x++;`. -/
def BodyStep.rereading : List BodyStep :=
  [.statement (.declare .unknown "x"),
    .statement (.assign .unknown (.use .unknown "x" .address) (.int .unknown 7)),
    .read .unknown "x", .statement (.step .unknown "x" .post .increment)]

/-- The function that these steps build if `x` is then read once more and returned. -/
def Draft.rereading : Draft :=
  ⟨1, "main", [], .int, [.alloca "x", .store (.inst 0) (.const 7), .load (.inst 0),
    .load (.inst 0), .binary .add (.inst 3) (.const 1), .store (.inst 0) (.inst 4),
    .load (.inst 0), .ret (some (.inst 6))], [.ptr, .void, .int, .int, .int, .void, .int, .void]⟩

theorem rereading_done : ∃ handles c,
    BodyStep.DoneAll .default .blank BodyStep.rereading handles c ∧
    c.module = Context.blank.module ∧ c.scopes = [⟨[("x", .storage (.inst 0))], true⟩] ∧
    c.draft = { Draft.rereading with
      code := Draft.rereading.code.take 6
      types := Draft.rereading.types.take 6 } :=
  ⟨_, _, .cons (.statement rfl) (.cons (.statement rfl) (.cons (.read rfl rfl rfl)
    (.cons (.statement rfl) (.nil _)))), rfl, rfl, rfl⟩

theorem declaration_reads_latest_write_rereading :
    Context.blank.Positioned .default ∧ ∃ handles c c₁ m,
      BodyStep.DoneAll .default .blank BodyStep.rereading handles c ∧
      c.scopes.isBound "x" = true ∧ c.draft.isTerminated = false ∧
      (Node.declare .unknown "x").value? c = .ok (some (.inst 6)) c₁ ∧
      Emits c ⟨.load (.inst 0), .int⟩ c₁ ∧ .inst 6 ∉ handles ∧
      Draft.rereading.finish c₁.module = .ok () m ∧
      ReadOutcome .default m .rereading BodyStep.rereading "x" 6 [] .empty ∧
      ∃ t, (Machine.ofSettings m .default).call "main" [] .empty = .ok (some 8) t := by
  obtain ⟨handles, c, hdone, hmodule, hscopes, hdraft⟩ := rereading_done
  have hbound : c.scopes.isBound "x" = true := by
    rw [hscopes]
    rfl
  have hopen : c.draft.isTerminated = false := by
    rw [hdraft]
    rfl
  obtain ⟨p, c₁, hp, hvalue, hemits, hfresh, houtcome⟩ := declaration_reads_latest_write
    Context.blank_positioned hdone hbound hopen .unknown
  rw [hscopes] at hp
  obtain rfl : Handle.inst 0 = p := Binding.storage.inj (Option.some.inj hp)
  have hlength : c.draft.code.length = 6 := by
    rw [hdraft]
    rfl
  rw [hlength] at hvalue hfresh houtcome
  have hmodule₁ : c₁.module = Context.blank.module := hemits.module.trans hmodule
  have hret : c₁.draft.emit c₁.module (.ret (some (.inst 6))) = .ok (.inst 7) .rereading := by
    rw [hemits.draft, hdraft, hmodule₁]
    rfl
  have hfinish : Draft.rereading.finish c₁.module = .ok () { Context.blank.module with
      functions := [Settings.default.printFunc,
        (Func.pending "main" [] .int).define Draft.rereading.lines] } := by
    rw [hmodule₁]
    rfl
  exact ⟨Context.blank_positioned, handles, c, c₁, _, hdone, hbound, hopen, hvalue, hemits, hfresh,
    hfinish, houtcome _ _ _ (.emit hret) hfinish [] .empty, _, rfl⟩

end SlotLang
