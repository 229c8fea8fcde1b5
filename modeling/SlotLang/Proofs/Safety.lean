import SlotLang.Proofs.Execution
import SlotLang.Proofs.History

/-!
# SlotLang.Proofs.Safety

Typed code does not go wrong in the ways that its types speak about. While a typed body runs, every
register holds a value of the type that its line has, so an operand that was accepted as an integer
is one. Functions call each other through the module, in which all bodies are typed; the induction
is on the number of frames that may still be opened, and inside a frame on the code that remains.
-/

namespace SlotLang

/-! ### Values of a type -/

/-- The values that a handle of a type can stand for. An integer from outside may stand where a
pointer is expected, and an external function without a result yields an integer all the same. -/
def Value.HasType (m : Module) : Value → Ty → Prop
  | .int _, ty => ty ≠ .fn
  | .slot _, ty => ty = .ptr
  | .text id, ty => ty = .ptr ∧ (m.text? id).isSome = true
  | .func _, ty => ty = .fn
  | .void, ty => ty = .void

/-- A frame behind the lines of a draft: arguments and registers hold values of their types. -/
structure Frame.Typed (m : Module) (d : Draft) (f : Frame) : Prop where
  args : ∀ (i : Nat) ty, d.params[i]? = some ty → ∃ v, f.args[i]? = some v ∧ v.HasType m ty
  registers : ∀ (i : Nat) ty, d.types[i]? = some ty →
    ∃ v, f.registers[i]? = some v ∧ v.HasType m ty
  length : f.registers.length = d.types.length

/-- The faults that the checks of a draft are there to rule out. -/
def Fault.IsRuledOut : Fault → Bool
  | .expectedInt _ | .notComputed _ | .noArgument _ | .noFunction _ | .print (.unknownText _)
  | .returned _ | .argumentCount _ _ => true
  | _ => false

/-- What depends on the values that are computed is not ruled out. -/
theorem Fault.isRuledOut_of_isDynamic {fault : Fault} (h : fault.IsDynamic = true) :
    fault.IsRuledOut = false := by
  cases fault with
  | print pf => cases pf <;> first | rfl | cases h
  | uninitialized | arith => rfl
  | _ => cases h

/-- What an instruction makes of its frame: one behind the lines of a draft, or a fault that types
do not rule out. -/
def Frame.StepSafe (m : Module) (d : Draft) : Except Fault Frame → Prop
  | .ok f => f.Typed m d
  | .error fault => fault.IsRuledOut = false

theorem Frame.evalAll_cons {f : Frame} {h : Handle} {hs : List Handle} {v : Value}
    {vs : List Value} (hv : f.eval h = .ok v) (hvs : f.evalAll hs = .ok vs) :
    f.evalAll (h :: hs) = .ok (v :: vs) := by
  rw [evalAll] at hvs
  rw [evalAll, List.mapM_cons, hv, hvs]
  rfl

namespace Frame.Typed

variable {m : Module} {d : Draft} {f : Frame} {h : Handle} {ty : Ty}

theorem eval (hf : f.Typed m d) (hty : d.typeOf? m h = some ty) :
    ∃ v, f.eval h = .ok v ∧ v.HasType m ty := by
  cases h with
  | const v =>
      cases hty
      exact ⟨.int v, rfl, by simp [Value.HasType]⟩
  | arg i =>
      obtain ⟨v, hv, ht⟩ := hf.args _ _ hty
      exact ⟨v, by simp only [Frame.eval, hv], ht⟩
  | inst i =>
      obtain ⟨v, hv, ht⟩ := hf.registers _ _ hty
      exact ⟨v, by simp only [Frame.eval, hv], ht⟩
  | global g =>
      obtain ⟨text, htext, rfl⟩ := Option.map_eq_some_iff.mp hty
      exact ⟨.text g, rfl, rfl, by rw [htext]; rfl⟩
  | func id =>
      obtain ⟨g, -, rfl⟩ := Option.map_eq_some_iff.mp hty
      exact ⟨.func id, rfl, rfl⟩

theorem evalInt (hf : f.Typed m d) (hty : d.typeOf? m h = some .int) :
    ∃ n, f.eval h = .ok (.int n) := by
  obtain ⟨v, hv, ht⟩ := hf.eval hty
  cases v with
  | int n => exact ⟨n, hv⟩
  | slot s => cases ht
  | text id => cases ht.1
  | func id => cases ht
  | void => cases ht

/-- An operand that is a pointer by its type may still not be one: it may be an integer from
outside, or a text, or a slot that this frame does not have. -/
theorem slotOf_error (hf : f.Typed m d) (hty : d.typeOf? m h = some ty) {fault : Fault}
    (he : f.slotOf h = .error fault) : ∃ kind, fault = .expectedPointer kind := by
  obtain ⟨v, hv, -⟩ := hf.eval hty
  rcases bind_eq_error he with hx | ⟨v', -, hx⟩
  · rw [hv] at hx
    cases hx
  · split at hx
    · split at hx
      · cases hx
      · cases hx
        exact ⟨_, rfl⟩
    · cases hx
      exact ⟨_, rfl⟩

theorem evalAll (hf : f.Typed m d) : ∀ {params : List Param} {hs : List Handle},
    ArgsFit (fun h ty => d.typeOf? m h = some ty) params hs →
    ∃ vs, f.evalAll hs = .ok vs ∧ vs.length = hs.length ∧ ArgsFit (Value.HasType m) params vs
  | _, [], _ => ⟨[], rfl, rfl, by unfold ArgsFit; trivial⟩
  | p :: params, h :: hs, ⟨hty, hrest⟩ => by
      obtain ⟨v, hv, ht⟩ := hf.eval hty
      obtain ⟨vs, hvs, hlen, hts⟩ := hf.evalAll hrest
      exact ⟨v :: vs, evalAll_cons hv hvs, by simp [hlen], ht, hts⟩
  | [], h :: hs, ⟨⟨ty, hty, hp⟩, hrest⟩ => by
      obtain ⟨v, hv, ht⟩ := hf.eval hty
      obtain ⟨vs, hvs, hlen, hts⟩ := hf.evalAll hrest
      exact ⟨v :: vs, evalAll_cons hv hvs, by simp [hlen], ⟨ty, ht, hp⟩, hts⟩

/-- One more register, of the type of one more line. -/
theorem advance (hf : f.Typed m d) {v : Value} {line : Line} (hv : v.HasType m line.ty) :
    (f.advance v).Typed m (d.append [line]) := by
  refine ⟨hf.args, ?_, by simp [Frame.advance, hf.length]⟩
  intro i ty hty
  simp only [Frame.advance, Draft.types_append, List.map_singleton] at hty ⊢
  rcases Nat.lt_trichotomy i d.types.length with hlt | rfl | hgt
  · rw [List.getElem?_append_left hlt] at hty
    rw [List.getElem?_append_left (by rw [hf.length]; exact hlt)]
    exact hf.registers i ty hty
  · rw [List.getElem?_concat_length] at hty
    cases hty
    exact ⟨v, by rw [← hf.length, List.getElem?_concat_length], hv⟩
  · rw [List.getElem?_eq_none (by simp; omega)] at hty
    cases hty

/-- Slots have no types: whatever is in them is an integer. -/
theorem with_slots (hf : f.Typed m d) (slots : List (Option Int64)) :
    ({ f with slots } : Frame).Typed m d :=
  ⟨hf.args, hf.registers, hf.length⟩

/-- An instruction that stays within its frame fills a register of its type, or it stops for a
reason that types do not rule out. -/
theorem next (hf : f.Typed m d) {instr : Instr}
    (ht : instr.Typed m d.result (d.typeOf? m) ty) {r : Except Fault Frame}
    (hn : f.next? instr = some r) : StepSafe m (d.append [⟨instr, ty⟩]) r := by
  have hint : ∀ n : Int64, (Value.int n).HasType m .int := fun n => by simp [Value.HasType]
  cases ht with
  | alloca name =>
      cases hn
      exact (hf.with_slots _).advance rfl
  | @load p hp =>
      cases hn
      cases hr : f.read p with
      | ok v => exact hf.advance (hint v)
      | error fault =>
          rcases bind_eq_error hr with hs | ⟨s, -, hs⟩
          · obtain ⟨kind, rfl⟩ := hf.slotOf_error hp hs
            rfl
          · -- the slot is there, but nothing was written to it
            split at hs
            · cases hs
            · cases hs
              rfl
  | @store p v hp hv =>
      cases hn
      obtain ⟨n, hn⟩ := hf.evalInt hv
      cases hw : f.write p v with
      | ok f' =>
          obtain ⟨s, -, hx⟩ := bind_eq_ok hw
          obtain ⟨n', -, hx⟩ := bind_eq_ok hx
          cases hx
          exact (hf.with_slots _).advance rfl
      | error fault =>
          rcases bind_eq_error hw with hs | ⟨s, -, hs⟩
          · obtain ⟨kind, rfl⟩ := hf.slotOf_error hp hs
            rfl
          · rw [Frame.intOf_eq hn] at hs
            cases hs
  | @binary op l r hl hr =>
      cases hn
      obtain ⟨x, hx⟩ := hf.evalInt hl
      obtain ⟨y, hy⟩ := hf.evalInt hr
      rw [Frame.compute_eq op hx hy]
      cases op.apply x y with
      | ok v => exact hf.advance (hint v)
      | error fault => rfl
  | call | ret | retNothing => cases hn

end Frame.Typed

/-! ### Bodies -/

/-- A run that yields a value of a type, or stops for a reason that types do not rule out. -/
def Safe (m : Module) (ty : Ty) : EStateM.Result ExecError Transcript Value → Prop
  | .ok v _ => v.HasType m ty
  | .error e _ => e.fault.IsRuledOut = false

/-- Calls of the functions of a module that are safe if arguments fit. -/
def CallsSafe (m : Module) (call : Nat → List Value → Exec Value) : Prop :=
  ∀ id f args t, m.function? id = some f → Draft.acceptsCount f args.length = true →
    ArgsFit (Value.HasType m) f.params args → Safe m f.result (call id args t)

/-- What remains of a typed body is safe to run in a frame behind the lines before it. -/
theorem execute_safe {m : Module} {call : Nat → List Value → Exec Value} (hcall : CallsSafe m call)
    (function : String) {d : Draft} (hd : d.Typed m) : ∀ (after before : List Line) (f : Frame)
    (t : Transcript), d.lines = before ++ after → f.Typed m (d.withLines before) →
    Safe m d.result (Machine.execute call function (after.map Line.instr) f t)
  | [], _, _, _, _, _ => rfl
  | line :: after, before, f, t, hlines, hf => by
      have ht := hd before line after hlines
      -- the frame of the next line, for the rest of the body
      have hrest : ∀ f' t', f'.Typed m ((d.withLines before).append [line]) →
          Safe m d.result (Machine.execute call function (after.map Line.instr) f' t') := by
        intro f' t' hf'
        rw [Draft.withLines_append] at hf'
        exact execute_safe hcall function hd after (before ++ [line]) f' t' (by simp [hlines]) hf'
      obtain ⟨instr, ty⟩ := line
      rw [List.map_cons]
      cases hn : f.next? instr with
      | some r =>
          have hnext := hf.next ht hn
          cases r with
          | ok f' =>
              rw [execute_next hn]
              exact hrest f' _ hnext
          | error fault =>
              rw [execute_next_error hn]
              exact hnext
      | none =>
          cases ht with
          | alloca | load | store | binary => cases hn
          | @call callee g args hg hcount hargs =>
              obtain ⟨vs, hvs, hlen, hfit⟩ := hf.evalAll hargs
              rw [← hlen] at hcount
              have hsafe := hcall callee g vs (t.executing function f (.call callee args)) hg
                hcount hfit
              rw [execute_call callee args _ hvs]
              cases hr : call callee vs (t.executing function f (.call callee args)) with
              | error e t' =>
                  rw [hr] at hsafe
                  exact hsafe
              | ok v t' =>
                  rw [hr] at hsafe
                  exact hrest _ t' (hf.advance hsafe)
          | ret _ hv =>
              obtain ⟨v, hv, hty⟩ := hf.eval hv
              rw [execute_ret _ hv]
              exact hty
          | retNothing hr =>
              rw [execute_ret_none]
              exact hr

/-! ### Calls -/

theorem ArgsFit.getElem? {α : Type} {fits : α → Ty → Prop} : ∀ {params : List Param}
    {args : List α}, ArgsFit fits params args → args.length = params.length →
    ∀ (i : Nat) ty, (params.map Param.ty)[i]? = some ty → ∃ a, args[i]? = some a ∧ fits a ty
  | [], _, _, _, _, _, hp => by cases hp
  | _ :: _, a :: _, ⟨ha, _⟩, _, 0, _, hp => by
      cases hp
      exact ⟨a, rfl, ha⟩
  | _ :: _, _ :: _, ⟨_, hrest⟩, hlen, i + 1, ty, hp =>
      hrest.getElem? (Nat.succ.inj hlen) i ty hp

/-- All arguments that fit are values of some type. -/
theorem ArgsFit.mem {α : Type} {fits : α → Ty → Prop} : ∀ {params : List Param} {args : List α},
    ArgsFit fits params args → ∀ a ∈ args, ∃ ty, fits a ty
  | _, [], _, _, hmem => by cases hmem
  | p :: _, b :: _, ⟨hb, hrest⟩, a, hmem => by
      rcases List.mem_cons.mp hmem with rfl | hmem
      · exact ⟨p.ty, hb⟩
      · exact hrest.mem a hmem
  | [], b :: _, ⟨⟨ty, hb, _⟩, hrest⟩, a, hmem => by
      rcases List.mem_cons.mp hmem with rfl | hmem
      · exact ⟨ty, hb⟩
      · exact hrest.mem a hmem

theorem Print.integers_error {values : List Value} {fault : PrintFault}
    (h : integers values = .error fault) : (Fault.print fault).IsRuledOut = false := by
  induction values with
  | nil => cases h
  | cons v rest ih =>
      cases v with
      | int n =>
          rcases bind_eq_error h with hx | ⟨_, -, hx⟩
          · exact ih hx
          · cases hx
      | slot | text | func | void =>
          cases h
          rfl

/-- Printing knows its format, if the values that it is given have types. -/
theorem Print.run_error {m : Module} {args : List Value} {fault : PrintFault}
    (hargs : ∀ v ∈ args, ∃ ty, v.HasType m ty) (he : run m args = .error fault) :
    (Fault.print fault).IsRuledOut = false := by
  unfold run at he
  split at he
  · next id rest =>
    obtain ⟨ty, -, hknown⟩ := hargs (.text id) (List.mem_cons_self ..)
    split at he
    · next hnone =>
      rw [hnone] at hknown
      cases hknown
    · rcases bind_eq_error he with hx | ⟨values, -, hx⟩
      · exact integers_error hx
      · exact Fault.isRuledOut_of_isDynamic (fill_error hx)
  · rcases bind_eq_error he with hx | ⟨values, -, hx⟩
    · exact integers_error hx
    · cases hx

namespace Machine

variable {machine : Machine}

/-- External functions take any values that have types. -/
theorem external_safe (hm : machine.module.Typed) {id : Nat} {f : Func}
    (hf : machine.module.function? id = some f) (hext : f.isExternal = true) {args : List Value}
    (hargs : ArgsFit (Value.HasType machine.module) f.params args) (room : Nat) (t : Transcript) :
    Safe machine.module f.result (machine.invoke room id args t) := by
  rw [invoke_external hf hext, callExternal_apply]
  split
  · cases hrun : Print.run machine.module args with
    | ok text =>
        intro hfn
        have hresult := hm.result_returnable hf
        rw [hfn] at hresult
        cases hresult
    | error fault => exact Print.run_error hargs.mem hrun
  · rfl

/-- A function that is not variadic and has its arguments is safe to enter. -/
theorem enter_safe (hm : machine.module.Typed) {room : Nat}
    (hcall : CallsSafe machine.module (machine.invoke room)) {id : Nat} {f : Func}
    (hf : machine.module.function? id = some f) (hext : f.isExternal = false) {args : List Value}
    (hlen : args.length = f.params.length)
    (hargs : ArgsFit (Value.HasType machine.module) f.params args) (t : Transcript) :
    Safe machine.module f.result (machine.invoke (room + 1) id args t) := by
  rw [invoke_succ hf hext, if_pos hlen]
  cases hbody : f.body? with
  | none => rfl
  | some body =>
      have hframe : Frame.Typed machine.module ((Draft.ofFunc id f).withLines [])
          ⟨args, [], []⟩ :=
        ⟨hargs.getElem? hlen, fun _ _ h => (nomatch h), rfl⟩
      have hsafe := execute_safe hcall f.name (hm.bodies id f hf) (Draft.ofFunc id f).lines [] _ t
        rfl hframe
      rw [← (hm.even_ofFunc hf).code_eq] at hsafe
      simpa [Draft.ofFunc, Func.code, hbody] using hsafe

/-- Calls in a typed module are safe, however much room there is. -/
theorem invoke_safe (hm : machine.module.Typed) (room : Nat) :
    CallsSafe machine.module (machine.invoke room) := by
  induction room with
  | zero =>
      intro id f args t hf _ hargs
      cases hext : f.isExternal with
      | true => exact external_safe hm hf hext hargs 0 t
      | false =>
          rw [invoke_zero hf hext]
          rfl
  | succ room ih =>
      intro id f args t hf hcount hargs
      cases hext : f.isExternal with
      | true => exact external_safe hm hf hext hargs (room + 1) t
      | false =>
          -- only external functions accept more arguments than they have parameters
          have hlen : args.length = f.params.length := by
            rw [Draft.acceptsCount, (hm.proper f (List.mem_of_getElem? hf)).variadic hext] at hcount
            simpa using hcount
          exact enter_safe hm ih hf hext hlen hargs t

/-- A result that a function may have is one that a call from outside takes. -/
theorem answer_error {m : Module} {ty : Ty} (hty : ty.returnable = true) {name : String}
    {r : EStateM.Result ExecError Transcript Value} (hr : Safe m ty r) {e : ExecError}
    {t : Transcript} (he : answer name r = .error e t) : e.fault.IsRuledOut = false := by
  cases r with
  | error e' t' =>
      cases he
      exact hr
  | ok v t' =>
      cases v with
      | int | void => cases he
      | slot => cases hr; cases hty
      | text => cases hr.1; cases hty
      | func => cases hr; cases hty

end Machine

/-- Integers fit all parameters that a function may have. -/
theorem argsFit_map_int (m : Module) : ∀ {params : List Param},
    (∀ p ∈ params, p.ty.passable = true) → ∀ args : List Int64,
    ArgsFit (Value.HasType m) params (args.map .int)
  | _, _, [] => by unfold ArgsFit; trivial
  | p :: _, hp, _ :: args => by
      refine ⟨?_, argsFit_map_int m (fun q hq => hp q (List.mem_cons_of_mem p hq)) args⟩
      intro hfn
      have hpass := hp p (List.mem_cons_self ..)
      rw [hfn] at hpass
      cases hpass
  | [], hp, _ :: args => ⟨⟨.int, (nomatch ·), rfl⟩, argsFit_map_int m hp args⟩

/-- In a session with one module, whatever was built by hand or by lowering, in however many drafts
at a time, and whichever requests were refused: no call fails for a reason that the checks of
drafts rule out. The one exception is the number of arguments that the call itself brings from
outside, and then nothing has been run yet. -/
theorem call_not_ruledOut {settings : Settings} {name : String} {steps : List Step} {m : Module}
    (hm : ((Workbench.onModule settings name).after steps).modules = [m]) (config : Settings)
    {function : String} {args : List Int64} {t t' : Transcript} {e : ExecError}
    (he : (Machine.ofSettings m config).call function args t = .error e t') :
    e.fault.IsRuledOut = false ∨
      ∃ id f, m.find? function = some id ∧ m.function? id = some f ∧ f.isExternal = false ∧
        args.length ≠ f.params.length ∧ t' = t ∧
        e = ⟨function, .argumentCount f.params.length args.length⟩ := by
  have htyped : (Machine.ofSettings m config).module.Typed := Workbench.typed_of_session hm
  cases hid : m.find? function with
  | none =>
      rw [Machine.call_notDeclared hid] at he
      cases he
      exact .inl rfl
  | some id =>
      obtain ⟨f, hf, hname⟩ := (htyped.indexed.find?_eq_some_iff function id).mp hid
      have hfit := argsFit_map_int m (htyped.params_passable hf) args
      have hresult := htyped.result_returnable hf
      rw [Machine.call_found hid] at he
      cases hext : f.isExternal with
      | true =>
          exact .inl (Machine.answer_error hresult
            (Machine.external_safe htyped hf hext hfit maxFrames t) he)
      | false =>
          by_cases hlen : (args.map Value.int).length = f.params.length
          · exact .inl (Machine.answer_error hresult
              (Machine.enter_safe htyped (Machine.invoke_safe htyped _) hf hext hlen hfit t) he)
          · -- no draft has seen this number of arguments
            rw [maxFrames, Machine.invoke_succ hf hext, if_neg hlen] at he
            cases he
            rw [List.length_map] at hlen ⊢
            exact .inr ⟨id, f, rfl, hf, hext, hlen, rfl, by rw [hname]⟩

/-- A session that builds a function that reads through its parameter, and one that calls it with a
slot of its own. On the way a draft refuses an integer where a pointer should be. -/
def Step.reader : List Step :=
  [.declareFunction "read" [⟨"p", .ptr⟩] .int, .newDraft 0, .emit (.load (.const 1)),
    .emit (.load (.arg 0)), .emit (.ret (some (.inst 0))), .finish,
    .declareFunction "main" [] .int, .newDraft 1, .emit (.alloca "a"),
    .emit (.call 0 [.inst 0]), .emit (.ret (some (.inst 1))), .finish]

/-- The module of that session. -/
def Module.reader : Module :=
  ⟨"m",
    [(Func.pending "read" [⟨"p", .ptr⟩] .int).define
      [⟨.load (.arg 0), .int⟩, ⟨.ret (some (.inst 0)), .void⟩],
    (Func.pending "main" [] .int).define
      [⟨.alloca "a", .ptr⟩, ⟨.call 0 [.inst 0], .int⟩, ⟨.ret (some (.inst 1)), .void⟩]],
    [("main", 1), ("read", 0)], []⟩

theorem call_not_ruledOut_reader :
    ((Workbench.onModule .default "m").after Step.reader).modules = [.reader] ∧
      ∃ e t', (Machine.ofSettings .reader .default).call "main" [] .empty = .error e t' ∧
        e.function = "read" ∧ e.fault.IsRuledOut = false := by
  have hm : ((Workbench.onModule .default "m").after Step.reader).modules = [.reader] := by
    decide +kernel
  have hcall : ∃ t', (Machine.ofSettings .reader .default).call "main" [] .empty =
      .error ⟨"read", .expectedPointer .pointer⟩ t' := ⟨_, rfl⟩
  obtain ⟨t', he⟩ := hcall
  refine ⟨hm, _, t', he, rfl, ?_⟩
  rcases call_not_ruledOut hm .default he with hfault | ⟨_, _, _, _, _, _, _, hcount⟩
  · exact hfault
  · cases congrArg ExecError.fault hcount

end SlotLang
