import SlotLang.Proofs.Execution

/-!
# SlotLang.Proofs.Ideal

Runs without a limit on open frames. `Invokes` and `Executes` give the meaning of code in rules,
one for each way in which a call or an instruction can go, and they know no limit: code that calls
itself for ever has no meaning by them, all other code has exactly one. They also count how many
frames are open at the same time. `Enters` follows a run, in order, up to a call of a function of
the module, whether or not the run ever ends.

The machine departs from this meaning in one way only: it stops where the limit on frames is hit.
-/

namespace SlotLang

/-- How a run ends: with a result or with a failure, and with a transcript in either case. -/
abbrev Ending (α : Type) := EStateM.Result ExecError Transcript α

/-- A run that was stopped because too many frames were open. -/
def StoppedTooDeep {α : Type} (r : Ending α) : Prop :=
  ∃ function t, r = .error ⟨function, .tooDeep⟩ t

/-! ### The rules -/

section

variable (machine : Machine)

mutual

/-- `Invokes machine id args t n r`: a call of the function at an index ends as `r` says, and `n` is
the greatest number of frames that are open at a time on the way. A call of a function of the module
counts as soon as it is made, even if its arguments do not fit or it has no body. A call of an
external function never counts. -/
inductive Invokes : Nat → List Value → Transcript → Nat → Ending Value → Prop
  | unknown {id : Nat} {args : List Value} {t : Transcript} :
      machine.module.function? id = none →
      Invokes id args t 0 (.error ⟨"<unknown>", .noFunction id⟩ t)
  | noHost {id : Nat} {f : Func} {args : List Value} {t : Transcript} :
      machine.module.function? id = some f → f.isExternal = true →
      f.name ≠ machine.printRoutine → Invokes id args t 0 (.error ⟨f.name, .noHost⟩ t)
  | print {id : Nat} {f : Func} {args : List Value} {t : Transcript} {text : String} :
      machine.module.function? id = some f → f.isExternal = true →
      f.name = machine.printRoutine → Print.run machine.module args = .ok text →
      Invokes id args t 0 (.ok (.int (.ofNat text.utf8ByteSize)) (t.write text))
  | printFails {id : Nat} {f : Func} {args : List Value} {t : Transcript} {fault : PrintFault} :
      machine.module.function? id = some f → f.isExternal = true →
      f.name = machine.printRoutine → Print.run machine.module args = .error fault →
      Invokes id args t 0 (.error ⟨f.name, .print fault⟩ t)
  | argumentCount {id : Nat} {f : Func} {args : List Value} {t : Transcript} :
      machine.module.function? id = some f → f.isExternal = false →
      args.length ≠ f.params.length →
      Invokes id args t 1 (.error ⟨f.name, .argumentCount f.params.length args.length⟩ t)
  | noBody {id : Nat} {f : Func} {args : List Value} {t : Transcript} :
      machine.module.function? id = some f → f.isExternal = false →
      args.length = f.params.length → f.body? = none →
      Invokes id args t 1 (.error ⟨f.name, .noBody⟩ t)
  | body {id : Nat} {f : Func} {args : List Value} {t : Transcript} {body : List Instr} {n : Nat}
      {r : Ending Value} :
      machine.module.function? id = some f → f.isExternal = false →
      args.length = f.params.length → f.body? = some body →
      Executes f.name body ⟨args, [], []⟩ t n r → Invokes id args t (n + 1) r

/-- `Executes machine function code frame t n r`: the rest of a body ends as `r` says, and the
calls that it makes open at most `n` frames at the same time. -/
inductive Executes : String → List Instr → Frame → Transcript → Nat → Ending Value → Prop
  | fellOff {function : String} {f : Frame} {t : Transcript} :
      Executes function [] f t 0 (.error ⟨function, .fellOff⟩ t)
  | next {function : String} {instr : Instr} {rest : List Instr} {f f' : Frame} {t : Transcript}
      {n : Nat} {r : Ending Value} :
      f.next? instr = some (.ok f') →
      Executes function rest f' (t.executing function f instr) n r →
      Executes function (instr :: rest) f t n r
  | fault {function : String} {instr : Instr} {rest : List Instr} {f : Frame} {t : Transcript}
      {fault : Fault} :
      f.next? instr = some (.error fault) →
      Executes function (instr :: rest) f t 0
        (.error ⟨function, fault⟩ (t.executing function f instr))
  | badArgument {function : String} {callee : Nat} {args : List Handle} {rest : List Instr}
      {f : Frame} {t : Transcript} {fault : Fault} :
      f.evalAll args = .error fault →
      Executes function (.call callee args :: rest) f t 0
        (.error ⟨function, fault⟩ (t.executing function f (.call callee args)))
  | callFails {function : String} {callee : Nat} {args : List Handle} {values : List Value}
      {rest : List Instr} {f : Frame} {t t' : Transcript} {n : Nat} {e : ExecError} :
      f.evalAll args = .ok values →
      Invokes callee values (t.executing function f (.call callee args)) n (.error e t') →
      Executes function (.call callee args :: rest) f t n (.error e t')
  | call {function : String} {callee : Nat} {args : List Handle} {values : List Value}
      {rest : List Instr} {f : Frame} {t t' : Transcript} {n k : Nat} {v : Value}
      {r : Ending Value} :
      f.evalAll args = .ok values →
      Invokes callee values (t.executing function f (.call callee args)) n (.ok v t') →
      Executes function rest (f.advance v) t' k r →
      Executes function (.call callee args :: rest) f t (max n k) r
  | ret {function : String} {h : Handle} {rest : List Instr} {f : Frame} {t : Transcript}
      {v : Value} :
      f.eval h = .ok v →
      Executes function (.ret (some h) :: rest) f t 0
        (.ok v (t.executing function f (.ret (some h))))
  | badResult {function : String} {h : Handle} {rest : List Instr} {f : Frame} {t : Transcript}
      {fault : Fault} :
      f.eval h = .error fault →
      Executes function (.ret (some h) :: rest) f t 0
        (.error ⟨function, fault⟩ (t.executing function f (.ret (some h))))
  | retNothing {function : String} {rest : List Instr} {f : Frame} {t : Transcript} :
      Executes function (.ret none :: rest) f t 0
        (.ok .void (t.executing function f (.ret none)))

end

/-- A call from outside, by name and with integers. -/
inductive Calls : String → List Int64 → Transcript → Nat → Ending (Option Int64) → Prop
  | notDeclared {name : String} {args : List Int64} {t : Transcript} :
      machine.module.find? name = none →
      Calls name args t 0 (.error ⟨name, .notDeclared name⟩ t)
  | found {name : String} {id : Nat} {args : List Int64} {t : Transcript} {n : Nat}
      {r : Ending Value} :
      machine.module.find? name = some id → Invokes machine id (args.map .int) t n r →
      Calls name args t n (Machine.answer name r)

/-! ### Runs followed in order -/

mutual

/-- `Enters machine id args t n g t'`: a run of the function at an index comes, in order, to a call
of the function `g` of the module while `n` frames are open. The call at the start counts. -/
inductive Enters : Nat → List Value → Transcript → Nat → Func → Transcript → Prop
  | here {id : Nat} {f : Func} {args : List Value} {t : Transcript} :
      machine.module.function? id = some f → f.isExternal = false → Enters id args t 0 f t
  | inside {id : Nat} {f g : Func} {args : List Value} {t t' : Transcript} {body : List Instr}
      {n : Nat} :
      machine.module.function? id = some f → f.isExternal = false →
      args.length = f.params.length → f.body? = some body →
      EntersFrom f.name body ⟨args, [], []⟩ t n g t' →
      Enters id args t (n + 1) g t'

/-- `EntersFrom machine function code frame t n g t'`: the rest of a body comes to such a call while
its own calls have opened `n` frames. -/
inductive EntersFrom : String → List Instr → Frame → Transcript → Nat → Func → Transcript → Prop
  | next {function : String} {instr : Instr} {rest : List Instr} {f f' : Frame}
      {t t' : Transcript} {n : Nat} {g : Func} :
      f.next? instr = some (.ok f') →
      EntersFrom function rest f' (t.executing function f instr) n g t' →
      EntersFrom function (instr :: rest) f t n g t'
  /-- A call that has returned lies behind. -/
  | past {function : String} {callee : Nat} {args : List Handle} {values : List Value}
      {rest : List Instr} {f : Frame} {t t₁ t' : Transcript} {n k : Nat} {v : Value} {g : Func} :
      f.evalAll args = .ok values →
      Invokes machine callee values (t.executing function f (.call callee args)) k (.ok v t₁) →
      EntersFrom function rest (f.advance v) t₁ n g t' →
      EntersFrom function (.call callee args :: rest) f t n g t'
  | into {function : String} {callee : Nat} {args : List Handle} {values : List Value}
      {rest : List Instr} {f : Frame} {t t' : Transcript} {n : Nat} {g : Func} :
      f.evalAll args = .ok values →
      Enters callee values (t.executing function f (.call callee args)) n g t' →
      EntersFrom function (.call callee args :: rest) f t n g t'

end

end

/-! ### With enough room the machine follows the rules -/

section

variable {machine : Machine}

/-- `Yields x n r`: with room for `n` frames a step of the machine ends as `r` says, and with less
room it is stopped. -/
def Yields (x : Nat → Ending Value) (n : Nat) (r : Ending Value) : Prop :=
  ∀ room, (n ≤ room → x room = r) ∧ (room < n → StoppedTooDeep (x room))

/-- What opens no frame needs no room. -/
theorem Yields.of_eq {x : Nat → Ending Value} {r : Ending Value} (h : ∀ room, x room = r) :
    Yields x 0 r :=
  fun room => ⟨fun _ => h room, fun hlt => absurd hlt (Nat.not_lt_zero room)⟩

/-- A call of a function of the module needs room for one frame more than what happens inside. -/
theorem Yields.enter {id : Nat} {f : Func} (hf : machine.module.function? id = some f)
    (hext : f.isExternal = false) {args : List Value} {t : Transcript} {x : Nat → Ending Value}
    (hx : ∀ room, machine.invoke (room + 1) id args t = x room) {n : Nat} {r : Ending Value}
    (h : Yields x n r) : Yields (fun room => machine.invoke room id args t) (n + 1) r := by
  intro room
  cases room with
  | zero =>
      refine ⟨fun hle => absurd hle (by omega), fun _ => ?_⟩
      exact ⟨f.name, t, Machine.invoke_zero hf hext args t⟩
  | succ room =>
      obtain ⟨hle, hlt⟩ := h room
      simp only [hx]
      exact ⟨fun hn => hle (by omega), fun hn => hlt (by omega)⟩

section

variable {function : String} {callee : Nat} {args : List Handle} {values : List Value} {f : Frame}
  {t t' : Transcript} {n k : Nat}

theorem Yields.callFails {e : ExecError} (hargs : f.evalAll args = .ok values)
    (h : Yields (fun room => machine.invoke room callee values
      (t.executing function f (.call callee args))) n (.error e t')) (rest : List Instr) :
    Yields (fun room => Machine.execute (machine.invoke room) function (.call callee args :: rest)
      f t) n (.error e t') := by
  intro room
  have hle : n ≤ room → machine.invoke room callee values _ = _ := (h room).1
  have hlt : room < n → StoppedTooDeep (machine.invoke room callee values _) := (h room).2
  simp only [execute_call _ _ _ hargs]
  refine ⟨fun hn => by rw [hle hn], fun hn => ?_⟩
  obtain ⟨name, t₁, hstop⟩ := hlt hn
  exact ⟨name, t₁, by rw [hstop]⟩

/-- A call and what follows it need as much room as the one of them that needs more. -/
theorem Yields.call {v : Value} {rest : List Instr} {r : Ending Value}
    (hargs : f.evalAll args = .ok values)
    (h : Yields (fun room => machine.invoke room callee values
      (t.executing function f (.call callee args))) n (.ok v t'))
    (hrest : Yields (fun room => Machine.execute (machine.invoke room) function rest (f.advance v)
      t') k r) :
    Yields (fun room => Machine.execute (machine.invoke room) function (.call callee args :: rest)
      f t) (max n k) r := by
  intro room
  obtain ⟨hle', hlt'⟩ := hrest room
  have hle : n ≤ room → machine.invoke room callee values _ = _ := (h room).1
  have hlt : room < n → StoppedTooDeep (machine.invoke room callee values _) := (h room).2
  simp only [execute_call _ _ _ hargs]
  by_cases hn : n ≤ room
  · rw [hle hn]
    exact ⟨fun hmax => hle' (by omega), fun hmax => hlt' (by omega)⟩
  · obtain ⟨name, t₁, hstop⟩ := hlt (by omega)
    refine ⟨fun hmax => absurd hmax (by omega), fun _ => ⟨name, t₁, ?_⟩⟩
    rw [hstop]

end

mutual

/-- With room for all its frames a call ends on the machine as it ends by the rules. With less room
it is stopped. -/
theorem Invokes.yields {id : Nat} {args : List Value} {t : Transcript} {n : Nat}
    {r : Ending Value} : Invokes machine id args t n r →
    Yields (fun room => machine.invoke room id args t) n r
  | .unknown hf => .of_eq fun room => Machine.invoke_unknown hf room args t
  | .noHost hf hext hname => .of_eq fun room => by
      rw [Machine.invoke_external hf hext, Machine.callExternal_apply, if_neg hname]
  | .print hf hext hname hrun => .of_eq fun room => by
      rw [Machine.invoke_external hf hext, Machine.callExternal_apply, if_pos hname, hrun]
  | .printFails hf hext hname hrun => .of_eq fun room => by
      rw [Machine.invoke_external hf hext, Machine.callExternal_apply, if_pos hname, hrun]
  | .argumentCount hf hext hargs => by
      refine .enter hf hext (fun room => ?_) (.of_eq fun _ => rfl)
      rw [Machine.invoke_succ hf hext, if_neg hargs]
  | .noBody hf hext hargs hbody => by
      refine .enter hf hext (fun room => ?_) (.of_eq fun _ => rfl)
      rw [Machine.invoke_succ hf hext, if_pos hargs, hbody]
  | .body hf hext hargs hbody hexec => by
      refine .enter hf hext (fun room => ?_) hexec.yields
      rw [Machine.invoke_succ hf hext, if_pos hargs, hbody]

theorem Executes.yields {function : String} {code : List Instr} {f : Frame} {t : Transcript}
    {n : Nat} {r : Ending Value} : Executes machine function code f t n r →
    Yields (fun room => Machine.execute (machine.invoke room) function code f t) n r
  | .fellOff => .of_eq fun _ => rfl
  | .next hf hexec => by
      intro room
      simp only [execute_next hf]
      exact hexec.yields room
  | .fault hf => .of_eq fun _ => execute_next_error hf _ t
  | .badArgument hargs => .of_eq fun _ => execute_call_error _ _ hargs t
  | .callFails hargs hcall => .callFails hargs hcall.yields _
  | .call hargs hcall hexec => .call hargs hcall.yields hexec.yields
  | .ret hv => .of_eq fun _ => execute_ret _ hv t
  | .badResult hv => .of_eq fun _ => execute_ret_error _ hv t
  | .retNothing => .of_eq fun _ => rfl

end

theorem not_stoppedTooDeep {function : String} {fault : Fault} {t : Transcript}
    (h : fault ≠ .tooDeep) : ¬StoppedTooDeep (.error ⟨function, fault⟩ t : Ending Value) := by
  intro hstop
  obtain ⟨name, t', heq⟩ := hstop
  cases heq
  exact h rfl

theorem not_stoppedTooDeep_of_isLocal {function : String} {fault : Fault} {t : Transcript}
    (h : fault.IsLocal = true) :
    ¬StoppedTooDeep (.error ⟨function, fault⟩ t : Ending Value) := by
  refine not_stoppedTooDeep fun heq => ?_
  rw [heq] at h
  cases h

mutual

/-- By the rules no run is stopped. -/
theorem Invokes.not_stopped {id : Nat} {args : List Value} {t : Transcript} {n : Nat}
    {r : Ending Value} : Invokes machine id args t n r → ¬StoppedTooDeep r
  | .unknown _ | .noHost .. | .printFails .. | .argumentCount .. | .noBody .. =>
      not_stoppedTooDeep (by simp)
  | .print .. => fun ⟨_, _, h⟩ => nomatch h
  | .body _ _ _ _ hexec => hexec.not_stopped

theorem Executes.not_stopped {function : String} {code : List Instr} {f : Frame} {t : Transcript}
    {n : Nat} {r : Ending Value} : Executes machine function code f t n r → ¬StoppedTooDeep r
  | .fellOff => not_stoppedTooDeep (by simp)
  | .next _ hexec => hexec.not_stopped
  | .fault hf => not_stoppedTooDeep_of_isLocal (Frame.next?_error hf)
  | .badArgument hargs => not_stoppedTooDeep_of_isLocal (Frame.evalAll_error hargs)
  | .callFails _ hcall => hcall.not_stopped
  | .call _ _ hexec => hexec.not_stopped
  | .ret _ | .retNothing => fun ⟨_, _, h⟩ => nomatch h
  | .badResult hv => not_stoppedTooDeep_of_isLocal (Frame.eval_error hv)

end

/-- By the rules a call ends in one way at most. -/
theorem Invokes.unique {id : Nat} {args : List Value} {t : Transcript} {n n' : Nat}
    {r r' : Ending Value} (h : Invokes machine id args t n r) (h' : Invokes machine id args t n' r') :
    r = r' := by
  have hr := (h.yields (max n n')).1 (by omega)
  have hr' := (h'.yields (max n n')).1 (by omega)
  exact hr.symm.trans hr'

/-! ### Without enough room the machine is stopped -/

mutual

/-- A run that comes to a call while as many frames are open as there is room for is stopped, there
or before. -/
theorem Enters.stopped {id : Nat} {args : List Value} {t t' : Transcript} {n : Nat} {g : Func} :
    Enters machine id args t n g t' → StoppedTooDeep (machine.invoke n id args t)
  | .here hf hext => ⟨g.name, t, Machine.invoke_zero hf hext args t⟩
  | .inside hf hext hargs hbody hin => by
      rw [Machine.invoke_succ hf hext, if_pos hargs, hbody]
      exact hin.stopped

theorem EntersFrom.stopped {function : String} {code : List Instr} {f : Frame}
    {t t' : Transcript} {n : Nat} {g : Func} :
    EntersFrom machine function code f t n g t' →
      StoppedTooDeep (Machine.execute (machine.invoke n) function code f t)
  | .next hf hin => by
      rw [execute_next hf]
      exact hin.stopped
  | @EntersFrom.past _ _ callee args values rest _ _ _ _ _ k v _ hargs hcall hin => by
      have hle : k ≤ n → machine.invoke n callee values _ = _ := (hcall.yields n).1
      have hlt : n < k → StoppedTooDeep (machine.invoke n callee values _) := (hcall.yields n).2
      rw [execute_call _ _ _ hargs]
      by_cases hk : k ≤ n
      · rw [hle hk]
        exact hin.stopped
      · obtain ⟨name, t₁, hstop⟩ := hlt (by omega)
        exact ⟨name, t₁, by rw [hstop]⟩
  | .into hargs hin => by
      obtain ⟨name, t₁, hstop⟩ := hin.stopped
      rw [execute_call _ _ _ hargs, hstop]
      exact ⟨name, t₁, rfl⟩

end

/-- With the room that there is, the machine either comes to an end by the rules, or it is stopped
at a call for which there is no more room. -/
def Settled (room : Nat) (ends : Nat → Ending Value → Prop) (enters : Func → Transcript → Prop)
    (r : Ending Value) : Prop :=
  (∃ n ≤ room, ends n r) ∨ ∃ g t, enters g t ∧ r = .error ⟨g.name, .tooDeep⟩ t

theorem execute_call_settled {room : Nat} {function : String} {callee : Nat} {args : List Handle}
    {values : List Value} {rest : List Instr} {f : Frame} {t : Transcript}
    (hargs : f.evalAll args = .ok values)
    (hcall : ∀ t, Settled room (Invokes machine callee values t)
      (Enters machine callee values t room) (machine.invoke room callee values t))
    (hrest : ∀ f t, Settled room (Executes machine function rest f t)
      (EntersFrom machine function rest f t room)
      (Machine.execute (machine.invoke room) function rest f t)) :
    Settled room (Executes machine function (.call callee args :: rest) f t)
      (EntersFrom machine function (.call callee args :: rest) f t room)
      (Machine.execute (machine.invoke room) function (.call callee args :: rest) f t) := by
  have hc := hcall (t.executing function f (.call callee args))
  rw [execute_call _ _ _ hargs]
  generalize machine.invoke room callee values (t.executing function f (.call callee args)) = r at hc
  rcases hc with ⟨n, hn, hinvoke⟩ | ⟨g, t', hin, rfl⟩
  · cases r with
    | error e t' => exact .inl ⟨n, hn, .callFails hargs hinvoke⟩
    | ok v t' =>
        rcases hrest (f.advance v) t' with ⟨k, hk, hexec⟩ | ⟨g, t'', hin, hr⟩
        · exact .inl ⟨max n k, by omega, .call hargs hinvoke hexec⟩
        · exact .inr ⟨g, t'', .past hargs hinvoke hin, hr⟩
  · exact .inr ⟨g, t', .into hargs hin, rfl⟩

theorem execute_settled {room : Nat} (function : String)
    (hcall : ∀ id args t, Settled room (Invokes machine id args t) (Enters machine id args t room)
      (machine.invoke room id args t)) :
    ∀ (code : List Instr) (f : Frame) (t : Transcript),
      Settled room (Executes machine function code f t) (EntersFrom machine function code f t room)
        (Machine.execute (machine.invoke room) function code f t)
  | [], f, t => .inl ⟨0, Nat.zero_le _, .fellOff⟩
  | instr :: rest, f, t => by
      cases hnext : f.next? instr with
      | some step =>
          cases step with
          | error fault =>
              rw [execute_next_error hnext]
              exact .inl ⟨0, Nat.zero_le _, .fault hnext⟩
          | ok f' =>
              rw [execute_next hnext]
              rcases execute_settled function hcall rest f' (t.executing function f instr) with
                ⟨n, hn, hexec⟩ | ⟨g, t', hin, hr⟩
              · exact .inl ⟨n, hn, .next hnext hexec⟩
              · exact .inr ⟨g, t', .next hnext hin, hr⟩
      | none =>
          cases instr with
          | call callee args =>
              cases hargs : f.evalAll args with
              | error fault =>
                  rw [execute_call_error _ _ hargs]
                  exact .inl ⟨0, Nat.zero_le _, .badArgument hargs⟩
              | ok values =>
                  exact execute_call_settled hargs (hcall callee values)
                    (execute_settled function hcall rest)
          | ret value =>
              cases value with
              | none => exact .inl ⟨0, Nat.zero_le _, .retNothing⟩
              | some h =>
                  cases hv : f.eval h with
                  | error fault =>
                      rw [execute_ret_error _ hv]
                      exact .inl ⟨0, Nat.zero_le _, .badResult hv⟩
                  | ok v =>
                      rw [execute_ret _ hv]
                      exact .inl ⟨0, Nat.zero_le _, .ret hv⟩
          | alloca | load | store | binary => cases hnext

/-- A call either leads into the module or it does not. -/
theorem Machine.outside_or_inside (machine : Machine) (id : Nat) :
    (∀ f, machine.module.function? id = some f → f.isExternal = true) ∨
      ∃ f, machine.module.function? id = some f ∧ f.isExternal = false := by
  cases hf : machine.module.function? id with
  | none => exact .inl fun f h => nomatch h
  | some f =>
      cases hext : f.isExternal with
      | true =>
          refine .inl fun g hg => ?_
          cases hg
          exact hext
      | false => exact .inr ⟨f, rfl, hext⟩

/-- A call that does not lead into the module ends by the rules, however little room there is. -/
theorem invokes_outside {id : Nat}
    (h : ∀ f, machine.module.function? id = some f → f.isExternal = true) (room : Nat)
    (args : List Value) (t : Transcript) :
    Invokes machine id args t 0 (machine.invoke room id args t) := by
  cases hf : machine.module.function? id with
  | none =>
      rw [Machine.invoke_unknown hf]
      exact .unknown hf
  | some f =>
      have hext := h f hf
      rw [Machine.invoke_external hf hext, Machine.callExternal_apply]
      split
      · next hname =>
        cases hrun : Print.run machine.module args with
        | ok text => exact .print hf hext hname hrun
        | error fault => exact .printFails hf hext hname hrun
      · next hname => exact .noHost hf hext hname

/-- The induction is on the room that is left: a call inside a body has one frame less. -/
theorem invoke_settled (room : Nat) : ∀ (id : Nat) (args : List Value) (t : Transcript),
    Settled room (Invokes machine id args t) (Enters machine id args t room)
      (machine.invoke room id args t) := by
  induction room with
  | zero =>
      intro id args t
      rcases machine.outside_or_inside id with hout | ⟨f, hf, hext⟩
      · exact .inl ⟨0, Nat.le_refl _, invokes_outside hout 0 args t⟩
      · rw [Machine.invoke_zero hf hext]
        exact .inr ⟨f, t, .here hf hext, rfl⟩
  | succ room ih =>
      intro id args t
      rcases machine.outside_or_inside id with hout | ⟨f, hf, hext⟩
      · exact .inl ⟨0, Nat.zero_le _, invokes_outside hout (room + 1) args t⟩
      · rw [Machine.invoke_succ hf hext]
        split
        · next hargs =>
          cases hbody : f.body? with
          | none => exact .inl ⟨1, Nat.le_add_left 1 room, .noBody hf hext hargs hbody⟩
          | some body =>
              rcases execute_settled f.name ih body ⟨args, [], []⟩ t with
                ⟨n, hn, hexec⟩ | ⟨g, t', hin, hr⟩
              · exact .inl ⟨n + 1, Nat.succ_le_succ hn, .body hf hext hargs hbody hexec⟩
              · exact .inr ⟨g, t', .inside hf hext hargs hbody hin, hr⟩
        · next hargs => exact .inl ⟨1, Nat.le_add_left 1 room, .argumentCount hf hext hargs⟩

/-! ### Calls from outside -/

theorem stoppedTooDeep_answer_iff {name : String} {r : Ending Value} :
    StoppedTooDeep (Machine.answer name r) ↔ StoppedTooDeep r := by
  cases r with
  | error e t =>
      constructor <;> intro ⟨function, t', h⟩
      · exact ⟨function, t', by cases h; rfl⟩
      · exact ⟨function, t', by cases h; rfl⟩
  | ok v t =>
      constructor <;> intro ⟨function, t', h⟩
      · cases v <;> cases h
      · cases h

/-- A run that begins with a call from outside comes to a call of the function `g` of the module
while 256 frames are open. -/
def OverflowsAt (machine : Machine) (name : String) (args : List Int64) (t : Transcript) (g : Func)
    (t' : Transcript) : Prop :=
  ∃ id, machine.module.find? name = some id ∧
    Enters machine id (args.map .int) t 256 g t'

/-- By the rules a call from outside ends in one way at most. -/
theorem Calls.unique {name : String} {args : List Int64} {t : Transcript} {n n' : Nat}
    {r r' : Ending (Option Int64)} (h : Calls machine name args t n r)
    (h' : Calls machine name args t n' r') : r = r' := by
  cases h with
  | notDeclared hid =>
      cases h' with
      | notDeclared => rfl
      | found hid' => rw [hid] at hid'; cases hid'
  | found hid hr =>
      cases h' with
      | notDeclared hid' => rw [hid] at hid'; cases hid'
      | found hid' hr' =>
          rw [hid] at hid'
          cases hid'
          rw [hr.unique hr']

/-- A call from outside comes to an end by the rules, or it overflows and is stopped there. -/
theorem call_settled (machine : Machine) (name : String) (args : List Int64) (t : Transcript) :
    (∃ n ≤ maxFrames, Calls machine name args t n (machine.call name args t)) ∨
      ∃ g t', OverflowsAt machine name args t g t' ∧
        machine.call name args t = .error ⟨g.name, .tooDeep⟩ t' := by
  cases hid : machine.module.find? name with
  | none =>
      rw [Machine.call_notDeclared hid]
      exact .inl ⟨0, Nat.zero_le _, .notDeclared hid⟩
  | some id =>
      rw [Machine.call_found hid]
      rcases invoke_settled maxFrames id (args.map .int) t with
        ⟨n, hn, hinvoke⟩ | ⟨g, t', hin, hr⟩
      · exact .inl ⟨n, hn, .found hid hinvoke⟩
      · exact .inr ⟨g, t', ⟨id, hid, hin⟩, by rw [hr]; rfl⟩

/-- A call that overflows is stopped. -/
theorem OverflowsAt.stopped {name : String} {args : List Int64} {t t' : Transcript} {g : Func}
    (h : OverflowsAt machine name args t g t') : StoppedTooDeep (machine.call name args t) := by
  obtain ⟨id, hid, hin⟩ := h
  rw [Machine.call_found hid]
  exact stoppedTooDeep_answer_iff.mpr hin.stopped

/-- A call that has room for all its frames ends as it ends by the rules. -/
theorem Calls.call_eq {name : String} {args : List Int64} {t : Transcript} {n : Nat}
    {r : Ending (Option Int64)} (h : Calls machine name args t n r) (hn : n ≤ maxFrames) :
    machine.call name args t = r := by
  cases h with
  | notDeclared hid => exact Machine.call_notDeclared hid args t
  | found hid hinvoke =>
      have hr : machine.invoke maxFrames _ (args.map .int) t = _ := (hinvoke.yields maxFrames).1 hn
      rw [Machine.call_found hid, hr]

theorem Calls.not_stopped {name : String} {args : List Int64} {t : Transcript} {n : Nat}
    {r : Ending (Option Int64)} (h : Calls machine name args t n r) : ¬StoppedTooDeep r := by
  cases h with
  | notDeclared =>
      intro hstop
      obtain ⟨function, t', heq⟩ := hstop
      cases heq
  | found _ hinvoke =>
      intro hstop
      exact hinvoke.not_stopped (stoppedTooDeep_answer_iff.mp hstop)

end

/-- The limit of 256 frames is all that keeps the machine from the rules. A call that is not stopped
ends in the one way that the rules allow; a call that needs no more frames by the rules ends that
way; a call is stopped exactly if it overflows, and then the machine names a place where it
does. So every call comes to an end: by the rules, or at a call for which there is no room. -/
theorem call_departs_only_in_depth (machine : Machine) (name : String) (args : List Int64)
    (t : Transcript) :
    (¬StoppedTooDeep (machine.call name args t) →
      ∀ r, (∃ n, Calls machine name args t n r) ↔ r = machine.call name args t) ∧
    (∀ n r, Calls machine name args t n r → n ≤ 256 → machine.call name args t = r) ∧
    (StoppedTooDeep (machine.call name args t) ↔ ∃ g t', OverflowsAt machine name args t g t') ∧
    (∀ function t', machine.call name args t = .error ⟨function, .tooDeep⟩ t' →
      ∃ g, g.name = function ∧ OverflowsAt machine name args t g t') ∧
    ((∃ n ≤ 256, ∃ r, Calls machine name args t n r) ∨
      ∃ g t', OverflowsAt machine name args t g t') := by
  have hsettled := call_settled machine name args t
  -- what the machine reports as too deep is where the run overflows
  have hplace : ∀ function t', machine.call name args t = .error ⟨function, .tooDeep⟩ t' →
      ∃ g, g.name = function ∧ OverflowsAt machine name args t g t' := by
    intro function t' hcall
    rcases hsettled with ⟨n, -, hcalls⟩ | ⟨g, t₁, hover, hr⟩
    · exact absurd ⟨function, t', hcall⟩ hcalls.not_stopped
    · rw [hcall] at hr
      cases hr
      exact ⟨g, rfl, hover⟩
  refine ⟨?_, fun n r hcalls hn => hcalls.call_eq hn, ⟨?_, ?_⟩, hplace, ?_⟩
  · intro hstop r
    rcases hsettled with ⟨n, -, hcalls⟩ | ⟨g, t', -, hr⟩
    · constructor
      · intro hr
        obtain ⟨k, hr⟩ := hr
        exact hr.unique hcalls
      · intro hr
        exact ⟨n, hr ▸ hcalls⟩
    · exact absurd ⟨g.name, t', hr⟩ hstop
  · intro hstop
    obtain ⟨function, t', hcall⟩ := hstop
    obtain ⟨g, -, hover⟩ := hplace function t' hcall
    exact ⟨g, t', hover⟩
  · intro hover
    obtain ⟨g, t', hover⟩ := hover
    exact hover.stopped
  · rcases hsettled with ⟨n, hn, hcalls⟩ | ⟨g, t', hover, -⟩
    · exact .inl ⟨n, hn, _, hcalls⟩
    · exact .inr ⟨g, t', hover⟩

example : Fault.tooDeep.message = "call depth exceeded 256" := by decide +kernel

end SlotLang
