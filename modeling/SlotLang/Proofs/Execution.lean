import SlotLang.Proofs.Simulation

/-!
# SlotLang.Proofs.Execution

The machine taken apart. An instruction either stays within its frame, and then `Frame.next?` is
all there is to say about it, or it is a call or a return. The equations below say how a body, a
call and a call from outside go on from there; what follows in other modules about runs of code
that need not come from a tree is proved from them.
-/

namespace SlotLang

/-! ### Instructions -/

/-- What an instruction makes of its frame, if it is neither a call nor a return. -/
def Frame.next? (f : Frame) : Instr → Option (Except Fault Frame)
  | .alloca _ => some (.ok (f.allocate.advance (.slot f.slots.length)))
  | .load ptr => some ((f.read ptr).map fun v => f.advance (.int v))
  | .store ptr value => some ((f.write ptr value).map fun written => written.advance .void)
  | .binary op lhs rhs => some ((f.compute op lhs rhs).map fun v => f.advance (.int v))
  | .call _ _ => none
  | .ret _ => none

/-- The faults of handles and of instructions that stay within their frame. -/
def Fault.IsLocal : Fault → Bool
  | .uninitialized _ | .noArgument _ | .notComputed _ | .expectedInt _ | .expectedPointer _
  | .arith _ => true
  | _ => false

namespace Frame

variable {f : Frame} {fault : Fault}

/-- A handle that has no value is at fault itself, and so is all that is computed with it. -/
theorem eval_error {h : Handle} (he : f.eval h = .error fault) : fault.IsLocal = true := by
  cases h with
  | const v => cases he
  | arg i =>
      rw [eval] at he
      split at he
      · cases he
      · cases he
        rfl
  | inst i =>
      rw [eval] at he
      split at he
      · cases he
      · cases he
        rfl
  | global g => cases he
  | func id => cases he

theorem evalAll_error {hs : List Handle} (he : f.evalAll hs = .error fault) :
    fault.IsLocal = true := by
  induction hs with
  | nil => cases he
  | cons h rest ih =>
      rw [evalAll, List.mapM_cons] at he
      rcases bind_eq_error he with hx | ⟨v, -, hrest⟩
      · exact eval_error hx
      · rcases bind_eq_error hrest with hx | ⟨vs, -, hx⟩
        · exact ih hx
        · cases hx

theorem intOf_error {h : Handle} (he : f.intOf h = .error fault) : fault.IsLocal = true := by
  rcases bind_eq_error he with hx | ⟨v, -, hv⟩
  · exact eval_error hx
  · split at hv
    · cases hv
    · cases hv
      rfl

theorem slotOf_error {h : Handle} (he : f.slotOf h = .error fault) : fault.IsLocal = true := by
  rcases bind_eq_error he with hx | ⟨v, -, hv⟩
  · exact eval_error hx
  · split at hv
    · split at hv
      · cases hv
      · cases hv
        rfl
    · cases hv
      rfl

theorem read_error {ptr : Handle} (he : f.read ptr = .error fault) : fault.IsLocal = true := by
  rcases bind_eq_error he with hx | ⟨s, -, hs⟩
  · exact slotOf_error hx
  · split at hs
    · cases hs
    · cases hs
      rfl

/-- The slot is looked for before the value that goes into it. -/
theorem write_error {ptr value : Handle} (he : f.write ptr value = .error fault) :
    fault.IsLocal = true := by
  rcases bind_eq_error he with hx | ⟨s, -, hs⟩
  · exact slotOf_error hx
  · rcases bind_eq_error hs with hx | ⟨v, -, hv⟩
    · exact intOf_error hx
    · cases hv

/-- Both operands come before the operation, which may fail for their values. -/
theorem compute_error {op : BinOp} {lhs rhs : Handle} (he : f.compute op lhs rhs = .error fault) :
    fault.IsLocal = true := by
  rcases bind_eq_error he with hx | ⟨l, -, hl⟩
  · exact intOf_error hx
  · rcases bind_eq_error hl with hx | ⟨r, -, hr⟩
    · exact intOf_error hx
    · cases ha : op.apply l r with
      | ok v => rw [ha] at hr; cases hr
      | error e => rw [ha] at hr; cases hr; rfl

/-- No instruction that stays within its frame fails for a call or for printing. -/
theorem next?_error {instr : Instr} (he : f.next? instr = some (.error fault)) :
    fault.IsLocal = true := by
  -- the new frame is made of what was read or computed, and making it cannot fail
  have hmap : ∀ {α : Type} {x : Except Fault α} {g : α → Frame},
      some (x.map g) = some (.error fault) → x = .error fault := by
    intro α x g hx
    cases x with
    | error e => cases hx; rfl
    | ok a => cases hx
  cases instr with
  | alloca name => cases he
  | load ptr => exact read_error (hmap he)
  | store ptr value => exact write_error (hmap he)
  | binary op lhs rhs => exact compute_error (hmap he)
  | call callee args => cases he
  | ret value => cases he

end Frame

section

variable {call : Nat → List Value → Exec Value} {function : String}

/-- An instruction that stays within its frame makes the frame that the rest goes on with, or it
stops the function. -/
theorem execute_cons (call : Nat → List Value → Exec Value) (function : String) (instr : Instr)
    (rest : List Instr) (f : Frame) (t : Transcript) :
    match f.next? instr with
    | some (.ok f') => Machine.execute call function (instr :: rest) f t =
        Machine.execute call function rest f' (t.executing function f instr)
    | some (.error fault) => Machine.execute call function (instr :: rest) f t =
        .error ⟨function, fault⟩ (t.executing function f instr)
    | none => True := by
  cases instr with
  | alloca name => exact execute_alloca name rest f t
  | load ptr =>
      rw [execute_load, Frame.next?]
      cases f.read ptr <;> rfl
  | store ptr value =>
      rw [execute_store, Frame.next?]
      cases f.write ptr value <;> rfl
  | binary op lhs rhs =>
      rw [execute_binary, Frame.next?]
      cases f.compute op lhs rhs <;> rfl
  | call callee args => trivial
  | ret value => trivial

theorem execute_next {instr : Instr} {f f' : Frame} (h : f.next? instr = some (.ok f'))
    (rest : List Instr) (t : Transcript) :
    Machine.execute call function (instr :: rest) f t =
      Machine.execute call function rest f' (t.executing function f instr) := by
  have hc := execute_cons call function instr rest f t
  rw [h] at hc
  exact hc

theorem execute_next_error {instr : Instr} {f : Frame} {fault : Fault}
    (h : f.next? instr = some (.error fault)) (rest : List Instr) (t : Transcript) :
    Machine.execute call function (instr :: rest) f t =
      .error ⟨function, fault⟩ (t.executing function f instr) := by
  have hc := execute_cons call function instr rest f t
  rw [h] at hc
  exact hc

/-- The arguments are evaluated before the callee is looked for. -/
theorem execute_call_error (callee : Nat) {args : List Handle} (rest : List Instr) {f : Frame}
    {fault : Fault} (hv : f.evalAll args = .error fault) (t : Transcript) :
    Machine.execute call function (.call callee args :: rest) f t =
      .error ⟨function, fault⟩ (t.executing function f (.call callee args)) := by
  simp only [Machine.execute, bind_apply, hv]
  rfl

theorem execute_ret_error {h : Handle} (rest : List Instr) {f : Frame} {fault : Fault}
    (hv : f.eval h = .error fault) (t : Transcript) :
    Machine.execute call function (.ret (some h) :: rest) f t =
      .error ⟨function, fault⟩ (t.executing function f (.ret (some h))) := by
  simp only [Machine.execute, bind_apply, hv]
  rfl

theorem execute_ret_none (rest : List Instr) (f : Frame) (t : Transcript) :
    Machine.execute call function (.ret none :: rest) f t =
      .ok .void (t.executing function f (.ret none)) := rfl

end

/-! ### Calls -/

/-- Of a module, printing looks only at the texts. -/
theorem Print.run_congr {m m' : Module} (h : m'.texts = m.texts) (args : List Value) :
    run m' args = run m args := by
  unfold run Module.text?
  rw [h]

namespace Machine

variable {machine : Machine} {id : Nat} {f : Func}

/-- The print routine is the only external function that there is. It returns how many bytes it has
printed. -/
theorem callExternal_apply (machine : Machine) (f : Func) (args : List Value) (t : Transcript) :
    machine.callExternal f args t =
      if f.name = machine.printRoutine then
        match Print.run machine.module args with
        | .ok text => .ok (.int (.ofNat text.utf8ByteSize)) (t.write text)
        | .error fault => .error ⟨f.name, .print fault⟩ t
      else .error ⟨f.name, .noHost⟩ t := by
  unfold callExternal
  split
  · cases Print.run machine.module args <;> rfl
  · rfl

theorem invoke_unknown (hf : machine.module.function? id = none) (room : Nat) (args : List Value)
    (t : Transcript) :
    machine.invoke room id args t = .error ⟨"<unknown>", .noFunction id⟩ t := by
  rw [invoke, hf]
  rfl

/-- An external function is called whether or not there is room. -/
theorem invoke_external (hf : machine.module.function? id = some f) (hext : f.isExternal = true)
    (room : Nat) (args : List Value) (t : Transcript) :
    machine.invoke room id args t = machine.callExternal f args t := by
  rw [invoke, hf]
  simp only [hext, if_true]

/-- Without room for a frame not even the arguments are counted. -/
theorem invoke_zero (hf : machine.module.function? id = some f) (hext : f.isExternal = false)
    (args : List Value) (t : Transcript) :
    machine.invoke 0 id args t = .error ⟨f.name, .tooDeep⟩ t := by
  rw [invoke, hf]
  simp only [hext, Bool.false_eq_true, if_false]
  rfl

/-- With room for a frame the arguments are counted, and then the body is looked for. -/
theorem invoke_succ (hf : machine.module.function? id = some f) (hext : f.isExternal = false)
    (room : Nat) (args : List Value) (t : Transcript) :
    machine.invoke (room + 1) id args t =
      if args.length = f.params.length then
        match f.body? with
        | none => .error ⟨f.name, .noBody⟩ t
        | some body => execute (machine.invoke room) f.name body ⟨args, [], []⟩ t
      else .error ⟨f.name, .argumentCount f.params.length args.length⟩ t := by
  rw [invoke, hf]
  simp only [hext, Bool.false_eq_true, if_false]
  split
  · cases f.body? <;> rfl
  · rfl

/-- What a call from outside makes of what the function gives back. -/
def answer (name : String) : EStateM.Result ExecError Transcript Value →
    EStateM.Result ExecError Transcript (Option Int64)
  | .ok (.int v) t => .ok (some v) t
  | .ok .void t => .ok none t
  | .ok other t => .error ⟨name, .returned other.kind⟩ t
  | .error e t => .error e t

theorem call_notDeclared {name : String} (hid : machine.module.find? name = none)
    (args : List Int64) (t : Transcript) :
    machine.call name args t = .error ⟨name, .notDeclared name⟩ t := by
  rw [call, hid]
  rfl

/-- A call from outside finds the function by its name and has room for `maxFrames` frames. -/
theorem call_found {name : String} (hid : machine.module.find? name = some id) (args : List Int64)
    (t : Transcript) :
    machine.call name args t = answer name (machine.invoke maxFrames id (args.map .int) t) := by
  rw [call, hid]
  dsimp only
  -- else the reductions below would unfold the run with all its frames
  generalize machine.invoke maxFrames id (args.map .int) = run
  rw [bind_apply]
  cases run t with
  | error e t' => rfl
  | ok v t' => cases v <;> rfl

end Machine

end SlotLang
