import SlotLang.Proofs.Frames

/-!
# SlotLang.Proofs.Simulation

Code does what its tree means. `Runs` compares the evaluation of a node with the execution of its
code in front of arbitrary other code: both come through, and then the other code is what remains;
or both return the same value; or both fail for the same reason. In each case the same texts have
been printed. The proof is an induction on `Code`, which follows the tree.
-/

namespace SlotLang

open Source (Activation Eval Stop)

/-! ### Values and faults -/

namespace Source

/-- A failure of the evaluation and the failure of the machine that it corresponds to. The machine
names the place of a read and not the variable. -/
def Fault.Matches : Source.Fault → SlotLang.Fault → Prop
  | .notDeclared name, .notDeclared name' => name' = name
  | .argumentCount expected found, .argumentCount expected' found' =>
    expected' = expected ∧ found' = found
  | .uninitialized _, .uninitialized _ => True
  | .arith fault, .arith fault' => fault' = fault
  | .addressPrinted, .print (.notAnInt .pointer) => True
  | .format fault, .print fault' => fault' = fault
  | _, _ => False

/-- The same function is blamed for corresponding faults. -/
structure Error.Matches (e : Source.Error) (e' : ExecError) : Prop where
  function : e'.function = e.function
  fault : e.fault.Matches e'.fault

end Source

/-- Faults that depend on what the code computes. All others would be the fault of the code. -/
def Fault.IsDynamic : Fault → Bool
  | .uninitialized _ | .arith _ => true
  | .print (.notAnInt .pointer) | .print .missingArgument | .print (.unsupported _)
  | .print .danglingPercent => true
  | _ => false

/-- What a function gives back, as a value of the machine. -/
def Value.ofResult : Option Int64 → Value
  | some v => .int v
  | none => .void

/-- The handle stands for the value of a node of this type. -/
inductive Holds (f : Frame) (h : Handle) : Source.Value → Ty → Prop
  | int {v : Int64} : f.eval h = .ok (.int v) → Holds f h (.int v) .int
  | address {s : Nat} : f.eval h = .ok (.slot s) → Holds f h .address .ptr
  | function {id : Nat} : f.eval h = .ok (.func id) → Holds f h .function .fn

namespace Holds

variable {f f' : Frame} {h : Handle} {v : Source.Value} {ty : Ty}

theorem mono (hv : Holds f h v ty) (hf : f.Extends f') : Holds f' h v ty := by
  cases hv with
  | int he => exact .int (hf.eval he)
  | address he => exact .address (hf.eval he)
  | function he => exact .function (hf.eval he)

/-- An integer handle holds an integer. -/
theorem exists_int (hv : Holds f h v .int) : ∃ k, v = .int k ∧ f.eval h = .ok (.int k) := by
  cases hv with
  | int he => exact ⟨_, rfl, he⟩

end Holds

/-! ### Running code in front of other code -/

/-- How an evaluation ends and how the machine ends that runs the code of it. If the evaluation
comes through, the machine is left with `rest`, and `post` holds of what both have reached. -/
def Runs (call : Nat → List Value → Exec Value) (function : String) (base : List String)
    (rest : List Instr) {α : Type} (post : α → Activation → Frame → Transcript → Prop) :
    EStateM.Result Stop Activation α → EStateM.Result ExecError Transcript Value → Prop
  | .ok v a, r => ∃ f t, r = Machine.execute call function rest f t ∧ post v a f t
  | .error (.returned v) a, r => ∃ t, r = .ok (.ofResult v) t ∧ t.output = base ++ a.output
  | .error (.failed e) a, r => ∃ e' t, r = .error e' t ∧ e.Matches e' ∧
      e'.fault.IsDynamic = true ∧ t.output = base ++ a.output

section

variable {call : Nat → List Value → Exec Value} {function : String} {base : List String}

/-- Code that runs as one evaluation does, and then as the next one does. -/
theorem Runs.bind {α β : Type} {P : α → Activation → Frame → Transcript → Prop}
    {Q : β → Activation → Frame → Transcript → Prop} {x : Eval α} {g : α → Eval β} {a : Activation}
    {mid rest : List Instr} {r : EStateM.Result ExecError Transcript Value}
    (h : Runs call function base mid P (x a) r)
    (k : ∀ v a' f t, P v a' f t →
      Runs call function base rest Q (g v a') (Machine.execute call function mid f t)) :
    Runs call function base rest Q ((x >>= g) a) r := by
  rw [bind_apply]
  cases hx : x a with
  | ok v a' =>
      rw [hx] at h
      obtain ⟨f, t, rfl, hp⟩ := h
      exact k v a' f t hp
  | error stop a' =>
      rw [hx] at h
      cases stop with
      | returned v => exact h
      | failed e => exact h

theorem Runs.mono {α : Type} {P Q : α → Activation → Frame → Transcript → Prop}
    {rest : List Instr} {x : EStateM.Result Stop Activation α}
    {r : EStateM.Result ExecError Transcript Value} (h : Runs call function base rest P x r)
    (k : ∀ v a f t, P v a f t → Q v a f t) : Runs call function base rest Q x r := by
  cases x with
  | ok v a =>
      obtain ⟨f, t, hr, hp⟩ := h
      exact ⟨f, t, hr, k v a f t hp⟩
  | error stop a =>
      cases stop with
      | returned v => exact h
      | failed e => exact h

variable {arity : Nat} {bs : Bindings} {n : Nat} {a : Activation} {f : Frame} {t : Transcript}

/-- A fault of the function at hand on both sides. -/
theorem Runs.fail {α : Type} {post : α → Activation → Frame → Transcript → Prop}
    {rest : List Instr} {fault : Source.Fault} {fault' : Fault}
    (hr : Related function base arity bs n a f t) (hm : fault.Matches fault')
    (hd : fault'.IsDynamic = true) :
    Runs call function base rest post (Eval.fail fault a) (.error ⟨function, fault'⟩ t) :=
  ⟨⟨function, fault'⟩, t, rfl, ⟨hr.function.symm, hm⟩, hd, hr.output⟩

/-! ### Single instructions -/

theorem execute_alloca (x : String) (rest : List Instr) (f : Frame) (t : Transcript) :
    Machine.execute call function (.alloca x :: rest) f t =
      Machine.execute call function rest (f.allocate.advance (.slot f.slots.length))
        (t.executing function f (.alloca x)) := rfl

theorem execute_load (p : Handle) (rest : List Instr) (f : Frame) (t : Transcript) :
    Machine.execute call function (.load p :: rest) f t =
      match f.read p with
      | .ok v => Machine.execute call function rest (f.advance (.int v))
          (t.executing function f (.load p))
      | .error fault => .error ⟨function, fault⟩ (t.executing function f (.load p)) := by
  simp only [Machine.execute, bind_apply]
  cases f.read p <;> rfl

theorem execute_store (p h : Handle) (rest : List Instr) (f : Frame) (t : Transcript) :
    Machine.execute call function (.store p h :: rest) f t =
      match f.write p h with
      | .ok written => Machine.execute call function rest (written.advance .void)
          (t.executing function f (.store p h))
      | .error fault => .error ⟨function, fault⟩ (t.executing function f (.store p h)) := by
  simp only [Machine.execute, bind_apply]
  cases f.write p h <;> rfl

theorem execute_binary (op : BinOp) (l r : Handle) (rest : List Instr) (f : Frame)
    (t : Transcript) :
    Machine.execute call function (.binary op l r :: rest) f t =
      match f.compute op l r with
      | .ok v => Machine.execute call function rest (f.advance (.int v))
          (t.executing function f (.binary op l r))
      | .error fault => .error ⟨function, fault⟩ (t.executing function f (.binary op l r)) := by
  simp only [Machine.execute, bind_apply]
  cases f.compute op l r <;> rfl

theorem execute_call (callee : Nat) (args : List Handle) (rest : List Instr) {f : Frame}
    {values : List Value} (hv : f.evalAll args = .ok values) (t : Transcript) :
    Machine.execute call function (.call callee args :: rest) f t =
      match call callee values (t.executing function f (.call callee args)) with
      | .ok v t' => Machine.execute call function rest (f.advance v) t'
      | .error e t' => .error e t' := by
  have hn : Exec.note (.executing function f.registers.length (.call callee args)) t =
      .ok () (t.executing function f (.call callee args)) := rfl
  simp only [Machine.execute, bind_apply, hv, hn, Exec.ofExcept, pure_apply]
  cases call callee values (t.executing function f (.call callee args)) <;> rfl

theorem execute_ret {h : Handle} {v : Value} (rest : List Instr) {f : Frame}
    (hv : f.eval h = .ok v) (t : Transcript) :
    Machine.execute call function (.ret (some h) :: rest) f t =
      .ok v (t.executing function f (.ret (some h))) := by
  simp only [Machine.execute, bind_apply, hv]
  rfl

/-- A variable is read as its slot is. -/
theorem load_runs (hr : Related function base arity bs n a f t) {x : String} {p : Handle}
    (hx : bs.lookup x = some (.storage p)) (rest : List Instr) :
    Runs call function base rest
      (fun v a' f' t' => Related function base arity bs (n + 1) a' f' t' ∧ f.Extends f' ∧
        f'.eval (.inst n) = .ok (.int v))
      (Eval.load x a) (Machine.execute call function (.load p :: rest) f t) := by
  obtain ⟨s, w, hs, hw, hl⟩ := hr.storage x p hx
  have he := hr.executing f (.load p)
  rw [execute_load, Frame.read_eq hs hw]
  unfold Eval.load
  rw [hl]
  cases w with
  | none => exact .fail he trivial rfl
  | some v =>
      refine ⟨_, _, rfl, he.advance _, f.extends_advance _, ?_⟩
      rw [← hr.registers]
      exact f.eval_advance _

/-- A variable is written as its slot is. -/
theorem store_runs (hr : Related function base arity bs n a f t) {x : String} {p h : Handle}
    {v : Int64} (hx : bs.lookup x = some (.storage p)) (hv : f.eval h = .ok (.int v))
    (rest : List Instr) :
    Runs call function base rest
      (fun _ a' f' t' => Related function base arity bs (n + 1) a' f' t' ∧ f.Extends f')
      (Eval.store x v a) (Machine.execute call function (.store p h :: rest) f t) := by
  obtain ⟨s, w, hs, hw, hl⟩ := hr.storage x p hx
  have hlt := (List.getElem?_eq_some_iff.mp hw).1
  rw [execute_store, Frame.write_eq hs hlt hv]
  unfold Eval.store
  rw [hl]
  exact ⟨_, _, rfl, ((hr.executing f (.store p h)).assign hx hs v).advance _, rfl,
    List.prefix_append _ _⟩

/-- A variable is declared as its slot is opened. -/
theorem declare_runs (hr : Related function base arity bs n a f t) (x : String)
    (rest : List Instr) :
    Runs call function base rest
      (fun _ a' f' t' =>
        Related function base arity ((x, .storage (.inst n)) :: bs) (n + 1) a' f' t' ∧
        f.Extends f')
      (Eval.declare x a) (Machine.execute call function (.alloca x :: rest) f t) := by
  rw [execute_alloca]
  exact ⟨_, _, rfl, (hr.executing f (.alloca x)).allocate x, rfl, List.prefix_append _ _⟩

/-- An operator computes what its instruction does. -/
theorem combine_runs (hr : Related function base arity bs n a f t) (op : ArithOp) {l r : Handle}
    {v w : Int64} (hl : f.eval l = .ok (.int v)) (hw : f.eval r = .ok (.int w))
    (rest : List Instr) :
    Runs call function base rest
      (fun u a' f' t' => Related function base arity bs (n + 1) a' f' t' ∧ f.Extends f' ∧
        Holds f' (.inst n) u .int)
      (Eval.combine op (.int v) (.int w) a)
      (Machine.execute call function (.binary op.toBinOp l r :: rest) f t) := by
  have he := hr.executing f (.binary op.toBinOp l r)
  rw [execute_binary, Frame.compute_eq op.toBinOp hl hw, op.apply_toBinOp]
  simp only [Eval.combine, Eval.intOf, bind_apply, pure_apply]
  cases op.compute v w with
  | error fault => exact .fail he rfl rfl
  | ok u =>
      refine ⟨_, _, rfl, he.advance _, f.extends_advance _, .int ?_⟩
      rw [← hr.registers]
      exact f.eval_advance _

/-! ### Printing -/

/-- What the print routine finds before the value. -/
def Settings.formatValues (settings : Settings) : List Value :=
  match settings.printFormat with
  | some _ => [.text 0]
  | none => []

/-- What stands before the value in a call of the print routine, if the format has this index. -/
def Settings.formatArgsAt (settings : Settings) (text : Nat) : List Handle :=
  match settings.printFormat with
  | some _ => [.global text]
  | none => []

/-- What the print routine finds before the value, if the format has this index. -/
def Settings.formatValuesAt (settings : Settings) (text : Nat) : List Value :=
  match settings.printFormat with
  | some _ => [.text text]
  | none => []

theorem Settings.formatValues_eq (settings : Settings) :
    settings.formatValues = settings.formatValuesAt 0 := rfl

theorem Frame.evalAll_printAt (settings : Settings) (text : Nat) {f : Frame} {h : Handle}
    {v : Value} (hv : f.eval h = .ok v) :
    f.evalAll (settings.formatArgsAt text ++ [h]) =
      .ok (settings.formatValuesAt text ++ [v]) := by
  have hg : f.eval (.global text) = .ok (.text text) := rfl
  unfold Settings.formatArgsAt Settings.formatValuesAt
  cases settings.printFormat <;> simp [evalAll, hv, hg, bind, Except.bind, pure, Except.pure]

theorem Frame.evalAll_print (settings : Settings) {f : Frame} {h : Handle} {v : Value}
    (hv : f.eval h = .ok v) :
    f.evalAll (settings.formatArgs ++ [h]) = .ok (settings.formatValues ++ [v]) :=
  evalAll_printAt settings 0 hv

/-- Calls print as the settings say: integers are printed, and addresses are refused. -/
structure Prints (settings : Settings) (call : Nat → List Value → Exec Value) : Prop where
  int : ∀ v t, call 0 (settings.formatValues ++ [.int v]) t =
    match settings.printed v with
    | .ok text => .ok (.int (.ofNat text.utf8ByteSize)) (t.write text)
    | .error fault => .error ⟨settings.printRoutine, .print fault⟩ t
  slot : ∀ s t, call 0 (settings.formatValues ++ [.slot s]) t =
    .error ⟨settings.printRoutine, .print (.notAnInt .pointer)⟩ t

/-- A format can only fail to fit. -/
theorem Print.fill_error {format : List Char} {values : List Int64} {fault : PrintFault}
    (h : fill format values = .error fault) : (Fault.print fault).IsDynamic = true := by
  -- what stands before the rest of a format cannot fail
  have hbefore : ∀ {x : Except PrintFault String} {g : String → String},
      (x >>= fun text => pure (g text)) = .error fault → x = .error fault := by
    intro x g hx
    rcases bind_eq_error hx with he | ⟨_, -, he⟩
    · exact he
    · cases he
  fun_induction fill format values with
  | case1 => cases h
  | case2 _ _ ih => exact ih (hbefore h)
  | case3 => cases h; rfl
  | case4 _ _ _ ih => exact ih (hbefore h)
  | case5 => cases h; rfl
  | case6 _ _ _ ih => exact ih (hbefore h)
  | case7 => cases h; rfl
  | case8 => cases h; rfl
  | case9 _ _ _ _ _ _ _ _ ih => exact ih (hbefore h)

namespace Source.Display

/-- The integers that are left to show. -/
def left (value : Int64) (shown : Bool) : List Int64 := if shown then [] else [value]

/-- Reading a format character by character, with a note of what the last one asks for, does what
the routine does, which looks at two characters at once. -/
theorem foldlM_read {value : Int64} {format : List Char} {values : List Int64} (shown : Bool)
    (hvalues : values = left value shown) (text : String) :
    format.foldlM (read value) ⟨text, shown, false⟩ >>= finish =
      (Print.fill format values).map (text ++ ·) := by
  -- what was read comes before the rest
  have hfirst : ∀ (text part : String) (x : Except PrintFault String),
      x.map (text ++ part ++ ·) = (x >>= fun rest => pure (part ++ rest)).map (text ++ ·) := by
    intro text part x
    cases x with
    | error fault => rfl
    | ok rest => exact congrArg Except.ok String.append_assoc
  fun_induction Print.fill format values generalizing text shown with
  | case1 => exact congrArg Except.ok String.append_empty.symm
  | case2 rest values ih =>
      rw [← hfirst, ← ih shown hvalues]
      rfl
  | case3 =>
      cases shown with
      | true => rfl
      | false => cases hvalues
  | case4 rest v values ih =>
      cases shown with
      | true => cases hvalues
      | false =>
          cases hvalues
          rw [← hfirst, ← ih true rfl]
          rfl
  | case5 =>
      cases shown with
      | true => rfl
      | false => cases hvalues
  | case6 rest v values ih =>
      cases shown with
      | true => cases hvalues
      | false =>
          cases hvalues
          rw [← hfirst, ← ih true rfl]
          rfl
  | case7 c rest values h₁ h₂ h₃ =>
      have hread : read value ⟨text, shown, true⟩ c = .error (.unsupported c) := by
        rw [read, if_pos rfl, if_neg h₁, if_neg (not_or.mpr ⟨h₂, h₃⟩)]
      change (read value ⟨text, shown, true⟩ c >>= fun d =>
        rest.foldlM (read value) d) >>= finish = _
      rw [hread]
      rfl
  | case8 => rfl
  | case9 c rest values _ _ _ hnext hlast ih =>
      have plain : c ≠ '%' := by
        intro hc
        cases rest with
        | nil => exact hlast hc rfl
        | cons c' tail => exact hnext c' tail hc rfl
      have hread : read value ⟨text, shown, false⟩ c =
          .ok ⟨text ++ String.singleton c, shown, false⟩ := by
        simp [read, plain]
      rw [← hfirst, ← ih shown hvalues, List.foldlM_cons, hread]
      rfl

end Source.Display

/-- What the tree prints is what the routine prints. -/
theorem Settings.printed_eq (settings : Settings) (v : Int64) :
    settings.printed v =
      match settings.printFormat with
      | some format => Print.fill format.toList [v]
      | none => .ok (Print.plain [v]) := by
  unfold printed
  cases settings.printFormat with
  | none => rfl
  | some format =>
      have hread : _ = (Print.fill format.toList [v]).map ("" ++ ·) :=
        Source.Display.foldlM_read false rfl ""
      refine hread.trans ?_
      cases hfill : Print.fill format.toList [v] <;> simp [Except.map, hfill]

theorem Settings.printed_error {settings : Settings} {v : Int64} {fault : PrintFault}
    (h : settings.printed v = .error fault) : (Fault.print fault).IsDynamic = true := by
  rw [printed_eq] at h
  split at h
  · exact Print.fill_error h
  · cases h

/-- What the print routine answers if it is given the value of a node. Functions are never given to
it. -/
def Settings.answer? (settings : Settings) (t : Transcript) :
    Source.Value → Option (EStateM.Result ExecError Transcript Value)
  | .int v =>
    match settings.printed v with
    | .ok text => some (.ok (.int (.ofNat text.utf8ByteSize)) (t.write text))
    | .error fault => some (.error ⟨settings.printRoutine, .print fault⟩ t)
  | .address => some (.error ⟨settings.printRoutine, .print (.notAnInt .pointer)⟩ t)
  | .function => none

/-- A print does what a call does that is answered by the print routine. -/
theorem print_call_runs {settings : Settings} (hr : Related function base arity bs n a f t)
    {callee : Nat} {args : List Handle} {values : List Value} (hargs : f.evalAll args = .ok values)
    {v : Source.Value}
    (hcall : ∀ t, settings.answer? t v = some (call callee values t)) (rest : List Instr) :
    Runs call function base rest
      (fun u a' f' t' => Related function base arity bs (n + 1) a' f' t' ∧ f.Extends f' ∧
        Holds f' (.inst n) u .int)
      (Eval.print settings v a)
      (Machine.execute call function (.call callee args :: rest) f t) := by
  have hr' := hr.executing f (.call callee args)
  have hanswer := hcall (t.executing function f (.call callee args))
  rw [execute_call _ _ _ hargs]
  cases v with
  | int k =>
      simp only [Settings.answer?] at hanswer
      simp only [Eval.print]
      cases hk : settings.printed k with
      | error fault =>
          rw [hk] at hanswer
          rw [← Option.some.inj hanswer]
          exact ⟨_, _, rfl, ⟨rfl, rfl⟩, Settings.printed_error hk, hr'.output⟩
      | ok text =>
          rw [hk] at hanswer
          rw [← Option.some.inj hanswer]
          refine ⟨_, _, rfl, (hr'.write text).advance _, f.extends_advance _, .int ?_⟩
          rw [← hr.registers]
          exact f.eval_advance _
  | address =>
      rw [← Option.some.inj hanswer]
      exact ⟨_, _, rfl, ⟨rfl, trivial⟩, rfl, hr'.output⟩
  | function => cases hanswer

/-- A print does what the call of the print routine does. -/
theorem print_runs {settings : Settings} (hp : Prints settings call)
    (hr : Related function base arity bs n a f t) {h : Handle} {v : Source.Value} {ty : Ty}
    (hv : Holds f h v ty) (hpass : ty.passable = true) (rest : List Instr) :
    Runs call function base rest
      (fun u a' f' t' => Related function base arity bs (n + 1) a' f' t' ∧ f.Extends f' ∧
        Holds f' (.inst n) u .int)
      (Eval.print settings v a)
      (Machine.execute call function (.call 0 (settings.formatArgs ++ [h]) :: rest) f t) := by
  cases hv with
  | int he =>
      rename_i k
      refine print_call_runs hr (Frame.evalAll_print settings he) (fun t => ?_) rest
      rw [hp.int, Settings.answer?]
      cases settings.printed k <;> rfl
  | address he =>
      refine print_call_runs hr (Frame.evalAll_print settings he) (fun t => ?_) rest
      rw [hp.slot]
      rfl
  | function he => cases hpass

/-! ### Nodes -/

/-- An assignment finds or opens the slot and writes it. -/
theorem assign_runs {target : Node} {ts : List Line} {p : Handle} {bs' : Bindings}
    (ht : Target bs n target ts p bs') (hr : Related function base arity bs n a f t) {h : Handle}
    {v : Int64} (hv : f.eval h = .ok (.int v)) (rest : List Instr) :
    Runs call function base rest
      (fun _ a' f' t' => Related function base arity bs' (n + ts.length + 1) a' f' t' ∧
        f.Extends f')
      (Eval.assign target v a)
      (Machine.execute call function (ts.map Line.instr ++ .store p h :: rest) f t) := by
  cases ht with
  | use hx => exact store_runs hr hx hv rest
  | declare hx =>
      refine Runs.bind (declare_runs hr _ _) ?_
      rintro _ a₁ f₁ t₁ ⟨hr₁, hf₁⟩
      refine (store_runs hr₁ List.lookup_cons_self (hf₁.eval hv) rest).mono ?_
      rintro _ a₂ f₂ t₂ ⟨hr₂, hf₂⟩
      exact ⟨hr₂, hf₁.trans hf₂⟩

/-- A step reads the slot, computes and writes the slot. -/
theorem step_runs (hr : Related function base arity bs n a f t) {x : String} {p : Handle}
    (hx : bs.lookup x = some (.storage p)) (order : StepOrder) (direction : Direction)
    (rest : List Instr) :
    Runs call function base rest
      (fun v a' f' t' => Related function base arity bs (n + 3) a' f' t' ∧ f.Extends f' ∧
        Holds f' (order.select (.inst n) (.inst (n + 1))) v .int)
      (Eval.step x order direction a)
      (Machine.execute call function (.load p :: .binary direction.toBinOp (.inst n) (.const 1) ::
        .store p (.inst (n + 1)) :: rest) f t) := by
  refine Runs.bind (load_runs hr hx _) ?_
  rintro v a₁ f₁ t₁ ⟨hr₁, hf₁, hv⟩
  -- the instruction in the middle is no step of the evaluation
  have hcompute : f₁.compute direction.toBinOp (.inst n) (.const 1) =
      .ok (direction.shift v) := by
    rw [Frame.compute_eq _ hv rfl, direction.apply_toBinOp]
    rfl
  rw [execute_binary, hcompute]
  have hr₂ := (hr₁.executing f₁ (.binary direction.toBinOp (.inst n) (.const 1))).advance
    (.int (direction.shift v))
  have hf₂ := f₁.extends_advance (.int (direction.shift v))
  have hv₂ : (f₁.advance (.int (direction.shift v))).eval (.inst (n + 1)) =
      .ok (.int (direction.shift v)) := by
    rw [← hr₁.registers]
    exact f₁.eval_advance _
  refine Runs.bind (store_runs hr₂ hx hv₂ rest) ?_
  rintro _ a₃ f₃ t₃ ⟨hr₃, hf₃⟩
  have hf := (hf₁.trans hf₂).trans hf₃
  cases order with
  | pre => exact ⟨_, _, rfl, hr₃, hf, .int (hf₃.eval hv₂)⟩
  | post => exact ⟨_, _, rfl, hr₃, hf, .int (hf₃.eval (hf₂.eval hv))⟩

variable {settings : Settings} {result : SourceType}

/-- The code of a node does what the node means. -/
theorem Code.runs {node : Node} {lines : List Line} {h : Handle} {ty : Ty} {bs' : Bindings}
    (hc : Code settings arity result bs n node lines h ty bs') {a : Activation} {f : Frame}
    {t : Transcript} (rest : List Instr) (hp : node.hasPrint = true → Prints settings call)
    (hr : Related function base arity bs n a f t) :
    Runs call function base rest
      (fun v a' f' t' => Related function base arity bs' (n + lines.length) a' f' t' ∧
        f.Extends f' ∧ Holds f' h v ty)
      (node.eval settings a)
      (Machine.execute call function (lines.map Line.instr ++ rest) f t) := by
  induction hc generalizing a f t rest with
  | @binary bs bs₁ bs₂ n origin op left right ls rs l r _ _ ihl ihr =>
      have hpl : left.hasPrint = true → Prints settings call := fun h =>
        hp (by rw [Node.hasPrint, h, Bool.true_or])
      have hpr : right.hasPrint = true → Prints settings call := fun h =>
        hp (by rw [Node.hasPrint, h, Bool.or_true])
      simp only [List.map_append, List.append_assoc]
      rw [Node.eval]
      refine Runs.bind (ihl _ hpl hr) ?_
      rintro v a₁ f₁ t₁ ⟨hr₁, hf₁, hv⟩
      refine Runs.bind (ihr _ hpr hr₁) ?_
      rintro w a₂ f₂ t₂ ⟨hr₂, hf₂, hw⟩
      -- the right operand may have written variables, but the left value is in a register
      obtain ⟨i, rfl, hi⟩ := (hv.mono hf₂).exists_int
      obtain ⟨j, rfl, hj⟩ := hw.exists_int
      refine (combine_runs hr₂ op hi hj rest).mono ?_
      rintro u a₃ f₃ t₃ ⟨hr₃, hf₃, hu⟩
      refine ⟨?_, (hf₁.trans hf₂).trans hf₃, hu⟩
      simpa [Nat.add_assoc] using hr₃
  | @assign bs bs₁ bs₂ n origin target value ls ts v p _ ht ih =>
      have hpv : value.hasPrint = true → Prints settings call := fun h =>
        hp (by rw [Node.hasPrint, h, Bool.or_true])
      simp only [List.map_append, List.append_assoc]
      rw [Node.eval]
      refine Runs.bind (ih _ hpv hr) ?_
      rintro w a₁ f₁ t₁ ⟨hr₁, hf₁, hw⟩
      obtain ⟨k, rfl, hk⟩ := hw.exists_int
      change Runs _ _ _ _ _ ((Eval.assign target k >>= fun _ => pure (Source.Value.int k)) a₁) _
      refine Runs.bind (assign_runs ht hr₁ hk rest) ?_
      rintro _ a₂ f₂ t₂ ⟨hr₂, hf₂⟩
      refine ⟨f₂, t₂, rfl, ?_, hf₁.trans hf₂, .int (hf₂.eval hk)⟩
      simpa [Nat.add_assoc] using hr₂
  | @declare bs n origin x hx =>
      rw [Node.eval]
      refine Runs.bind (declare_runs hr x rest) ?_
      rintro _ a₁ f₁ t₁ ⟨hr₁, hf₁⟩
      obtain ⟨s, w, hs, -, -⟩ := hr₁.storage x (.inst n) List.lookup_cons_self
      exact ⟨f₁, t₁, rfl, hr₁, hf₁, .address hs⟩
  | @useAddress bs n origin x p hx =>
      obtain ⟨s, w, hs, -, -⟩ := hr.storage x p hx
      exact ⟨f, t, rfl, hr, .refl f, .address hs⟩
  | @useVariable bs n origin x p hx =>
      obtain ⟨s, w, -, -, hl⟩ := hr.storage x p hx
      simp only [Node.eval, Eval.use, hl]
      change Runs _ _ _ _ _ ((Eval.load x >>= fun v => pure (Source.Value.int v)) a) _
      refine Runs.bind (load_runs hr hx rest) ?_
      rintro v a₁ f₁ t₁ ⟨hr₁, hf₁, hv⟩
      exact ⟨f₁, t₁, rfl, hr₁, hf₁, .int hv⟩
  | @useParameter bs n origin x p hx =>
      obtain ⟨hl, v, hv, hparam⟩ := hr.argument x p hx
      simp only [Node.eval, Eval.use, hl, hparam]
      exact ⟨f, t, rfl, hr, .refl f, .int hv⟩
  | @step bs n origin x order direction p hx => exact step_runs hr hx order direction rest
  | int => exact ⟨f, t, rfl, hr, .refl f, .int rfl⟩
  | function => exact ⟨f, t, rfl, hr, .refl f, .function rfl⟩
  | @argument bs n origin index hi =>
      rw [← hr.arity] at hi
      obtain ⟨v, harg, hv⟩ := Frame.eval_arg hr.args hi
      simp only [Node.eval, Eval.argument, harg]
      exact ⟨f, t, rfl, hr, .refl f, .int hv⟩
  | @print bs bs₁ n origin arg ls v ty _ hpass ih =>
      simp only [List.map_append, List.append_assoc]
      rw [Node.eval]
      refine Runs.bind (ih _ (fun _ => hp rfl) hr) ?_
      rintro w a₁ f₁ t₁ ⟨hr₁, hf₁, hw⟩
      refine (print_runs (hp rfl) hr₁ hw hpass rest).mono ?_
      rintro u a₂ f₂ t₂ ⟨hr₂, hf₂, hu⟩
      refine ⟨?_, hf₁.trans hf₂, hu⟩
      simpa [Nat.add_assoc] using hr₂
  | @returnValue bs bs₁ n origin value ls v _ _ ih =>
      simp only [List.map_append, List.append_assoc]
      rw [Node.eval]
      refine Runs.bind (ih _ hp hr) ?_
      rintro w a₁ f₁ t₁ ⟨hr₁, hf₁, hw⟩
      obtain ⟨k, rfl, hk⟩ := hw.exists_int
      exact ⟨_, execute_ret rest hk t₁, hr₁.output⟩
  | returnNothing _ => exact ⟨_, rfl, hr.output⟩

/-- The code of statements does what they mean. If all of them come through, none of their
instructions was a return. -/
theorem CodeAll.runs {nodes : List Node} {lines : List Line} {bs' : Bindings}
    (hc : CodeAll settings arity result bs n nodes lines bs') {a : Activation} {f : Frame}
    {t : Transcript} (rest : List Instr)
    (hp : Node.hasPrintAll nodes = true → Prints settings call)
    (hr : Related function base arity bs n a f t) :
    Runs call function base rest
      (fun _ a' f' t' => Related function base arity bs' (n + lines.length) a' f' t' ∧
        NoReturn lines)
      (Node.evalAll settings nodes a)
      (Machine.execute call function (lines.map Line.instr ++ rest) f t) := by
  induction hc generalizing a f t rest with
  | nil => exact ⟨f, t, rfl, hr, fun line hline => nomatch hline⟩
  | @cons bs bs₁ bs₂ n node nodes ls rs h ty hnode _ _ ih =>
      have hpn : node.hasPrint = true → Prints settings call := fun h =>
        hp (by rw [Node.hasPrintAll, h, Bool.true_or])
      have hps : Node.hasPrintAll nodes = true → Prints settings call := fun h =>
        hp (by rw [Node.hasPrintAll, h, Bool.or_true])
      simp only [List.map_append, List.append_assoc]
      rw [Node.evalAll]
      refine Runs.bind (hnode.runs _ hpn hr) ?_
      rintro v a₁ f₁ t₁ ⟨hr₁, -, hv⟩
      refine (ih rest hps hr₁).mono ?_
      rintro _ a₂ f₂ t₂ ⟨hr₂, hrs⟩
      -- a return has no value, so a node that comes through is none
      have hty : ty ≠ .void := by
        rintro rfl
        cases hv
      refine ⟨?_, (hnode.noReturn hty).append hrs⟩
      simpa [Nat.add_assoc] using hr₂

end

end SlotLang
