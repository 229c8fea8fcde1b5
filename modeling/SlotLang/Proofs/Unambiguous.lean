import SlotLang.Proofs.Log
import SlotLang.Proofs.Printing

/-!
# SlotLang.Proofs.Unambiguous

Whatever drafts have taken in a session with one module can be told apart by its text. The log knows
all of it, also what was written into functions that were given up later, so the invariant is about
the log: the module admits each instruction that a draft has taken (`Workbench.Admits`). A step that
lowers or emits logs what `Logs` allows, and no other step adds to what drafts have taken
(`Workbench.perform_records`).
-/

namespace SlotLang

/-! ### What drafts take -/

theorem Instr.Admitted.mono {m m' : Module} {instr : Instr} (h : instr.Admitted m)
    (hext : m.Extends m') : instr.Admitted m' := by
  refine ⟨h.operands, fun id args heq => ?_⟩
  obtain ⟨f, hf⟩ := h.callee id args heq
  obtain ⟨f', hf', -⟩ := hext.functions id f hf
  exact ⟨f', hf'⟩

section

variable {m : Module} {d : Draft} {instr : Instr} {ty : Ty}

/-- A function has a type that no operand may have. -/
theorem Instr.Typed.admitted (ht : instr.Typed m d.result (d.typeOf? m) ty) (hm : m.Tidy)
    (hr : d.result.returnable = true) : instr.Admitted m := by
  constructor
  · intro id hmem
    have hfn : ∀ ty, d.typeOf? m (.func id) = some ty → ty = .fn := by
      intro ty hty
      obtain ⟨f, -, rfl⟩ := Option.map_eq_some_iff.mp hty
      rfl
    rcases (ht.demands hm hr).operand hmem with hty | hty
    · cases hfn _ hty
    · cases hfn _ hty
  · rintro id args rfl
    cases ht with
    | call hf => exact ⟨_, hf⟩

theorem Draft.Typed.admitted (hd : d.Typed m) (heven : d.Even) (hm : m.Tidy)
    (hr : d.result.returnable = true) (hi : instr ∈ d.code) : instr.Admitted m := by
  obtain ⟨j, hj⟩ := List.mem_iff_getElem?.mp hi
  obtain ⟨before, line, after, hlines, -, rfl⟩ := heven.exists_split hj
  exact Instr.Typed.admitted (d := d.withLines before) (hd before line after hlines) hm hr

theorem Draft.Fits.result_returnable (hd : d.Fits m) (hm : m.Typed) :
    d.result.returnable = true := by
  obtain ⟨f, hf, -, heq⟩ := hd.head
  rw [heq]
  exact hm.result_returnable hf

end

/-- The instruction that a draft has taken with an event. -/
def Event.received? : Event → Option Instr
  | .emitted _ _ instr => some instr
  | _ => none

/-- The instructions that drafts have taken, according to a log. -/
def received (events : List Event) : List Instr :=
  events.filterMap Event.received?

theorem received_append (es es' : List Event) : received (es ++ es') = received es ++ received es' :=
  List.filterMap_append

/-- Whatever is logged on the way is admitted in the end. -/
theorem Logs.admitted {m m' : Module} {d d' : Draft} {es : List Event} (h : Logs m d es m' d')
    (hm : m.Tidy) (hr : d.result.returnable = true) : ∀ instr ∈ received es, instr.Admitted m' := by
  induction h with
  | refl | enter | intern | declare =>
      intro _ hi
      cases hi
  | emit he =>
      obtain ⟨ty, hty, -, -, rfl⟩ := Draft.emit_eq_ok_iff.mp he
      intro instr hi
      cases List.mem_singleton.mp hi
      exact (Draft.resultType_eq_ok hty).admitted hm hr
  | trans h₁ h₂ ih ih' =>
      intro instr hi
      rw [received_append] at hi
      rcases List.mem_append.mp hi with hi | hi
      · exact (ih hm hr instr hi).mono (.of_edits h₂.edits)
      · refine ih' (h₁.edits.tidy hm) ?_ instr hi
        obtain ⟨lines, rfl⟩ := h₁.edits.draft
        exact hr
  | abandon hdecl hstart hlogs hclosing ih =>
      have hm₁ := hm.insert (Func.bare_pending ..) hdecl
      intro instr hi
      rw [received_append] at hi
      rcases List.mem_append.mp hi with hi | hi
      · exact ih hm₁ (Draft.judged_of_start hm₁ hstart).result instr hi
      · obtain ⟨e, he, hreceived⟩ := List.mem_filterMap.mp hi
        cases List.mem_singleton.mp (hclosing he)
        cases hreceived
  | define hdecl hstart hlogs hfinish ih =>
      have hm₁ := hm.insert (Func.bare_pending ..) hdecl
      intro instr hi
      rw [received_append] at hi
      rcases List.mem_append.mp hi with hi | hi
      · exact (ih hm₁ (Draft.judged_of_start hm₁ hstart).result instr hi).mono (.of_define hfinish)
      · -- the end of a function takes no instruction
        cases hi

/-! ### What adds nothing -/

section

variable {ε σ α β : Type}

/-- A computation with a log in which it writes of no instruction that a draft has taken. -/
def TakesNothing (log : σ → Array Event) (x : EStateM ε σ α) : Prop :=
  ∀ s, received (log (stateAfter (x s))).toList = received (log s).toList

namespace TakesNothing

variable {log : σ → Array Event}

theorem pure (a : α) : TakesNothing log (Pure.pure a : EStateM ε σ α) := fun _ => rfl

theorem throw (e : ε) : TakesNothing log (MonadExcept.throw e : EStateM ε σ α) := fun _ => rfl

theorem bind {x : EStateM ε σ α} {f : α → EStateM ε σ β} (hx : TakesNothing log x)
    (hf : ∀ a, TakesNothing log (f a)) : TakesNothing log (x >>= f) := by
  intro s
  have h := hx s
  rw [bind_apply]
  cases hr : x s with
  | error e s₁ =>
      rw [hr] at h
      exact h
  | ok a s₁ =>
      rw [hr] at h
      exact (hf a s₁).trans h

end TakesNothing

end

namespace Machine

variable {α : Type}

/-- Steps of a run that add nothing to what drafts have taken. -/
abbrev Quiet (x : Exec α) : Prop := TakesNothing Transcript.events x

theorem ofExcept_quiet (function : String) (x : Except Fault α) :
    Quiet (Exec.ofExcept function x) := by
  cases x with
  | ok a => exact .pure a
  | error fault => exact .throw _

/-- A machine logs what it executes, which is not to be taken by a draft. -/
theorem execute_quiet {call : Nat → List Value → Exec Value} (hcall : ∀ id args, Quiet (call id args))
    (function : String) (code : List Instr) (frame : Frame) :
    Quiet (execute call function code frame) := by
  induction code generalizing frame with
  | nil => exact .throw _
  | cons instr rest ih =>
      have hnote : Quiet (Exec.note (.executing function frame.registers.length instr)) := by
        intro t
        simp [Exec.note, modify_apply, stateAfter, received, Event.received?]
      cases instr with
      | alloca name => exact hnote.bind fun _ => ih _
      | load p => exact hnote.bind fun _ => (ofExcept_quiet _ _).bind fun _ => ih _
      | store p v => exact hnote.bind fun _ => (ofExcept_quiet _ _).bind fun _ => ih _
      | binary op l r => exact hnote.bind fun _ => (ofExcept_quiet _ _).bind fun _ => ih _
      | call callee args =>
          exact hnote.bind fun _ => (ofExcept_quiet _ _).bind fun _ => (hcall _ _).bind fun _ => ih _
      | ret value =>
          cases value with
          | none => exact hnote.bind fun _ => .pure _
          | some v => exact hnote.bind fun _ => ofExcept_quiet _ _

theorem callExternal_quiet (machine : Machine) (f : Func) (args : List Value) :
    Quiet (machine.callExternal f args) := by
  unfold callExternal
  split
  · exact (ofExcept_quiet _ _).bind fun _ => .bind (fun _ => rfl) fun _ => .pure _
  · exact .throw _

theorem invoke_quiet (machine : Machine) : ∀ (room id : Nat) (args : List Value),
    Quiet (machine.invoke room id args)
  | room, id, args => by
      unfold invoke
      split
      · exact .throw _
      · next f _ =>
        split
        · exact machine.callExternal_quiet f args
        · cases room with
          | zero => exact .throw _
          | succ room =>
              dsimp only
              split
              · split
                · exact .throw _
                · exact execute_quiet (machine.invoke_quiet room) _ _ _
              · exact .throw _

theorem call_quiet (machine : Machine) (name : String) (args : List Int64) :
    Quiet (machine.call name args) := by
  unfold call
  split
  · exact .throw _
  · refine (machine.invoke_quiet _ _ _).bind fun v => ?_
    cases v with
    | int v => exact .pure _
    | void => exact .pure _
    | _ => exact .throw _

theorem received_callAll (machine : Machine) : ∀ (calls : List Call) (t : Transcript),
    received (machine.callAll calls t).2.events.toList = received t.events.toList
  | [], _ => rfl
  | c :: rest, t => by
      have h := machine.call_quiet c.function c.args t
      rw [callAll]
      cases hr : machine.call c.function c.args t with
      | ok v t' =>
          rw [hr] at h
          exact (machine.received_callAll rest t').trans h
      | error e t' =>
          rw [hr] at h
          exact (machine.received_callAll rest t').trans h

end Machine

/-! ### Steps -/

/-- What a step adds to the log of a bench: nothing that a draft has taken, or what goes with a
change of the module and the draft at hand. -/
inductive Workbench.Records (w w' : Workbench) : Prop
  | quiet : received w'.events.toList = received w.events.toList → Records w w'
  | logs {m m' : Module} {d d' : Draft} {es : List Event} : w.modules[w.atModule]? = some m →
      some d ∈ w.drafts → Logs m d es m' d' → w'.modules = w.modules.set w.atModule m' →
      w'.events.toList = w.events.toList ++ es → Records w w'

namespace Workbench

variable {α β : Type} {w : Workbench}

/-- Steps of a session that add nothing to what drafts have taken. -/
abbrev Quiet (x : Bench α) : Prop := TakesNothing Workbench.events x

namespace Quiet

theorem module : Quiet Workbench.module := by
  intro w
  simp only [Workbench.module, bind_apply, get_apply]
  cases w.modules[w.atModule]? <;> rfl

theorem draft : Quiet Workbench.draft := by
  intro w
  simp only [Workbench.draft, bind_apply, get_apply]
  cases w.draft? <;> rfl

theorem built (result : Except BuildError α) : Quiet (Workbench.built result) := by
  cases result with
  | ok a => exact .pure a
  | error e => exact .throw _

theorem inScopes (result : Except ScopeError α) : Quiet (Workbench.inScopes result) := by
  cases result with
  | ok a => exact .pure a
  | error e => exact .throw _

theorem request (work : Module → EStateM.Result BuildError Module α) :
    Quiet (Workbench.request work) := by
  intro w
  rw [request_apply]
  cases w.modules[w.atModule]? with
  | none => rfl
  | some m =>
      dsimp only
      cases work m <;> rfl

theorem declared (work : Module → EStateM.Result BuildError Module Nat) :
    Quiet (Workbench.declared work) :=
  (request work).bind fun _ => .pure _

end Quiet

namespace Records

theorem of_context {k : Context → Bench α}
    (h : ∀ m d, w.modules[w.atModule]? = some m → w.draft? = some d →
      w.Records (stateAfter (k ⟨m, w.scopes, d, w.events⟩ w))) :
    w.Records (stateAfter ((context >>= k) w)) := by
  rw [bind_apply, context_apply]
  cases hm : w.modules[w.atModule]? with
  | none => exact .quiet rfl
  | some m =>
      cases hd : w.draft? with
      | none => exact .quiet rfl
      | some d => exact h m d hm hd

/-- The log comes back as it was left, together with the module and the draft. -/
theorem of_restore {m : Module} {d : Draft} {c : Context} {es : List Event}
    (hm : w.modules[w.atModule]? = some m) (hd : w.draft? = some d)
    (hlogs : Logs m d es c.module c.draft) (hes : c.events.toList = w.events.toList ++ es)
    {k : Bench α} (hk : ∀ w', stateAfter (k w') = w') :
    w.Records (stateAfter ((restore c >>= fun _ => k) w)) := by
  have hrun : stateAfter ((restore c >>= fun _ => k) w) = stateAfter (restore c w) := hk _
  rw [hrun]
  exact .logs hm (List.mem_of_getElem? (Option.join_eq_some_iff.mp hd)) hlogs rfl hes

theorem of_lowering {work : Lower α} {visits : String → List (Node × String)}
    (hwork : Lower.Reports work visits) {k : α → Bench β} (hk : ∀ a w', stateAfter (k a w') = w') :
    w.Records (stateAfter ((lowering work >>= k) w)) := by
  have hstate : stateAfter ((lowering work >>= k) w) = stateAfter (lowering work w) := by
    rw [bind_apply]
    cases lowering work w with
    | error e w' => rfl
    | ok a w' => exact hk a w'
  rw [hstate]
  refine of_context fun m d hm hd => ?_
  obtain ⟨_, es, hes, hlogs, -⟩ := (hwork ⟨m, w.scopes, d, w.events⟩).wrote
  cases hr : work ⟨m, w.scopes, d, w.events⟩ with
  | ok a c =>
      rw [hr] at hes hlogs
      exact of_restore hm hd hlogs hes fun _ => rfl
  | error e c =>
      rw [hr] at hes hlogs
      exact of_restore hm hd hlogs hes fun _ => rfl

end Records

/-- What any step adds to the log. -/
theorem perform_records (s : Step) (w : Workbench) : w.Records (stateAfter (perform s w)) := by
  -- only `emit` and the two steps that lower can have a draft take something
  cases s with
  | declarePrint => exact .quiet (TakesNothing.bind (fun _ => rfl) (fun _ => Quiet.declared _) w)
  | declareFunction _ _ _ | declareExternal _ _ _ _ => exact .quiet (Quiet.declared _ w)
  | newDraft func =>
      exact .quiet (Quiet.module.bind (fun _ => (Quiet.built _).bind fun _ _ => rfl) w)
  | emit instr =>
      refine .of_context fun m d hm hd => ?_
      simp only [Context.emit]
      cases he : d.emit m instr with
      | error e d' => exact .quiet rfl
      | ok h d' =>
          -- the one step besides lowering that adds an instruction, and it logs it
          refine .of_restore hm hd (.emit he) Array.toList_push fun _ => ?_
          cases instr <;> rfl
  | finish =>
      have hseal : ∀ d : Draft, Quiet (modify fun w : Workbench =>
          { w with events := w.events.push (.sealing d.name d.code.length) } : Bench Unit) := by
        intro d w
        simp [modify_apply, stateAfter, received, Event.received?]
      exact .quiet (Quiet.draft.bind (fun d => .bind (fun _ => rfl) fun _ => (hseal d).bind fun _ =>
        (Quiet.request _).bind fun _ => .pure _) w)
  | lower node => exact .of_lowering (lower_reports node) fun _ _ => rfl
  | valueOf node => exact .of_lowering (value?_quiet node) fun _ _ => rfl
  | declare name binding =>
      exact .quiet (TakesNothing.bind (fun _ => rfl)
        (fun _ => (Quiet.inScopes _).bind fun _ _ => rfl) w)
  | resolve name =>
      exact .quiet (TakesNothing.bind (fun _ => rfl)
        (fun _ => (Quiet.inScopes _).bind fun _ _ => rfl) w)
  | declareWith name make =>
      simp only [perform, bind_apply, get_apply]
      let attempt : StateM Bool (Except String Binding) := do set true; return make
      cases (w.scopes.declareWith name attempt).run false with
      | mk outcome made => cases outcome <;> exact .quiet rfl
  | run settings calls =>
      refine .quiet (Quiet.module.bind (fun m w => ?_) w)
      have hrun := (Machine.ofSettings m settings).received_callAll calls .empty
      change received (w.events ++
        ((Machine.ofSettings m settings).callAll calls .empty).2.events).toList = _
      rw [Array.toList_append, received_append, hrun]
      exact List.append_nil _
  | typeOf handle =>
      exact .quiet (Quiet.draft.bind (fun _ => Quiet.module.bind fun _ =>
        (Quiet.built _).bind fun _ _ => rfl) w)
  | intern _ | findFunction _ | functionAt _ | functionNamed _ | functionNames | textAt _
  | printModule => exact .quiet (Quiet.module.bind (fun _ _ => rfl) w)
  | argument _ | draftCode => exact .quiet (Quiet.draft.bind (fun _ _ => rfl) w)
  | newModule _ | useModule _ | useDraft _ | enterFunction | enterScope | exitScope | exitFunction
  | isBound _ => exact .quiet rfl

theorem step_records (w : Workbench) (s : Step) : w.Records (w.step s).2 := by
  have h := perform_records s w
  unfold step
  cases hr : perform s w <;> rw [hr] at h <;> exact h

/-! ### Sessions -/

/-- Everything that drafts have taken is admitted by the module of the bench. -/
def Admits (w : Workbench) : Prop :=
  ∀ m ∈ w.modules, ∀ instr ∈ received w.events.toList, instr.Admitted m

/-- A step that adds no module admits what it takes, and still admits what was taken before. -/
theorem Admits.step {w w' : Workbench} (h : w.Admits) (hw : w.Sound) (hmove : w.Moves w')
    (hrecords : w.Records w') (hone : w'.modules.length ≤ 1) : w'.Admits := by
  obtain ⟨m', hm', -, -⟩ := hw.move hmove hone
  obtain ⟨m, hm, htyped, hfits⟩ := hw
  have hmem : m ∈ w.modules := hm ▸ List.mem_singleton_self m
  have hext : m.Extends m' := by
    obtain ⟨m₁, hm₁, hext⟩ := hmove.extends_module (i := 0) (m := m) (by rw [hm]; rfl)
    rw [hm'] at hm₁
    cases hm₁
    exact hext
  intro m₁ hm₁ instr hi
  rw [hm', List.mem_singleton] at hm₁
  rw [hm₁]
  cases hrecords with
  | quiet hes =>
      rw [hes] at hi
      exact (h m hmem instr hi).mono hext
  | @logs m₂ m₃ d d' es hget hd hlogs hmods hes =>
      rw [hes, received_append] at hi
      rcases List.mem_append.mp hi with hi | hi
      · exact (h m hmem instr hi).mono hext
      · -- there is no other module that the step could have worked on
        have hm₂ : m₂ = m := List.mem_singleton.mp (hm ▸ List.mem_of_getElem? hget)
        have hm₃ : m₃ = m' := by
          obtain ⟨hlt, -⟩ := List.getElem?_eq_some_iff.mp hget
          have hmem₃ : m₃ ∈ w'.modules := hmods ▸ List.mem_set hlt m₃
          rw [hm'] at hmem₃
          exact List.mem_singleton.mp hmem₃
        subst hm₂ hm₃
        exact hlogs.admitted htyped.toTidy ((hfits d hd).result_returnable htyped) instr hi

/-- The same of a whole session. -/
theorem Admits.after : ∀ {steps : List Step} {w : Workbench}, w.Admits → w.Sound →
    (w.after steps).modules.length ≤ 1 → (w.after steps).Admits
  | [], _, h, _, _ => h
  | s :: steps, w, h, hw, hone => by
      have hstep : (w.step s).2.modules.length ≤ 1 := Nat.le_trans (length_le_after steps _) hone
      have hmove := w.step_moves s
      exact (h.step hw hmove (w.step_records s) hstep).after (hw.move hmove hstep) hone

/-- An instruction that some draft has taken: the log says so, or it stands in the code of a draft or
of a function. -/
inductive Took (w : Workbench) (instr : Instr) : Prop
  | logged {function : String} {index : Nat} :
      .emitted function index instr ∈ w.events.toList → Took w instr
  | drafted {d : Draft} : some d ∈ w.drafts → instr ∈ d.code → Took w instr
  | defined {m : Module} {f : Func} : m ∈ w.modules → f ∈ m.functions → instr ∈ f.code →
      Took w instr

/-- Whatever drafts have taken in a session with one module, the module admits. -/
theorem Took.admitted {settings : Settings} {name : String} {steps : List Step} {m : Module}
    {instr : Instr} (hm : ((onModule settings name).after steps).modules = [m])
    (h : ((onModule settings name).after steps).Took instr) : instr.Admitted m := by
  have hone : ((onModule settings name).after steps).modules.length ≤ 1 := by simp [hm]
  obtain ⟨m₁, hm₁, htyped, hfits⟩ := (sound_onModule settings name).after hone
  rw [hm] at hm₁
  cases hm₁
  cases h with
  | logged he =>
      have hadmits : (onModule settings name).Admits := fun _ _ _ hi => by cases hi
      exact hadmits.after (sound_onModule settings name) hone m (by simp [hm]) instr
        (List.mem_filterMap.mpr ⟨_, he, rfl⟩)
  | drafted hd hi =>
      exact (hfits _ hd).typed.admitted (hfits _ hd).even htyped.toTidy
        ((hfits _ hd).result_returnable htyped) hi
  | @defined m₁ f hm₁ hf hi =>
      rw [hm, List.mem_singleton] at hm₁
      subst hm₁
      obtain ⟨id, hid⟩ := List.mem_iff_getElem?.mp hf
      exact (htyped.bodies id f hid).admitted (htyped.even_ofFunc hid) htyped.toTidy
        (htyped.result_returnable hid) hi

end Workbench

/-- Printed instructions can be told apart. Whatever names occur in a session with one module, two
instructions that drafts have taken are the same if the module prints them alike. -/
theorem session_instrText_inj {settings : Settings} {name : String} {steps : List Step} {m : Module}
    (hm : ((Workbench.onModule settings name).after steps).modules = [m]) {x y : Instr}
    (hx : ((Workbench.onModule settings name).after steps).Took x)
    (hy : ((Workbench.onModule settings name).after steps).Took y) :
    m.instrText x = m.instrText y ↔ x = y := by
  have htidy : m.Tidy := Module.Built.tidy ⟨settings, name, steps, by simp [hm]⟩
  exact ⟨Module.instrText_inj htidy (hx.admitted hm) (hy.admitted hm), congrArg m.instrText⟩

/-- Calls of two functions, one of which is named like a call of the other. -/
def Step.brackets : List Step :=
  [.declareExternal "f" [] true .int, .declareExternal "f(1)" [] true .int,
    .declareFunction "" [] .int, .newDraft 2, .emit (.call 0 [.const 1]), .emit (.call 1 [])]

/-- The module of those calls. -/
def Module.brackets : Module :=
  ⟨"m", [.external "f" [] true .int, .external "f(1)" [] true .int, .pending "" [] .int],
    [("", 2), ("f(1)", 1), ("f", 0)], []⟩

/-- The draft of those calls. -/
def Draft.brackets : Draft :=
  ⟨2, "", [], .int, [.call 0 [.const 1], .call 1 []], [.int, .int]⟩

theorem session_instrText_inj_brackets :
    let w := (Workbench.onModule .default "m").after Step.brackets
    w.modules = [.brackets] ∧ w.Took (.call 0 [.const 1]) ∧ w.Took (.call 1 []) ∧
      Module.brackets.instrText (.call 0 [.const 1]) ≠ Module.brackets.instrText (.call 1 []) := by
  intro w
  have hm : w.modules = [.brackets] := by decide +kernel
  have hd : some .brackets ∈ w.drafts := by decide +kernel
  have hx : w.Took (.call 0 [.const 1]) := .drafted hd (by decide)
  have hy : w.Took (.call 1 []) := .drafted hd (by decide)
  refine ⟨hm, hx, hy, fun h => ?_⟩
  cases (session_instrText_inj hm hx hy).mp h

end SlotLang
