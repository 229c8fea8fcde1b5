import SlotLang.Proofs.Tables

/-!
# SlotLang.Proofs.Drafts

What the code of a draft looks like, whoever wrote it and whichever modules were at hand. Each
instruction is judged against the module at hand at that moment, and the next one may be judged
against another, so no single module vouches for the whole code. What remains true is what the draft
itself has on record: the types of its parameters and of the registers filled so far.

`Judged` is the invariant: each line was let in by some tidy module, behind code that had not
returned. Everything that can be said of the code follows from it (`Draft.Orderly`).
-/

namespace SlotLang

/-! ### Operands -/

namespace Instr

/-- The handles that an instruction uses. -/
def operands : Instr → List Handle
  | alloca _ => []
  | load ptr => [ptr]
  | store ptr value => [ptr, value]
  | binary _ lhs rhs => [lhs, rhs]
  | call _ args => args
  | ret value => value.toList

/-- The operands have the types that the instruction demands. -/
def Demands (type? : Handle → Option Ty) : Instr → Prop
  | alloca _ => True
  | load ptr => type? ptr = some .ptr
  | store ptr value => type? ptr = some .ptr ∧ type? value = some .int
  | binary _ lhs rhs => type? lhs = some .int ∧ type? rhs = some .int
  | call _ args => ∀ h ∈ args, type? h = some .int ∨ type? h = some .ptr
  | ret (some value) => type? value = some .int
  | ret none => True

/-- The types that the register of an instruction can have. Only a call leaves a choice. -/
def Yields : Instr → Ty → Prop
  | alloca _, ty => ty = .ptr
  | load _, ty => ty = .int
  | store _ _, ty => ty = .void
  | binary _ _ _, ty => ty = .int
  | call _ _, ty => ty = .int ∨ ty = .void
  | ret _, ty => ty = .void

theorem Demands.mono {type? type?' : Handle → Option Ty}
    (h : ∀ handle ty, type? handle = some ty → type?' handle = some ty) {instr : Instr}
    (hi : instr.Demands type?) : instr.Demands type?' := by
  cases instr with
  | alloca name => trivial
  | load ptr => exact h _ _ hi
  | store ptr value => exact ⟨h _ _ hi.1, h _ _ hi.2⟩
  | binary op lhs rhs => exact ⟨h _ _ hi.1, h _ _ hi.2⟩
  | call callee args => exact fun a ha => (hi a ha).imp (h _ _) (h _ _)
  | ret value =>
      cases value with
      | none => trivial
      | some v => exact h _ _ hi

/-- Whatever the instruction, its operands are integers and addresses. -/
theorem Demands.operand {type? : Handle → Option Ty} {instr : Instr} (hi : instr.Demands type?)
    {h : Handle} (hh : h ∈ instr.operands) : type? h = some .int ∨ type? h = some .ptr := by
  cases instr with
  | alloca name => simp [operands] at hh
  | load ptr =>
      simp only [operands, List.mem_singleton] at hh
      rw [hh]
      exact .inr hi
  | store ptr value =>
      simp only [operands, List.mem_cons, List.not_mem_nil, or_false] at hh
      rcases hh with rfl | rfl
      · exact .inr hi.1
      · exact .inl hi.2
  | binary op lhs rhs =>
      simp only [operands, List.mem_cons, List.not_mem_nil, or_false] at hh
      rcases hh with rfl | rfl
      · exact .inl hi.1
      · exact .inl hi.2
  | call callee args => exact hi h hh
  | ret value =>
      cases value with
      | none => simp [operands] at hh
      | some v =>
          simp only [operands, Option.toList_some, List.mem_singleton] at hh
          rw [hh]
          exact .inl hi

theorem Demands.exists_type {type? : Handle → Option Ty} {instr : Instr} (hi : instr.Demands type?)
    {h : Handle} (hh : h ∈ instr.operands) : ∃ ty, type? h = some ty := by
  rcases hi.operand hh with hty | hty
  · exact ⟨_, hty⟩
  · exact ⟨_, hty⟩

end Instr

theorem Ty.passable_iff {ty : Ty} : ty.passable = true ↔ ty = .int ∨ ty = .ptr := by
  cases ty <;> simp [passable]

theorem Ty.returnable_iff {ty : Ty} : ty.returnable = true ↔ ty = .int ∨ ty = .void := by
  cases ty <;> simp [returnable]

/-- Arguments that fit parameters of proper types are integers and addresses. -/
theorem ArgsFit.passable {type? : Handle → Option Ty} : ∀ {params : List Param} {args : List Handle},
    (∀ p ∈ params, p.ty.passable = true) →
    ArgsFit (fun h ty => type? h = some ty) params args →
    ∀ h ∈ args, type? h = some .int ∨ type? h = some .ptr
  | _, [], _, _ => by simp
  | p :: params, a :: args, hp, ⟨ha, hrest⟩ => by
      rw [List.forall_mem_cons] at hp ⊢
      refine ⟨?_, hrest.passable hp.2⟩
      rcases Ty.passable_iff.mp hp.1 with hty | hty <;> simp [ha, hty]
  | [], a :: args, hp, ⟨⟨ty, ha, hty⟩, hrest⟩ => by
      rw [List.forall_mem_cons]
      refine ⟨?_, hrest.passable hp⟩
      rcases Ty.passable_iff.mp hty with rfl | rfl <;> simp [ha]

section

variable {m : Module} {result ty : Ty} {types : Handle → Option Ty} {instr : Instr}

theorem Instr.Typed.demands (ht : instr.Typed m result types ty) (hm : m.Tidy)
    (hr : result.returnable = true) : instr.Demands types := by
  cases ht with
  | alloca name => trivial
  | load hp => exact hp
  | store hp hv => exact ⟨hp, hv⟩
  | binary hl hr => exact ⟨hl, hr⟩
  | call hf _ hargs =>
      have hheads := hm.heads _ (List.mem_of_getElem? hf)
      exact hargs.passable (Func.checkTypes_eq_ok hheads).1
  | ret hne hv =>
      rcases Ty.returnable_iff.mp hr with rfl | rfl
      · exact hv
      · exact absurd rfl hne
  | retNothing => trivial

theorem Instr.Typed.yields (ht : instr.Typed m result types ty) (hm : m.Tidy) :
    instr.Yields ty := by
  cases ht with
  | call hf =>
      have hheads := hm.heads _ (List.mem_of_getElem? hf)
      exact Ty.returnable_iff.mp (Func.checkTypes_eq_ok hheads).2
  | alloca | load | store | binary | ret | retNothing => rfl

end

/-! ### Code let in line by line -/

namespace Draft

variable {d d' : Draft} {m m' : Module}

/-- A draft of which each line was let in by some module, behind code that had not returned. The
modules may have been different ones. -/
structure Judged (d : Draft) : Prop where
  result : d.result.returnable = true
  even : d.Even
  lines : ∀ before line after, d.lines = before ++ line :: after →
    (d.withLines before).isTerminated = false ∧
      ∃ m : Module, m.Tidy ∧
        line.instr.Typed m d.result ((d.withLines before).typeOf? m) line.ty

theorem judged_of_start {id : Nat} (hm : m.Tidy) (h : start m id = .ok d) : d.Judged := by
  obtain ⟨f, hf, -, rfl⟩ := start_eq_ok h
  have hheads := hm.heads f (List.mem_of_getElem? hf)
  refine ⟨(Func.checkTypes_eq_ok hheads).2, rfl, ?_⟩
  intro before line after hlines
  cases before <;> cases hlines

/-- The draft itself asks whether the code has returned; the module at hand vouches for the rest. -/
theorem Judged.emit {instr : Instr} {h : Handle} (hd : d.Judged) (hm : m.Tidy)
    (he : d.emit m instr = .ok h d') : d'.Judged := by
  obtain ⟨ty, hty, hopen, -, rfl⟩ := emit_eq_ok_iff.mp he
  change (d.append [⟨instr, ty⟩]).Judged
  refine ⟨hd.result, hd.even.append _, ?_⟩
  intro before line after hlines
  rcases hd.even.cases_append hlines with ⟨rfl, hbefore⟩ | ⟨after', hlines⟩
  · rw [hbefore]
    exact ⟨hopen, m, hm, resultType_eq_ok hty⟩
  · exact hd.lines before line after' hlines

end Draft

/-- Lowering writes into a draft as anybody does. -/
theorem Edits.judged {m m' : Module} {d d' : Draft} (h : Edits m d m' d') (hm : m.Tidy)
    (hd : d.Judged) : d'.Judged := by
  induction h with
  | emit he => exact hd.emit hm he
  | trans h₁ _ ih₁ ih₂ => exact ih₂ (h₁.tidy hm) (ih₁ hm hd)
  | refl | intern | declare | abandon | define => exact hd

/-! ### What a draft has on record -/

namespace Draft

variable {d : Draft} {m : Module}

/-- The type that a draft has on record for a handle. A text is an address in whatever module it
stands. -/
def recorded (d : Draft) : Handle → Option Ty
  | .const _ => some .int
  | .arg i => d.params[i.toNat]?
  | .inst i => d.types[i]?
  | .global _ => some .ptr
  | .func _ => some .fn

/-- Code that is in order. -/
structure Orderly (d : Draft) : Prop where
  /-- Each instruction has a type. -/
  length : d.types.length = d.code.length
  /-- Nothing follows a return. -/
  returns : ∀ (j : Nat) (v : Option Handle), d.code[j]? = some (.ret v) →
    j + 1 = d.code.length
  /-- A register is used only behind the instruction that fills it. -/
  registers : ∀ (j : Nat) (instr : Instr) (i : Nat), d.code[j]? = some instr →
    .inst i ∈ instr.operands → i < j
  parameters : ∀ instr ∈ d.code, ∀ i, .arg i ∈ instr.operands → i.toNat < d.params.length
  demands : ∀ instr ∈ d.code, instr.Demands d.recorded
  yields : ∀ (j : Nat) (instr : Instr) (ty : Ty), d.code[j]? = some instr →
    d.types[j]? = some ty → instr.Yields ty
  /-- No operand is a function, or the register of an instruction that yields nothing. -/
  operands : ∀ instr ∈ d.code, ∀ h ∈ instr.operands,
    d.recorded h = some .int ∨ d.recorded h = some .ptr

/-- What a module lets a handle stand for is what the draft has on record, then and later. -/
theorem recorded_of_typeOf? (heven : d.Even) {before after : List Line}
    (hlines : d.lines = before ++ after) {h : Handle} {ty : Ty}
    (hty : (d.withLines before).typeOf? m h = some ty) : d.recorded h = some ty := by
  cases h with
  | const v => exact hty
  | arg i => exact hty
  | inst i =>
      have htypes : before.map Line.ty <+: d.types := by
        rw [heven.types_eq, hlines, List.map_append]
        exact List.prefix_append _ _
      exact getElem?_of_isPrefix htypes hty
  | global g =>
      obtain ⟨text, -, rfl⟩ := Option.map_eq_some_iff.mp hty
      rfl
  | func id =>
      obtain ⟨f, -, rfl⟩ := Option.map_eq_some_iff.mp hty
      rfl

/-- The code before and behind an instruction. -/
theorem Even.exists_split (heven : d.Even) {j : Nat} {instr : Instr}
    (h : d.code[j]? = some instr) :
    ∃ before line after, d.lines = before ++ line :: after ∧ before.length = j ∧
      line.instr = instr := by
  rw [heven.code_eq, List.getElem?_map, Option.map_eq_some_iff] at h
  obtain ⟨line, hline, hinstr⟩ := h
  obtain ⟨hlt, rfl⟩ := List.getElem?_eq_some_iff.mp hline
  refine ⟨d.lines.take j, d.lines[j], d.lines.drop (j + 1), by simp, ?_, hinstr⟩
  rw [List.length_take]
  omega

namespace Judged

theorem demands (hd : d.Judged) {before after : List Line} {line : Line}
    (hlines : d.lines = before ++ line :: after) :
    ∃ m : Module, line.instr.Demands ((d.withLines before).typeOf? m) := by
  obtain ⟨-, m, hm, ht⟩ := hd.lines before line after hlines
  exact ⟨m, ht.demands hm hd.result⟩

/-- An operand has a type in the code before its instruction, so it cannot point further ahead. -/
theorem lt_of_operand (hd : d.Judged) {j i : Nat} {instr : Instr} (hj : d.code[j]? = some instr)
    (hi : .inst i ∈ instr.operands) : i < j := by
  obtain ⟨before, line, after, hlines, rfl, rfl⟩ := hd.even.exists_split hj
  obtain ⟨m, hdem⟩ := hd.demands hlines
  obtain ⟨ty, hty⟩ := hdem.exists_type hi
  have hlt := (List.getElem?_eq_some_iff.mp hty).1
  simpa [withLines] using hlt

theorem lines_of_ret (hd : d.Judged) {j : Nat} {v : Option Handle}
    (hj : d.code[j]? = some (.ret v)) :
    ∃ before line, d.lines = before ++ [line] ∧ before.length = j ∧ line.instr = .ret v := by
  obtain ⟨before, line, after, hlines, hlen, hinstr⟩ := hd.even.exists_split hj
  cases after with
  | nil => exact ⟨before, line, hlines, hlen, hinstr⟩
  | cons next rest =>
      -- the next line would have been let in behind a return
      rw [List.append_cons] at hlines
      have hopen := (hd.lines _ next rest hlines).1
      rw [isTerminated_withLines, hinstr] at hopen
      cases hopen

theorem isTerminated_of_mem (hd : d.Judged) {v : Option Handle} (hv : .ret v ∈ d.code) :
    d.isTerminated = true := by
  obtain ⟨j, hj⟩ := List.mem_iff_getElem?.mp hv
  obtain ⟨before, line, hlines, -, hinstr⟩ := hd.lines_of_ret hj
  rw [← hd.even.withLines_lines, hlines, isTerminated_withLines, hinstr]
  rfl

theorem orderly (hd : d.Judged) : d.Orderly := by
  have hdemands : ∀ instr ∈ d.code, instr.Demands d.recorded := by
    intro instr hinstr
    obtain ⟨j, hj⟩ := List.mem_iff_getElem?.mp hinstr
    obtain ⟨before, line, after, hlines, -, rfl⟩ := hd.even.exists_split hj
    obtain ⟨m, hdem⟩ := hd.demands hlines
    exact hdem.mono fun _ _ => recorded_of_typeOf? hd.even hlines
  refine ⟨hd.even, ?_, fun j instr i => hd.lt_of_operand, ?_, hdemands, ?_,
    fun instr hinstr h hh => (hdemands instr hinstr).operand hh⟩
  · intro j v hj
    obtain ⟨before, line, hlines, rfl, -⟩ := hd.lines_of_ret hj
    simp [hd.even.code_eq, hlines]
  · intro instr hinstr i hi
    obtain ⟨ty, hty⟩ := (hdemands instr hinstr).exists_type hi
    exact (List.getElem?_eq_some_iff.mp hty).1
  · intro j instr ty hj hty
    obtain ⟨before, line, after, hlines, rfl, rfl⟩ := hd.even.exists_split hj
    obtain ⟨-, m, hm, ht⟩ := hd.lines before line after hlines
    have hline : line.ty = ty := by simpa [hd.even.types_eq, hlines] using hty
    rw [← hline]
    exact ht.yields hm

end Judged

end Draft

/-! ### Sessions -/

namespace Workbench

variable {w w' : Workbench}

/-- No step lets anything else into a draft. -/
theorem Moves.judged (h : w.Moves w') (hm : ∀ m ∈ w.modules, m.Tidy)
    (hd : ∀ d, some d ∈ w.drafts → d.Judged) : ∀ d, some d ∈ w'.drafts → d.Judged := by
  intro d hmem
  cases h with
  | stay _ hdrafts | newModule _ _ hdrafts => exact hd d (hdrafts ▸ hmem)
  | drop _ hdrafts =>
      rw [hdrafts] at hmem
      rcases List.mem_or_eq_of_mem_set hmem with hold | hnew
      · exact hd d hold
      · cases hnew
  | work hget hwork _ =>
      have htidy := hm _ (List.mem_of_getElem? hget)
      generalize w'.drafts = drafts' at hwork hmem
      cases hwork with
      | insert | intern => exact hd d hmem
      | start hs =>
          rcases List.mem_append.mp hmem with hold | hnew
          · exact hd d hold
          · cases List.mem_singleton.mp hnew
            exact Draft.judged_of_start htidy hs
      | edit hi he =>
          rcases List.mem_or_eq_of_mem_set hmem with hold | hnew
          · exact hd d hold
          · cases hnew
            exact he.judged htidy (hd _ (List.mem_of_getElem? hi))
      | finish hi _ =>
          rcases List.mem_or_eq_of_mem_set hmem with hold | hnew
          · exact hd d hold
          · cases hnew

theorem judged_after : ∀ (steps : List Step) {w : Workbench}, w.Tidy →
    (∀ d, some d ∈ w.drafts → d.Judged) → ∀ d, some d ∈ (w.after steps).drafts → d.Judged
  | [], _, _, hd => hd
  | s :: steps, w, hw, hd =>
      judged_after steps (hw.move (w.step_moves s)) ((w.step_moves s).judged hw.modules hd)

end Workbench

/-- What a step that adds an instruction has to say: a store yields nothing, and all else the handle
of its register. -/
def Instr.answer (index : Nat) : Instr → Answer
  | .store _ _ => .done
  | _ => .handle (.inst index)

/-- What becomes of a request for an instruction: it is refused and nothing changes, or the draft at
hand has one more instruction, which is the one asked for, and one more type. -/
inductive Workbench.Emission (w : Workbench) (instr : Instr) :
    Except StepError Answer × Workbench → Prop
  | refused (e : StepError) : Emission w instr (.error e, w)
  | taken {d d' : Draft} {ty : Ty} (events : Array Event) : w.draft? = some d →
      (∀ v, .ret v ∉ d.code) →
      d' = { d with code := d.code ++ [instr], types := d.types ++ [ty] } →
      Emission w instr (.ok (instr.answer d.code.length),
        { w with drafts := w.drafts.set w.atDraft (some d'), events })

namespace Workbench

/-- A step that works on the draft at hand needs a module as well. -/
theorem context_apply (w : Workbench) :
    context w = match w.modules[w.atModule]?, w.draft? with
      | some m, some d => .ok ⟨m, w.scopes, d, w.events⟩ w
      | some _, none => .error .noDraft w
      | none, _ => .error .noModule w := by
  simp only [context, module, draft, bind_apply, get_apply]
  cases w.modules[w.atModule]? with
  | none => rfl
  | some m =>
      simp only [pure_apply]
      cases w.draft? <;> rfl

/-- To put the draft at hand back in its place changes nothing. -/
theorem drafts_set_self {w : Workbench} {d : Draft} (h : w.draft? = some d) :
    w.drafts.set w.atDraft (some d) = w.drafts := by
  obtain ⟨hlt, hget⟩ := List.getElem?_eq_some_iff.mp (Option.join_eq_some_iff.mp h)
  rw [← hget]
  exact List.set_getElem_self hlt

/-- A request for an instruction changes the draft at hand and nothing else. -/
theorem step_emit (w : Workbench) (instr : Instr)
    (hd : ∀ d, some d ∈ w.drafts → d.Judged) : w.Emission instr (w.step (.emit instr)) := by
  simp only [step, perform, bind_apply, context_apply]
  cases hm : w.modules[w.atModule]? with
  | none => exact .refused _
  | some m =>
      cases hdraft : w.draft? with
      | none => exact .refused _
      | some d =>
          simp only [Context.emit]
          cases he : d.emit m instr with
          | error e d' =>
              -- what comes back is put into its place, and it is what was there before
              cases Draft.eq_of_emit_error he
              simp only [restore, setModule, setDraft, bind_apply, modify_apply,
                modules_set_self hm, drafts_set_self hdraft]
              exact .refused _
          | ok h d' =>
              obtain ⟨ty, -, hopen, rfl, hd'⟩ := Draft.emit_eq_ok_iff.mp he
              -- a draft that takes an instruction has no return yet
              have hjudged : d.Judged :=
                hd d (List.mem_of_getElem? (Option.join_eq_some_iff.mp hdraft))
              have hret : ∀ v, .ret v ∉ d.code := by
                intro v hv
                rw [hjudged.isTerminated_of_mem hv] at hopen
                cases hopen
              simp only [restore, setModule, setDraft, bind_apply, modify_apply, Context.note,
                modules_set_self hm]
              -- a store has its own answer, all others yield the handle
              cases instr <;> exact .taken _ hdraft hret hd'

/-- A bench with modules that were built elsewhere. -/
def onModules (settings : Settings) (modules : List Module) : Workbench :=
  { start settings with modules }

end Workbench

/-- A module that some session has built, be it one of many. -/
def Module.Built (m : Module) : Prop :=
  ∃ settings name steps, m ∈ ((Workbench.onModule settings name).after steps).modules

theorem Module.Built.tidy {m : Module} (h : m.Built) : m.Tidy := by
  obtain ⟨settings, name, steps, hm⟩ := h
  exact (Workbench.tidy_session settings name steps).modules m hm

/-- Drafts are in order at all times. Whatever was started from whichever module, and against
whichever modules its instructions were judged, the code of every draft is orderly. A request for an
instruction is refused without a trace, or it adds one instruction and one type and yields the
handle of its place; behind a return every request is refused. -/
theorem session_drafts (settings : Settings) {modules : List Module}
    (hm : ∀ m ∈ modules, m.Built) (steps : List Step) (instr : Instr) :
    let w := (Workbench.onModules settings modules).after steps
    (∀ d, some d ∈ w.drafts → d.Orderly) ∧ w.Emission instr (w.step (.emit instr)) ∧
      ∀ d v, w.draft? = some d → .ret v ∈ d.code → ∃ e, w.step (.emit instr) = (.error e, w) := by
  intro w
  have hstart : (Workbench.onModules settings modules).Tidy :=
    ⟨fun m h => (hm m h).tidy, fun _ h => nomatch h⟩
  have hjudged : ∀ d, some d ∈ w.drafts → d.Judged :=
    Workbench.judged_after steps hstart fun _ h => nomatch h
  have hemit := w.step_emit instr hjudged
  refine ⟨fun d hd => (hjudged d hd).orderly, hemit, ?_⟩
  intro d v hd hv
  generalize w.step (.emit instr) = r at hemit ⊢
  cases hemit with
  | refused e => exact ⟨e, rfl⟩
  | taken events hd' hret _ =>
      rw [hd] at hd'
      cases hd'
      exact absurd hv (hret v)

/-- A function of one module that calls a function of another one: the draft is started from the
second module and judged against the first. The register of the call is empty and cannot be
returned. -/
def Step.borrowing : List Step :=
  [.useModule 1, .declareFunction "f" [] .int, .newDraft 0, .useModule 0,
    .emit (.call 0 [.global 0]), .emit (.ret (some (.inst 0))), .useModule 1,
    .emit (.ret (some (.const 7)))]

/-- The draft of that function. -/
def Draft.borrowing : Draft :=
  ⟨0, "f", [], .int, [.call 0 [.global 0], .ret (some (.const 7))], [.void, .void]⟩

theorem session_drafts_borrowing :
    let w := (Workbench.onModules .default [.stray, .empty "m"]).after Step.borrowing
    (∀ m ∈ [Module.stray, .empty "m"], m.Built) ∧ w.drafts = [some .borrowing] ∧
      Draft.borrowing.Orderly ∧ ∃ e, w.step (.emit (.alloca "x")) = (.error e, w) := by
  intro w
  have hbuilt : ∀ m ∈ [Module.stray, .empty "m"], m.Built := by
    rw [List.forall_mem_cons, List.forall_mem_singleton]
    exact ⟨⟨.default, "m", Step.stray, by decide +kernel⟩,
      .default, "m", [], List.mem_singleton_self _⟩
  have hdrafts : w.drafts = [some .borrowing] := by decide +kernel
  obtain ⟨horderly, -, hend⟩ := session_drafts .default hbuilt Step.borrowing (.alloca "x")
  refine ⟨hbuilt, hdrafts, horderly _ ?_, hend .borrowing (some (.const 7)) ?_ (by decide)⟩
  · rw [hdrafts]
    exact List.mem_singleton_self _
  · decide +kernel

end SlotLang
