import SlotLang.Proofs.Growth

/-!
# SlotLang.Proofs.Steps

The steps that lowering is made of, each as one equation or one rule. Later proofs take a step
apart by these and never open it.
-/

namespace SlotLang

/-! ### Running steps one after the other -/

section

variable {ε σ α β : Type}

theorem bind_apply (x : EStateM ε σ α) (f : α → EStateM ε σ β) (s : σ) :
    (x >>= f) s = match x s with
      | .ok a s' => f a s'
      | .error e s' => .error e s' := rfl

theorem map_apply (g : α → β) (x : EStateM ε σ α) (s : σ) :
    (g <$> x) s = match x s with
      | .ok a s' => .ok (g a) s'
      | .error e s' => .error e s' := rfl

@[simp] theorem pure_apply (a : α) (s : σ) : (pure a : EStateM ε σ α) s = .ok a s := rfl

@[simp] theorem get_apply (s : σ) : (get : EStateM ε σ σ) s = .ok s s := rfl

@[simp] theorem modify_apply (f : σ → σ) (s : σ) :
    (modify f : EStateM ε σ PUnit) s = .ok () (f s) := rfl

@[simp] theorem modifyGet_apply (f : σ → α × σ) (s : σ) :
    (modifyGet f : EStateM ε σ α) s = .ok (f s).1 (f s).2 := rfl

end

/-- A failure of two steps in a row is a failure of the first or of the second. -/
theorem bind_eq_error {ε α β : Type} {x : Except ε α} {f : α → Except ε β} {e : ε}
    (h : (x >>= f) = .error e) : x = .error e ∨ ∃ a, x = .ok a ∧ f a = .error e := by
  cases x with
  | error e' => cases h; exact .inl rfl
  | ok a => exact .inr ⟨a, rfl, h⟩

/-- Two steps in a row succeed if the first does, and then the second. -/
theorem bind_eq_ok {ε α β : Type} {x : Except ε α} {f : α → Except ε β} {b : β}
    (h : (x >>= f) = .ok b) : ∃ a, x = .ok a ∧ f a = .ok b := by
  cases x with
  | error e => cases h
  | ok a => exact ⟨a, rfl, h⟩

theorem map_eq_ok {ε α β : Type} {x : Except ε α} {f : α → β} {b : β} (h : x.map f = .ok b) :
    ∃ a, x = .ok a ∧ f a = b := by
  cases x with
  | error e => cases h
  | ok a => exact ⟨a, rfl, Except.ok.inj h⟩

/-! ### Operands

An instruction is refused only because of its operands, and what is wrong with an operand is never
that a function is declared twice. -/

/-- A refusal that concerns operands. -/
def BuildError.IsOperand (e : BuildError) : Prop :=
  (LoweringCause.rejected e).kind = .backendRejected

namespace Draft

theorem typeOf_error {d : Draft} {m : Module} {h : Handle} {e : BuildError}
    (he : d.typeOf m h = .error e) : e.IsOperand := by
  unfold typeOf at he
  split at he
  · cases he
  · cases he; rfl

theorem expect_error {d : Draft} {m : Module} {op : Opcode} {h : Handle} {ty : Ty}
    {e : BuildError} (he : d.expect m op h ty = .error e) : e.IsOperand := by
  rcases bind_eq_error he with hx | ⟨found, -, hf⟩
  · exact typeOf_error hx
  · split at hf
    · cases hf
    · cases hf; rfl

theorem expectArgs_error {d : Draft} {m : Module} {callee : String} :
    ∀ {params : List Param} {args : List Handle} {e : BuildError},
      d.expectArgs m callee params args = .error e → e.IsOperand
  | _, [], _, he => by simp [expectArgs] at he
  | p :: params, h :: args, e, he => by
      rw [expectArgs] at he
      rcases bind_eq_error he with hx | ⟨-, -, hrest⟩
      · exact expect_error hx
      · exact expectArgs_error hrest
  | [], h :: args, e, he => by
      rw [expectArgs] at he
      rcases bind_eq_error he with hx | ⟨ty, -, hrest⟩
      · exact typeOf_error hx
      · split at hrest
        · exact expectArgs_error hrest
        · cases hrest; rfl

/-- An instruction is refused only because of its operands. -/
theorem resultType_error {d : Draft} {m : Module} {instr : Instr} {e : BuildError}
    (he : d.resultType m instr = .error e) : e.IsOperand := by
  cases instr with
  | alloca name => cases he
  | load p =>
      rcases bind_eq_error he with hx | ⟨-, -, hx⟩
      · exact expect_error hx
      · cases hx
  | store p v =>
      rcases bind_eq_error he with hx | ⟨-, -, hrest⟩
      · exact expect_error hx
      · rcases bind_eq_error hrest with hx | ⟨-, -, hx⟩
        · exact expect_error hx
        · cases hx
  | binary op l r =>
      rcases bind_eq_error he with hx | ⟨-, -, hrest⟩
      · exact expect_error hx
      · rcases bind_eq_error hrest with hx | ⟨-, -, hx⟩
        · exact expect_error hx
        · cases hx
  | call callee args =>
      rw [resultType] at he
      split at he
      · cases he; rfl
      · split at he
        · rcases bind_eq_error he with hx | ⟨-, -, hx⟩
          · exact expectArgs_error hx
          · cases hx
        · cases he; rfl
  | ret value =>
      cases value with
      | none =>
          rw [resultType] at he
          split at he
          · cases he
          · cases he; rfl
      | some v =>
          rw [resultType] at he
          split at he
          · rcases bind_eq_error he with hx | ⟨ty, -, hx⟩
            · exact typeOf_error hx
            · cases hx; rfl
          · rcases bind_eq_error he with hx | ⟨-, -, hx⟩
            · exact expect_error hx
            · cases hx

/-- `d.Judges m instr fits ty`: the draft takes the operands of an instruction exactly if they fit,
and the register then has type `ty`. -/
def Judges (d : Draft) (m : Module) (instr : Instr) (fits : Bool) (ty : Ty) : Prop :=
  if fits then d.resultType m instr = .ok ty else ∃ e, d.resultType m instr = .error e

theorem expect_eq {d : Draft} {m : Module} {h : Handle} {ty : Ty}
    (hty : d.typeOf? m h = some ty) (op : Opcode) (expected : Ty) :
    d.expect m op h expected =
      if ty = expected then .ok () else .error (.typeMismatch op expected ty h) := by
  simp only [expect, typeOf, hty, bind, Except.bind]

theorem judges_alloca (d : Draft) (m : Module) (x : String) :
    d.Judges m (.alloca x) true .ptr := rfl

theorem judges_load {d : Draft} {m : Module} {p : Handle} (hp : d.typeOf? m p = some .ptr) :
    d.Judges m (.load p) true .int := by
  simp [Judges, resultType, expect_eq hp, bind, Except.bind]

theorem judges_store {d : Draft} {m : Module} {p v : Handle} {ty : Ty}
    (hp : d.typeOf? m p = some .ptr) (hv : d.typeOf? m v = some ty) :
    d.Judges m (.store p v) (ty = .int) .void := by
  by_cases hty : ty = .int <;>
    simp [Judges, resultType, expect_eq hp, expect_eq hv, hty, bind, Except.bind]

theorem judges_binary {d : Draft} {m : Module} (op : BinOp) {l r : Handle} {tl tr : Ty}
    (hl : d.typeOf? m l = some tl) (hr : d.typeOf? m r = some tr) :
    d.Judges m (.binary op l r) (tl = .int && tr = .int) .int := by
  by_cases htl : tl = .int <;> by_cases htr : tr = .int <;>
    simp [Judges, resultType, expect_eq hl, expect_eq hr, htl, htr, bind, Except.bind]

/-- The print routine takes whatever can be passed, behind the format if there is one. -/
theorem judges_print {d : Draft} {m : Module} {settings : Settings} {rest : List Func}
    {v : Handle} {ty : Ty} (hm : m.functions = settings.printFunc :: rest)
    (hf : ∀ h ∈ settings.formatArgs, d.typeOf? m h = some .ptr)
    (hv : d.typeOf? m v = some ty) :
    d.Judges m (.call 0 (settings.formatArgs ++ [v])) ty.passable .int := by
  have h0 : m.function? 0 = some settings.printFunc := by simp [Module.function?, hm]
  -- with a format the first argument meets a parameter; the value is always past the parameters
  cases hformat : settings.printFormat with
  | none =>
      have hargs : settings.formatArgs = [] := by simp [Settings.formatArgs, hformat]
      cases hty : ty.passable <;>
        simp [Judges, resultType, h0, hargs, Settings.printFunc, hformat, acceptsCount,
          expectArgs, typeOf, hv, hty, bind, Except.bind]
  | some format =>
      have hargs : settings.formatArgs = [.global 0] := by simp [Settings.formatArgs, hformat]
      have hg := expect_eq (hf (.global 0) (by simp [hargs])) .call .ptr
      cases hty : ty.passable <;>
        simp [Judges, resultType, h0, hargs, Settings.printFunc, hformat, acceptsCount,
          expectArgs, hg, typeOf, hv, hty, bind, Except.bind]

/-- A return has to carry what the function promises. -/
theorem judges_ret {d : Draft} {m : Module} {result : SourceType} {value : Option (Handle × Ty)}
    (hd : d.result = result.toTy)
    (hv : ∀ v ty, value = some (v, ty) → d.typeOf? m v = some ty) :
    d.Judges m (.ret (value.map Prod.fst)) (value.map Prod.snd = result.returns) .void := by
  cases value with
  | none => cases result <;> simp [Judges, resultType, hd, SourceType.toTy, SourceType.returns]
  | some p =>
      have hp := hv p.1 p.2 rfl
      cases result with
      | int =>
          by_cases hty : p.2 = .int <;>
            simp [Judges, resultType, hd, SourceType.toTy, SourceType.returns, expect_eq hp, hty,
              bind, Except.bind]
      | void =>
          simp [Judges, resultType, hd, SourceType.toTy, SourceType.returns, typeOf, hp, bind,
            Except.bind]

/-- The return at the end of a body always fits. -/
theorem judges_implicit {d : Draft} {result : SourceType} (m : Module)
    (hd : d.result = result.toTy) : d.Judges m (.ret result.implicit) true .void := by
  cases result <;>
    simp [Judges, resultType, hd, SourceType.toTy, SourceType.implicit, expect, typeOf, typeOf?,
      bind, Except.bind]

end Draft

/-! ### Names -/

namespace Scopes

/-- A name of the function at hand is looked for in the innermost scope alone. -/
theorem resolve?_boundary (name : String) (bs : Bindings) (outer : Scopes) :
    resolve? name (⟨bs, true⟩ :: outer) = bs.lookup name := by
  simp only [resolve?, Scope.get?]
  cases bs.lookup name <;> rfl

end Scopes

/-- What the checker knows of names is what lowering knows. -/
theorem Context.role?_outline (c : Context) (name : String) :
    c.outline.role? name = (c.bindings.lookup name).map Binding.role := by
  simp only [Outline.role?, Context.outline]
  induction c.bindings with
  | nil => rfl
  | cons entry rest ih =>
      obtain ⟨x, b⟩ := entry
      simp only [List.map_cons, List.lookup_cons]
      cases name == x with
      | true => rfl
      | false => exact ih

namespace Lower

theorem enter_bind {α : Type} (node : Node) (f : Unit → Lower α) (c : Context) :
    (enter node >>= f) c = f () (c.note (.lowering node c.draft.name)) := rfl

/-- A refused instruction leaves the context alone. -/
theorem emit_apply (node : Node) (instr : Instr) (c : Context) :
    emit node instr c =
      match c.draft.emit c.module instr with
      | .error e _ => .error (.blame node (.rejected e)) c
      | .ok h draft =>
        .ok h ({ c with draft }.note (.emitted c.draft.name c.draft.code.length instr)) := by
  simp only [emit, tryEmit, bind_apply, modifyGet_apply, Context.emit]
  cases he : c.draft.emit c.module instr with
  | ok h draft => rfl
  | error e draft =>
      cases Draft.eq_of_emit_error he
      rfl

theorem resolve_apply (node : Node) (name : String) (c : Context) :
    resolve node name c =
      match c.scopes.resolve? name with
      | some b => .ok b c
      | none => .error (.blameName node name (.unbound (.unbound name))) c := by
  simp only [resolve, bind_apply, get_apply, Scopes.resolve]
  cases c.scopes.resolve? name <;> rfl

theorem argumentOf_apply (node : Node) (index : Nat) (c : Context) :
    argumentOf node index c =
      if index < c.draft.params.length then .ok (.arg (.ofNat index)) c
      else .error (.blame node (.noParameter c.draft.name index)) c := by
  simp only [argumentOf, bind_apply, get_apply, Draft.arg?]
  split <;> rfl

/-- A declaration looks at the name, opens the slot and then binds the name. -/
theorem declaration_apply (node : Node) (name : String) (c : Context) :
    declaration node name c =
      if c.scopes.isBound name then
        .error (.blame node (.redeclared (.alreadyBound name))) c
      else
        match emit node (.alloca name) c with
        | .ok h c' =>
          (match c.scopes.declare name (.storage h) with
          | .error e => .error (.blame node (.redeclared e)) c'
          | .ok scopes => .ok h { c' with scopes })
        | .error e c' => .error e c' := by
  simp only [declaration, bind_apply, get_apply, Scopes.declareWith]
  cases c.scopes.isBound name with
  | true => rfl
  | false =>
      simp only [emit_apply, Bool.false_eq_true, if_false, tryEmit, bind_apply, map_apply,
        modifyGet_apply, Context.emit]
      cases he : c.draft.emit c.module (.alloca name) with
      | error e draft =>
          cases Draft.eq_of_emit_error he
          rfl
      | ok h draft =>
          simp only [Except.map]
          cases c.scopes.declare name (.storage h) <;> rfl

theorem bindParams_cons (node : Node) (p : Parameter) (rest : List Parameter) {index : Nat}
    {c : Context} (hi : index < c.draft.params.length) :
    bindParams node index (p :: rest) c =
      let c' := c.note (.lowering (.argument node.origin index) c.draft.name)
      match c.scopes.declare p.name (.argument (.arg (.ofNat index))) with
      | .error e => .error (.blameName node p.name (.redeclared e)) c'
      | .ok scopes => bindParams node (index + 1) rest { c' with scopes } := by
  have ha := argumentOf_apply (.argument node.origin index) index
    (c.note (.lowering (.argument node.origin index) c.draft.name))
  rw [if_pos (by exact hi)] at ha
  have hs : (c.note (.lowering (.argument node.origin index) c.draft.name)).scopes = c.scopes := rfl
  rw [bindParams, enter_bind]
  simp only [bind_apply, ha, get_apply, hs]
  cases c.scopes.declare p.name (.argument (.arg (.ofNat index))) <;> rfl

theorem implicitReturn_apply (node : Node) (result : SourceType) (c : Context) :
    implicitReturn node result c =
      if c.draft.isTerminated then .ok () c
      else match emit node (.ret result.implicit) c with
        | .ok _ c' => .ok () c'
        | .error e c' => .error e c' := by
  simp only [implicitReturn, bind_apply, get_apply]
  split
  · rfl
  · change (emit node (.ret result.implicit) >>= fun _ => pure ()) c = _
    rw [bind_apply]
    cases emit node (.ret result.implicit) c <;> rfl

theorem request_apply {α : Type} (node : Node) (work : Module → EStateM.Result BuildError Module α)
    (c : Context) :
    request node work c =
      match work c.module with
      | .ok a module => .ok a { c with module }
      | .error e module => .error (.blame node (.rejected e)) { c with module } := rfl

/-- A refused declaration leaves the context alone. -/
theorem openFunction_apply (node : Node) (name : String) (result : SourceType)
    (params : List Parameter) (c : Context) :
    openFunction node name result params c =
      match c.module.declare name (params.map Parameter.toParam) result.toTy with
      | .error e _ => .error (.blame node (.rejected e)) c
      | .ok id module =>
        match Draft.start module id with
        | .error e => .error (.blame node (.rejected e)) { c with module }
        | .ok draft => .ok draft { c with module } := by
  have ht : (params.map fun p => Param.mk p.name p.type.toTy) = params.map Parameter.toParam := rfl
  simp only [openFunction, bind_apply, get_apply, ht, request_apply]
  cases hd : c.module.declare name (params.map Parameter.toParam) result.toTy with
  | error e module =>
      cases Module.eq_of_insert_error hd
      rfl
  | ok id module =>
      dsimp only
      cases Draft.start module id <;> rfl

/-- A refused draft leaves the module alone. -/
theorem finish_apply (node : Node) (draft : Draft) (c : Context) :
    finish node draft c =
      let c' := c.note (.sealing draft.name draft.code.length)
      match draft.finish c.module with
      | .error e _ => .error (.blame node (.rejected e)) c'
      | .ok () module => .ok () { c' with module } := by
  have hm : (c.note (.sealing draft.name draft.code.length)).module = c.module := rfl
  simp only [finish, bind_apply, note, modify_apply, request_apply, hm]
  cases hd : draft.finish c.module with
  | error e module =>
      cases Module.eq_of_define_error hd
      rfl
  | ok _ module => rfl

end Lower

end SlotLang
