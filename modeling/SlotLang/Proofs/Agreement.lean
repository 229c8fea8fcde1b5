import SlotLang.Proofs.Steps

/-!
# SlotLang.Proofs.Agreement

Lowering and checking side by side. Two steps *agree* if both fail and blame the same, or both
succeed and the checker is left with the outline of the context that lowering leaves. `Agree.bind`
puts agreeing steps one after the other, so it is enough to look at each step of lowering once.
-/

namespace SlotLang

/-- How a step of lowering ends and how a step of the checker ends. After a success, `post` relates
the two results and the context. -/
def Agree {α β : Type} (post : α → β → Context → Prop) :
    EStateM.Result LoweringError Context α → EStateM.Result Violation Outline β → Prop
  | .ok a c, .ok b o => o = c.outline ∧ post a b c
  | .error e _, .error v _ => v = e.violation
  | _, _ => False

namespace Agree

variable {α β γ δ : Type} {P : α → β → Context → Prop} {Q : γ → δ → Context → Prop}

/-- Steps that agree both succeed or both fail. -/
theorem cases {x : EStateM.Result LoweringError Context α}
    {y : EStateM.Result Violation Outline β} (h : Agree P x y) :
    (∃ a b c, x = .ok a c ∧ y = .ok b c.outline ∧ P a b c) ∨
      ∃ e c o, x = .error e c ∧ y = .error e.violation o := by
  cases x with
  | ok a c =>
      cases y with
      | ok b o =>
          obtain ⟨rfl, hp⟩ := h
          exact .inl ⟨a, b, c, rfl, rfl, hp⟩
      | error v o => exact h.elim
  | error e c =>
      cases y with
      | ok b o => exact h.elim
      | error v o =>
          have hv : v = e.violation := h
          exact .inr ⟨e, c, o, rfl, by rw [hv]⟩

/-- Steps that agree can be followed by steps that agree. -/
theorem bind {x : Lower α} {y : Check β} {f : α → Lower γ} {g : β → Check δ} {c : Context}
    {o : Outline} (h : Agree P (x c) (y o))
    (k : ∀ a b c', P a b c' → Agree Q (f a c') (g b c'.outline)) :
    Agree Q ((x >>= f) c) ((y >>= g) o) := by
  rcases h.cases with ⟨a, b, c', hx, hy, hp⟩ | ⟨e, c', o', hx, hy⟩
  · rw [bind_apply, bind_apply, hx, hy]
    exact k a b c' hp
  · rw [bind_apply, bind_apply, hx, hy]
    rfl

theorem mono {P' : α → β → Context → Prop} {x : EStateM.Result LoweringError Context α}
    {y : EStateM.Result Violation Outline β} (h : Agree P x y)
    (k : ∀ a b c, P a b c → P' a b c) : Agree P' x y := by
  rcases h.cases with ⟨a, b, c', rfl, rfl, hp⟩ | ⟨e, c', o', rfl, rfl⟩
  · exact ⟨rfl, k a b c' hp⟩
  · rfl

/-- The checker names the type of what both have dealt with. -/
theorem yield {R : α → Ty → Context → Prop} {x : EStateM.Result LoweringError Context α}
    {y : Check β} {ty : Ty} {o : Outline} (h : Agree P x (y o))
    (k : ∀ a b c', P a b c' → R a ty c') :
    Agree R x ((y >>= fun _ => pure ty) o) := by
  rw [bind_apply]
  rcases h.cases with ⟨a, b, c', rfl, hy, hp⟩ | ⟨e, c', o', rfl, hy⟩
  · rw [hy]
    exact ⟨rfl, k a b c' hp⟩
  · rw [hy]
    rfl

end Agree

/-! ### Instructions -/

/-- A context whose draft has taken one instruction. -/
structure Emits (c : Context) (line : Line) (c' : Context) : Prop where
  draft : c'.draft = c.draft.append [line]
  module : c'.module = c.module
  scopes : c'.scopes = c.scopes
  running : c.draft.isTerminated = false

namespace Emits

variable {settings : Settings} {c c' : Context} {line : Line}

theorem grown (settings : Settings) (h : Emits c line c') :
    Grown settings c c' [line] [] false := by
  refine ⟨h.draft, by rw [h.module, List.append_nil], by rw [h.module]; exact id,
    by rw [h.module]; rfl, by rw [h.scopes], ?_⟩
  intro ht
  rw [h.running] at ht
  cases ht

/-- An instruction adds one line to what has been added before. -/
theorem grown_after {c₀ : Context} {lines : List Line} {funs : List Func} {prints : Bool}
    (h : Emits c line c') (hg : Grown settings c₀ c lines funs prints) :
    Grown settings c₀ c' (lines ++ [line]) funs prints := by
  have hg' := hg.trans (h.grown settings)
  rw [List.append_nil, Bool.or_false] at hg'
  exact hg'

theorem sound (h : Emits c line c') (hc : Sound settings c) : Sound settings c' :=
  (h.grown settings).sound_of_scopes hc h.scopes

theorem bindings (h : Emits c line c') : c'.bindings = c.bindings :=
  Context.bindings_congr h.scopes

theorem length (h : Emits c line c') : c'.draft.code.length = c.draft.code.length + 1 :=
  (h.grown .default).length

theorem isTerminated (h : Emits c line c') :
    c'.draft.isTerminated = line.instr.isTerminator := by
  rw [h.draft]
  exact c.draft.isTerminated_concat [] line

/-- The handle of an instruction has the type of its register. -/
theorem typeOf?_inst (h : Emits c line c') (hd : c.draft.Even) :
    c'.draft.typeOf? c'.module (.inst c.draft.code.length) = some line.ty := by
  -- the type of the new register stands where its instruction stands
  rw [h.draft, ← hd]
  simp [Draft.typeOf?]

theorem outline (h : Emits c line c') :
    c'.outline = { c.outline with returned := line.instr.isTerminator } := by
  have hn : c'.outline.names = c.outline.names := by
    simp only [Context.outline, h.bindings]
  rw [(h.grown .default).outline, hn, ← h.draft, h.isTerminated, List.map_nil, List.append_nil]

end Emits

theorem Lower.emit_cases (node : Node) {c : Context} {instr : Instr} {fits : Bool} {ty : Ty}
    (hj : c.draft.Judges c.module instr fits ty) :
    if fits && !c.draft.isTerminated then
      ∃ c', Lower.emit node instr c = .ok (.inst c.draft.code.length) c' ∧
        Emits c ⟨instr, ty⟩ c'
    else
      ∃ e, Lower.emit node instr c = .error e c ∧ e.violation = .blame .backendRejected node := by
  rw [emit_apply]
  cases fits with
  | false =>
      obtain ⟨e, he⟩ := hj
      rw [Draft.emit_eq, he]
      exact ⟨_, rfl, by rw [LoweringError.violation_blame, Draft.resultType_error he]⟩
  | true =>
      have hr : c.draft.resultType c.module instr = .ok ty := hj
      cases ht : c.draft.isTerminated with
      | false =>
          have he : c.draft.emit c.module instr =
              .ok (.inst c.draft.code.length) (c.draft.append [⟨instr, ty⟩]) :=
            Draft.emit_eq_ok_iff.mpr ⟨ty, hr, ht, rfl, rfl⟩
          simp only [he]
          exact ⟨_, rfl, rfl, rfl, rfl, ht⟩
      | true =>
          rw [Draft.emit_eq, hr, ht]
          exact ⟨_, rfl, rfl⟩

/-- An instruction with fitting operands is taken as long as the body has not returned. -/
theorem Lower.emit_ok (node : Node) {c : Context} {instr : Instr} {ty : Ty}
    (hj : c.draft.Judges c.module instr true ty) (ht : c.draft.isTerminated = false) :
    ∃ c', Lower.emit node instr c = .ok (.inst c.draft.code.length) c' ∧
      Emits c ⟨instr, ty⟩ c' := by
  have hl := Lower.emit_cases node hj
  rw [ht] at hl
  exact hl

/-- An instruction other than a return is taken exactly if the checker takes it. -/
theorem emit_agrees (node : Node) {c : Context} {instr : Instr} {fits : Bool} {ty : Ty}
    (hi : instr.isTerminator = false) (hj : c.draft.Judges c.module instr fits ty) :
    Agree (fun h _ c' => fits = true ∧ h = .inst c.draft.code.length ∧ Emits c ⟨instr, ty⟩ c')
      (Lower.emit node instr c) (Check.emit node fits c.outline) := by
  have hl := Lower.emit_cases node hj
  split at hl
  · next hf =>
    obtain ⟨c', hc', he⟩ := hl
    have hk : Check.emit node fits c.outline = .ok () c.outline := if_pos hf
    rw [hc', hk]
    refine ⟨?_, (Bool.and_eq_true_iff.mp hf).1, rfl, he⟩
    rw [he.outline, hi, ← he.running]
    rfl
  · next hf =>
    obtain ⟨e, he, hv⟩ := hl
    have hk : Check.emit node fits c.outline = .error (.blame .backendRejected node) c.outline :=
      if_neg hf
    rw [he, hk]
    exact hv.symm

/-- A return is taken exactly if the checker lets the function end there. -/
theorem leave_agrees (node : Node) {settings : Settings} {c : Context}
    {value : Option (Handle × Ty)} (hc : Sound settings c)
    (hv : ∀ v ty, value = some (v, ty) → c.draft.typeOf? c.module v = some ty) :
    Agree (fun h _ c' => value.map Prod.snd = (SourceType.ofTy c.draft.result).returns ∧
        h = .inst c.draft.code.length ∧ Emits c ⟨.ret (value.map Prod.fst), .void⟩ c')
      (Lower.emit node (.ret (value.map Prod.fst)) c)
      (Check.leave node (value.map Prod.snd) c.outline) := by
  have hl := Lower.emit_cases node (Draft.judges_ret hc.result hv)
  split at hl
  · next hf =>
    simp only [Bool.and_eq_true, decide_eq_true_eq, Bool.not_eq_true'] at hf
    obtain ⟨c', hc', he⟩ := hl
    have hk : Check.leave node (value.map Prod.snd) c.outline =
        .ok () { c.outline with returned := true } := if_pos hf
    rw [hc', hk]
    exact ⟨he.outline.symm, hf.1, rfl, he⟩
  · next hf =>
    simp only [Bool.and_eq_true, decide_eq_true_eq, Bool.not_eq_true'] at hf
    obtain ⟨e, he, hv⟩ := hl
    have hk : Check.leave node (value.map Prod.snd) c.outline =
        .error (.blame .backendRejected node) c.outline := if_neg hf
    rw [he, hk]
    exact hv.symm

/-! ### Names -/

section

variable {settings : Settings} {c : Context}

/-- In a sound context a name means what the innermost scope says. -/
theorem Sound.resolve? (hc : Sound settings c) (name : String) :
    c.scopes.resolve? name = c.bindings.lookup name := by
  obtain ⟨outer, hs⟩ := hc.scope
  rw [hs, Scopes.resolve?_boundary]

theorem Sound.isBound (hc : Sound settings c) (name : String) :
    c.scopes.isBound name = (c.bindings.lookup name).isSome := by
  obtain ⟨outer, hs⟩ := hc.scope
  rw [hs]
  rfl

theorem resolve_agrees (node : Node) (name : String) (hc : Sound settings c) :
    Agree (fun b role c' => c' = c ∧ role = b.role ∧ c.bindings.lookup name = some b)
      (Lower.resolve node name c) (Check.resolve node name c.outline) := by
  rw [Lower.resolve_apply, hc.resolve?]
  unfold Check.resolve
  rw [Context.role?_outline]
  cases hx : c.bindings.lookup name with
  | none => rfl
  | some b => exact ⟨rfl, rfl, rfl, rfl⟩

theorem storageOf_agrees (node : Node) (name : String) (hc : Sound settings c) :
    Agree (fun h _ c' => c' = c ∧ c.bindings.lookup name = some (.storage h))
      (Lower.storageOf node name c) (Check.slotOf node name c.outline) := by
  refine Agree.bind (resolve_agrees node name hc) ?_
  rintro b role c' ⟨rfl, rfl, hx⟩
  cases b with
  | storage h => exact ⟨rfl, rfl, hx⟩
  | argument h => rfl

/-- A declaration opens a slot for a name that is free, and binds the name to it. -/
theorem declaration_agrees (node : Node) (name : String) (hc : Sound settings c) :
    Agree (fun h _ c' => Sound settings c' ∧ c'.draft.typeOf? c'.module h = some .ptr ∧
        Grown settings c c' [⟨.alloca name, .ptr⟩] [] false ∧
        h = .inst c.draft.code.length ∧ c.bindings.lookup name = none ∧
        c'.bindings = (name, .storage h) :: c.bindings)
      (Lower.declaration node name c) (Check.declaration node name c.outline) := by
  rw [Lower.declaration_apply, hc.isBound]
  have hrole := c.role?_outline name
  cases hx : c.bindings.lookup name with
  | some b =>
      have hk : Check.declaration node name c.outline =
          .error (.blame .redeclaration node) c.outline := by
        simp [Check.declaration, hrole, hx]
      rw [hk]
      rfl
  | none =>
      cases ht : c.draft.isTerminated with
      | true =>
          have hl := Lower.emit_cases node (c.draft.judges_alloca c.module name)
          rw [ht] at hl
          obtain ⟨e, he, hv⟩ := hl
          have hk : Check.declaration node name c.outline =
              .error (.blame .backendRejected node) c.outline := by
            simp [Check.declaration, hrole, hx, show c.outline.returned = true from ht]
          rw [he, hk]
          exact hv.symm
      | false =>
          obtain ⟨c₁, hc₁, he⟩ := Lower.emit_ok node (c.draft.judges_alloca c.module name) ht
          have hs₁ := he.sound hc
          have hp := he.typeOf?_inst hc.even
          have hd : c.scopes.declare name (.storage (.inst c.draft.code.length)) =
              .ok (c₁.bind name (.storage (.inst c.draft.code.length))).scopes := by
            rw [← he.scopes, hs₁.declare_eq, he.bindings, hx]
            rfl
          have hk : Check.declaration node name c.outline =
              .ok () (c.outline.bind name .slot) := by
            simp [Check.declaration, hrole, hx, show c.outline.returned = false from ht]
          rw [hc₁, hk]
          simp only [Option.isSome_none, Bool.false_eq_true, if_false, hd]
          refine ⟨?_, hs₁.bind name _ hp, hp,
            (he.grown settings).trans (grown_bind settings c₁ name _), rfl, trivial, ?_⟩
          · change _ = (c₁.bind name _).outline
            rw [Context.outline_bind, he.outline]
            simp only [Outline.bind, show c.outline.returned = false from ht]
            rfl
          · change _ :: c₁.bindings = _
            rw [he.bindings]

end

end SlotLang
