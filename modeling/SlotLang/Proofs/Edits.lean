import SlotLang.Proofs.Steps

/-!
# SlotLang.Proofs.Edits

Lowering only adds. Whatever a node is, in whatever context it is lowered and whether or not that
succeeds, all that was there before is still there in its old place. `Edits` says which requests
lowering makes of the module and of the draft at hand, and `Appends` adds what it does to the
scopes. A function among the nodes is written into a draft of its own; a failure inside it leaves
the function declared and its draft abandoned.
-/

namespace SlotLang

/-! ### Requests to the module and the draft -/

/-- How a piece of lowering changes the module and the draft at hand. -/
inductive Edits : Module → Draft → Module → Draft → Prop
  | refl (m : Module) (d : Draft) : Edits m d m d
  | trans {m m₁ m₂ : Module} {d d₁ d₂ : Draft} :
      Edits m d m₁ d₁ → Edits m₁ d₁ m₂ d₂ → Edits m d m₂ d₂
  /-- The draft takes an instruction. -/
  | emit {m : Module} {d d₁ : Draft} {instr : Instr} {h : Handle} :
      d.emit m instr = .ok h d₁ → Edits m d m d₁
  | intern {m : Module} {d : Draft} (text : String) : Edits m d (m.intern text).2 d
  | declare {m m₁ : Module} {d : Draft} {name : String} {params : List Param} {result : Ty}
      {id : Nat} : m.declare name params result = .ok id m₁ → Edits m d m₁ d
  /-- A function is declared and its body begun, but never handed over. -/
  | abandon {m m₁ m₂ : Module} {d inner inner' : Draft} {name : String} {params : List Param}
      {result : Ty} {id : Nat} : m.declare name params result = .ok id m₁ →
      Draft.start m₁ id = .ok inner → Edits m₁ inner m₂ inner' → Edits m d m₂ d
  /-- A function is declared and receives its body. -/
  | define {m m₁ m₂ m₃ : Module} {d inner inner' : Draft} {name : String} {params : List Param}
      {result : Ty} {id : Nat} : m.declare name params result = .ok id m₁ →
      Draft.start m₁ id = .ok inner → Edits m₁ inner m₂ inner' → inner'.finish m₂ = .ok () m₃ →
      Edits m d m₃ d

/-- What is changed behind a list leaves the list alone. -/
theorem isPrefix_set {α : Type} {l l' : List α} {i : Nat} (h : l <+: l') (hi : l.length ≤ i)
    (a : α) : l <+: l'.set i a := by
  obtain ⟨rest, rfl⟩ := h
  rw [List.set_append_right _ _ hi]
  exact List.prefix_append _ _

/-- A draft is started for a function that is not external, and it is empty. -/
theorem Draft.start_eq_ok {m : Module} {id : Nat} {d : Draft} (h : start m id = .ok d) :
    ∃ f, m.function? id = some f ∧ f.isExternal = false ∧
      d = ⟨id, f.name, f.params.map Param.ty, f.result, [], []⟩ := by
  unfold start at h
  split at h
  · cases h
  · next f hf =>
    split at h
    · cases h
    · next hext =>
      cases h
      exact ⟨f, hf, eq_false_of_ne_true hext, rfl⟩

/-- A draft belongs to the function that it was started for. -/
theorem Draft.func_of_start {m : Module} {id : Nat} {d : Draft} (h : start m id = .ok d) :
    d.func = id := by
  obtain ⟨f, -, -, rfl⟩ := start_eq_ok h
  rfl

theorem Module.texts_intern (m : Module) (text : String) : m.texts <+: (m.intern text).2.texts := by
  unfold intern
  split
  · exact List.prefix_refl _
  · exact List.prefix_append _ _

theorem Module.functions_intern (m : Module) (text : String) :
    (m.intern text).2.functions = m.functions := by
  unfold intern
  split <;> rfl

theorem Module.isPrefix_functions_intern (m : Module) (text : String) :
    m.functions <+: (m.intern text).2.functions :=
  ⟨[], by rw [functions_intern, List.append_nil]⟩

namespace Edits

variable {m m' : Module} {d d' : Draft}

theorem draft (h : Edits m d m' d') : ∃ lines, d' = d.append lines := by
  induction h with
  | trans _ _ ih ih' =>
      obtain ⟨ls, rfl⟩ := ih
      obtain ⟨rs, rfl⟩ := ih'
      exact ⟨ls ++ rs, Draft.append_append _ _ _⟩
  | emit he =>
      obtain ⟨ty, -, -, -, rfl⟩ := Draft.emit_eq_ok_iff.mp he
      exact ⟨[⟨_, ty⟩], rfl⟩
  | refl | intern | declare | abandon | define => exact ⟨[], (Draft.append_nil _).symm⟩

theorem code (h : Edits m d m' d') : d.code <+: d'.code := by
  obtain ⟨lines, rfl⟩ := h.draft
  exact List.prefix_append _ _

theorem types (h : Edits m d m' d') : d.types <+: d'.types := by
  obtain ⟨lines, rfl⟩ := h.draft
  exact List.prefix_append _ _

/-- No function is changed that was there before: a body is handed over only for a function that
was declared on the way. -/
theorem functions (h : Edits m d m' d') : m.functions <+: m'.functions := by
  induction h with
  | refl | emit => exact List.prefix_refl _
  | trans _ _ ih ih' => exact ih.trans ih'
  | intern text => exact Module.isPrefix_functions_intern _ text
  | declare hd =>
      obtain ⟨-, -, -, rfl⟩ := Module.insert_eq_ok_iff.mp hd
      exact List.prefix_append _ _
  | abandon hd _ _ ih =>
      obtain ⟨-, -, -, rfl⟩ := Module.insert_eq_ok_iff.mp hd
      exact (List.prefix_append _ _).trans ih
  | define hd hstart hedits hfinish ih =>
      obtain ⟨-, -, rfl, rfl⟩ := Module.insert_eq_ok_iff.mp hd
      obtain ⟨lines, rfl⟩ := hedits.draft
      obtain ⟨f, -, -, -, rfl⟩ := Module.define_eq_ok_iff.mp hfinish
      have hfunc := Draft.func_of_start hstart
      exact isPrefix_set ((List.prefix_append _ _).trans ih) (Nat.le_of_eq hfunc.symm) _

/-- The table of a module is kept up to date, whoever makes the requests. -/
theorem indexed (h : Edits m d m' d') (hm : m.Indexed) : m'.Indexed := by
  induction h with
  | refl | emit => exact hm
  | trans _ _ ih ih' => exact ih' (ih hm)
  | intern text => exact hm.intern text
  | declare hd => exact hm.insert hd
  | abandon hd _ _ ih => exact ih (hm.insert hd)
  | define hd _ _ hfinish ih => exact (ih (hm.insert hd)).define hfinish

theorem texts (h : Edits m d m' d') : m.texts <+: m'.texts := by
  induction h with
  | refl | emit => exact List.prefix_refl _
  | trans _ _ ih ih' => exact ih.trans ih'
  | intern text => exact Module.texts_intern _ text
  | declare hd =>
      obtain ⟨-, -, -, rfl⟩ := Module.insert_eq_ok_iff.mp hd
      exact List.prefix_refl _
  | abandon hd _ _ ih =>
      obtain ⟨-, -, -, rfl⟩ := Module.insert_eq_ok_iff.mp hd
      exact ih
  | define hd _ _ hfinish ih =>
      obtain ⟨-, -, -, rfl⟩ := Module.insert_eq_ok_iff.mp hd
      obtain ⟨f, -, -, -, rfl⟩ := Module.define_eq_ok_iff.mp hfinish
      exact ih

end Edits

/-! ### The innermost scope -/

/-- How a scope changes while `n` instructions grow to `code`: it keeps its bindings and gains
variables, each bound to a slot that was opened for it on the way. -/
structure Scope.Gains (n : Nat) (code : List Instr) (s s' : Scope) : Prop where
  boundary : s'.boundary = s.boundary
  keeps : ∀ x b, s.get? x = some b → s'.get? x = some b
  gains : ∀ x b, s'.get? x = some b → s.get? x = some b ∨
    ∃ k, b = .storage (.inst k) ∧ n ≤ k ∧ code[k]? = some (.alloca x)

namespace Scope.Gains

theorem refl (n : Nat) (code : List Instr) (s : Scope) : s.Gains n code s :=
  ⟨rfl, fun _ _ h => h, fun _ _ h => .inl h⟩

theorem trans {n n' : Nat} {code code' : List Instr} {s s' s'' : Scope}
    (h : s.Gains n code s') (h' : s'.Gains n' code' s'') (hn : n ≤ n')
    (hcode : code <+: code') : s.Gains n code' s'' := by
  refine ⟨h'.boundary.trans h.boundary, fun x b hx => h'.keeps x b (h.keeps x b hx), ?_⟩
  intro x b hx
  rcases h'.gains x b hx with hx' | ⟨k, hb, hk, halloca⟩
  · rcases h.gains x b hx' with hold | ⟨k, hb, hk, halloca⟩
    · exact .inl hold
    · exact .inr ⟨k, hb, hk, getElem?_of_isPrefix hcode halloca⟩
  · exact .inr ⟨k, hb, Nat.le_trans hn hk, halloca⟩

/-- A free name is bound to the slot that was just opened for it. -/
theorem put {code : List Instr} {s : Scope} {name : String} (hfree : s.get? name = none) :
    s.Gains code.length (code ++ [.alloca name]) (s.put name (.storage (.inst code.length))) := by
  refine ⟨rfl, ?_, ?_⟩
  · intro x b hx
    have hne : x ≠ name := by
      intro heq
      rw [heq, hfree] at hx
      cases hx
    exact Bindings.lookup_cons_eq_some_iff.mpr (.inr ⟨hne, hx⟩)
  · intro x b hx
    rcases Bindings.lookup_cons_eq_some_iff.mp hx with ⟨rfl, rfl⟩ | ⟨-, hx'⟩
    · exact .inr ⟨code.length, rfl, Nat.le_refl _, by simp⟩
    · exact .inl hx'

end Scope.Gains

/-! ### Contexts -/

/-- The state that a computation leaves behind, whether or not it succeeds. -/
def stateAfter {ε σ α : Type} : EStateM.Result ε σ α → σ
  | .ok _ s => s
  | .error _ s => s

/-- How a piece of lowering changes a context as far as the innermost scope is left open: the
scopes around it stay, and so does the mark that says whether look-ups stop there. -/
structure Stays (c c' : Context) : Prop where
  edits : Edits c.module c.draft c'.module c'.draft
  scopes : ∀ inner outer, c.scopes = inner :: outer →
    ∃ inner', c'.scopes = inner' :: outer ∧ inner'.boundary = inner.boundary

/-- How lowering a node changes a context. -/
structure Appends (c c' : Context) : Prop where
  edits : Edits c.module c.draft c'.module c'.draft
  scopes : ∀ inner outer, c.scopes = inner :: outer →
    ∃ inner', c'.scopes = inner' :: outer ∧
      inner.Gains c.draft.code.length c'.draft.code inner'

theorem Stays.trans {c c₁ c₂ : Context} (h : Stays c c₁) (h' : Stays c₁ c₂) : Stays c c₂ := by
  refine ⟨h.edits.trans h'.edits, ?_⟩
  intro inner outer hs
  obtain ⟨inner₁, hs₁, hb₁⟩ := h.scopes inner outer hs
  obtain ⟨inner₂, hs₂, hb₂⟩ := h'.scopes inner₁ outer hs₁
  exact ⟨inner₂, hs₂, hb₂.trans hb₁⟩

instance : Trans Stays Stays Stays := ⟨Stays.trans⟩

namespace Appends

variable {c c₁ c₂ : Context}

/-- Edits that leave the scopes as they are. -/
theorem of_edits (h : Edits c.module c.draft c₁.module c₁.draft) (hs : c₁.scopes = c.scopes) :
    Appends c c₁ :=
  ⟨h, fun inner _ hin => ⟨inner, hs.trans hin, .refl _ _ inner⟩⟩

theorem refl (c : Context) : Appends c c := of_edits (.refl _ _) rfl

theorem note (c : Context) (event : Event) : Appends c (c.note event) := of_edits (.refl _ _) rfl

theorem trans (h : Appends c c₁) (h' : Appends c₁ c₂) : Appends c c₂ := by
  refine ⟨h.edits.trans h'.edits, ?_⟩
  intro inner outer hs
  obtain ⟨inner₁, hs₁, hg₁⟩ := h.scopes inner outer hs
  obtain ⟨inner₂, hs₂, hg₂⟩ := h'.scopes inner₁ outer hs₁
  exact ⟨inner₂, hs₂, hg₁.trans hg₂ h.edits.code.length_le h'.edits.code⟩

instance : Trans Appends Appends Appends := ⟨trans⟩

theorem stays (h : Appends c c₁) : Stays c c₁ := by
  refine ⟨h.edits, ?_⟩
  intro inner outer hs
  obtain ⟨inner', hs', hg⟩ := h.scopes inner outer hs
  exact ⟨inner', hs', hg.boundary⟩

end Appends

/-! ### Steps of lowering -/

/-- A step that changes contexts only as `R` allows, from wherever it starts. -/
def Lower.Within (R : Context → Context → Prop) {α : Type} (x : Lower α) : Prop :=
  ∀ c, R c (stateAfter (x c))

namespace Lower

section

variable {R : Context → Context → Prop} {α β : Type}

theorem Within.bind [Trans R R R] {x : Lower α} {f : α → Lower β} (hx : Within R x)
    (hf : ∀ a, Within R (f a)) : Within R (x >>= f) := by
  intro c
  have h := hx c
  rw [bind_apply]
  cases hr : x c with
  | ok a c' =>
      rw [hr] at h
      exact Trans.trans h (hf a c')
  | error e c' =>
      rw [hr] at h
      exact h

theorem Within.pure (hrefl : ∀ c, R c c) (a : α) : Within R (Pure.pure a : Lower α) := hrefl

theorem Within.throw (hrefl : ∀ c, R c c) (e : LoweringError) :
    Within R (MonadExcept.throw e : Lower α) := hrefl

end

/-- A step that adds to a context and takes nothing away. -/
abbrev OnlyAppends {α : Type} (x : Lower α) : Prop := Within Appends x

namespace OnlyAppends

variable {α β : Type}

theorem bind {x : Lower α} {f : α → Lower β} (hx : OnlyAppends x)
    (hf : ∀ a, OnlyAppends (f a)) : OnlyAppends (x >>= f) := Within.bind hx hf

theorem pure (a : α) : OnlyAppends (Pure.pure a : Lower α) := Within.pure Appends.refl a

theorem throw (e : LoweringError) : OnlyAppends (MonadExcept.throw e : Lower α) :=
  Within.throw Appends.refl e

theorem enter (node : Node) : OnlyAppends (Lower.enter node) := fun c => Appends.note c _

theorem emit (node : Node) (instr : Instr) : OnlyAppends (Lower.emit node instr) := by
  intro c
  rw [emit_apply]
  cases he : c.draft.emit c.module instr with
  | error e d => exact .refl c
  | ok h d => exact .of_edits (.emit he) rfl

theorem resolve (node : Node) (name : String) : OnlyAppends (Lower.resolve node name) := by
  intro c
  rw [resolve_apply]
  cases c.scopes.resolve? name <;> exact .refl c

theorem argumentOf (node : Node) (index : Nat) : OnlyAppends (Lower.argumentOf node index) := by
  intro c
  rw [argumentOf_apply]
  split <;> exact .refl c

theorem storageOf (node : Node) (name : String) : OnlyAppends (Lower.storageOf node name) := by
  refine (resolve node name).bind ?_
  intro b
  cases b with
  | storage h => exact pure h
  | argument h => exact throw _

/-- A declaration opens a slot and binds the name to it. In an open scope nothing can go wrong
between the two: the name was looked at before. -/
theorem declaration (node : Node) (name : String) : OnlyAppends (Lower.declaration node name) := by
  intro c
  rw [declaration_apply, emit_apply]
  cases hbound : c.scopes.isBound name with
  | true => exact .refl c
  | false =>
      cases he : c.draft.emit c.module (.alloca name) with
      | error e d => exact .refl c
      | ok h d =>
          obtain ⟨ty, -, -, rfl, rfl⟩ := Draft.emit_eq_ok_iff.mp he
          cases hs : c.scopes with
          | nil =>
              refine ⟨.emit he, fun inner outer hin => ?_⟩
              rw [hs] at hin
              cases hin
          | cons scope rest =>
              have hfree : scope.get? name = none := by
                rw [hs] at hbound
                exact Option.isSome_eq_false_iff.mp hbound |> Option.isNone_iff_eq_none.mp
              have hdeclare := Scopes.declare_cons_eq_ok_iff.mpr
                ⟨hfree, Eq.refl (scope.put name (.storage (.inst c.draft.code.length)) :: rest)⟩
              simp only [Bool.false_eq_true, if_false, hdeclare]
              refine ⟨.emit he, fun inner outer hin => ?_⟩
              rw [hs] at hin
              cases hin
              exact ⟨_, rfl, .put hfree⟩

theorem targetOf (node target : Node) : OnlyAppends (Lower.targetOf node target) := by
  cases target with
  | use origin name mode => exact storageOf _ name
  | declare origin name => exact (enter _).bind fun _ => declaration _ name
  | _ => exact throw _

theorem useOf (node : Node) (name : String) (mode : UseMode) :
    OnlyAppends (Lower.useOf node name mode) := by
  cases mode with
  | address => exact storageOf node name
  | value =>
      refine (resolve node name).bind ?_
      intro b
      cases b with
      | storage h => exact emit node _
      | argument h => exact pure h

theorem stepOf (node : Node) (name : String) (order : StepOrder) (direction : Direction) :
    OnlyAppends (Lower.stepOf node name order direction) := by
  refine (storageOf node name).bind fun slot => ?_
  refine (emit node _).bind fun current => ?_
  refine (emit node _).bind fun updated => ?_
  refine (emit node _).bind fun _ => ?_
  cases order with
  | pre => exact pure updated
  | post => exact pure current

theorem printCall (settings : Settings) (node : Node) (value : Handle) :
    OnlyAppends (Lower.printCall settings node value) := by
  intro c
  simp only [Lower.printCall, bind_apply, get_apply]
  cases c.module.find? settings.printRoutine with
  | none => exact .refl c
  | some callee =>
      cases settings.printFormat with
      | none => exact emit node _ c
      | some format =>
          simp only [bind_apply, modifyGet_apply]
          have hintern : Appends c { c with module := (c.module.intern format).2 } :=
            .of_edits (.intern format) rfl
          exact hintern.trans (emit node _ _)

theorem implicitReturn (node : Node) (result : SourceType) :
    OnlyAppends (Lower.implicitReturn node result) := by
  intro c
  have h := emit node (.ret result.implicit) c
  rw [implicitReturn_apply]
  split
  · exact .refl c
  · cases hr : Lower.emit node (.ret result.implicit) c <;> rw [hr] at h <;> exact h

end OnlyAppends

/-- Parameters are bound in the innermost scope. -/
theorem bindParams_stays (node : Node) : ∀ (params : List Parameter) (index : Nat),
    Within Stays (Lower.bindParams node index params)
  | [], _ => fun c => (Appends.refl c).stays
  | p :: rest, index => by
      have hrefl : ∀ c, Stays c c := fun c => (Appends.refl c).stays
      rw [bindParams]
      refine .bind (fun c => (OnlyAppends.enter _ c).stays) fun _ => ?_
      refine .bind (fun c => (OnlyAppends.argumentOf _ index c).stays) fun handle => ?_
      intro c
      simp only [bind_apply, get_apply]
      cases hd : c.scopes.declare p.name (.argument handle) with
      | error e => exact hrefl c
      | ok scopes =>
          have hbound : Stays c { c with scopes } := by
            refine ⟨.refl _ _, ?_⟩
            intro inner outer hs
            rw [hs] at hd
            obtain ⟨-, rfl⟩ := Scopes.declare_cons_eq_ok_iff.mp hd
            exact ⟨_, rfl, rfl⟩
          exact hbound.trans (bindParams_stays node rest (index + 1) _)

/-- Where the body of a function is written, the draft and the scopes around it come back. -/
theorem inFunction_cases (draft : Draft) {body : Lower Unit} (hbody : Within Stays body)
    (c : Context) :
    ∃ inner : Context, Edits c.module draft inner.module inner.draft ∧
      (inFunction draft body c =
          .ok inner.draft { inner with draft := c.draft, scopes := c.scopes } ∨
        ∃ e, inFunction draft body c =
          .error e { inner with draft := c.draft, scopes := c.scopes }) := by
  have h := hbody { c with draft, scopes := c.scopes.enterFunction }
  obtain ⟨scope, hs, hb⟩ := h.scopes ⟨[], true⟩ c.scopes rfl
  -- the innermost scope is still the one that the function has opened
  have hexit : Scopes.exitFunction (scope :: c.scopes) = c.scopes := if_pos hb
  refine ⟨_, h.edits, ?_⟩
  unfold inFunction
  cases hr : body { c with draft, scopes := c.scopes.enterFunction } with
  | ok _ inner =>
      rw [hr] at hs
      simp only [stateAfter] at hs ⊢
      rw [hs, hexit]
      exact .inl rfl
  | error e inner =>
      rw [hr] at hs
      simp only [stateAfter] at hs ⊢
      rw [hs, hexit]
      exact .inr ⟨e, rfl⟩

end Lower

/-! ### Nodes -/

section

variable {settings : Settings}

/-- Where a function is written, its scope stays open. -/
theorem inside_stays (node : Node) (result : SourceType) (params : List Parameter)
    {body : List Node} (hbody : Lower.OnlyAppends (Node.lowerAll settings body)) :
    Lower.Within Stays (do
      Lower.bindParams node 0 params
      Node.lowerAll settings body
      Lower.implicitReturn node result) := by
  refine .bind (Lower.bindParams_stays _ params 0) fun _ => ?_
  exact .bind (fun c => (hbody c).stays) fun _ c =>
    (Lower.OnlyAppends.implicitReturn _ result c).stays

/-- A function adds itself and the functions inside it to the module. The draft at hand and the
scopes are not touched. -/
theorem function_appends (origin : Origin) (name : String) (result : SourceType)
    (params : List Parameter) {body : List Node}
    (hbody : Lower.OnlyAppends (Node.lowerAll settings body)) :
    Lower.OnlyAppends (Node.lower settings (.function origin name result params body)) := by
  rw [Node.lower]
  refine (Lower.OnlyAppends.enter _).bind fun _ => ?_
  intro c
  have hinside := inside_stays (.function origin name result params body) result params hbody
  rw [bind_apply, Lower.openFunction_apply]
  cases hd : c.module.declare name (params.map Parameter.toParam) result.toTy with
  | error e m => exact .refl c
  | ok id m₁ =>
      dsimp only
      cases hstart : Draft.start m₁ id with
      | error e => exact .of_edits (.declare hd) rfl
      | ok draft =>
          dsimp only
          rw [bind_apply]
          obtain ⟨inner, hedits, hok | ⟨e, he⟩⟩ :=
            Lower.inFunction_cases draft hinside { c with module := m₁ }
          · rw [hok]
            dsimp only
            rw [bind_apply, Lower.finish_apply]
            cases hdef : inner.draft.finish inner.module with
            | error e m₃ => exact .of_edits (.abandon hd hstart hedits) rfl
            | ok _ m₃ => exact .of_edits (.define hd hstart hedits hdef) rfl
          · rw [he]
            exact .of_edits (.abandon hd hstart hedits) rfl

mutual

/-- Lowering a node only adds to the context, whether it succeeds or fails. -/
theorem lower_onlyAppends : ∀ node : Node, Lower.OnlyAppends (node.lower settings)
  | .binary origin op left right => by
      rw [Node.lower]
      exact (Lower.OnlyAppends.enter _).bind fun _ => (lower_onlyAppends left).bind fun _ =>
        (lower_onlyAppends right).bind fun _ => .emit _ _
  | .assign origin target value => by
      rw [Node.lower]
      exact (Lower.OnlyAppends.enter _).bind fun _ => (lower_onlyAppends value).bind fun v =>
        (Lower.OnlyAppends.targetOf _ target).bind fun _ =>
          (Lower.OnlyAppends.emit _ _).bind fun _ => .pure v
  | .declare origin name => by
      rw [Node.lower]
      exact (Lower.OnlyAppends.enter _).bind fun _ => .declaration _ name
  | .use origin name mode => by
      rw [Node.lower]
      exact (Lower.OnlyAppends.enter _).bind fun _ => .useOf _ name mode
  | .step origin name order direction => by
      rw [Node.lower]
      exact (Lower.OnlyAppends.enter _).bind fun _ => .stepOf _ name order direction
  | .int origin value => by
      rw [Node.lower]
      exact (Lower.OnlyAppends.enter _).bind fun _ => .pure _
  | .function origin name result params body =>
      function_appends origin name result params (lowerAll_onlyAppends body)
  | .argument origin index => by
      rw [Node.lower]
      exact (Lower.OnlyAppends.enter _).bind fun _ => .argumentOf _ index
  | .print origin [arg] => by
      rw [Node.lower]
      exact (Lower.OnlyAppends.enter _).bind fun _ => (lower_onlyAppends arg).bind fun v =>
        .printCall settings _ v
  | .print origin [] => fun c => Appends.note c _
  | .print origin (_ :: _ :: _) => fun c => Appends.note c _
  | .ret origin (some value) => by
      rw [Node.lower]
      exact (Lower.OnlyAppends.enter _).bind fun _ => (lower_onlyAppends value).bind fun _ =>
        .emit _ _
  | .ret origin none => by
      rw [Node.lower]
      exact (Lower.OnlyAppends.enter _).bind fun _ => .emit _ _

theorem lowerAll_onlyAppends : ∀ nodes : List Node,
    Lower.OnlyAppends (Node.lowerAll settings nodes)
  | [] => Appends.refl
  | node :: rest => by
      rw [Node.lowerAll]
      exact (lower_onlyAppends node).bind fun _ => lowerAll_onlyAppends rest

end

end

/-- A context that holds all that another one holds, in its old place. -/
structure Context.Extends (c c' : Context) : Prop where
  code : c.draft.code <+: c'.draft.code
  types : c.draft.types <+: c'.draft.types
  /-- Functions keep their index, their types and their body. -/
  functions : c.module.functions <+: c'.module.functions
  texts : c.module.texts <+: c'.module.texts
  depth : c'.scopes.length = c.scopes.length
  outer : c'.scopes.tail = c.scopes.tail
  /-- The innermost scope keeps its bindings. What it gains are variables whose slots were opened
  on the way. -/
  innermost : ∀ inner ∈ c.scopes.head?, ∃ inner' ∈ c'.scopes.head?,
    (∀ x b, inner.get? x = some b → inner'.get? x = some b) ∧
    ∀ x b, inner'.get? x = some b → inner.get? x = some b ∨
      ∃ k, b = .storage (.inst k) ∧ c.draft.code.length ≤ k ∧ c'.draft.code[k]? = some (.alloca x)

/-- Lowering only appends, on success and on failure alike: where a scope is open, the context
after a node holds all that was there before it. -/
theorem lower_extends_context (settings : Settings) (node : Node) {c : Context}
    (hscopes : c.scopes ≠ []) : c.Extends (stateAfter (node.lower settings c)) := by
  have h : Appends c (stateAfter (node.lower settings c)) := lower_onlyAppends node c
  generalize stateAfter (node.lower settings c) = c' at h ⊢
  obtain ⟨inner, outer, hs⟩ := List.exists_cons_of_ne_nil hscopes
  obtain ⟨inner', hs', hg⟩ := h.scopes inner outer hs
  refine ⟨h.edits.code, h.edits.types, h.edits.functions, h.edits.texts, ?_, ?_, ?_⟩
  · rw [hs, hs', List.length_cons, List.length_cons]
  · rw [hs, hs', List.tail_cons, List.tail_cons]
  · intro scope hscope
    rw [hs] at hscope
    cases hscope
    exact ⟨inner', by rw [hs']; rfl, hg.keeps, hg.gains⟩

/-- The start of a body in a module that holds nothing else. -/
def Context.opened : Context where
  module := ⟨"m", [.pending "main" [] .int], [("main", 0)], []⟩
  scopes := .initial
  draft := ⟨0, "main", [], .int, [], []⟩
  events := #[]

/-- `(int x = 1) + fn f() { int y; fn g() { y } }`: the innermost function does not see `y`. -/
def Node.unseen : Node :=
  .binary .unknown .add (.assign .unknown (.declare .unknown "x") (.int .unknown 1))
    (.function .unknown "f" .int [] [.declare .unknown "y",
      .function .unknown "g" .int [] [.use .unknown "y" .value]])

/-- A failure two functions deep leaves both declared and the variable outside them bound. -/
theorem lower_extends_context_unseen :
    ∃ e c', Node.unseen.lower .default .opened = .error e c' ∧ Context.opened.Extends c' ∧
      c'.module.functions.map Func.name = ["main", "f", "g"] ∧
      c'.scopes = [⟨[("x", .storage (.inst 0))], true⟩] := by
  have h := lower_extends_context .default .unseen (c := .opened) (by decide)
  have hrun : (match Node.unseen.lower .default .opened with
      | .error _ c' => some (c'.module.functions.map Func.name, c'.scopes)
      | .ok _ _ => none) =
        some (["main", "f", "g"], [⟨[("x", .storage (.inst 0))], true⟩]) := by decide +kernel
  cases he : Node.unseen.lower .default .opened with
  | ok v c' =>
      rw [he] at hrun
      cases hrun
  | error e c' =>
      rw [he] at h hrun
      obtain ⟨hnames, hscopes⟩ := Prod.mk.inj (Option.some.inj hrun)
      exact ⟨e, c', rfl, h, hnames, hscopes⟩

end SlotLang
