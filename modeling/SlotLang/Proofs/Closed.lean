import SlotLang.Proofs.Edits

/-!
# SlotLang.Proofs.Closed

A function is closed: what becomes of it depends on the module alone, and not on the function in
whose body it stands. This is a property of two runs. `SideBySide` compares how two runs end, and
`Alike` says of two steps that they end alike wherever the module, the code so far and the names of
the function at hand are the same, however the scopes outside may differ (`Twins`).

The two runs may lower different nodes. Then `Blamed` says in which sense the errors they are
blamed for correspond; for a node and itself that is equality.
-/

namespace SlotLang

/-- What a computation comes to, without the state it leaves behind. -/
def outcome {ε σ α : Type} : EStateM.Result ε σ α → Except ε α
  | .ok a _ => .ok a
  | .error e _ => .error e

/-! ### Two runs -/

/-- Two runs end in the same way: both succeed with the same result, or both fail with errors that
`E` relates. In either case `R` relates the contexts they leave. -/
def SideBySide {α : Type} (E : LoweringError → LoweringError → Prop)
    (R : Context → Context → Prop) :
    EStateM.Result LoweringError Context α → EStateM.Result LoweringError Context α → Prop
  | .ok a c, .ok a' c' => a' = a ∧ R c c'
  | .error e c, .error e' c' => E e e' ∧ R c c'
  | _, _ => False

namespace SideBySide

variable {α β : Type} {E : LoweringError → LoweringError → Prop}
  {R S : Context → Context → Prop}

theorem cases {x y : EStateM.Result LoweringError Context α} (h : SideBySide E R x y) :
    (∃ a c c', x = .ok a c ∧ y = .ok a c' ∧ R c c') ∨
      ∃ e e' c c', x = .error e c ∧ y = .error e' c' ∧ E e e' ∧ R c c' := by
  cases x with
  | ok a c =>
      cases y with
      | ok a' c' =>
          obtain ⟨rfl, hr⟩ := h
          exact .inl ⟨_, c, c', rfl, rfl, hr⟩
      | error e' c' => exact h.elim
  | error e c =>
      cases y with
      | ok a' c' => exact h.elim
      | error e' c' => exact .inr ⟨e, e', c, c', rfl, rfl, h.1, h.2⟩

/-- Runs that end alike can be followed by runs that end alike. After a failure the relation between
the contexts has to be kept as it is. -/
theorem bind {x y : Lower α} {f g : α → Lower β} {c c' : Context}
    (h : SideBySide E R (x c) (y c'))
    (k : ∀ a c₁ c₁', R c₁ c₁' → SideBySide E S (f a c₁) (g a c₁'))
    (hfail : ∀ c₁ c₁', R c₁ c₁' → S c₁ c₁') :
    SideBySide E S ((x >>= f) c) ((y >>= g) c') := by
  rw [bind_apply, bind_apply]
  rcases h.cases with ⟨a, c₁, c₁', hx, hy, hr⟩ | ⟨e, e', c₁, c₁', hx, hy, he, hr⟩
  · rw [hx, hy]
    exact k a c₁ c₁' hr
  · rw [hx, hy]
    exact ⟨he, hfail c₁ c₁' hr⟩

theorem mono {x y : EStateM.Result LoweringError Context α} (h : SideBySide E R x y)
    (k : ∀ c c', R c c' → S c c') : SideBySide E S x y := by
  rcases h.cases with ⟨a, c, c', rfl, rfl, hr⟩ | ⟨e, e', c, c', rfl, rfl, he, hr⟩
  · exact ⟨rfl, k c c' hr⟩
  · exact ⟨he, k c c' hr⟩

end SideBySide

/-- Whatever two nodes are blamed for, the errors correspond. -/
structure Blamed (E : LoweringError → LoweringError → Prop) (node node' : Node) : Prop where
  own : ∀ cause, E (.blame node cause) (.blame node' cause)
  named : ∀ name cause, E (.blameName node name cause) (.blameName node' name cause)

theorem Blamed.refl (node : Node) : Blamed Eq node node := ⟨fun _ => rfl, fun _ _ => rfl⟩

/-! ### Twins -/

/-- Two contexts in which the same function is written. Around it the scopes may be different ones.
-/
structure Twins (outer outer' : Scopes) (c c' : Context) : Prop where
  module : c'.module = c.module
  draft : c'.draft = c.draft
  scopes : ∃ bs, c.scopes = ⟨bs, true⟩ :: outer ∧ c'.scopes = ⟨bs, true⟩ :: outer'

namespace Twins

variable {outer outer' : Scopes} {c c' : Context}

theorem note (h : Twins outer outer' c c') (event event' : Event) :
    Twins outer outer' (c.note event) (c'.note event') :=
  ⟨h.module, h.draft, h.scopes⟩

/-- No look-up leaves the function. -/
theorem resolve? (h : Twins outer outer' c c') (name : String) :
    c'.scopes.resolve? name = c.scopes.resolve? name := by
  obtain ⟨bs, hs, hs'⟩ := h.scopes
  rw [hs, hs', Scopes.resolve?_boundary, Scopes.resolve?_boundary]

theorem isBound (h : Twins outer outer' c c') (name : String) :
    c'.scopes.isBound name = c.scopes.isBound name := by
  obtain ⟨bs, hs, hs'⟩ := h.scopes
  rw [hs, hs']
  rfl

/-- A name is bound in the scope of the function, or it is refused in both. -/
theorem declare (h : Twins outer outer' c c') (name : String) (b : Binding) :
    (∃ e, c.scopes.declare name b = .error e ∧ c'.scopes.declare name b = .error e) ∨
      ∃ bs, c.scopes.declare name b = .ok (⟨bs, true⟩ :: outer) ∧
        c'.scopes.declare name b = .ok (⟨bs, true⟩ :: outer') := by
  obtain ⟨bs, hs, hs'⟩ := h.scopes
  rw [hs, hs']
  cases hx : bs.lookup name with
  | some b' =>
      refine .inl ⟨.alreadyBound name, ?_, ?_⟩ <;> simp [Scopes.declare, Scope.get?, hx]
  | none =>
      refine .inr ⟨(name, b) :: bs, ?_, ?_⟩ <;> simp [Scopes.declare, Scope.get?, Scope.put, hx]

end Twins

/-- Two steps that end alike in all twins. -/
def Alike (E : LoweringError → LoweringError → Prop) {α : Type} (x y : Lower α) : Prop :=
  ∀ outer outer' c c', Twins outer outer' c c' → SideBySide E (Twins outer outer') (x c) (y c')

namespace Alike

variable {α β : Type} {E : LoweringError → LoweringError → Prop} {node node' : Node}

/-! ### Steps of lowering -/

theorem bind {x y : Lower α} {f g : α → Lower β} (h : Alike E x y)
    (k : ∀ a, Alike E (f a) (g a)) : Alike E (x >>= f) (y >>= g) := by
  intro outer outer' c c' ht
  exact (h outer outer' c c' ht).bind (fun a c₁ c₁' => k a outer outer' c₁ c₁') fun _ _ h => h

theorem pure (a : α) : Alike E (Pure.pure a : Lower α) (Pure.pure a) :=
  fun _ _ _ _ ht => ⟨rfl, ht⟩

theorem throw {e e' : LoweringError} (h : E e e') :
    Alike E (MonadExcept.throw e : Lower α) (MonadExcept.throw e') :=
  fun _ _ _ _ ht => ⟨h, ht⟩

theorem enter (node node' : Node) : Alike E (Lower.enter node) (Lower.enter node') :=
  fun _ _ _ _ ht => ⟨rfl, ht.note _ _⟩

/-- The draft judges an instruction by the module and its own code. -/
theorem emit (hE : Blamed E node node') (instr : Instr) :
    Alike E (Lower.emit node instr) (Lower.emit node' instr) := by
  intro outer outer' c c' ht
  rw [Lower.emit_apply, Lower.emit_apply, ht.draft, ht.module]
  cases c.draft.emit c.module instr with
  | error e d => exact ⟨hE.own _, ht⟩
  | ok h d => exact ⟨rfl, rfl, rfl, ht.scopes⟩

theorem resolve (hE : Blamed E node node') (name : String) :
    Alike E (Lower.resolve node name) (Lower.resolve node' name) := by
  intro outer outer' c c' ht
  rw [Lower.resolve_apply, Lower.resolve_apply, ht.resolve?]
  cases c.scopes.resolve? name with
  | none => exact ⟨hE.named name _, ht⟩
  | some b => exact ⟨rfl, ht⟩

theorem argumentOf (hE : Blamed E node node') (index : Nat) :
    Alike E (Lower.argumentOf node index) (Lower.argumentOf node' index) := by
  intro outer outer' c c' ht
  rw [Lower.argumentOf_apply, Lower.argumentOf_apply, ht.draft]
  split
  · exact ⟨rfl, ht⟩
  · exact ⟨hE.own _, ht⟩

theorem storageOf (hE : Blamed E node node') (name : String) :
    Alike E (Lower.storageOf node name) (Lower.storageOf node' name) := by
  refine (resolve hE name).bind fun b => ?_
  cases b with
  | storage h => exact pure h
  | argument h => exact throw (hE.named name _)

theorem declaration (hE : Blamed E node node') (name : String) :
    Alike E (Lower.declaration node name) (Lower.declaration node' name) := by
  intro outer outer' c c' ht
  rw [Lower.declaration_apply, Lower.declaration_apply, ht.isBound]
  by_cases hbound : c.scopes.isBound name = true
  · rw [if_pos hbound, if_pos hbound]
    exact ⟨hE.own _, ht⟩
  · rw [if_neg hbound, if_neg hbound]
    rcases (emit hE (.alloca name) outer outer' c c' ht).cases with
      ⟨h, c₁, c₁', hx, hy, ht₁⟩ | ⟨e, e', c₁, c₁', hx, hy, he, ht₁⟩
    · rw [hx, hy]
      rcases ht.declare name (.storage h) with ⟨e, hd, hd'⟩ | ⟨bs, hd, hd'⟩
      · simp only [hd, hd']
        exact ⟨hE.own _, ht₁⟩
      · simp only [hd, hd']
        exact ⟨rfl, ht₁.module, ht₁.draft, bs, rfl, rfl⟩
    · rw [hx, hy]
      exact ⟨he, ht₁⟩

theorem useOf (hE : Blamed E node node') (name : String) (mode : UseMode) :
    Alike E (Lower.useOf node name mode) (Lower.useOf node' name mode) := by
  cases mode with
  | address => exact storageOf hE name
  | value =>
      refine (resolve hE name).bind fun b => ?_
      cases b with
      | storage h => exact emit hE _
      | argument h => exact pure h

theorem stepOf (hE : Blamed E node node') (name : String) (order : StepOrder)
    (direction : Direction) :
    Alike E (Lower.stepOf node name order direction)
      (Lower.stepOf node' name order direction) := by
  refine (storageOf hE name).bind fun slot => ?_
  refine (emit hE _).bind fun current => ?_
  refine (emit hE _).bind fun updated => ?_
  refine (emit hE _).bind fun _ => ?_
  cases order with
  | pre => exact pure updated
  | post => exact pure current

theorem targetOf (hE : Blamed E node node') {target : Node} (hT : Blamed E target target) :
    Alike E (Lower.targetOf node target) (Lower.targetOf node' target) := by
  cases target with
  | use origin name mode => exact storageOf hT name
  | declare origin name => exact (enter _ _).bind fun _ => declaration hT name
  | _ => exact throw (hE.own _)

theorem printCall (settings : Settings) (hE : Blamed E node node') (value : Handle) :
    Alike E (Lower.printCall settings node value) (Lower.printCall settings node' value) := by
  intro outer outer' c c' ht
  simp only [Lower.printCall, bind_apply, get_apply, ht.module]
  cases c.module.find? settings.printRoutine with
  | none => exact ⟨hE.own _, ht⟩
  | some callee =>
      cases settings.printFormat with
      | none => exact emit hE _ outer outer' c c' ht
      | some format =>
          simp only [bind_apply, modifyGet_apply, ht.module]
          exact emit hE _ outer outer' _ _ ⟨rfl, ht.draft, ht.scopes⟩

theorem implicitReturn (hE : Blamed E node node') (result : SourceType) :
    Alike E (Lower.implicitReturn node result) (Lower.implicitReturn node' result) := by
  intro outer outer' c c' ht
  rw [Lower.implicitReturn_apply, Lower.implicitReturn_apply, ht.draft]
  split
  · exact ⟨rfl, ht⟩
  · rcases (emit hE (.ret result.implicit) outer outer' c c' ht).cases with
      ⟨h, c₁, c₁', hx, hy, ht₁⟩ | ⟨e, e', c₁, c₁', hx, hy, he, ht₁⟩
    · rw [hx, hy]
      exact ⟨rfl, ht₁⟩
    · rw [hx, hy]
      exact ⟨he, ht₁⟩

theorem bindParams (hE : Blamed E node node')
    (hargs : ∀ i, Blamed E (.argument node.origin i) (.argument node'.origin i)) :
    ∀ (params : List Parameter) (index : Nat),
      Alike E (Lower.bindParams node index params) (Lower.bindParams node' index params)
  | [], _ => pure ()
  | p :: rest, index => by
      rw [Lower.bindParams, Lower.bindParams]
      refine (enter _ _).bind fun _ => ?_
      refine (argumentOf (hargs index) index).bind fun handle => ?_
      intro outer outer' c c' ht
      simp only [bind_apply, get_apply]
      rcases ht.declare p.name (.argument handle) with ⟨e, hd, hd'⟩ | ⟨bs, hd, hd'⟩
      · simp only [hd, hd']
        exact ⟨hE.named p.name _, ht⟩
      · simp only [hd, hd']
        exact bindParams hE hargs rest (index + 1) outer outer' _ _
          ⟨ht.module, ht.draft, bs, rfl, rfl⟩

end Alike

/-! ### Functions -/

/-- How a function changes two contexts with the same module: the modules are the same again, and
the drafts at hand and the scopes are those of before. -/
structure Restored (c c' c₁ c₁' : Context) : Prop where
  module : c₁'.module = c₁.module
  left : c₁.draft = c.draft ∧ c₁.scopes = c.scopes
  right : c₁'.draft = c'.draft ∧ c₁'.scopes = c'.scopes

theorem Restored.trans {c c' c₁ c₁' c₂ c₂' : Context} (h : Restored c c' c₁ c₁')
    (h' : Restored c₁ c₁' c₂ c₂') : Restored c c' c₂ c₂' :=
  ⟨h'.module, ⟨h'.left.1.trans h.left.1, h'.left.2.trans h.left.2⟩,
    h'.right.1.trans h.right.1, h'.right.2.trans h.right.2⟩

section

variable {E : LoweringError → LoweringError → Prop} {node node' : Node} {c c' : Context}

theorem openFunction_sideBySide (hE : Blamed E node node') (name : String) (result : SourceType)
    (params : List Parameter) (hm : c'.module = c.module) :
    SideBySide E (Restored c c') (Lower.openFunction node name result params c)
      (Lower.openFunction node' name result params c') := by
  rw [Lower.openFunction_apply, Lower.openFunction_apply, hm]
  cases c.module.declare name (params.map Parameter.toParam) result.toTy with
  | error e m => exact ⟨hE.own _, hm, ⟨rfl, rfl⟩, rfl, rfl⟩
  | ok id m =>
      dsimp only
      cases Draft.start m id with
      | error e => exact ⟨hE.own _, rfl, ⟨rfl, rfl⟩, rfl, rfl⟩
      | ok draft => exact ⟨rfl, rfl, ⟨rfl, rfl⟩, rfl, rfl⟩

/-- Inside a function both runs see the same: the scope that the function opens is a boundary, and
its draft is new. Both come back to where they have left. -/
theorem inFunction_sideBySide (draft : Draft) {body body' : Lower Unit} (hbody : Alike E body body')
    (hm : c'.module = c.module) :
    SideBySide E (Restored c c') (Lower.inFunction draft body c)
      (Lower.inFunction draft body' c') := by
  have hinside := hbody c.scopes c'.scopes { c with draft, scopes := c.scopes.enterFunction }
    { c' with draft, scopes := c'.scopes.enterFunction } ⟨hm, rfl, [], rfl, rfl⟩
  unfold Lower.inFunction
  -- in both cases the outer scopes are still there behind that of the function
  rcases hinside.cases with ⟨_, i, i', hx, hy, ht⟩ | ⟨e, e', i, i', hx, hy, he, ht⟩
  · obtain ⟨bs, hs, hs'⟩ := ht.scopes
    simp only [hx, hy, hs, hs']
    exact ⟨ht.draft, ht.module, ⟨rfl, rfl⟩, rfl, rfl⟩
  · obtain ⟨bs, hs, hs'⟩ := ht.scopes
    simp only [hx, hy, hs, hs']
    exact ⟨he, ht.module, ⟨rfl, rfl⟩, rfl, rfl⟩

theorem finish_sideBySide (hE : Blamed E node node') (draft : Draft) (hm : c'.module = c.module) :
    SideBySide E (Restored c c') (Lower.finish node draft c) (Lower.finish node' draft c') := by
  rw [Lower.finish_apply, Lower.finish_apply, hm]
  cases draft.finish c.module with
  | error e m => exact ⟨hE.own _, hm, ⟨rfl, rfl⟩, rfl, rfl⟩
  | ok _ m => exact ⟨rfl, rfl, ⟨rfl, rfl⟩, rfl, rfl⟩

/-- A function is lowered alike in all contexts with the same module. -/
theorem function_sideBySide (settings : Settings) {origin origin' : Origin} {name : String}
    {result : SourceType} {params : List Parameter} {body body' : List Node}
    (hE : Blamed E (.function origin name result params body)
      (.function origin' name result params body'))
    (hargs : ∀ i, Blamed E (.argument origin i) (.argument origin' i))
    (hbody : Alike E (Node.lowerAll settings body) (Node.lowerAll settings body'))
    (hm : c'.module = c.module) :
    SideBySide E (Restored c c')
      (Node.lower settings (.function origin name result params body) c)
      (Node.lower settings (.function origin' name result params body') c') := by
  have hinside := (Alike.bindParams hE hargs params 0).bind fun _ =>
    hbody.bind fun _ => Alike.implicitReturn hE result
  have htrans : ∀ {d d'}, Restored c c' d d' → ∀ e e', Restored d d' e e' → Restored c c' e e' :=
    fun h _ _ h' => h.trans h'
  rw [Node.lower, Node.lower, Lower.enter_bind, Lower.enter_bind]
  have h₀ : Restored c c' (c.note (.lowering (.function origin name result params body) c.draft.name))
      (c'.note (.lowering (.function origin' name result params body') c'.draft.name)) :=
    ⟨hm, ⟨rfl, rfl⟩, rfl, rfl⟩
  -- the head, the body and the end, and each needs no more than that the modules are the same
  refine ((openFunction_sideBySide hE name result params h₀.module).mono (htrans h₀)).bind ?_
    fun _ _ h => h
  intro draft c₁ c₁' h₁
  refine ((inFunction_sideBySide draft hinside h₁.module).mono (htrans h₁)).bind ?_ fun _ _ h => h
  intro finished c₂ c₂' h₂
  refine ((finish_sideBySide hE finished h₂.module).mono (htrans h₂)).bind ?_ fun _ _ h => h
  intro _ c₃ c₃' h₃
  exact ⟨rfl, h₃.module, h₃.left, h₃.right⟩

end

/-! ### Nodes -/

namespace Alike

variable {E : LoweringError → LoweringError → Prop} {settings : Settings}

theorem binary {origin origin' : Origin} {op : ArithOp} {left left' right right' : Node}
    (hE : Blamed E (.binary origin op left right) (.binary origin' op left' right'))
    (hl : Alike E (left.lower settings) (left'.lower settings))
    (hr : Alike E (right.lower settings) (right'.lower settings)) :
    Alike E (Node.lower settings (.binary origin op left right))
      (Node.lower settings (.binary origin' op left' right')) := by
  rw [Node.lower, Node.lower]
  exact (enter _ _).bind fun _ => hl.bind fun _ => hr.bind fun _ => emit hE _

theorem assign {origin origin' : Origin} {target target' value value' : Node}
    (hE : Blamed E (.assign origin target value) (.assign origin' target' value'))
    (hv : Alike E (value.lower settings) (value'.lower settings))
    (ht : Alike E (Lower.targetOf (.assign origin target value) target)
      (Lower.targetOf (.assign origin' target' value') target')) :
    Alike E (Node.lower settings (.assign origin target value))
      (Node.lower settings (.assign origin' target' value')) := by
  rw [Node.lower, Node.lower]
  exact (enter _ _).bind fun _ => hv.bind fun v => ht.bind fun _ =>
    (emit hE _).bind fun _ => pure v

/-- A function leaves the function around it as it is. -/
theorem function {origin origin' : Origin} {name : String} {result : SourceType}
    {params : List Parameter} {body body' : List Node}
    (hE : Blamed E (.function origin name result params body)
      (.function origin' name result params body'))
    (hargs : ∀ i, Blamed E (.argument origin i) (.argument origin' i))
    (hbody : Alike E (Node.lowerAll settings body) (Node.lowerAll settings body')) :
    Alike E (Node.lower settings (.function origin name result params body))
      (Node.lower settings (.function origin' name result params body')) := by
  intro outer outer' c c' ht
  refine (function_sideBySide settings hE hargs hbody ht.module).mono ?_
  intro c₁ c₁' h
  refine ⟨h.module, by rw [h.right.1, h.left.1, ht.draft], ?_⟩
  rw [h.left.2, h.right.2]
  exact ht.scopes

theorem print {origin origin' : Origin} {arg arg' : Node}
    (hE : Blamed E (.print origin [arg]) (.print origin' [arg']))
    (ha : Alike E (arg.lower settings) (arg'.lower settings)) :
    Alike E (Node.lower settings (.print origin [arg]))
      (Node.lower settings (.print origin' [arg'])) := by
  rw [Node.lower, Node.lower]
  exact (enter _ _).bind fun _ => ha.bind fun v => printCall settings hE v

theorem returnValue {origin origin' : Origin} {value value' : Node}
    (hE : Blamed E (.ret origin (some value)) (.ret origin' (some value')))
    (hv : Alike E (value.lower settings) (value'.lower settings)) :
    Alike E (Node.lower settings (.ret origin (some value)))
      (Node.lower settings (.ret origin' (some value'))) := by
  rw [Node.lower, Node.lower]
  exact (enter _ _).bind fun _ => hv.bind fun _ => emit hE _

end Alike

section

variable {settings : Settings}

mutual

/-- Whatever a node is, no look-up, index or handle in it reaches past the function around it. -/
theorem lower_alike : ∀ node : Node, Alike Eq (node.lower settings) (node.lower settings)
  | .binary _ _ left right => .binary (.refl _) (lower_alike left) (lower_alike right)
  | .assign _ _ value => .assign (.refl _) (lower_alike value) (.targetOf (.refl _) (.refl _))
  | .declare _ name => by
      rw [Node.lower]
      exact (Alike.enter _ _).bind fun _ => .declaration (.refl _) name
  | .use _ name mode => by
      rw [Node.lower]
      exact (Alike.enter _ _).bind fun _ => .useOf (.refl _) name mode
  | .step _ name order direction => by
      rw [Node.lower]
      exact (Alike.enter _ _).bind fun _ => .stepOf (.refl _) name order direction
  | .int _ value => by
      rw [Node.lower]
      exact (Alike.enter _ _).bind fun _ => .pure _
  | .function _ _ _ _ body => .function (.refl _) (fun _ => .refl _) (lowerAll_alike body)
  | .argument _ index => by
      rw [Node.lower]
      exact (Alike.enter _ _).bind fun _ => .argumentOf (.refl _) index
  | .print _ [arg] => .print (.refl _) (lower_alike arg)
  | .print _ [] => (Alike.enter _ _).bind fun _ => .throw rfl
  | .print _ (_ :: _ :: _) => (Alike.enter _ _).bind fun _ => .throw rfl
  | .ret _ (some value) => .returnValue (.refl _) (lower_alike value)
  | .ret _ none => by
      rw [Node.lower]
      exact (Alike.enter _ _).bind fun _ => .emit (.refl _) _

theorem lowerAll_alike : ∀ nodes : List Node,
    Alike Eq (Node.lowerAll settings nodes) (Node.lowerAll settings nodes)
  | [] => .pure ()
  | node :: rest => by
      rw [Node.lowerAll]
      exact (lower_alike node).bind fun _ => lowerAll_alike rest

end

end

/-- A function is closed. In any two contexts with the same module it comes to the same: the same
handle or the same error, and the same module. The draft at hand and the scopes are afterwards what
they were before, whether or not the function could be lowered. -/
theorem function_closed (settings : Settings) (origin : Origin) (name : String)
    (result : SourceType) (params : List Parameter) (body : List Node) (m : Module)
    (draft draft' : Draft) (scopes scopes' : Scopes) (events events' : Array Event) :
    let run := Node.lower settings (.function origin name result params body)
      ⟨m, scopes, draft, events⟩
    let run' := Node.lower settings (.function origin name result params body)
      ⟨m, scopes', draft', events'⟩
    outcome run = outcome run' ∧ (stateAfter run).module = (stateAfter run').module ∧
      (stateAfter run).draft = draft ∧ (stateAfter run).scopes = scopes ∧
      (stateAfter run').draft = draft' ∧ (stateAfter run').scopes = scopes' := by
  intro run run'
  have h : SideBySide Eq
      (Restored ⟨m, scopes, draft, events⟩ ⟨m, scopes', draft', events'⟩) run run' :=
    function_sideBySide settings (.refl _) (fun _ => .refl _) (lowerAll_alike body) rfl
  rcases h.cases with ⟨a, c₁, c₁', hx, hy, hr⟩ | ⟨e, e', c₁, c₁', hx, hy, rfl, hr⟩
  · rw [hx, hy]
    exact ⟨rfl, hr.module.symm, hr.left.1, hr.left.2, hr.right.1, hr.right.2⟩
  · rw [hx, hy]
    exact ⟨rfl, hr.module.symm, hr.left.1, hr.left.2, hr.right.1, hr.right.2⟩

end SlotLang
