import SlotLang.Proofs.Edits

/-!
# SlotLang.Proofs.Log

What lowering writes into the log. `Logs` says which events go with the requests that lowering makes
of the module and of the draft at hand. While a function among the nodes is written, the draft around
it rests, so the events of the two never mix: those of the inner function stand together, between
what the outer one has logged before and after.

`Lower.Reports` adds which nodes a piece of lowering visits if it succeeds. For a tree these are
`Node.visits`, which are read off the tree alone.
-/

namespace SlotLang

/-! ### Nodes in the order of their lowering -/

/-- The node whose lowering an event announces, with the function that it is lowered into. -/
def Event.visited? : Event → Option (Node × String)
  | .lowering node function => some (node, function)
  | _ => none

namespace Node

/-- The nodes that stand for the parameters of a function, counted from an index. -/
def argumentsFrom (origin : Origin) (index : Nat) (params : List Parameter) : List Node :=
  (List.range' index params.length).map (argument origin)

mutual

/-- The nodes of a tree in the order of their lowering, each with the function that it belongs to. A
node comes before its children, an assigned value before its target. A variable that is assigned to
is not visited, and a function has a node for each of its parameters. -/
def visits : Node → String → List (Node × String)
  | node@(binary _ _ left right), f => (node, f) :: (left.visits f ++ right.visits f)
  | node@(assign _ (use ..) value), f => (node, f) :: value.visits f
  | node@(assign _ target value), f => (node, f) :: (value.visits f ++ target.visits f)
  | node@(function origin name _ params body), f =>
    (node, f) :: ((argumentsFrom origin 0 params).map (·, name) ++ visitsAll body name)
  | node@(print _ args), f => (node, f) :: visitsAll args f
  | node@(ret _ (some value)), f => (node, f) :: value.visits f
  | node@(ret _ none), f | node@(declare ..), f | node@(use ..), f | node@(step ..), f
  | node@(int ..), f | node@(argument ..), f => [(node, f)]

/-- The nodes of trees in the order of their lowering. -/
def visitsAll : List Node → String → List (Node × String)
  | [], _ => []
  | node :: rest, f => node.visits f ++ visitsAll rest f

end

end Node

/-! ### Events and requests -/

/-- What a piece of lowering logs while it changes the module and the draft at hand. -/
inductive Logs : Module → Draft → List Event → Module → Draft → Prop
  | refl (m : Module) (d : Draft) : Logs m d [] m d
  | trans {m m₁ m₂ : Module} {d d₁ d₂ : Draft} {es es' : List Event} :
      Logs m d es m₁ d₁ → Logs m₁ d₁ es' m₂ d₂ → Logs m d (es ++ es') m₂ d₂
  | enter {m : Module} {d : Draft} (node : Node) : Logs m d [.lowering node d.name] m d
  | emit {m : Module} {d d₁ : Draft} {instr : Instr} {h : Handle} :
      d.emit m instr = .ok h d₁ → Logs m d [.emitted d.name d.code.length instr] m d₁
  | intern {m : Module} {d : Draft} (text : String) : Logs m d [] (m.intern text).2 d
  | declare {m m₁ : Module} {d : Draft} {name : String} {params : List Param} {result : Ty}
      {id : Nat} : m.declare name params result = .ok id m₁ → Logs m d [] m₁ d
  /-- A function is declared and its body begun, but the module never takes it. If the body is
  complete, the log says that it was to be sealed. -/
  | abandon {m m₁ m₂ : Module} {d inner inner' : Draft} {name : String} {params : List Param}
      {result : Ty} {id : Nat} {es closing : List Event} :
      m.declare name params result = .ok id m₁ → Draft.start m₁ id = .ok inner →
      Logs m₁ inner es m₂ inner' → closing ⊆ [.sealing inner'.name inner'.code.length] →
      Logs m d (es ++ closing) m₂ d
  /-- A function is declared and receives its body. -/
  | define {m m₁ m₂ m₃ : Module} {d inner inner' : Draft} {name : String} {params : List Param}
      {result : Ty} {id : Nat} {es : List Event} :
      m.declare name params result = .ok id m₁ → Draft.start m₁ id = .ok inner →
      Logs m₁ inner es m₂ inner' → inner'.finish m₂ = .ok () m₃ →
      Logs m d (es ++ [.sealing inner'.name inner'.code.length, .completed name]) m₃ d

theorem Logs.edits {m m' : Module} {d d' : Draft} {es : List Event} (h : Logs m d es m' d') :
    Edits m d m' d' := by
  induction h with
  | refl | enter => exact .refl _ _
  | trans _ _ ih ih' => exact ih.trans ih'
  | emit he => exact .emit he
  | intern text => exact .intern text
  | declare hdecl => exact .declare hdecl
  | abandon hdecl hstart _ _ ih => exact .abandon hdecl hstart ih
  | define hdecl hstart _ hfinish ih => exact .define hdecl hstart ih hfinish

/-- A draft keeps its name. -/
theorem Edits.draft_name {m m' : Module} {d d' : Draft} (h : Edits m d m' d') :
    d'.name = d.name := by
  obtain ⟨lines, rfl⟩ := h.draft
  rfl

/-- The draft of a function that has just been declared. -/
theorem Draft.start_declared {m m₁ : Module} {name : String} {params : List Param} {result : Ty}
    {id : Nat} {d : Draft} (hdecl : m.declare name params result = .ok id m₁)
    (hstart : Draft.start m₁ id = .ok d) :
    d.name = name ∧ d.code = [] ∧ d.func = m.functions.length := by
  obtain ⟨-, -, rfl, rfl⟩ := Module.insert_eq_ok_iff.mp hdecl
  obtain ⟨f, hf, -, rfl⟩ := Draft.start_eq_ok hstart
  simp only [Module.function?, List.getElem?_concat_length, Option.some.injEq] at hf
  rw [← hf]
  exact ⟨rfl, rfl, rfl⟩

/-- The log has grown as the module and the draft have, by these visits. -/
def Context.Wrote (c : Context) (visits : List (Node × String)) (c' : Context) : Prop :=
  ∃ es, c'.events.toList = c.events.toList ++ es ∧
    Logs c.module c.draft es c'.module c'.draft ∧ es.filterMap Event.visited? = visits

namespace Context.Wrote

variable {c c₁ c₂ : Context} {vs ws : List (Node × String)}

theorem refl (c : Context) : c.Wrote [] c := ⟨[], (List.append_nil _).symm, .refl _ _, rfl⟩

theorem trans (h : c.Wrote vs c₁) (h' : c₁.Wrote ws c₂) : c.Wrote (vs ++ ws) c₂ := by
  obtain ⟨es, hes, hlogs, rfl⟩ := h
  obtain ⟨es', hes', hlogs', rfl⟩ := h'
  refine ⟨es ++ es', ?_, hlogs.trans hlogs', List.filterMap_append⟩
  rw [hes', hes, List.append_assoc]

theorem edits (h : c.Wrote vs c₁) : Edits c.module c.draft c₁.module c₁.draft := by
  obtain ⟨es, -, hlogs, -⟩ := h
  exact hlogs.edits

theorem enter (c : Context) (node : Node) :
    c.Wrote [(node, c.draft.name)] (c.note (.lowering node c.draft.name)) :=
  ⟨_, Array.toList_push, .enter node, rfl⟩

/-- The scopes have no part in the log. -/
theorem of_scopes (h : c.Wrote vs c₁) (scopes : Scopes) : c.Wrote vs { c₁ with scopes } := h

end Context.Wrote

/-! ### Steps of lowering -/

/-- What a step has left behind: these visits if it has succeeded, and any visits if not. -/
def Reported {α : Type} (c : Context) (visits : List (Node × String)) :
    EStateM.Result LoweringError Context α → Prop
  | .ok _ c' => c.Wrote visits c'
  | .error _ c' => ∃ visits', c.Wrote visits' c'

theorem Reported.wrote {α : Type} {c : Context} {visits : List (Node × String)}
    {r : EStateM.Result LoweringError Context α} (h : Reported c visits r) :
    ∃ visits', c.Wrote visits' (stateAfter r) := by
  cases r with
  | ok a c' => exact ⟨visits, h⟩
  | error e c' => exact h

namespace Lower

variable {α β : Type}

/-- A step that logs what it does. Its visits depend on the function at hand. -/
def Reports (x : Lower α) (visits : String → List (Node × String)) : Prop :=
  ∀ c, Reported c (visits c.draft.name) (x c)

/-- A step that visits no node. -/
abbrev Quiet (x : Lower α) : Prop := Reports x fun _ => []

namespace Reports

variable {vs ws : String → List (Node × String)}

theorem bind {x : Lower α} {f : α → Lower β} (hx : Reports x vs) (hf : ∀ a, Reports (f a) ws) :
    Reports (x >>= f) fun n => vs n ++ ws n := by
  intro c
  have h := hx c
  rw [bind_apply]
  cases hr : x c with
  | error e c₁ =>
      rw [hr] at h
      exact h
  | ok a c₁ =>
      rw [hr] at h
      have h' := hf a c₁
      -- the second step goes on in the same function
      rw [Edits.draft_name (Context.Wrote.edits h)] at h'
      dsimp only
      cases hr' : f a c₁ with
      | ok b c₂ =>
          rw [hr'] at h'
          exact Context.Wrote.trans h h'
      | error e c₂ =>
          rw [hr'] at h'
          obtain ⟨visits, h'⟩ := h'
          exact ⟨_, Context.Wrote.trans h h'⟩

theorem bind_quiet {x : Lower α} {f : α → Lower β} (hx : Reports x vs) (hf : ∀ a, Quiet (f a)) :
    Reports (x >>= f) vs := by
  have h := hx.bind hf
  simp only [List.append_nil] at h
  exact h

theorem quiet_bind {x : Lower α} {f : α → Lower β} (hx : Quiet x) (hf : ∀ a, Reports (f a) vs) :
    Reports (x >>= f) vs := hx.bind hf

/-- A node is visited before its parts. -/
theorem enter_bind (node : Node) {f : Unit → Lower β} (hf : ∀ a, Reports (f a) vs) :
    Reports (Lower.enter node >>= f) fun n => (node, n) :: vs n := by
  have henter : Reports (Lower.enter node) fun n => [(node, n)] := fun c => .enter c node
  exact henter.bind hf

theorem throw (e : LoweringError) : Reports (MonadExcept.throw e : Lower α) vs :=
  fun c => ⟨[], Context.Wrote.refl c⟩

end Reports

namespace Quiet

theorem pure (a : α) : Quiet (Pure.pure a : Lower α) := fun c => Context.Wrote.refl c

theorem emit (node : Node) (instr : Instr) : Quiet (Lower.emit node instr) := by
  intro c
  rw [emit_apply]
  cases he : c.draft.emit c.module instr with
  | error e d => exact ⟨[], .refl c⟩
  | ok h d => exact ⟨_, Array.toList_push, .emit he, rfl⟩

theorem resolve (node : Node) (name : String) : Quiet (Lower.resolve node name) := by
  intro c
  rw [resolve_apply]
  cases c.scopes.resolve? name with
  | none => exact ⟨[], .refl c⟩
  | some b => exact .refl c

theorem argumentOf (node : Node) (index : Nat) : Quiet (Lower.argumentOf node index) := by
  intro c
  rw [argumentOf_apply]
  split
  · exact .refl c
  · exact ⟨[], .refl c⟩

theorem storageOf (node : Node) (name : String) : Quiet (Lower.storageOf node name) := by
  refine (resolve node name).bind_quiet fun b => ?_
  cases b with
  | storage h => exact pure h
  | argument h => exact .throw _

theorem declaration (node : Node) (name : String) : Quiet (Lower.declaration node name) := by
  intro c
  have h := emit node (.alloca name) c
  rw [declaration_apply]
  split
  · exact ⟨[], .refl c⟩
  · cases hr : Lower.emit node (.alloca name) c with
    | error e c' =>
        rw [hr] at h
        exact h
    | ok p c' =>
        rw [hr] at h
        dsimp only
        cases c.scopes.declare name (.storage p) with
        | error e => exact ⟨[], h⟩
        | ok scopes => exact h.of_scopes scopes

theorem useOf (node : Node) (name : String) (mode : UseMode) :
    Quiet (Lower.useOf node name mode) := by
  cases mode with
  | address => exact storageOf node name
  | value =>
      refine (resolve node name).bind_quiet fun b => ?_
      cases b with
      | storage h => exact emit node _
      | argument h => exact pure h

theorem stepOf (node : Node) (name : String) (order : StepOrder) (direction : Direction) :
    Quiet (Lower.stepOf node name order direction) := by
  refine (storageOf node name).bind_quiet fun slot => ?_
  refine (emit node _).bind_quiet fun current => ?_
  refine (emit node _).bind_quiet fun updated => ?_
  refine (emit node _).bind_quiet fun _ => ?_
  cases order with
  | pre => exact pure updated
  | post => exact pure current

theorem printCall (settings : Settings) (node : Node) (value : Handle) :
    Quiet (Lower.printCall settings node value) := by
  intro c
  simp only [Lower.printCall, bind_apply, get_apply]
  cases c.module.find? settings.printRoutine with
  | none => exact ⟨[], .refl c⟩
  | some callee =>
      cases settings.printFormat with
      | none => exact emit node _ c
      | some format =>
          have hintern : Quiet (modifyGet fun c : Context =>
              ((c.module.intern format).1, { c with module := (c.module.intern format).2 }) :
                Lower Nat) :=
            fun c => ⟨[], (List.append_nil _).symm, .intern format, rfl⟩
          exact hintern.bind_quiet (fun id => emit node (.call callee [.global id, value])) c

theorem implicitReturn (node : Node) (result : SourceType) :
    Quiet (Lower.implicitReturn node result) := by
  intro c
  have h := emit node (.ret result.implicit) c
  rw [implicitReturn_apply]
  split
  · exact .refl c
  · cases hr : Lower.emit node (.ret result.implicit) c <;> rw [hr] at h <;> exact h

end Quiet

/-- Parameters are visited one by one, as nodes of the function that they belong to. -/
theorem bindParams_reports (node : Node) : ∀ (params : List Parameter) (index : Nat),
    Reports (Lower.bindParams node index params) fun n =>
      (Node.argumentsFrom node.origin index params).map (·, n)
  | [], _ => Quiet.pure ()
  | p :: rest, index => by
      rw [bindParams]
      refine .enter_bind _ fun _ => .quiet_bind (Quiet.argumentOf _ index) fun handle => ?_
      intro c
      simp only [bind_apply, get_apply]
      cases c.scopes.declare p.name (.argument handle) with
      | error e => exact ⟨[], .refl c⟩
      | ok scopes => exact bindParams_reports node rest (index + 1) { c with scopes }

end Lower

/-! ### Nodes -/

section

variable {settings : Settings}

theorem assign_reports (origin : Origin) (target : Node) {value : Node}
    (hvalue : Lower.Reports (value.lower settings) value.visits) :
    Lower.Reports (Node.lower settings (.assign origin target value))
      (Node.visits (.assign origin target value)) := by
  rw [Node.lower]
  cases target with
  | use _ name _ =>
      exact .enter_bind _ fun _ => hvalue.bind_quiet fun v =>
        (Lower.Quiet.storageOf _ name).bind_quiet fun _ =>
          (Lower.Quiet.emit _ _).bind_quiet fun _ => .pure v
  | declare _ name =>
      exact .enter_bind _ fun _ => hvalue.bind fun v =>
        .bind_quiet (.enter_bind _ fun _ => Lower.Quiet.declaration _ name) fun _ =>
          (Lower.Quiet.emit _ _).bind_quiet fun _ => .pure v
  | _ =>
      -- nothing else can be assigned to
      exact .enter_bind _ fun _ => hvalue.bind fun v =>
        .bind_quiet (.throw _) fun _ => (Lower.Quiet.emit _ _).bind_quiet fun _ => .pure v

/-- A function has its own part of the log. It ends with the sealing, unless something fails before
that. -/
theorem function_reports (origin : Origin) (name : String) (result : SourceType)
    (params : List Parameter) {body : List Node}
    (hbody : Lower.Reports (Node.lowerAll settings body) (Node.visitsAll body)) :
    Lower.Reports (Node.lower settings (.function origin name result params body))
      (Node.visits (.function origin name result params body)) := by
  rw [Node.lower]
  refine .enter_bind _ fun _ => ?_
  intro c
  rw [bind_apply, Lower.openFunction_apply]
  cases hd : c.module.declare name (params.map Parameter.toParam) result.toTy with
  | error e m₁ => exact ⟨[], .refl c⟩
  | ok id m₁ =>
      dsimp only
      cases hstart : Draft.start m₁ id with
      | error e => exact ⟨[], [], (List.append_nil _).symm, .declare hd, rfl⟩
      | ok draft =>
          obtain ⟨hname, -, -⟩ := Draft.start_declared hd hstart
          let node := Node.function origin name result params body
          have hinside := (Lower.bindParams_reports node params 0).bind fun _ =>
            hbody.bind_quiet fun _ => Lower.Quiet.implicitReturn node result
          have h := hinside { c with module := m₁, draft, scopes := c.scopes.enterFunction }
          dsimp only
          rw [bind_apply, Lower.inFunction]
          dsimp only at h ⊢
          generalize (Lower.bindParams node 0 params >>= fun _ =>
            Node.lowerAll settings body >>= fun _ => Lower.implicitReturn node result)
              { c with module := m₁, draft, scopes := c.scopes.enterFunction } = r at h ⊢
          -- the draft around the function is back at hand in every case
          cases r with
          | error e inner =>
              obtain ⟨_, es, hes, hlogs, -⟩ := h
              have habandon := hlogs.abandon (d := c.draft) hd hstart (List.nil_subset _)
              rw [List.append_nil] at habandon
              exact ⟨_, es, hes, habandon, rfl⟩
          | ok _ inner =>
              obtain ⟨es, hes, hlogs, hvisits⟩ := h
              dsimp only
              rw [bind_apply, Lower.finish_apply]
              dsimp only
              cases hdef : inner.draft.finish inner.module with
              | error e m₃ =>
                  refine ⟨_, _, ?_, .abandon hd hstart hlogs (List.Subset.refl _), rfl⟩
                  simp [Context.note, hes]
              | ok _ m₃ =>
                  refine ⟨_, ?_, .define hd hstart hlogs hdef, ?_⟩
                  · simp [Context.note, hes]
                  · rw [List.filterMap_append, hvisits, hname]
                    exact List.append_nil _

mutual

/-- Whether it succeeds or fails, lowering logs what it does, and a success has visited the whole
tree. -/
theorem lower_reports : ∀ node : Node, Lower.Reports (node.lower settings) node.visits
  | .binary origin op left right => by
      rw [Node.lower]
      exact .enter_bind _ fun _ => (lower_reports left).bind fun _ =>
        (lower_reports right).bind_quiet fun _ => .emit _ _
  | .assign origin target value => assign_reports origin target (lower_reports value)
  | .declare origin name => by
      rw [Node.lower]
      exact .enter_bind _ fun _ => Lower.Quiet.declaration _ name
  | .use origin name mode => by
      rw [Node.lower]
      exact .enter_bind _ fun _ => Lower.Quiet.useOf _ name mode
  | .step origin name order direction => by
      rw [Node.lower]
      exact .enter_bind _ fun _ => Lower.Quiet.stepOf _ name order direction
  | .int origin value => by
      rw [Node.lower]
      exact .enter_bind _ fun _ => Lower.Quiet.pure _
  | .function origin name result params body =>
      function_reports origin name result params (lowerAll_reports body)
  | .argument origin index => by
      rw [Node.lower]
      exact .enter_bind _ fun _ => Lower.Quiet.argumentOf _ index
  | .print origin [arg] => by
      rw [Node.lower]
      have hvisits : Node.visits (.print origin [arg]) = fun f =>
          (.print origin [arg], f) :: arg.visits f := by
        funext f
        simp [Node.visits, Node.visitsAll]
      rw [hvisits]
      exact .enter_bind _ fun _ => (lower_reports arg).bind_quiet fun v =>
        .printCall settings _ v
  | .print origin [] => .enter_bind _ fun _ => .throw _
  | .print origin (_ :: _ :: _) => .enter_bind _ fun _ => .throw _
  | .ret origin (some value) => by
      rw [Node.lower]
      exact .enter_bind _ fun _ => (lower_reports value).bind_quiet fun _ => .emit _ _
  | .ret origin none => by
      rw [Node.lower]
      exact .enter_bind _ fun _ => Lower.Quiet.emit _ _

theorem lowerAll_reports : ∀ nodes : List Node,
    Lower.Reports (Node.lowerAll settings nodes) (Node.visitsAll nodes)
  | [] => Lower.Quiet.pure ()
  | node :: rest => by
      rw [Node.lowerAll]
      exact (lower_reports node).bind fun _ => lowerAll_reports rest

end

end

/-- To look at the value of a node is no visit. -/
theorem value?_quiet (node : Node) : Lower.Quiet node.value? := by
  have hmap : ∀ {x : Lower Handle}, Lower.Quiet x → Lower.Quiet (some <$> x) := by
    intro x hx
    exact hx.bind_quiet fun h => .pure (some h)
  cases node with
  | declare origin name =>
      exact (Lower.Quiet.storageOf _ name).bind_quiet fun _ => hmap (.emit _ _)
  | use origin name mode => exact hmap (.useOf _ name mode)
  | argument origin index => exact hmap (.argumentOf _ index)
  | _ => exact .pure none

end SlotLang
