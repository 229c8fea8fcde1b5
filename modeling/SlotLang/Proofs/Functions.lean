import SlotLang.Proofs.Lowered

/-!
# SlotLang.Proofs.Functions

How functions are lowered: the name is declared, the parameters are bound, the body is written in
a scope of its own, and the finished code takes the place that was kept for it in the module.
-/

namespace SlotLang

section

variable {settings : Settings} {c : Context}

/-! ### Declarations -/

/-- A function of the tree as it is declared, before it has a body. -/
def Func.declared (name : String) (result : SourceType) (params : List Parameter) : Func :=
  .pending name (params.map Parameter.toParam) result.toTy

/-- A context whose module has one more function. -/
def Context.declare (c : Context) (f : Func) : Context :=
  { c with module := { c.module with
      functions := c.module.functions ++ [f]
      index := (f.name, c.module.functions.length) :: c.module.index } }

/-- A context in which the body of a function begins. -/
def Context.enter (c : Context) (draft : Draft) : Context :=
  { c with draft, scopes := c.scopes.enterFunction }

/-- The draft of a function that has just been declared. -/
def Draft.opened (id : Nat) (f : Func) : Draft :=
  ⟨id, f.name, f.params.map Param.ty, f.result, [], []⟩

theorem Context.outline_note (c : Context) (event : Event) :
    (c.note event).outline = c.outline := rfl

theorem Context.note_enter (c : Context) (draft : Draft) (event : Event) :
    (c.enter draft).note event = (c.note event).enter draft := rfl

/-- The only type that a declared function can be refused for is that of a void parameter. -/
theorem Func.checkTypes_declared (name : String) (result : SourceType) (params : List Parameter) :
    if params.any fun p => p.type = .void then
      ∃ usage ty, (declared name result params).checkTypes = .error (.invalidType usage ty)
    else (declared name result params).checkTypes = .ok () := by
  have hp : ((fun p => !p.ty.passable) ∘ Parameter.toParam) =
      fun p => decide (p.type = .void) := by
    funext p
    cases h : p.type <;> simp [Parameter.toParam, h, SourceType.toTy, Ty.passable]
  have hr : result.toTy.returnable = true := by cases result <;> rfl
  simp only [checkTypes, declared, pending, List.find?_map, hp, hr, if_true]
  cases hf : params.find? fun p => decide (p.type = .void) with
  | none =>
      have hany : (params.any fun p => decide (p.type = .void)) = false := by
        simpa [List.find?_eq_none] using hf
      simp [hany]
  | some p =>
      have hvoid := List.find?_some hf
      have hany : (params.any fun p => decide (p.type = .void)) = true :=
        List.any_eq_true.mpr ⟨p, List.mem_of_find?_eq_some hf, hvoid⟩
      rw [if_pos hany]
      exact ⟨_, _, rfl⟩

theorem openFunction_agrees (node : Node) (name : String) (result : SourceType)
    (params : List Parameter) (hc : c.module.Indexed) :
    Agree (fun d _ c' => (∀ p ∈ params, p.type = .int) ∧
        (c.declare (.declared name result params)).module.Indexed ∧
        d = .opened c.module.functions.length (.declared name result params) ∧
        c' = c.declare (.declared name result params))
      (Lower.openFunction node name result params c)
      (Check.openFunction node name params c.outline) := by
  rw [Lower.openFunction_apply]
  have htypes := Func.checkTypes_declared name result params
  by_cases hname : name ∈ c.outline.functions
  · have hk : Check.openFunction node name params c.outline =
        .error (.blame .duplicateFunction node) c.outline := if_pos hname
    have hl : c.module.declare name (params.map Parameter.toParam) result.toTy =
        .error (.duplicateFunction name) c.module := by
      rw [Module.declare, Module.insert_eq]
      cases hf : c.module.find? name with
      | none => exact absurd hname ((hc.find?_eq_none_iff name).mp hf)
      | some id => simp only [Func.pending, hf]
    rw [hk, hl]
    rfl
  · have hf : c.module.find? name = none := (hc.find?_eq_none_iff name).mpr hname
    by_cases hany : (params.any fun p => decide (p.type = .void)) = true
    · rw [if_pos hany] at htypes
      obtain ⟨usage, ty, he⟩ := htypes
      have hk : Check.openFunction node name params c.outline =
          .error (.blame .backendRejected node) c.outline := by
        rw [Check.openFunction, if_neg hname, if_pos hany]
      have hl : c.module.declare name (params.map Parameter.toParam) result.toTy =
          .error (.invalidType usage ty) c.module := by
        have hf' : c.module.find? (Func.declared name result params).name = none := hf
        change c.module.insert (.declared name result params) = _
        simp only [Module.insert_eq, hf', he]
      rw [hk, hl]
      rfl
    · rw [if_neg hany] at htypes
      have hk : Check.openFunction node name params c.outline =
          .ok () { c.outline with functions := c.outline.functions ++ [name] } := by
        rw [Check.openFunction, if_neg hname, if_neg hany]
      have hl : c.module.declare name (params.map Parameter.toParam) result.toTy =
          .ok c.module.functions.length (c.declare (.declared name result params)).module :=
        Module.insert_eq_ok_iff.mpr ⟨hf, htypes, rfl, rfl⟩
      have hd : Draft.start (c.declare (.declared name result params)).module
          c.module.functions.length =
          .ok (.opened c.module.functions.length (.declared name result params)) := by
        simp [Draft.start, Module.function?, Context.declare, Func.declared, Func.pending,
          Draft.opened]
      rw [hk, hl]
      simp only [hd]
      refine ⟨?_, ?_, hc.insert hl, rfl, rfl⟩
      · simp [Context.outline, Context.declare, Func.declared, Func.pending, Context.bindings]
      · intro p hp
        have hvoid : ¬ p.type = .void := by
          intro h
          exact hany (List.any_eq_true.mpr ⟨p, hp, by simp [h]⟩)
        cases h : p.type with
        | int => rfl
        | void => exact absurd h hvoid

/-- A function begins in a sound context, whatever the function around it may be. -/
theorem sound_enter (name : String) (result : SourceType) {params : List Parameter}
    (hp : ∀ p ∈ params, p.type = .int) (hindexed : c.module.Indexed)
    (hprint : ∃ rest, c.module.functions = settings.printFunc :: rest)
    (htexts : c.module.texts <+: settings.printFormat.toList) (id : Nat) :
    Sound settings (c.enter (.opened id (.declared name result params))) := by
  refine ⟨⟨c.scopes, rfl⟩, ?_, ?_, ?_, rfl, hindexed, hprint, htexts⟩
  · intro x b hx
    cases hx
  · intro ty hty
    simp only [Context.enter, Draft.opened, Func.declared, Func.pending, List.map_map,
      List.mem_map] at hty
    obtain ⟨p, hmem, rfl⟩ := hty
    simp [Parameter.toParam, hp p hmem, SourceType.toTy]
  · simp [Context.enter, Draft.opened, Func.declared, Func.pending]

theorem outline_enter (c : Context) (name : String) (result : SourceType)
    (params : List Parameter) (id : Nat) :
    (c.enter (.opened id (.declared name result params))).outline =
      c.outline.enter result params.length := by
  simp [Context.outline, Context.enter, Draft.opened, Func.declared, Func.pending, Outline.enter,
    Context.bindings, Scopes.enterFunction, Draft.isTerminated]

/-- Parameters are bound from left to right, and each name once. -/
theorem bindParams_agrees (node : Node) : ∀ (params : List Parameter) (index : Nat) {c : Context},
    Sound settings c → index + params.length ≤ c.draft.params.length →
    Agree (fun _ _ c' => Sound settings c' ∧ Grown settings c c' [] [] false ∧
        c'.bindings = Parameter.bindings index params c.bindings ∧
        (params.map Parameter.name).Nodup ∧
        ∀ p ∈ params, c.bindings.lookup p.name = none)
      (Lower.bindParams node index params c) (Check.bindParams node params c.outline)
  | [], index, c, hc, _ => ⟨rfl, hc, .refl settings c, rfl, .nil, by simp⟩
  | p :: rest, index, c, hc, hlen => by
      rw [List.length_cons] at hlen
      have hi : index < c.draft.params.length := by omega
      have hrole := c.role?_outline p.name
      rw [Lower.bindParams_cons node p rest hi, hc.declare_eq, Check.bindParams, bind_apply]
      cases hx : c.bindings.lookup p.name with
      | some b =>
          have hk : Check.bindParam node p.name c.outline =
              .error (.blameName .redeclaration node p.name) c.outline := by
            simp [Check.bindParam, hrole, hx]
          rw [hk]
          rfl
      | none =>
          have hk : Check.bindParam node p.name c.outline =
              .ok () (c.outline.bind p.name .parameter) := by
            simp [Check.bindParam, hrole, hx]
          rw [hk]
          have hn := hc.note (.lowering (.argument node.origin index) c.draft.name)
          have hs₁ := hn.bind p.name (.argument (.arg (.ofNat index))) (hn.typeOf?_arg hi)
          have hlen₁ : index + 1 + rest.length ≤ c.draft.params.length := by omega
          refine (bindParams_agrees node rest (index + 1) hs₁ hlen₁).mono ?_
          rintro _ _ c' ⟨hs', hg', hb', hnd, hfree⟩
          have hne : ∀ q ∈ rest, q.name ≠ p.name ∧ c.bindings.lookup q.name = none :=
            fun q hq => Bindings.lookup_cons_eq_none_iff.mp (hfree q hq)
          refine ⟨hs', (grown_bind settings _ p.name _).of_note.trans hg', hb', ?_, ?_⟩
          · rw [List.map_cons, List.nodup_cons, List.mem_map]
            refine ⟨?_, hnd⟩
            rintro ⟨q, hq, heq⟩
            exact (hne q hq).1 heq
          · intro q hq
            rcases List.mem_cons.mp hq with rfl | hq
            · exact hx
            · exact (hne q hq).2

/-! ### Bodies -/

/-- The draft with the return that it may lack. -/
def Draft.complete (d : Draft) (result : SourceType) : Draft :=
  if d.isTerminated then d else d.append [⟨.ret result.implicit, .void⟩]

/-- A body is complete if its code is. -/
theorem Draft.complete_append {d : Draft} (hd : d.code = []) (lines : List Line)
    (result : SourceType) : (d.append lines).complete result = d.append (result.complete lines) := by
  have hends : (d.append lines).isTerminated = endsInReturn lines := by
    simp [isTerminated, endsInReturn, hd, List.getLast?_map, Function.comp_def]
  rw [complete, hends, SourceType.complete]
  split
  · rfl
  · rw [append_append]

theorem implicitReturn_agrees (node : Node) {result : SourceType}
    (hr : c.draft.result = result.toTy) :
    Agree (fun _ _ c' => c'.draft = c.draft.complete result ∧ c'.module = c.module ∧
        c'.scopes = c.scopes)
      (Lower.implicitReturn node result c) (Check.implicitReturn c.outline) := by
  rw [Lower.implicitReturn_apply]
  have hk : Check.implicitReturn c.outline = .ok () { c.outline with returned := true } := rfl
  rw [hk]
  cases ht : c.draft.isTerminated with
  | true =>
      refine ⟨?_, ?_, rfl, rfl⟩
      · change _ = { c.outline with returned := c.draft.isTerminated }
        rw [ht]
      · rw [Draft.complete, if_pos ht]
  | false =>
      obtain ⟨c', hc', he⟩ := Lower.emit_ok node (Draft.judges_implicit c.module hr) ht
      simp only [Bool.false_eq_true, if_false, hc']
      refine ⟨he.outline.symm, ?_, he.module, he.scopes⟩
      rw [he.draft, Draft.complete, if_neg (by rw [ht]; exact Bool.false_ne_true)]

/-- Inside a function lowering and checking see nothing but the functions of the module, and
afterwards the function around it is as before. -/
theorem inFunction_agrees {name : String} {result : SourceType} {params : List Parameter} {id : Nat}
    {body : Lower Unit} {check : Check Unit} {P : Context → Prop}
    (hbody : Agree (fun _ _ inner => P inner ∧ inner.scopes.exitFunction = c.scopes)
      (body (c.enter (.opened id (.declared name result params))))
      (check (c.outline.enter result params.length))) :
    Agree (fun d _ c' => ∃ inner, P inner ∧ d = inner.draft ∧
        c' = { inner with draft := c.draft, scopes := c.scopes })
      (Lower.inFunction (.opened id (.declared name result params)) body c)
      (Check.inFunction result params.length check c.outline) := by
  unfold Lower.inFunction Check.inFunction
  rcases hbody.cases with ⟨_, _, inner, hl, hk, hp, hs⟩ | ⟨e, inner, o, hl, hk⟩
  · rw [Context.enter] at hl
    simp only [hl, hk]
    have hleave : ({ inner with draft := c.draft, scopes := inner.scopes.exitFunction } :
        Context) = { inner with draft := c.draft, scopes := c.scopes } := by rw [hs]
    exact ⟨(congrArg Context.outline hleave).symm, inner, hp, rfl, hleave⟩
  · rw [Context.enter] at hl
    simp only [hl, hk]
    rfl

/-- What has to hold of statements for their agreement with the checker. -/
def AgreesAll (settings : Settings) (nodes : List Node) : Prop :=
  ∀ c, Sound settings c → Agree (fun _ _ => LoweredAll settings c nodes)
    (Node.lowerAll settings nodes c) (Node.checkAll nodes c.outline)

/-- The inside of a function, as it is lowered: parameters are bound, statements lowered and a
missing return is added. -/
def Lower.inside (settings : Settings) (node : Node) (result : SourceType)
    (params : List Parameter) (body : List Node) : Lower Unit := do
  bindParams node 0 params
  Node.lowerAll settings body
  implicitReturn node result

/-- The inside of a function, as it is checked. -/
def Check.inside (node : Node) (params : List Parameter) (body : List Node) : Check Unit := do
  bindParams node params
  Node.checkAll body
  implicitReturn

/-- What is left of the inside of a function: `lines` is the code of the statements, and `funs`
are the functions among them. -/
structure Filled (settings : Settings) (c : Context) (draft : Draft) (result : SourceType)
    (params : List Parameter) (body : List Node) (lines : List Line) (funs : List Func)
    (inner : Context) : Prop where
  draft : inner.draft = draft.append (result.complete lines)
  functions : inner.module.functions = c.module.functions ++ funs
  indexed : inner.module.Indexed
  texts : inner.module.texts =
    if Node.hasPrintAll body then settings.printFormat.toList else c.module.texts
  nodup : (params.map Parameter.name).Nodup
  compiled : List.Forall₂ (Compiled settings) (Node.functionsAll body) funs
  code : ∃ bs, CodeAll settings params.length result (Parameter.bindings 0 params []) 0 body lines
    bs

theorem inside_agrees (node : Node) (name : String) (result : SourceType) (params : List Parameter)
    {body : List Node} (hbody : AgreesAll settings body) (id : Nat)
    (hp : ∀ p ∈ params, p.type = .int) (hindexed : c.module.Indexed)
    (hprint : ∃ rest, c.module.functions = settings.printFunc :: rest)
    (htexts : c.module.texts <+: settings.printFormat.toList) :
    Agree (fun _ _ inner =>
        (∃ lines funs, Filled settings c (.opened id (.declared name result params)) result params
          body lines funs inner) ∧ inner.scopes.exitFunction = c.scopes)
      (Lower.inside settings node result params body
        (c.enter (.opened id (.declared name result params))))
      (Check.inside node params body (c.outline.enter result params.length)) := by
  have hs := sound_enter name result hp hindexed hprint htexts id
  rw [← outline_enter c name result params id]
  have hlen : 0 + params.length ≤
      (c.enter (.opened id (.declared name result params))).draft.params.length := by
    simp [Context.enter, Draft.opened, Func.declared, Func.pending]
  refine Agree.bind (bindParams_agrees node params 0 hs hlen) ?_
  rintro _ _ c₁ ⟨hs₁, hg₁, hb₁, hnodup, -⟩
  refine Agree.bind (hbody c₁ hs₁) ?_
  rintro _ _ c₂ ⟨hs₂, lines, funs, hg₂, hfuns, hcode⟩
  -- parameters leave no code behind, so all lines of the draft are those of the statements
  have hg := hg₁.trans hg₂
  have hdraft : c₂.draft = (Draft.opened id (.declared name result params)).append lines := hg.draft
  have hresult : c₂.draft.result = result.toTy := by rw [hdraft]; rfl
  refine (implicitReturn_agrees node hresult).mono ?_
  rintro _ _ inner ⟨hd, hm, hscopes⟩
  refine ⟨⟨lines, funs, ?_, ?_, hm ▸ hs₂.indexed, ?_, hnodup, hfuns, c₂.bindings, ?_⟩, ?_⟩
  · rw [hd, hdraft]
    exact Draft.complete_append rfl lines result
  · rw [hm, hg.functions]
    rfl
  · rw [hm, hg.texts]
    rfl
  · rw [hb₁, hg₁.draft] at hcode
    simpa [Context.enter, Draft.opened, Func.declared, Func.pending, Context.bindings,
      Scopes.enterFunction] using hcode
  · obtain ⟨outer, houter⟩ := hs₂.scope
    have htail := hg.outer
    rw [houter] at htail
    rw [hscopes, houter]
    exact htail

/-! ### Definitions -/

/-- The function that lowering makes of a function of the tree. -/
def Func.compiled (name : String) (result : SourceType) (params : List Parameter)
    (lines : List Line) : Func :=
  (declared name result params).define (result.complete lines)

theorem Filled.compiled_self {draft : Draft} {result : SourceType} {params : List Parameter}
    {body : List Node} {lines : List Line} {funs : List Func} {inner : Context}
    (h : Filled settings c draft result params body lines funs inner) (origin : Origin)
    (name : String) :
    Compiled settings (.function origin name result params body)
      (.compiled name result params lines) := by
  obtain ⟨bs, hcode⟩ := h.code
  exact ⟨h.nodup, lines, bs, hcode, rfl⟩

/-- A declared function receives its body where it stands. -/
theorem Module.define_declared {m : Module} {before after : List Func} {f : Func}
    (hm : m.functions = before ++ f :: after) (hexternal : f.isExternal = false)
    (hbody : f.body? = none) (lines : List Line) :
    m.define before.length (lines.map Line.instr) (lines.map Line.ty) = .ok () { m with
      functions := before ++ f.define lines :: after } := by
  refine define_eq_ok_iff.mpr ⟨f, ?_, hexternal, hbody, ?_⟩
  · rw [hm, List.getElem?_append_right (Nat.le_refl _), Nat.sub_self]
    rfl
  · rw [hm, List.set_append_right _ _ (Nat.le_refl _), Nat.sub_self]
    rfl

/-- The draft of a function that was declared at the end of a module is always accepted. -/
theorem finish_ok (node : Node) {name : String} {result : SourceType} {params : List Parameter}
    {body : List Node} {lines : List Line} {funs : List Func} {inner : Context}
    (h : Filled settings (c.declare (.declared name result params))
      (.opened c.module.functions.length (.declared name result params)) result params body lines
      funs inner) (outer : Context) (hm : outer.module = inner.module) :
    ∃ c', Lower.finish node inner.draft outer = .ok () c' ∧ c'.draft = outer.draft ∧
      c'.scopes = outer.scopes ∧
      c'.module.functions = c.module.functions ++ .compiled name result params lines :: funs ∧
      c'.module.Indexed ∧ c'.module.texts = inner.module.texts := by
  have hfuns : outer.module.functions =
      c.module.functions ++ .declared name result params :: funs := by
    rw [hm, h.functions]
    simp [Context.declare]
  have hdef := Module.define_declared hfuns rfl rfl (result.complete lines)
  have hfinish : inner.draft.finish outer.module = .ok () { outer.module with
      functions := c.module.functions ++ .compiled name result params lines :: funs } := by
    rw [h.draft]
    exact hdef
  have hindexed := (hm ▸ h.indexed : outer.module.Indexed).define hdef
  rw [Lower.finish_apply, hfinish]
  exact ⟨_, rfl, rfl, rfl, rfl, hindexed, by rw [← hm]⟩

/-- A function is lowered exactly if its name is new, its parameters are different integers and
its body is correct. -/
theorem function_agrees (origin : Origin) (name : String) (result : SourceType)
    (params : List Parameter) {body : List Node} (hbody : AgreesAll settings body) :
    Agrees settings (.function origin name result params body) := by
  intro c hc
  rw [Node.lower, Node.check, Lower.enter_bind]
  refine Agree.bind (openFunction_agrees _ name result params (hc.note _).indexed) ?_
  rintro d _ c₁ ⟨hp, hindexed, rfl, rfl⟩
  obtain ⟨rest, hrest⟩ := hc.print
  have hprint : ∃ rest', (c.declare (.declared name result params)).module.functions =
      settings.printFunc :: rest' :=
    ⟨rest ++ [.declared name result params], by simp [Context.declare, hrest]⟩
  refine Agree.bind
    (inFunction_agrees (inside_agrees _ name result params hbody _ hp hindexed hprint hc.texts))
    ?_
  rintro d _ c₂ ⟨inner, ⟨lines, funs, hfilled⟩, rfl, hc₂⟩
  have hm₂ : c₂.module = inner.module := by rw [hc₂]
  have hd₂ : c₂.draft = c.draft := by rw [hc₂]; rfl
  have hs₂ : c₂.scopes = c.scopes := by rw [hc₂]; rfl
  obtain ⟨c₃, hfinish, hdraft, hscopes, hfuns, hindexed₃, htexts⟩ := finish_ok
    (.function origin name result params body) hfilled c₂ hm₂
  -- the function at hand is as before; the module has the new function and those inside it
  have hs₃ : (c₃.note (.completed name)).scopes = c.scopes := hscopes.trans hs₂
  have hg : Grown settings c (c₃.note (.completed name)) []
      (.compiled name result params lines :: funs) (Node.hasPrintAll body) := by
    refine ⟨?_, hfuns, fun _ => hindexed₃, htexts.trans hfilled.texts, congrArg List.tail hs₃,
      fun _ => rfl⟩
    rw [Draft.append_nil]
    exact hdraft.trans hd₂
  have hb₂ : c₂.bindings = c.bindings := by simp only [Context.bindings, hs₂]
  have hb : (c₃.note (.completed name)).bindings = c.bindings := by
    simp only [Context.bindings, hs₃]
  have hout : c₂.outline = (c₃.note (.completed name)).outline := by
    rw [hg.outline, Draft.append_nil]
    simp only [Context.outline, hb, hb₂, hm₂, hd₂, hfilled.functions]
    simp [Context.declare, Context.note, Func.declared, Func.compiled, Func.define]
  simp only [bind_apply]
  rw [hfinish]
  have hid : inner.draft.func = c.module.functions.length := by rw [hfilled.draft]; rfl
  refine ⟨hout, hg.sound_of_scopes hc hs₃, ?_, [], _, hg, ?_, ?_⟩
  · have hf : (c₃.note (.completed name)).module.function? inner.draft.func =
        some (.compiled name result params lines) := by
      rw [Module.function?, hg.functions, hid, List.getElem?_append_right (Nat.le_refl _),
        Nat.sub_self]
      rfl
    rw [Draft.typeOf?, hf]
    rfl
  · exact .cons (hfilled.compiled_self origin name) hfilled.compiled
  · rw [hb]
    exact .function

end

end SlotLang
