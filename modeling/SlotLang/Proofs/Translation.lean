import SlotLang.Proofs.Functions

/-!
# SlotLang.Proofs.Translation

Lowering and checking agree on every node, and so on every program. A program that the checker
accepts becomes a module of which every function is the code of a function of the tree, in the
order in which they stand there; a program that it refuses is refused for the same reason.
-/

namespace SlotLang

section

variable {settings : Settings}

/-! ### Nodes and statements -/

theorem declare_agrees (origin : Origin) (x : String) : Agrees settings (.declare origin x) := by
  intro c hc
  rw [Node.lower, Node.check, Lower.enter_bind]
  refine (declaration_agrees (.declare origin x) x (hc.note _)).yield ?_
  rintro h _ c' ⟨hs, hty, hg, rfl, hx, hb⟩
  exact ⟨hs, hty, _, [], hg.of_note, .nil, hb ▸ .declare hx⟩

/-- Statements are lowered one after the other. Once one of them has returned, the others leave no
code behind. -/
theorem cons_agrees {node : Node} {rest : List Node} (hnode : Agrees settings node)
    (hrest : AgreesAll settings rest) : AgreesAll settings (node :: rest) := by
  intro c hc
  rw [Node.lowerAll, Node.checkAll]
  refine Agree.bind (hnode c hc) ?_
  rintro h ty c₁ ⟨hs₁, -, ls, fs, hg₁, hfs, hls⟩
  refine (hrest c₁ hs₁).mono ?_
  rintro _ _ c₂ ⟨hs₂, rs, gs, hg₂, hgs, hrs⟩
  refine ⟨hs₂, ls ++ rs, fs ++ gs, hg₁.trans hg₂, ?_, ?_⟩
  · rw [Node.functionsAll]
    exact List.rel_append hfs hgs
  · -- a draft that ends in a return takes no more instructions
    have hvoid : ty = .void → rs = [] := by
      rintro rfl
      refine hg₂.stopped ?_
      rw [hg₁.draft]
      exact c.draft.isTerminated_append hls.endsInReturn_of_void
    rw [hg₁.length, hg₁.draft] at hrs
    exact .cons hls hrs hvoid

mutual

/-- Lowering a node and checking it agree in every sound context. -/
theorem lower_agrees : ∀ node : Node, Agrees settings node
  | .binary origin op left right =>
      binary_agrees origin op (lower_agrees left) (lower_agrees right)
  | .assign origin target value => assign_agrees origin target (lower_agrees value)
  | .declare origin x => declare_agrees origin x
  | .use origin x mode => by
      intro c hc
      rw [Node.lower, Node.check, Lower.enter_bind]
      exact (useOf_agrees origin x mode (hc.note _)).mono fun _ _ _ hl => hl.of_note
  | .step origin x order direction => by
      intro c hc
      rw [Node.lower, Node.check, Lower.enter_bind]
      exact (stepOf_agrees origin x order direction (hc.note _)).mono fun _ _ _ hl => hl.of_note
  | .int origin value => by
      intro c hc
      rw [Node.lower, Node.check, Lower.enter_bind]
      exact ⟨rfl, hc.note _, rfl, [], [], (Grown.refl settings _).of_note, .nil, .int⟩
  | .function origin name result params body =>
      function_agrees origin name result params (lowerAll_agrees body)
  | .argument origin index => by
      intro c hc
      rw [Node.lower, Node.check, Lower.enter_bind]
      exact (argumentOf_agrees origin index (hc.note _)).mono fun _ _ _ hl => hl.of_note
  | .print origin [arg] => print_agrees origin (lower_agrees arg)
  | .print origin [] => fun _ _ => rfl
  | .print origin (_ :: _ :: _) => fun _ _ => rfl
  | .ret origin (some value) => returnValue_agrees origin (lower_agrees value)
  | .ret origin none => returnNothing_agrees origin

/-- Lowering statements and checking them agree in every sound context. -/
theorem lowerAll_agrees : ∀ nodes : List Node, AgreesAll settings nodes
  | [] => fun c hc => ⟨rfl, hc, [], [], .refl settings c, .nil, .nil⟩
  | node :: rest => cons_agrees (lower_agrees node) (lowerAll_agrees rest)

end

end

/-! ### Programs -/

/-- What a module is to the program that it was lowered from. -/
structure Translated (settings : Settings) (program : Program) (m : Module) : Prop where
  functions : ∃ fs, m.functions = settings.printFunc :: fs ∧
    List.Forall₂ (Compiled settings) (program.main settings).functions fs
  texts : m.texts = if Node.hasPrintAll program then settings.printFormat.toList else []
  indexed : m.Indexed

namespace Program

/-- The context around a program: there is the print routine, but no function at hand. -/
def around (settings : Settings) : Context where
  module := ⟨settings.entryFunction, [settings.printFunc], [(settings.printRoutine, 0)], []⟩
  scopes := []
  draft := ⟨0, "", [], .int, [], []⟩
  events := #[]

theorem outline_around (settings : Settings) : (around settings).outline = outline settings := rfl

theorem declarePrint_empty (settings : Settings) :
    (Module.empty settings.entryFunction).declarePrint settings =
      .ok 0 (around settings).module := by
  change (Module.empty settings.entryFunction).insert settings.printFunc = _
  refine Module.insert_eq_ok_iff.mpr ⟨rfl, ?_, rfl, rfl⟩
  unfold Func.checkTypes Settings.printFunc
  cases settings.printFormat <;> rfl

theorem indexed_around (settings : Settings) : (around settings).module.Indexed :=
  (Module.Indexed.empty _).insert (declarePrint_empty settings)

/-- A program starts as any function does. -/
theorem start_eq (settings : Settings) :
    start settings =
      match Lower.openFunction (entryNode settings) settings.entryFunction .int []
        (around settings) with
      | .ok draft c => .ok (c.enter draft)
      | .error e _ => .error e := by
  simp only [start, declarePrint_empty, Lower.openFunction_apply, List.map_nil, SourceType.toTy]
  cases (around settings).module.declare settings.entryFunction [] .int with
  | error e m => rfl
  | ok id m =>
      simp only
      cases Draft.start m id <;> rfl

theorem lower_fst (settings : Settings) (program : Program) :
    (program.lower settings).1 =
      match start settings with
      | .error e => .error e
      | .ok c =>
        match program.body settings c with
        | .ok _ final => .ok final.module
        | .error e _ => .error e := by
  rw [lower]
  cases start settings with
  | error e => rfl
  | ok c =>
      simp only
      cases program.body settings c <;> rfl

/-- The statements of a program are the body of a function without parameters. -/
theorem body_eq (settings : Settings) (program : Program) (c : Context) :
    program.body settings c =
      match Lower.inside settings (entryNode settings) .int [] program
        (c.note (.programStarted program.length settings.entryFunction)) with
      | .ok () inner => Lower.finish (entryNode settings) inner.draft inner
      | .error e inner => .error e inner := by
  simp only [body, Lower.inside, Lower.bindParams, bind_apply, Lower.note, modify_apply,
    pure_apply, get_apply]
  cases Node.lowerAll settings program
      (c.note (.programStarted program.length settings.entryFunction)) with
  | error e c₁ => rfl
  | ok _ c₁ =>
      simp only
      cases Lower.implicitReturn (entryNode settings) .int c₁ <;> rfl

/-- The context in which the statements of a program are lowered. -/
def opened (settings : Settings) (program : Program) (m : Module) (draft : Draft) : Context :=
  ({ around settings with module := m }.enter draft).note
    (.programStarted program.length settings.entryFunction)

/-- A program is accepted if its entry function can be declared and begun, its statements can be
lowered, and the module takes the code. -/
theorem lower_eq_ok {settings : Settings} {program : Program} {m : Module} {events : Array Event}
    (h : program.lower settings = (.ok m, events)) :
    ∃ id m₁ draft inner,
      (around settings).module.declare settings.entryFunction [] .int = .ok id m₁ ∧
      Draft.start m₁ id = .ok draft ∧
      Lower.inside settings (entryNode settings) .int [] program
        (opened settings program m₁ draft) = .ok () inner ∧
      inner.draft.finish inner.module = .ok () m ∧
      events = inner.events.push (.sealing inner.draft.name inner.draft.code.length) := by
  rw [lower, start_eq, Lower.openFunction_apply] at h
  cases hdecl : (around settings).module.declare settings.entryFunction [] .int with
  | error e m₁ =>
      simp only [List.map_nil, SourceType.toTy, hdecl] at h
      cases h
  | ok id m₁ =>
      cases hstart : Draft.start m₁ id with
      | error e =>
          simp only [List.map_nil, SourceType.toTy, hdecl, hstart] at h
          cases h
      | ok draft =>
          simp only [List.map_nil, SourceType.toTy, hdecl, hstart, body_eq] at h
          cases hr : Lower.inside settings (entryNode settings) .int [] program
              (opened settings program m₁ draft) with
          | error e inner =>
              simp only [opened] at hr
              simp only [hr] at h
              cases h
          | ok _ inner =>
              simp only [opened] at hr
              simp only [hr, Lower.finish_apply] at h
              cases hdef : inner.draft.finish inner.module with
              | error e m₃ =>
                  simp only [hdef] at h
                  cases h
              | ok _ m₃ =>
                  simp only [hdef] at h
                  cases h
                  exact ⟨id, m₁, draft, inner, rfl, hstart, hr, hdef, rfl⟩

/-- The checker judges a program by the names of functions and then by the statements. -/
theorem check_eq (settings : Settings) (program : Program) :
    program.check settings =
      match Check.openFunction (entryNode settings) settings.entryFunction []
        (outline settings) with
      | .error v _ => .error v
      | .ok _ o =>
        match Check.inside (entryNode settings) [] program (o.enter .int 0) with
        | .ok _ _ => .ok ()
        | .error v _ => .error v := by
  have hopen : Check.openFunction (.function .unknown settings.entryFunction .int [] program)
      settings.entryFunction [] =
        Check.openFunction (entryNode settings) settings.entryFunction [] := rfl
  rw [check, main, Node.check, bind_apply, hopen]
  cases Check.openFunction (entryNode settings) settings.entryFunction [] (outline settings) with
  | error v o => rfl
  | ok _ o =>
      simp only [bind_apply, Check.inFunction, Check.inside, Check.bindParams, pure_apply,
        List.length_nil]
      cases Node.checkAll program (o.enter .int 0) with
      | error v o₁ => rfl
      | ok _ o₁ => rfl

/-- Lowering a program and checking it end together, and the module of a correct program is its
translation. -/
theorem verdict (settings : Settings) (program : Program) :
    (∃ m, (program.lower settings).1 = .ok m ∧ program.check settings = .ok () ∧
        Translated settings program m) ∨
      ∃ e, (program.lower settings).1 = .error e ∧ program.check settings = .error e.violation := by
  have hopen := openFunction_agrees (entryNode settings) settings.entryFunction .int []
    (indexed_around settings)
  rw [outline_around] at hopen
  rw [check_eq, lower_fst, start_eq]
  rcases hopen.cases with ⟨d, _, c₁, hl, hk, -, hindexed, rfl, rfl⟩ | ⟨e, c₁, o, hl, hk⟩
  · -- the entry function is open, and the statements are its body
    have hnone : ∀ p ∈ ([] : List Parameter), p.type = .int := fun p hp => nomatch hp
    have hinside := inside_agrees (entryNode settings) settings.entryFunction .int []
      (lowerAll_agrees program) (around settings).module.functions.length hnone
      (c := ((around settings).declare (.declared settings.entryFunction .int [])).note
        (.programStarted program.length settings.entryFunction)) hindexed ⟨_, rfl⟩ List.nil_prefix
    rw [Context.outline_note, List.length_nil] at hinside
    rw [hl, hk]
    simp only [body_eq, Context.note_enter]
    rcases hinside.cases with
      ⟨_, _, inner, hlower, hcheck, ⟨lines, funs, hfilled⟩, -⟩ | ⟨e, inner, o, hlower, hcheck⟩
    · obtain ⟨final, hfinish, -, -, hfuns, hindexed', htexts⟩ := finish_ok (entryNode settings)
        (c := (around settings).note (.programStarted program.length settings.entryFunction))
        hfilled inner rfl
      rw [hlower, hcheck]
      dsimp only
      rw [hfinish]
      refine .inl ⟨final.module, rfl, rfl, ⟨_, hfuns, ?_⟩, htexts.trans hfilled.texts, hindexed'⟩
      exact .cons (hfilled.compiled_self .unknown settings.entryFunction) hfilled.compiled
    · rw [hlower, hcheck]
      exact .inr ⟨e, rfl, rfl⟩
  · rw [hl, hk]
    exact .inr ⟨e, rfl, rfl⟩

/-- The module of a program is its translation. -/
theorem translated {settings : Settings} {program : Program} {m : Module}
    (h : (program.lower settings).1 = .ok m) : Translated settings program m := by
  rcases verdict settings program with ⟨m', hm', -, ht⟩ | ⟨e, he, -⟩
  · rw [h] at hm'
    cases hm'
    exact ht
  · rw [h] at he
    cases he

/-- Lowering accepts exactly the programs that are statically correct. In every other program it
reports the violation that the checker meets first: the same rule, the same kind of node, the same
name and the same place. -/
theorem lower_eq_check (settings : Settings) (program : Program) :
    ((program.lower settings).1.map fun _ => ()).mapError LoweringError.violation =
      program.check settings := by
  rcases verdict settings program with ⟨m, hl, hk, -⟩ | ⟨e, hl, hk⟩
  · rw [hl, hk]
    rfl
  · rw [hl, hk]
    rfl

/-- The number of things to print matters before any of them is looked at. -/
example : Program.check .default
    [.print .unknown [.use .unknown "x" .value, .use .unknown "y" .value]] =
      .error ⟨.unsupportedArity, .print, none, .unknown⟩ := by
  decide

end Program

end SlotLang
