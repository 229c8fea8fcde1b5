import Mathlib.Data.List.Forall2
import SlotLang.Proofs.Agreement

/-!
# SlotLang.Proofs.Lowered

What lowering does, node by node. In a sound context, a node is lowered exactly if the checker
accepts it, and then its code is as `Code` describes it; a node that is not lowered is blamed for
what the checker blames it for. Functions are left to `SlotLang.Proofs.Functions`.
-/

namespace SlotLang

/-- What a node leaves behind when it is lowered: a handle of a known type, its code in the draft,
and the code of the functions inside it in the module. -/
structure Lowered (settings : Settings) (c : Context) (node : Node) (h : Handle) (ty : Ty)
    (c' : Context) : Prop where
  sound : Sound settings c'
  typed : c'.draft.typeOf? c'.module h = some ty
  code : ∃ lines funs, Grown settings c c' lines funs node.hasPrint ∧
    List.Forall₂ (Compiled settings) node.functions funs ∧
    Code settings c.draft.params.length (.ofTy c.draft.result) c.bindings c.draft.code.length node
      lines h ty c'.bindings

/-- What statements leave behind when they are lowered. -/
structure LoweredAll (settings : Settings) (c : Context) (nodes : List Node) (c' : Context) :
    Prop where
  sound : Sound settings c'
  code : ∃ lines funs, Grown settings c c' lines funs (Node.hasPrintAll nodes) ∧
    List.Forall₂ (Compiled settings) (Node.functionsAll nodes) funs ∧
    CodeAll settings c.draft.params.length (.ofTy c.draft.result) c.bindings c.draft.code.length
      nodes lines c'.bindings

section

variable {settings : Settings} {c : Context}

/-! ### Nodes without children -/

theorem targetOf_agrees (node target : Node) (hc : Sound settings c) :
    Agree (fun p _ c' => Sound settings c' ∧ c'.draft.typeOf? c'.module p = some .ptr ∧
        ∃ ts, Grown settings c c' ts [] false ∧
          Target c.bindings c.draft.code.length target ts p c'.bindings)
      (Lower.targetOf node target c) (Check.targetOf node target c.outline) := by
  cases target with
  | use origin x mode =>
      refine (storageOf_agrees (.use origin x mode) x hc).mono ?_
      rintro p _ c' ⟨rfl, hx⟩
      exact ⟨hc, hc.typed x _ hx, [], .refl settings c', .use hx⟩
  | declare origin x =>
      refine (declaration_agrees (.declare origin x) x (hc.note _)).mono ?_
      rintro p _ c' ⟨hs, hp, hg, rfl, hx, hb⟩
      exact ⟨hs, hp, _, hg.of_note, hb ▸ .declare hx⟩
  | _ => rfl

theorem useOf_agrees (origin : Origin) (x : String) (mode : UseMode) (hc : Sound settings c) :
    Agree (Lowered settings c (.use origin x mode))
      (Lower.useOf (.use origin x mode) x mode c)
      (Check.useOf (.use origin x mode) x mode c.outline) := by
  cases mode with
  | address =>
      refine (storageOf_agrees _ x hc).yield ?_
      rintro p _ c' ⟨rfl, hx⟩
      exact ⟨hc, hc.typed x _ hx, [], [], .refl settings c', .nil, .useAddress hx⟩
  | value =>
      refine Agree.bind (resolve_agrees _ x hc) ?_
      rintro b role c' ⟨rfl, rfl, hx⟩
      have hty := hc.typed x b hx
      cases b with
      | argument p => exact ⟨rfl, hc, hty, [], [], .refl settings c', .nil, .useParameter hx⟩
      | storage p =>
          refine (emit_agrees (.use origin x .value) rfl (Draft.judges_load hty)).yield ?_
          rintro h _ c₁ ⟨-, rfl, he⟩
          refine ⟨he.sound hc, he.typeOf?_inst hc.even, _, [], he.grown settings, .nil, ?_⟩
          rw [he.bindings]
          exact .useVariable hx

theorem argumentOf_agrees (origin : Origin) (index : Nat) (hc : Sound settings c) :
    Agree (Lowered settings c (.argument origin index))
      (Lower.argumentOf (.argument origin index) index c)
      ((Check.argumentOf (.argument origin index) index >>= fun _ => pure .int) c.outline) := by
  rw [Lower.argumentOf_apply, bind_apply]
  by_cases hi : index < c.draft.params.length
  · have hk : Check.argumentOf (.argument origin index) index c.outline = .ok () c.outline :=
      if_pos hi
    rw [if_pos hi, hk]
    exact ⟨rfl, hc, hc.typeOf?_arg hi, [], [], .refl settings c, .nil, .argument hi⟩
  · have hk : Check.argumentOf (.argument origin index) index c.outline =
        .error (.blame .backendRejected (.argument origin index)) c.outline := if_neg hi
    rw [if_neg hi, hk]
    rfl

/-- A step reads the variable, computes and writes back. -/
theorem stepOf_agrees (origin : Origin) (x : String) (order : StepOrder) (direction : Direction)
    (hc : Sound settings c) :
    Agree (Lowered settings c (.step origin x order direction))
      (Lower.stepOf (.step origin x order direction) x order direction c)
      ((do
        Check.slotOf (.step origin x order direction) x
        Check.emit (.step origin x order direction) true
        return .int : Check Ty) c.outline) := by
  refine Agree.bind (storageOf_agrees _ x hc) ?_
  rintro p _ c' ⟨rfl, hx⟩
  have hp : c'.draft.typeOf? c'.module p = some .ptr := hc.typed x _ hx
  refine (emit_agrees _ rfl (Draft.judges_load hp)).bind ?_
  rintro h _ c₁ ⟨-, rfl, h₁⟩
  -- once the load is taken nothing stands in the way of the other two instructions
  have hs₁ := h₁.sound hc
  have hone : c₁.draft.typeOf? c₁.module (.const 1) = some .int := rfl
  obtain ⟨c₂, hc₂, h₂⟩ := Lower.emit_ok (.step origin x order direction)
    (Draft.judges_binary direction.toBinOp (h₁.typeOf?_inst hc.even) hone) h₁.isTerminated
  have hs₂ := h₂.sound hs₁
  have hp₂ := (h₂.grown settings).typeOf? hs₁ ((h₁.grown settings).typeOf? hc hp)
  obtain ⟨c₃, hc₃, h₃⟩ := Lower.emit_ok (.step origin x order direction)
    (Draft.judges_store hp₂ (h₂.typeOf?_inst hs₁.even)) h₂.isTerminated
  have hg := ((h₁.grown settings).trans (h₂.grown settings)).trans (h₃.grown settings)
  have ho : c₁.outline = c₃.outline := by
    rw [h₃.outline, h₂.outline, h₁.outline]
    rfl
  have hb : c₃.bindings = c'.bindings := by rw [h₃.bindings, h₂.bindings, h₁.bindings]
  have hcode : Code settings c'.draft.params.length (.ofTy c'.draft.result) c'.bindings
      c'.draft.code.length (.step origin x order direction)
      [⟨.load p, .int⟩, ⟨.binary direction.toBinOp (.inst c'.draft.code.length) (.const 1), .int⟩,
        ⟨.store p (.inst c₁.draft.code.length), .void⟩]
      (order.select (.inst c'.draft.code.length) (.inst c₁.draft.code.length)) .int
      c₃.bindings := by
    rw [hb, h₁.length]
    exact .step hx
  simp only [bind_apply, hc₂, hc₃]
  cases order with
  | pre =>
      have hty := (h₃.grown settings).typeOf? hs₂ (h₂.typeOf?_inst hs₁.even)
      exact ⟨ho, h₃.sound hs₂, hty, _, [], hg, .nil, hcode⟩
  | post =>
      have hty := (h₃.grown settings).typeOf? hs₂
        ((h₂.grown settings).typeOf? hs₁ (h₁.typeOf?_inst hc.even))
      exact ⟨ho, h₃.sound hs₂, hty, _, [], hg, .nil, hcode⟩

/-! ### Printing -/

/-- A context whose module has the format, if there is one. -/
def Context.withFormat (c : Context) (settings : Settings) : Context :=
  { c with module := { c.module with texts := settings.printFormat.toList } }

theorem Context.withFormat_eq (h : c.module.texts = settings.printFormat.toList) :
    c.withFormat settings = c := by
  rw [withFormat, ← h]

theorem grown_withFormat (settings : Settings) (c : Context) :
    Grown settings c (c.withFormat settings) [] [] true :=
  ⟨(c.draft.append_nil).symm, (List.append_nil _).symm, fun h => ⟨h.table, h.names⟩, rfl, rfl,
    fun _ => rfl⟩

/-- The format is the only text there is, so it always has the first place. -/
theorem Sound.intern (hc : Sound settings c) {format : String}
    (hf : settings.printFormat = some format) :
    c.module.intern format = (0, (c.withFormat settings).module) := by
  have ht := hc.texts
  rw [hf, Option.toList_some] at ht
  cases htexts : c.module.texts with
  | nil => simp [Module.intern, Context.withFormat, htexts, hf]
  | cons text rest =>
      rw [htexts, List.cons_prefix_cons, List.prefix_nil] at ht
      obtain ⟨rfl, rfl⟩ := ht
      rw [Context.withFormat_eq (by rw [htexts, hf, Option.toList_some])]
      simp [Module.intern, htexts]

theorem Sound.find?_print (hc : Sound settings c) :
    c.module.find? settings.printRoutine = some 0 := by
  obtain ⟨rest, hrest⟩ := hc.print
  rw [hc.indexed.find?_eq]
  simp [hrest, Settings.printFunc, List.findIdx?_cons]

/-- Printing interns the format and calls the print routine, which is the first function. -/
theorem printCall_eq (node : Node) (v : Handle) (hc : Sound settings c) :
    Lower.printCall settings node v c =
      Lower.emit node (.call 0 (settings.formatArgs ++ [v])) (c.withFormat settings) := by
  simp only [Lower.printCall, bind_apply, get_apply, hc.find?_print]
  cases hf : settings.printFormat with
  | none =>
      have ht := hc.texts
      rw [hf, Option.toList_none, List.prefix_nil] at ht
      rw [Context.withFormat_eq (by rw [ht, hf, Option.toList_none])]
      simp only [Settings.formatArgs, hf, List.nil_append]
  | some format =>
      simp only [bind_apply, modifyGet_apply, hc.intern hf, Settings.formatArgs, hf]
      rfl

/-- A print is taken exactly if its value can be passed to the print routine. -/
theorem printCall_agrees (node : Node) {v : Handle} {ty : Ty} (hc : Sound settings c)
    (hv : c.draft.typeOf? c.module v = some ty) :
    Agree (fun h _ c' => ty.passable = true ∧ h = .inst c.draft.code.length ∧
        Sound settings c' ∧ c'.draft.typeOf? c'.module h = some .int ∧
        c'.bindings = c.bindings ∧
        Grown settings c c' [⟨.call 0 (settings.formatArgs ++ [v]), .int⟩] [] true)
      (Lower.printCall settings node v c) (Check.emit node ty.passable c.outline) := by
  rw [printCall_eq node v hc]
  have hg := grown_withFormat settings c
  have hs := hg.sound_of_scopes hc rfl
  obtain ⟨rest, hrest⟩ := hs.print
  have hformat : ∀ h ∈ settings.formatArgs,
      (c.withFormat settings).draft.typeOf? (c.withFormat settings).module h = some .ptr := by
    intro h hh
    unfold Settings.formatArgs at hh
    split at hh
    · next format hf =>
      rw [List.mem_singleton] at hh
      subst hh
      simp [Draft.typeOf?, Module.text?, Context.withFormat, hf]
    · cases hh
  -- interning the format changes nothing that the checker can see
  have hj := Draft.judges_print hrest hformat (hg.typeOf? hc hv)
  refine (emit_agrees node rfl hj).mono ?_
  rintro h _ c' ⟨hp, rfl, he⟩
  exact ⟨hp, rfl, he.sound hs, he.typeOf?_inst hs.even, he.bindings, hg.trans (he.grown settings)⟩

/-! ### Nodes with children

Each lemma takes the agreement of the children for granted; `hx` is that of the child `x` in every
sound context. -/

/-- What has to hold of a node for its agreement with the checker. -/
def Agrees (settings : Settings) (node : Node) : Prop :=
  ∀ c, Sound settings c → Agree (Lowered settings c node) (node.lower settings c)
    (node.check c.outline)

theorem Lowered.of_note {node : Node} {event : Event} {h : Handle} {ty : Ty} {c' : Context}
    (hl : Lowered settings (c.note event) node h ty c') : Lowered settings c node h ty c' := by
  obtain ⟨hs, hty, lines, funs, hg, hfuns, hcode⟩ := hl
  exact ⟨hs, hty, lines, funs, hg.of_note, hfuns, hcode⟩

theorem binary_agrees (origin : Origin) (op : ArithOp) {left right : Node}
    (hleft : Agrees settings left) (hright : Agrees settings right) :
    Agrees settings (.binary origin op left right) := by
  intro c hc
  rw [Node.lower, Node.check, Lower.enter_bind]
  refine Agree.bind (hleft _ (hc.note _)) ?_
  rintro l tl c₁ hl
  obtain ⟨hs₁, hty₁, ls, fs, hg₁, hfs, hls⟩ := hl.of_note
  refine Agree.bind (hright c₁ hs₁) ?_
  rintro r tr c₂ ⟨hs₂, hty₂, rs, gs, hg₂, hgs, hrs⟩
  have hj := Draft.judges_binary op.toBinOp (hg₂.typeOf? hs₁ hty₁) hty₂
  refine (emit_agrees _ rfl hj).yield ?_
  rintro h _ c₃ ⟨hfits, rfl, he⟩
  simp only [Bool.and_eq_true, decide_eq_true_eq] at hfits
  obtain ⟨rfl, rfl⟩ := hfits
  refine ⟨he.sound hs₂, he.typeOf?_inst hs₂.even, _, _, he.grown_after (hg₁.trans hg₂), ?_, ?_⟩
  · rw [Node.functions]
    exact List.rel_append hfs hgs
  · rw [hg₁.length, hg₁.draft] at hrs
    rw [he.bindings, hg₂.length, hg₁.length]
    exact .binary hls hrs

theorem assign_agrees (origin : Origin) (target : Node) {value : Node}
    (hvalue : Agrees settings value) : Agrees settings (.assign origin target value) := by
  intro c hc
  rw [Node.lower, Node.check, Lower.enter_bind]
  refine Agree.bind (hvalue _ (hc.note _)) ?_
  rintro v tv c₁ hv
  obtain ⟨hs₁, hty₁, ls, fs, hg₁, hfs, hls⟩ := hv.of_note
  refine Agree.bind (targetOf_agrees _ target hs₁) ?_
  rintro p _ c₂ ⟨hs₂, hp, ts, hg₂, ht⟩
  have hty₂ := hg₂.typeOf? hs₁ hty₁
  refine Agree.bind (emit_agrees _ rfl (Draft.judges_store hp hty₂)) ?_
  rintro h _ c₃ ⟨hfits, rfl, he⟩
  have hint : tv = .int := of_decide_eq_true hfits
  subst hint
  have hprint : (Node.assign origin target value).hasPrint = value.hasPrint := by
    rw [Node.hasPrint, ht.hasPrint_eq, Bool.false_or]
  have hg := he.grown_after (hg₁.trans hg₂)
  rw [List.append_nil, Bool.or_false, ← hprint] at hg
  refine ⟨rfl, he.sound hs₂, (he.grown settings).typeOf? hs₂ hty₂, _, fs, hg, ?_, ?_⟩
  · rw [Node.functions, ht.functions_eq, List.nil_append]
    exact hfs
  · rw [hg₁.length] at ht
    rw [he.bindings]
    exact .assign hls ht

theorem print_agrees (origin : Origin) {arg : Node} (harg : Agrees settings arg) :
    Agrees settings (.print origin [arg]) := by
  intro c hc
  rw [Node.lower, Node.check, Lower.enter_bind]
  refine Agree.bind (harg _ (hc.note _)) ?_
  rintro v ty c₁ hv
  obtain ⟨hs₁, hty₁, ls, fs, hg₁, hfs, hls⟩ := hv.of_note
  refine (printCall_agrees _ hs₁ hty₁).yield ?_
  rintro h _ c₂ ⟨hpass, rfl, hs₂, hty₂, hb, hg₂⟩
  have hg := hg₁.trans hg₂
  rw [Bool.or_true, List.append_nil] at hg
  refine ⟨hs₂, hty₂, _, fs, hg, ?_, ?_⟩
  · rw [Node.functions, Node.functionsAll, Node.functionsAll, List.append_nil]
    exact hfs
  · rw [hb, hg₁.length]
    exact .print hls hpass

theorem returnValue_agrees (origin : Origin) {value : Node} (hvalue : Agrees settings value) :
    Agrees settings (.ret origin (some value)) := by
  intro c hc
  rw [Node.lower, Node.check, Lower.enter_bind]
  refine Agree.bind (hvalue _ (hc.note _)) ?_
  rintro v ty c₁ hv
  obtain ⟨hs₁, hty₁, ls, fs, hg₁, hfs, hls⟩ := hv.of_note
  have hopd : ∀ w t, some (v, ty) = some (w, t) → c₁.draft.typeOf? c₁.module w = some t := by
    rintro w t ⟨⟩
    exact hty₁
  refine (leave_agrees _ hs₁ hopd).yield ?_
  rintro h _ c₂ ⟨hfits, rfl, he⟩
  rw [hg₁.draft] at hfits
  have hres : ty = .int ∧ SourceType.ofTy c.draft.result = .int := by
    change some ty = (SourceType.ofTy c.draft.result).returns at hfits
    cases hr : SourceType.ofTy c.draft.result with
    | int => rw [hr] at hfits; cases hfits; exact ⟨rfl, rfl⟩
    | void => rw [hr] at hfits; cases hfits
  obtain ⟨rfl, hint⟩ := hres
  refine ⟨he.sound hs₁, he.typeOf?_inst hs₁.even, _, fs, he.grown_after hg₁, hfs, ?_⟩
  rw [he.bindings, hg₁.length]
  exact .returnValue hls hint

theorem returnNothing_agrees (origin : Origin) : Agrees settings (.ret origin none) := by
  intro c hc
  rw [Node.lower, Node.check, Lower.enter_bind]
  have hopd : ∀ v ty, none = some (v, ty) → c.draft.typeOf? c.module v = some ty := by
    intro v ty h
    cases h
  refine (leave_agrees _ (hc.note _) hopd).yield ?_
  rintro h _ c₁ ⟨hfits, rfl, he⟩
  have hvoid : SourceType.ofTy c.draft.result = .void := by
    change none = (SourceType.ofTy c.draft.result).returns at hfits
    cases hr : SourceType.ofTy c.draft.result with
    | int => rw [hr] at hfits; cases hfits
    | void => rfl
  refine ⟨he.sound (hc.note _), he.typeOf?_inst hc.even, _, [], (he.grown settings).of_note, .nil,
    ?_⟩
  rw [he.bindings]
  exact .returnNothing hvoid

end

end SlotLang
