import SlotLang.Proofs.Functions
import SlotLang.Proofs.Tidy

/-!
# SlotLang.Proofs.Typing

Code whose operands fit, whoever wrote it. `Instr.Typed` says in rules what a draft checks before it
takes an instruction. A body is typed if each of its lines was taken behind the lines before it,
and a module is typed if all its bodies are. What matters is that neither can be lost: a module
that grows keeps the names and types of its functions, so code that was typed once is typed for
ever (`Draft.Typed.mono`).
-/

namespace SlotLang

/-! ### Modules that grow -/

/-- A function later in the life of its module: the same, or with the body that it waited for. -/
inductive Func.Becomes (f : Func) : Func → Prop
  | same : Becomes f f
  | defined (code : List Instr) (types : List Ty) : f.isExternal = false → f.body? = none →
      Becomes f { f with body? := some code, types }

namespace Func.Becomes

variable {f g k : Func}

/-- A function receives at most one body. -/
theorem trans (h : f.Becomes g) (h' : g.Becomes k) : f.Becomes k := by
  cases h with
  | same => exact h'
  | defined code types hext hnone =>
      cases h' with
      | same => exact .defined code types hext hnone
      | defined _ _ _ hnone' => cases hnone'

theorem name_eq (h : f.Becomes g) : g.name = f.name := by cases h <;> rfl

theorem params_eq (h : f.Becomes g) : g.params = f.params := by cases h <;> rfl

theorem result_eq (h : f.Becomes g) : g.result = f.result := by cases h <;> rfl

theorem isExternal_eq (h : f.Becomes g) : g.isExternal = f.isExternal := by cases h <;> rfl

theorem isVariadic_eq (h : f.Becomes g) : g.isVariadic = f.isVariadic := by cases h <;> rfl

end Func.Becomes

/-- A module later in its life: functions keep their places, names and types, and texts their
places. -/
structure Module.Extends (m m' : Module) : Prop where
  functions : ∀ id f, m.function? id = some f → ∃ f', m'.function? id = some f' ∧ f.Becomes f'
  texts : m.texts <+: m'.texts

namespace Module.Extends

variable {m m₁ m₂ : Module}

theorem of_isPrefix (hf : m.functions <+: m₁.functions) (ht : m.texts <+: m₁.texts) :
    m.Extends m₁ :=
  ⟨fun _ f h => ⟨f, getElem?_of_isPrefix hf h, .same⟩, ht⟩

theorem refl (m : Module) : m.Extends m :=
  of_isPrefix (List.prefix_refl _) (List.prefix_refl _)

theorem trans (h : m.Extends m₁) (h' : m₁.Extends m₂) : m.Extends m₂ := by
  refine ⟨?_, h.texts.trans h'.texts⟩
  intro id f hf
  obtain ⟨f₁, hf₁, hb₁⟩ := h.functions id f hf
  obtain ⟨f₂, hf₂, hb₂⟩ := h'.functions id f₁ hf₁
  exact ⟨f₂, hf₂, hb₁.trans hb₂⟩

/-- A new function comes behind the others. -/
theorem of_insert {f : Func} {id : Nat} (h : m.insert f = .ok id m₁) : m.Extends m₁ := by
  obtain ⟨-, -, -, rfl⟩ := Module.insert_eq_ok_iff.mp h
  exact of_isPrefix (List.prefix_append _ _) (List.prefix_refl _)

theorem of_intern (m : Module) (text : String) : m.Extends (m.intern text).2 :=
  of_isPrefix (m.isPrefix_functions_intern text) (m.texts_intern text)

/-- A body is taken by a function that waits for it, and all others stay as they are. -/
theorem of_define {id : Nat} {code : List Instr} {types : List Ty}
    (h : m.define id code types = .ok () m₁) : m.Extends m₁ := by
  obtain ⟨g, hg, hext, hnone, rfl⟩ := Module.define_eq_ok_iff.mp h
  refine ⟨?_, List.prefix_refl _⟩
  intro i f hf
  by_cases hi : i = id
  · subst hi
    have heq : g = f := Option.some.inj (hg.symm.trans hf)
    subst heq
    obtain ⟨hlt, -⟩ := List.getElem?_eq_some_iff.mp hg
    exact ⟨_, by simp [Module.function?, hlt], .defined code types hext hnone⟩
  · refine ⟨f, ?_, .same⟩
    simp only [Module.function?, List.getElem?_set_ne (Ne.symm hi)]
    exact hf

theorem of_edits {d d' : Draft} (h : Edits m d m₁ d') : m.Extends m₁ :=
  of_isPrefix h.functions h.texts

end Module.Extends

/-! ### Typed instructions -/

/-- Arguments fit the parameters that they meet; those behind them can be passed. -/
def ArgsFit {α : Type} (fits : α → Ty → Prop) : List Param → List α → Prop
  | _, [] => True
  | p :: params, a :: args => fits a p.ty ∧ ArgsFit fits params args
  | [], a :: args => (∃ ty, fits a ty ∧ ty.passable = true) ∧ ArgsFit fits [] args

/-- The type of the register that an instruction fills, in a function with this result and where
handles have these types. -/
inductive Instr.Typed (m : Module) (result : Ty) (types : Handle → Option Ty) : Instr → Ty → Prop
  | alloca (name : String) : Typed m result types (.alloca name) .ptr
  | load {p : Handle} : types p = some .ptr → Typed m result types (.load p) .int
  | store {p v : Handle} : types p = some .ptr → types v = some .int →
      Typed m result types (.store p v) .void
  | binary {op : BinOp} {l r : Handle} : types l = some .int → types r = some .int →
      Typed m result types (.binary op l r) .int
  | call {callee : Nat} {f : Func} {args : List Handle} : m.function? callee = some f →
      Draft.acceptsCount f args.length = true →
      ArgsFit (fun h ty => types h = some ty) f.params args →
      Typed m result types (.call callee args) f.result
  | ret {v : Handle} : result ≠ .void → types v = some result →
      Typed m result types (.ret (some v)) .void
  | retNothing : result = .void → Typed m result types (.ret none) .void

theorem ArgsFit.mono {α : Type} {fits fits' : α → Ty → Prop}
    (h : ∀ a ty, fits a ty → fits' a ty) : ∀ {params : List Param} {args : List α},
    ArgsFit fits params args → ArgsFit fits' params args
  | _, [], _ => trivial
  | _ :: _, _ :: _, ⟨hty, hrest⟩ => ⟨h _ _ hty, hrest.mono h⟩
  | [], _ :: _, ⟨⟨ty, hty, hp⟩, hrest⟩ => ⟨⟨ty, h _ ty hty, hp⟩, hrest.mono h⟩

/-- Typed instructions stay typed while modules grow and more handles receive types. -/
theorem Instr.Typed.mono {m m' : Module} {result ty : Ty} {types types' : Handle → Option Ty}
    {instr : Instr} (ht : instr.Typed m result types ty) (hm : m.Extends m')
    (h : ∀ handle ty, types handle = some ty → types' handle = some ty) :
    instr.Typed m' result types' ty := by
  cases ht with
  | alloca name => exact .alloca name
  | load hp => exact .load (h _ _ hp)
  | store hp hv => exact .store (h _ _ hp) (h _ _ hv)
  | binary hl hr => exact .binary (h _ _ hl) (h _ _ hr)
  | call hf hcount hargs =>
      -- the callee may have received its body, but its head is the same
      obtain ⟨f', hf', hb⟩ := hm.functions _ _ hf
      rw [← hb.result_eq]
      refine .call hf' ?_ ?_
      · rw [Draft.acceptsCount, hb.isVariadic_eq, hb.params_eq]
        exact hcount
      · rw [hb.params_eq]
        exact hargs.mono h
  | ret hr hv => exact .ret hr (h _ _ hv)
  | retNothing hr => exact .retNothing hr

/-! ### Typed drafts -/

namespace Draft

variable {d : Draft} {m m' : Module}

theorem typeOf_eq_ok {h : Handle} {ty : Ty} (he : d.typeOf m h = .ok ty) :
    d.typeOf? m h = some ty := by
  unfold typeOf at he
  split at he
  · next found hfound =>
    cases he
    exact hfound
  · cases he

theorem expect_eq_ok {op : Opcode} {h : Handle} {ty : Ty} (he : d.expect m op h ty = .ok ()) :
    d.typeOf? m h = some ty := by
  obtain ⟨found, hfound, hcheck⟩ := bind_eq_ok he
  split at hcheck
  · next heq =>
    subst heq
    exact typeOf_eq_ok hfound
  · cases hcheck

/-- The checks of arguments one by one are what it means that they fit. -/
theorem expectArgs_eq_ok {callee : String} : ∀ {params : List Param} {args : List Handle},
    d.expectArgs m callee params args = .ok () →
    ArgsFit (fun h ty => d.typeOf? m h = some ty) params args
  | _, [], _ => trivial
  | p :: params, h :: args, he => by
      rw [expectArgs] at he
      obtain ⟨_, hx, hrest⟩ := bind_eq_ok he
      exact ⟨expect_eq_ok hx, expectArgs_eq_ok hrest⟩
  | [], h :: args, he => by
      rw [expectArgs] at he
      obtain ⟨ty, hx, hrest⟩ := bind_eq_ok he
      split at hrest
      · next hp => exact ⟨⟨ty, typeOf_eq_ok hx, hp⟩, expectArgs_eq_ok hrest⟩
      · cases hrest

/-- What a draft lets pass is typed. -/
theorem resultType_eq_ok {instr : Instr} {ty : Ty} (he : d.resultType m instr = .ok ty) :
    instr.Typed m d.result (d.typeOf? m) ty := by
  cases instr with
  | alloca name =>
      cases he
      exact .alloca name
  | load p =>
      obtain ⟨_, hp, hty⟩ := bind_eq_ok he
      cases hty
      exact .load (expect_eq_ok hp)
  | store p v =>
      obtain ⟨_, hp, hrest⟩ := bind_eq_ok he
      obtain ⟨_, hv, hty⟩ := bind_eq_ok hrest
      cases hty
      exact .store (expect_eq_ok hp) (expect_eq_ok hv)
  | binary op l r =>
      obtain ⟨_, hl, hrest⟩ := bind_eq_ok he
      obtain ⟨_, hr, hty⟩ := bind_eq_ok hrest
      cases hty
      exact .binary (expect_eq_ok hl) (expect_eq_ok hr)
  | call callee args =>
      rw [resultType] at he
      split at he
      · cases he
      · next f hf =>
        split at he
        · next hcount =>
          obtain ⟨_, hargs, hty⟩ := bind_eq_ok he
          cases hty
          exact .call hf hcount (expectArgs_eq_ok hargs)
        · cases he
  | ret value =>
      cases value with
      | none =>
          rw [resultType] at he
          split at he
          · next hr =>
            cases he
            exact .retNothing hr
          · cases he
      | some v =>
          rw [resultType] at he
          split at he
          · obtain ⟨found, -, hty⟩ := bind_eq_ok he
            cases hty
          · next hr =>
            obtain ⟨_, hv, hty⟩ := bind_eq_ok he
            cases hty
            exact .ret hr (expect_eq_ok hv)

/-- A handle keeps its type while the module grows. -/
theorem typeOf?_extends (hm : m.Extends m') {h : Handle} {ty : Ty}
    (hty : d.typeOf? m h = some ty) : d.typeOf? m' h = some ty := by
  cases h with
  | const v => exact hty
  | arg i => exact hty
  | inst i => exact hty
  | global g =>
      obtain ⟨text, htext, rfl⟩ := Option.map_eq_some_iff.mp hty
      exact Option.map_eq_some_iff.mpr ⟨text, getElem?_of_isPrefix hm.texts htext, rfl⟩
  | func id =>
      obtain ⟨f, hf, rfl⟩ := Option.map_eq_some_iff.mp hty
      obtain ⟨f', hf', -⟩ := hm.functions id f hf
      exact Option.map_eq_some_iff.mpr ⟨f', hf', rfl⟩

/-- A draft of which each line was taken behind the lines before it. -/
def Typed (m : Module) (d : Draft) : Prop :=
  ∀ before line after, d.lines = before ++ line :: after →
    line.instr.Typed m d.result ((d.withLines before).typeOf? m) line.ty

/-- Typed code stays typed while the module grows. -/
theorem Typed.mono (h : d.Typed m) (hm : m.Extends m') : d.Typed m' := by
  intro before line after hlines
  exact (h before line after hlines).mono hm fun _ _ => typeOf?_extends hm

/-- To add a line, one has to look at that line only. -/
theorem Typed.concat {line : Line} (h : d.Typed m) (heven : d.Even)
    (hline : line.instr.Typed m d.result (d.typeOf? m) line.ty) : (d.append [line]).Typed m := by
  intro before line' after hlines
  rcases heven.cases_append hlines with ⟨rfl, hbefore⟩ | ⟨after', hlines⟩
  · rw [hbefore]
    exact hline
  · exact h before line' after' hlines

/-- A draft that belongs to a function of the module and is typed. -/
structure Fits (m : Module) (d : Draft) : Prop where
  head : ∃ f, m.function? d.func = some f ∧ f.isExternal = false ∧
    d = (Draft.opened d.func f).withLines d.lines
  typed : d.Typed m

theorem Fits.even (h : d.Fits m) : d.Even := by
  obtain ⟨f, -, -, hd⟩ := h.head
  rw [hd]
  exact (List.length_map ..).trans (List.length_map ..).symm

theorem Fits.mono (h : d.Fits m) (hm : m.Extends m') : d.Fits m' := by
  obtain ⟨f, hf, hext, hd⟩ := h.head
  obtain ⟨f', hf', hb⟩ := hm.functions _ f hf
  refine ⟨⟨f', hf', by rw [hb.isExternal_eq, hext], ?_⟩, h.typed.mono hm⟩
  rw [Draft.opened, hb.name_eq, hb.params_eq, hb.result_eq]
  exact hd

/-- A draft fits when it is started. -/
theorem fits_of_start {id : Nat} (h : start m id = .ok d) : d.Fits m := by
  obtain ⟨f, hf, hext, rfl⟩ := start_eq_ok h
  refine ⟨⟨f, hf, hext, rfl⟩, ?_⟩
  intro before line after hlines
  cases before <;> cases hlines

/-- A draft that fits takes only what fits. -/
theorem fits_of_emit {d' : Draft} {instr : Instr} {h : Handle} (hd : d.Fits m)
    (he : d.emit m instr = .ok h d') : d'.Fits m := by
  obtain ⟨ty, hty, -, -, rfl⟩ := emit_eq_ok_iff.mp he
  obtain ⟨f, hf, hext, heq⟩ := hd.head
  change Fits m (d.append [⟨instr, ty⟩])
  refine ⟨⟨f, hf, hext, ?_⟩, hd.typed.concat hd.even (resultType_eq_ok hty)⟩
  rw [hd.even.lines_append, ← withLines_append]
  exact congrArg (append · [⟨instr, ty⟩]) heq

/-- A function as the draft that it was written as. -/
def ofFunc (id : Nat) (f : Func) : Draft :=
  ⟨id, f.name, f.params.map Param.ty, f.result, f.code, f.types⟩

end Draft

/-! ### Typed modules -/

/-- A tidy module whose functions have typed bodies. -/
structure Module.Typed (m : Module) : Prop extends m.Tidy where
  bodies : ∀ id f, m.function? id = some f → (Draft.ofFunc id f).Typed m

namespace Module.Typed

variable {m m' : Module}

/-- No function gives a pointer back. -/
theorem result_returnable {id : Nat} {f : Func} (hm : m.Typed) (hf : m.function? id = some f) :
    f.result.returnable = true :=
  (Func.checkTypes_eq_ok (hm.heads f (List.mem_of_getElem? hf))).2

/-- Arguments can be passed to every parameter. -/
theorem params_passable {id : Nat} {f : Func} (hm : m.Typed) (hf : m.function? id = some f) :
    ∀ p ∈ f.params, p.ty.passable = true :=
  (Func.checkTypes_eq_ok (hm.heads f (List.mem_of_getElem? hf))).1

/-- Each instruction of a function has a type. -/
theorem even_ofFunc {id : Nat} {f : Func} (hm : m.Typed) (hf : m.function? id = some f) :
    (Draft.ofFunc id f).Even :=
  (hm.proper f (List.mem_of_getElem? hf)).types

theorem empty (name : String) : (Module.empty name).Typed :=
  ⟨.empty name, fun _ _ h => (nomatch h)⟩

/-- A function that is added without a body keeps a module typed. -/
theorem insert {f : Func} {id : Nat} (hm : m.Typed) (hf : f.Bare)
    (h : m.insert f = .ok id m') : m'.Typed := by
  have hgrows := Module.Extends.of_insert h
  refine ⟨hm.toTidy.insert hf h, ?_⟩
  obtain ⟨-, -, -, rfl⟩ := Module.insert_eq_ok_iff.mp h
  intro i g hg
  simp only [Module.function?, List.getElem?_append] at hg
  split at hg
  · exact (hm.bodies i g hg).mono hgrows
  · -- the new function has no code
    cases List.mem_singleton.mp (List.mem_of_getElem? hg)
    intro before line after hlines
    simp [Draft.lines, Draft.ofFunc, hf.code_eq] at hlines

theorem intern (hm : m.Typed) (text : String) : (m.intern text).2.Typed := by
  refine ⟨hm.toTidy.intern text, ?_⟩
  intro id f hf
  rw [Module.function?, Module.functions_intern] at hf
  exact (hm.bodies id f hf).mono (.of_intern m text)

/-- A function that receives the code of a draft that fits keeps a module typed. -/
theorem finish {d : Draft} (hm : m.Typed) (hd : d.Fits m) (h : d.finish m = .ok () m') :
    m'.Typed := by
  have hgrows := Module.Extends.of_define h
  refine ⟨hm.toTidy.finish hd.even h, ?_⟩
  obtain ⟨g, hg, -, -, rfl⟩ := Module.define_eq_ok_iff.mp h
  obtain ⟨f, hf, -, heq⟩ := hd.head
  have hfg : g = f := Option.some.inj (hg.symm.trans hf)
  subst hfg
  obtain ⟨hlt, -⟩ := List.getElem?_eq_some_iff.mp hg
  intro id k hk
  by_cases hid : id = d.func
  · -- the draft was started for this very function
    subst hid
    simp only [Module.function?, List.getElem?_set_self hlt] at hk
    cases hk
    have hd' : Draft.ofFunc d.func { g with body? := some d.code, types := d.types } = d := by
      rw [← hd.even.withLines_lines, heq]
      rfl
    rw [hd']
    exact hd.typed.mono hgrows
  · simp only [Module.function?, List.getElem?_set_ne (Ne.symm hid)] at hk
    exact (hm.bodies id k hk).mono hgrows

end Module.Typed

/-- Whatever lowering requests, module and draft stay typed. -/
theorem Edits.typed {m m' : Module} {d d' : Draft} (h : Edits m d m' d') (hm : m.Typed)
    (hd : d.Fits m) : m'.Typed ∧ d'.Fits m' := by
  induction h with
  | refl => exact ⟨hm, hd⟩
  | trans _ _ ih ih' =>
      obtain ⟨hm₁, hd₁⟩ := ih hm hd
      exact ih' hm₁ hd₁
  | emit he => exact ⟨hm, Draft.fits_of_emit hd he⟩
  | intern text => exact ⟨hm.intern text, hd.mono (.of_intern _ text)⟩
  | declare hdecl =>
      exact ⟨hm.insert (Func.bare_pending ..) hdecl, hd.mono (.of_insert hdecl)⟩
  | abandon hdecl hstart hedits ih =>
      obtain ⟨hm₂, -⟩ := ih (hm.insert (Func.bare_pending ..) hdecl) (Draft.fits_of_start hstart)
      exact ⟨hm₂, hd.mono ((Module.Extends.of_insert hdecl).trans (.of_edits hedits))⟩
  | define hdecl hstart hedits hfinish ih =>
      obtain ⟨hm₂, hinner⟩ :=
        ih (hm.insert (Func.bare_pending ..) hdecl) (Draft.fits_of_start hstart)
      refine ⟨hm₂.finish hinner hfinish, ?_⟩
      exact hd.mono (((Module.Extends.of_insert hdecl).trans (.of_edits hedits)).trans
        (.of_define hfinish))

end SlotLang
