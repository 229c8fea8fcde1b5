import SlotLang.Proofs.Check
import SlotLang.Proofs.Code
import SlotLang.Proofs.Index

/-!
# SlotLang.Proofs.Growth

What lowering relies on, and how it changes a context. `Sound` is the invariant: the innermost
scope is that of the function at hand, its names are bound to handles of the right types, and the
module starts with the print routine. `Grown` says what one piece of lowering adds: instructions
to the draft, functions and the format to the module, and nothing else.
-/

namespace SlotLang

namespace Binding

/-- What a binding is, without its handle. -/
def role : Binding → Role
  | storage _ => .slot
  | argument _ => .parameter

/-- The type of the handle behind a binding. -/
def ty : Binding → Ty
  | storage _ => .ptr
  | argument _ => .int

end Binding

namespace SourceType

/-- The source type behind a result type. -/
def ofTy : Ty → SourceType
  | .void => .void
  | .int | .ptr | .fn => .int

@[simp] theorem ofTy_toTy (t : SourceType) : ofTy t.toTy = t := by
  cases t <;> rfl

end SourceType

/-! ### Code, functions and texts that are added at the end -/

/-- What stands in a list stays where it is when more is added. -/
theorem getElem?_of_isPrefix {α : Type} {l l' : List α} {i : Nat} {a : α} (h : l <+: l')
    (ha : l[i]? = some a) : l'[i]? = some a := by
  obtain ⟨hi, rfl⟩ := List.getElem?_eq_some_iff.mp ha
  exact List.prefix_iff_getElem?.mp h i hi

namespace Draft

/-- The draft with more lines. -/
def append (d : Draft) (lines : List Line) : Draft :=
  { d with code := d.code ++ lines.map Line.instr, types := d.types ++ lines.map Line.ty }

@[simp] theorem append_nil (d : Draft) : d.append [] = d := by
  simp [append]

@[simp] theorem append_append (d : Draft) (ls rs : List Line) :
    (d.append ls).append rs = d.append (ls ++ rs) := by
  simp [append]

@[simp] theorem code_append (d : Draft) (lines : List Line) :
    (d.append lines).code = d.code ++ lines.map Line.instr := rfl

@[simp] theorem types_append (d : Draft) (lines : List Line) :
    (d.append lines).types = d.types ++ lines.map Line.ty := rfl

/-- Whether code has ended depends on its last line. -/
theorem isTerminated_concat (d : Draft) (lines : List Line) (line : Line) :
    (d.append (lines ++ [line])).isTerminated = line.instr.isTerminator := by
  simp [isTerminated, append, ← List.append_assoc]

/-- Code that ends in a return does so behind other code, too. -/
theorem isTerminated_append (d : Draft) {lines : List Line} (h : endsInReturn lines = true) :
    (d.append lines).isTerminated = true := by
  rcases List.eq_nil_or_concat lines with rfl | ⟨before, last, rfl⟩
  · simp [endsInReturn] at h
  · rw [List.concat_eq_append] at h ⊢
    rwa [isTerminated_concat, ← endsInReturn_concat before]

/-- Each instruction has a type, and each type belongs to an instruction. -/
def Even (d : Draft) : Prop := d.types.length = d.code.length

theorem Even.append {d : Draft} (h : d.Even) (lines : List Line) : (d.append lines).Even := by
  simpa [Even] using h

/-- The instructions, each with its type. -/
def lines (d : Draft) : List Line := (d.code.zip d.types).map fun p => ⟨p.1, p.2⟩

/-- The draft with other code. -/
def withLines (d : Draft) (lines : List Line) : Draft :=
  { d with code := lines.map Line.instr, types := lines.map Line.ty }

@[simp] theorem lines_withLines (d : Draft) (lines : List Line) :
    (d.withLines lines).lines = lines := by
  simp [Draft.lines, withLines, List.zip_map', Function.comp_def]

@[simp] theorem withLines_append (d : Draft) (ls rs : List Line) :
    (d.withLines ls).append rs = d.withLines (ls ++ rs) := by
  simp [append, withLines]

theorem isTerminated_withLines (d : Draft) (lines : List Line) (line : Line) :
    (d.withLines (lines ++ [line])).isTerminated = line.instr.isTerminator := by
  simp [isTerminated, withLines]

namespace Even

variable {d : Draft}

theorem code_eq (h : d.Even) : d.code = d.lines.map Line.instr := by
  rw [lines, List.map_map]
  exact (List.map_fst_zip (Nat.le_of_eq h.symm)).symm

theorem types_eq (h : d.Even) : d.types = d.lines.map Line.ty := by
  rw [lines, List.map_map]
  exact (List.map_snd_zip (Nat.le_of_eq h)).symm

/-- A draft with as many types as instructions is made of its lines. -/
theorem withLines_lines (h : d.Even) : d.withLines d.lines = d := by
  rw [withLines, ← h.code_eq, ← h.types_eq]

theorem lines_append (h : d.Even) (lines : List Line) :
    (d.append lines).lines = d.lines ++ lines := by
  conv => lhs; rw [← h.withLines_lines]
  rw [withLines_append, lines_withLines]

/-- When a line is added, each line is the new one or stands before it. -/
theorem cases_append (h : d.Even) {line line' : Line} {before after : List Line}
    (hlines : (d.append [line]).lines = before ++ line' :: after) :
    (line' = line ∧ (d.append [line]).withLines before = d) ∨
      ∃ after', d.lines = before ++ line' :: after' := by
  rw [h.lines_append] at hlines
  rcases List.eq_nil_or_concat after with rfl | ⟨after', last, rfl⟩
  · obtain ⟨rfl, heq⟩ := List.append_inj' hlines rfl
    cases heq
    exact .inl ⟨rfl, h.withLines_lines⟩
  · rw [List.concat_eq_append, ← List.cons_append, ← List.append_assoc] at hlines
    exact .inr ⟨after', (List.append_inj' hlines rfl).1⟩

end Even

/-- A handle keeps its type when code, functions and texts are added. -/
theorem typeOf?_mono {d : Draft} {lines : List Line} {m m' : Module} {h : Handle} {ty : Ty}
    (hf : m.functions <+: m'.functions) (ht : m.texts <+: m'.texts)
    (hty : d.typeOf? m h = some ty) : (d.append lines).typeOf? m' h = some ty := by
  cases h with
  | const v => exact hty
  | arg i => exact hty
  | inst i => exact getElem?_of_isPrefix (List.prefix_append _ _) hty
  | global g =>
      simp only [typeOf?, Module.text?, Option.map_eq_some_iff] at hty ⊢
      obtain ⟨text, htext, rfl⟩ := hty
      exact ⟨text, getElem?_of_isPrefix ht htext, rfl⟩
  | func f =>
      simp only [typeOf?, Module.function?, Option.map_eq_some_iff] at hty ⊢
      obtain ⟨func, hfunc, rfl⟩ := hty
      exact ⟨func, getElem?_of_isPrefix hf hfunc, rfl⟩

end Draft

namespace Context

/-- The bindings of the function at hand. -/
def bindings (c : Context) : Bindings :=
  match c.scopes with
  | [] => []
  | scope :: _ => scope.bindings

/-- Names mean the same where the scopes are the same. -/
theorem bindings_congr {c c' : Context} (hs : c'.scopes = c.scopes) :
    c'.bindings = c.bindings := by
  rw [bindings, hs]
  rfl

/-- What the checker would know in a context. -/
def outline (c : Context) : Outline where
  result := .ofTy c.draft.result
  arity := c.draft.params.length
  names := c.bindings.map fun entry => (entry.1, entry.2.role)
  returned := c.draft.isTerminated
  functions := c.module.functions.map Func.name

end Context

/-- What lowering relies on. -/
structure Sound (settings : Settings) (c : Context) : Prop where
  /-- The innermost scope is that of the function at hand. -/
  scope : ∃ outer, c.scopes = ⟨c.bindings, true⟩ :: outer
  typed : ∀ x b, c.bindings.lookup x = some b → c.draft.typeOf? c.module b.handle = some b.ty
  params : ∀ ty ∈ c.draft.params, ty = .int
  result : c.draft.result = (SourceType.ofTy c.draft.result).toTy
  even : c.draft.Even
  indexed : c.module.Indexed
  print : ∃ rest, c.module.functions = settings.printFunc :: rest
  texts : c.module.texts <+: settings.printFormat.toList

/-- Every parameter is an integer, also where the number of its handle has started over. -/
theorem Sound.typeOf?_arg {settings : Settings} {c : Context} (hc : Sound settings c) {index : Nat}
    (hi : index < c.draft.params.length) :
    c.draft.typeOf? c.module (.arg (.ofNat index)) = some .int := by
  have hlt : (UInt32.ofNat index).toNat < c.draft.params.length := by
    rw [UInt32.toNat_ofNat']
    exact Nat.lt_of_le_of_lt (Nat.mod_le _ _) hi
  simp only [Draft.typeOf?, List.getElem?_eq_getElem hlt, Option.some.injEq]
  exact hc.params _ (List.getElem_mem hlt)

/-- Events have no part in the invariant. -/
theorem Sound.note {settings : Settings} {c : Context} (hc : Sound settings c) (event : Event) :
    Sound settings (c.note event) :=
  ⟨hc.scope, hc.typed, hc.params, hc.result, hc.even, hc.indexed, hc.print, hc.texts⟩

/-- What a piece of lowering adds: `lines` to the draft, `funs` to the module, and the format if
it `prints`. The scopes around the function at hand stay as they are, and a body that has returned
receives no more code. -/
structure Grown (settings : Settings) (c c' : Context) (lines : List Line) (funs : List Func)
    (prints : Bool) : Prop where
  draft : c'.draft = c.draft.append lines
  functions : c'.module.functions = c.module.functions ++ funs
  indexed : c.module.Indexed → c'.module.Indexed
  texts : c'.module.texts = if prints then settings.printFormat.toList else c.module.texts
  outer : c'.scopes.tail = c.scopes.tail
  stopped : c.draft.isTerminated = true → lines = []

namespace Grown

variable {settings : Settings} {c c₁ c₂ : Context} {ls rs : List Line} {fs gs : List Func}
  {p q : Bool}

theorem refl (settings : Settings) (c : Context) : Grown settings c c [] [] false :=
  ⟨by simp, by simp, id, rfl, rfl, fun _ => rfl⟩

theorem trans (h : Grown settings c c₁ ls fs p) (h' : Grown settings c₁ c₂ rs gs q) :
    Grown settings c c₂ (ls ++ rs) (fs ++ gs) (p || q) := by
  refine ⟨by rw [h'.draft, h.draft, Draft.append_append],
    by rw [h'.functions, h.functions, List.append_assoc], h'.indexed ∘ h.indexed, ?_,
    h'.outer.trans h.outer, ?_⟩
  · rw [h'.texts, h.texts]
    cases p <;> cases q <;> rfl
  · intro ht
    have hls := h.stopped ht
    subst hls
    have hd : c₁.draft = c.draft := by rw [h.draft, Draft.append_nil]
    rw [List.nil_append]
    exact h'.stopped (by rw [hd]; exact ht)

theorem of_note {event : Event} (h : Grown settings (c.note event) c₁ ls fs p) :
    Grown settings c c₁ ls fs p :=
  ⟨h.draft, h.functions, h.indexed, h.texts, h.outer, h.stopped⟩

theorem length (h : Grown settings c c₁ ls fs p) :
    c₁.draft.code.length = c.draft.code.length + ls.length := by
  rw [h.draft, Draft.code_append, List.length_append, List.length_map]

theorem functions_isPrefix (h : Grown settings c c₁ ls fs p) :
    c.module.functions <+: c₁.module.functions := by
  rw [h.functions]
  exact List.prefix_append _ _

/-- A handle keeps its type. -/
theorem typeOf? (h : Grown settings c c₁ ls fs p) (hc : Sound settings c) {handle : Handle}
    {ty : Ty} (hty : c.draft.typeOf? c.module handle = some ty) :
    c₁.draft.typeOf? c₁.module handle = some ty := by
  have ht : c.module.texts <+: c₁.module.texts := by
    rw [h.texts]
    cases p with
    | true => exact hc.texts
    | false => exact List.prefix_refl _
  rw [h.draft]
  exact Draft.typeOf?_mono h.functions_isPrefix ht hty

/-- What the checker knows after growth. -/
theorem outline (h : Grown settings c c₁ ls fs p) :
    c₁.outline = ⟨c.outline.result, c.outline.arity, c₁.outline.names,
      (c.draft.append ls).isTerminated, c.outline.functions ++ fs.map Func.name⟩ := by
  simp only [Context.outline, h.draft, h.functions, List.map_append]
  rfl

/-- Growth keeps the invariant as far as it does not concern names. -/
theorem sound (h : Grown settings c c₁ ls fs p) (hc : Sound settings c)
    (scope : ∃ outer, c₁.scopes = ⟨c₁.bindings, true⟩ :: outer)
    (typed : ∀ x b, c₁.bindings.lookup x = some b →
      c₁.draft.typeOf? c₁.module b.handle = some b.ty) : Sound settings c₁ := by
  refine ⟨scope, typed, ?_, ?_, ?_, h.indexed hc.indexed, ?_, ?_⟩
  · rw [h.draft]
    exact hc.params
  · rw [h.draft]
    exact hc.result
  · rw [h.draft]
    exact hc.even.append ls
  · obtain ⟨rest, hrest⟩ := hc.print
    exact ⟨rest ++ fs, by rw [h.functions, hrest, List.cons_append]⟩
  · rw [h.texts]
    cases p with
    | true => exact List.prefix_refl _
    | false => exact hc.texts

/-- Growth that binds no name keeps the invariant. -/
theorem sound_of_scopes (h : Grown settings c c₁ ls fs p) (hc : Sound settings c)
    (hs : c₁.scopes = c.scopes) : Sound settings c₁ := by
  have hb := Context.bindings_congr hs
  refine h.sound hc (by rw [hs, hb]; exact hc.scope) ?_
  intro x b hx
  rw [hb] at hx
  exact h.typeOf? hc (hc.typed x b hx)

end Grown

/-! ### Binding a name -/

/-- A context with one more name bound in the function at hand. -/
def Context.bind (c : Context) (name : String) (b : Binding) : Context :=
  { c with scopes := ⟨(name, b) :: c.bindings, true⟩ :: c.scopes.tail }

theorem Context.outline_bind (c : Context) (name : String) (b : Binding) :
    (c.bind name b).outline = c.outline.bind name b.role := rfl

theorem grown_bind (settings : Settings) (c : Context) (name : String) (b : Binding) :
    Grown settings c (c.bind name b) [] [] false :=
  ⟨(Draft.append_nil _).symm, (List.append_nil _).symm, id, rfl, rfl, fun _ => rfl⟩

namespace Sound

variable {settings : Settings} {c : Context} {name : String}

/-- A name can be bound exactly if it is free in the function at hand. -/
theorem declare_eq (hc : Sound settings c) (b : Binding) :
    c.scopes.declare name b =
      if (c.bindings.lookup name).isSome then .error (.alreadyBound name)
      else .ok (c.bind name b).scopes := by
  obtain ⟨outer, hs⟩ := hc.scope
  have ho : c.scopes.tail = outer := by rw [hs]; rfl
  rw [Context.bind, ho, hs]
  rfl

theorem bind (hc : Sound settings c) (name : String) (b : Binding)
    (hb : c.draft.typeOf? c.module b.handle = some b.ty) : Sound settings (c.bind name b) := by
  refine (grown_bind settings c name b).sound hc ⟨c.scopes.tail, rfl⟩ ?_
  intro x b' hx
  rcases Bindings.lookup_cons_eq_some_iff.mp hx with ⟨-, rfl⟩ | ⟨-, hx⟩
  · exact hb
  · exact hc.typed x b' hx

end Sound

end SlotLang
