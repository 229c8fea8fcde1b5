import SlotLang.Proofs.Edits

/-!
# SlotLang.Proofs.Tidy

The tables of a module and what every request keeps. A module has an index beside its functions, two
flags and two lists in each function, and a list of texts. Nothing in their types says that they
agree. A module is `Tidy` if they do: the index is right, functions have proper types, flags and
lists fit together, and no text is there twice. All that can be asked of the tables follows from it
(`Module.Tidy.consistent`).

A module takes the code and the types of a body from outside and does not compare them, so the two
lists of a body are as long as each other only because they were in the draft that they come from
(`Draft.Even`).
-/

namespace SlotLang

/-! ### Functions -/

namespace Func

/-- The flags and the lists of a function agree: an external function has no body, only an external
function is variadic, and there is one type for each instruction. -/
structure Proper (f : Func) : Prop where
  external : f.isExternal = true → f.body? = none
  variadic : f.isExternal = false → f.isVariadic = false
  types : f.types.length = f.code.length

/-- A function as it is declared, without a body. -/
structure Bare (f : Func) : Prop where
  body : f.body? = none
  types : f.types = []
  variadic : f.isExternal = false → f.isVariadic = false

theorem bare_pending (name : String) (params : List Param) (result : Ty) :
    (pending name params result).Bare :=
  ⟨rfl, rfl, fun _ => rfl⟩

theorem bare_external (name : String) (params : List Param) (variadic : Bool) (result : Ty) :
    (external name params variadic result).Bare :=
  ⟨rfl, rfl, fun h => nomatch h⟩

theorem Bare.code_eq {f : Func} (h : f.Bare) : f.code = [] := by
  rw [code, h.body]
  rfl

theorem Bare.proper {f : Func} (h : f.Bare) : f.Proper :=
  ⟨fun _ => h.body, h.variadic, by simp [h.types, h.code_eq]⟩

/-- A function that waits for its body is proper with any body that has a type for each
instruction. -/
theorem Proper.define {f : Func} {code : List Instr} {types : List Ty} (h : f.Proper)
    (hexternal : f.isExternal = false) (hlength : types.length = code.length) :
    ({ f with body? := some code, types } : Func).Proper := by
  refine ⟨fun hext => ?_, h.variadic, hlength⟩
  rw [hexternal] at hext
  cases hext

/-- What the check of a function looks at. -/
theorem checkTypes_eq_ok {f : Func} (h : f.checkTypes = .ok ()) :
    (∀ p ∈ f.params, p.ty.passable = true) ∧ f.result.returnable = true := by
  unfold checkTypes at h
  split at h
  · cases h
  · next hnone =>
    refine ⟨fun p hp => by simpa using List.find?_eq_none.mp hnone p hp, ?_⟩
    split at h
    · assumption
    · cases h

end Func

/-! ### Tidy modules -/

/-- What every request keeps. -/
structure Module.Tidy (m : Module) : Prop where
  indexed : m.Indexed
  heads : ∀ f ∈ m.functions, f.checkTypes = .ok ()
  proper : ∀ f ∈ m.functions, f.Proper
  texts : m.texts.Nodup

namespace Module

variable {m m' : Module}

/-- An interned text is found under its index, whether it is new or not. -/
theorem text?_intern (m : Module) (text : String) :
    (m.intern text).2.text? (m.intern text).1 = some text := by
  unfold intern
  split
  · next id hid =>
    obtain ⟨hlt, heq, -⟩ := List.findIdx?_eq_some_iff_getElem.mp hid
    simp only [text?, List.getElem?_eq_getElem hlt, Option.some.injEq]
    simpa using heq
  · simp [text?]

namespace Tidy

theorem empty (name : String) : (Module.empty name).Tidy :=
  ⟨.empty name, fun _ h => (nomatch h), fun _ h => (nomatch h), List.nodup_nil⟩

/-- A function is added only under a name that is free, and only with proper types. -/
theorem insert {f : Func} {id : Nat} (hm : m.Tidy) (hf : f.Bare) (h : m.insert f = .ok id m') :
    m'.Tidy := by
  have hindexed := hm.indexed.insert h
  obtain ⟨-, htypes, -, rfl⟩ := insert_eq_ok_iff.mp h
  refine ⟨hindexed, ?_, ?_, hm.texts⟩
  · intro g hg
    rcases List.mem_append.mp hg with hg | hg
    · exact hm.heads g hg
    · rw [List.mem_singleton.mp hg]
      exact htypes
  · intro g hg
    rcases List.mem_append.mp hg with hg | hg
    · exact hm.proper g hg
    · rw [List.mem_singleton.mp hg]
      exact hf.proper

/-- A text is added only if it is not there yet. -/
theorem intern (hm : m.Tidy) (text : String) : (m.intern text).2.Tidy := by
  have hindexed := hm.indexed.intern text
  unfold Module.intern at hindexed ⊢
  split at hindexed
  · exact hm
  · next hnone =>
    refine ⟨hindexed, hm.heads, hm.proper, ?_⟩
    have hfree : text ∉ m.texts := by
      intro hmem
      have hne := List.findIdx?_eq_none_iff.mp hnone text hmem
      simp at hne
    rw [← List.concat_eq_append, List.nodup_concat]
    exact ⟨hfree, hm.texts⟩

/-- A body is handed over without a second look at it. It has as many types as instructions if the
draft has. -/
theorem finish {d : Draft} (hm : m.Tidy) (hd : d.Even) (h : d.finish m = .ok () m') : m'.Tidy := by
  have hindexed := hm.indexed.define h
  obtain ⟨f, hf, hext, -, rfl⟩ := define_eq_ok_iff.mp h
  have hmem : f ∈ m.functions := List.mem_of_getElem? hf
  refine ⟨hindexed, ?_, ?_, hm.texts⟩
  · intro g hg
    rcases List.mem_or_eq_of_mem_set hg with hg | rfl
    · exact hm.heads g hg
    · exact hm.heads f hmem
  · intro g hg
    rcases List.mem_or_eq_of_mem_set hg with hg | rfl
    · exact hm.proper g hg
    · exact (hm.proper f hmem).define hext hd

/-- A text that is there already is found again. -/
theorem intern_of_text? (hm : m.Tidy) {id : Nat} {text : String} (h : m.text? id = some text) :
    m.intern text = (id, m) := by
  obtain ⟨hlt, rfl⟩ := List.getElem?_eq_some_iff.mp h
  unfold Module.intern
  split
  · next j hj =>
    obtain ⟨hlt', heq, -⟩ := List.findIdx?_eq_some_iff_getElem.mp hj
    have hsame : m.texts[j] = m.texts[id] := by simpa using heq
    rw [hm.texts.getElem_inj_iff.mp hsame]
  · next hnone =>
    have hne := List.findIdx?_eq_none_iff.mp hnone _ (List.getElem_mem hlt)
    simp at hne

end Tidy

end Module

/-! ### What the tables say -/

/-- The tables of a module are consistent. -/
structure Module.Consistent (m : Module) : Prop where
  /-- The index that is found for a name is that of the function of this name. -/
  found : ∀ name id, m.find? name = some id ↔ ∃ f, m.function? id = some f ∧ f.name = name
  names : (m.functions.map Func.name).Nodup
  params : ∀ f ∈ m.functions, ∀ p ∈ f.params, p.ty = .int ∨ p.ty = .ptr
  results : ∀ f ∈ m.functions, f.result = .int ∨ f.result = .void
  /-- External functions have no body; all others are not variadic. -/
  external : ∀ f ∈ m.functions,
    if f.isExternal then f.body? = none else f.isVariadic = false
  /-- Each instruction of a body has a type. -/
  types : ∀ f ∈ m.functions, f.types.length = f.code.length
  texts : m.texts.Nodup
  /-- The index of a text, be it new or not, is an index under which it is found. -/
  interned : ∀ text, (m.intern text).2.text? (m.intern text).1 = some text

theorem Module.Tidy.consistent {m : Module} (hm : m.Tidy) : m.Consistent := by
  refine ⟨hm.indexed.find?_eq_some_iff, hm.indexed.names, ?_, ?_, ?_,
    fun f hf => (hm.proper f hf).types, hm.texts, m.text?_intern⟩
  · intro f hf p hp
    have hpass := (Func.checkTypes_eq_ok (hm.heads f hf)).1 p hp
    cases hty : p.ty <;> simp [hty, Ty.passable] at hpass ⊢
  · intro f hf
    have hret := (Func.checkTypes_eq_ok (hm.heads f hf)).2
    cases hty : f.result <;> simp [hty, Ty.returnable] at hret ⊢
  · intro f hf
    split
    · next hext => exact (hm.proper f hf).external hext
    · next hext => exact (hm.proper f hf).variadic (eq_false_of_ne_true hext)

/-! ### Lowering -/

/-- A draft has as many types as instructions when it is started. -/
theorem Draft.even_of_start {m : Module} {id : Nat} {d : Draft} (h : start m id = .ok d) :
    d.Even := by
  obtain ⟨f, -, -, rfl⟩ := start_eq_ok h
  rfl

theorem Edits.even {m m' : Module} {d d' : Draft} (h : Edits m d m' d') (hd : d.Even) :
    d'.Even := by
  obtain ⟨lines, rfl⟩ := h.draft
  exact hd.append lines

/-- Whatever lowering requests, the module stays tidy. The bodies that it hands over come from
drafts of its own. -/
theorem Edits.tidy {m m' : Module} {d d' : Draft} (h : Edits m d m' d') (hm : m.Tidy) :
    m'.Tidy := by
  induction h with
  | refl | emit => exact hm
  | trans _ _ ih ih' => exact ih' (ih hm)
  | intern text => exact hm.intern text
  | declare hdecl => exact hm.insert (Func.bare_pending ..) hdecl
  | abandon hdecl _ _ ih => exact ih (hm.insert (Func.bare_pending ..) hdecl)
  | define hdecl hstart hedits hfinish ih =>
      have heven := hedits.even (Draft.even_of_start hstart)
      exact (ih (hm.insert (Func.bare_pending ..) hdecl)).finish heven hfinish

end SlotLang
