import SlotLang.Proofs.Edits
import SlotLang.Proofs.Shape

/-!
# SlotLang.Proofs.Unique

Code is unique: given what the names are bound to and how many instructions come before, a tree has
at most one code. The one thing that `Code` leaves open is the index of a function, and a function
is no operand. So a module that is a translation of a program is the module of the program
(`Program.lower_eq_of_translated`), and what is known of one program can be carried over to another
by translating it by hand.

Lowering a program is also a single edit of a module that holds the print routine and nothing else
(`Program.lower_edits`), which is where the name of the module comes from.
-/

namespace SlotLang

section

variable {settings : Settings} {arity : Nat} {result : SourceType} {bs bs₁ bs₂ : Bindings} {n : Nat}

/-! ### Nodes and statements -/

theorem Target.unique {target : Node} {ls ls' : List Line} {p p' : Handle}
    (h : Target bs n target ls p bs₁) (h' : Target bs n target ls' p' bs₂) :
    ls' = ls ∧ p' = p ∧ bs₂ = bs₁ := by
  cases h with
  | use hx =>
      cases h' with
      | use hx' =>
          cases hx.symm.trans hx'
          exact ⟨rfl, rfl, rfl⟩
  | declare =>
      cases h' with
      | declare => exact ⟨rfl, rfl, rfl⟩

/-- A node has one code and one type. It also has one handle, unless it is a function. -/
theorem Code.unique {node : Node} {ls ls' : List Line} {v v' : Handle} {ty ty' : Ty}
    (h : Code settings arity result bs n node ls v ty bs₁)
    (h' : Code settings arity result bs n node ls' v' ty' bs₂) :
    ls' = ls ∧ ty' = ty ∧ bs₂ = bs₁ ∧ (ty ≠ .fn → v' = v) := by
  induction h generalizing ls' v' ty' bs₂ with
  | binary _ _ ihl ihr =>
      cases h' with
      | binary hl hr =>
          obtain ⟨rfl, -, rfl, hl⟩ := ihl hl
          obtain ⟨rfl, -, rfl, hr⟩ := ihr hr
          obtain rfl := hl (by decide)
          obtain rfl := hr (by decide)
          exact ⟨rfl, rfl, rfl, fun _ => rfl⟩
  | assign _ ht ih =>
      cases h' with
      | assign hv ht' =>
          obtain ⟨rfl, -, rfl, hv⟩ := ih hv
          obtain ⟨rfl, rfl, rfl⟩ := ht.unique ht'
          obtain rfl := hv (by decide)
          exact ⟨rfl, rfl, rfl, fun _ => rfl⟩
  | useAddress hx =>
      cases h' with
      | useAddress hx' =>
          cases hx.symm.trans hx'
          exact ⟨rfl, rfl, rfl, fun _ => rfl⟩
  | useVariable hx =>
      cases h' with
      | useVariable hx' =>
          cases hx.symm.trans hx'
          exact ⟨rfl, rfl, rfl, fun _ => rfl⟩
      | useParameter hx' =>
          cases hx.symm.trans hx'
  | useParameter hx =>
      cases h' with
      | useVariable hx' =>
          cases hx.symm.trans hx'
      | useParameter hx' =>
          cases hx.symm.trans hx'
          exact ⟨rfl, rfl, rfl, fun _ => rfl⟩
  | step hx =>
      cases h' with
      | step hx' =>
          cases hx.symm.trans hx'
          exact ⟨rfl, rfl, rfl, fun _ => rfl⟩
  | print _ hpass ih =>
      cases h' with
      | print ha _ =>
          obtain ⟨rfl, rfl, rfl, hv⟩ := ih ha
          -- what can be passed on is no function
          obtain rfl := hv (by intro hfn; subst hfn; cases hpass)
          exact ⟨rfl, rfl, rfl, fun _ => rfl⟩
  | returnValue _ _ ih =>
      cases h' with
      | returnValue hv _ =>
          obtain ⟨rfl, -, rfl, hv⟩ := ih hv
          obtain rfl := hv (by decide)
          exact ⟨rfl, rfl, rfl, fun _ => rfl⟩
  | function =>
      cases h' with
      | function => exact ⟨rfl, rfl, rfl, fun hfn => absurd rfl hfn⟩
  | declare | int | argument | returnNothing =>
      cases h'
      exact ⟨rfl, rfl, rfl, fun _ => rfl⟩

theorem CodeAll.unique {nodes : List Node} {ls ls' : List Line}
    (h : CodeAll settings arity result bs n nodes ls bs₁)
    (h' : CodeAll settings arity result bs n nodes ls' bs₂) : ls' = ls ∧ bs₂ = bs₁ := by
  induction h generalizing ls' bs₂ with
  | nil =>
      cases h'
      exact ⟨rfl, rfl⟩
  | cons hnode _ _ ih =>
      cases h' with
      | cons hnode' hrest _ =>
          obtain ⟨rfl, -, rfl, -⟩ := hnode.unique hnode'
          obtain ⟨rfl, rfl⟩ := ih hrest
          exact ⟨rfl, rfl⟩

end

/-! ### Functions and modules -/

theorem Compiled.unique {settings : Settings} {node : Node} {f f' : Func}
    (h : Compiled settings node f) (h' : Compiled settings node f') : f = f' := by
  cases node with
  | function origin name result params body =>
      obtain ⟨-, ls, bs, hcode, rfl⟩ := h
      obtain ⟨-, ls', bs', hcode', rfl⟩ := h'
      obtain ⟨rfl, -⟩ := hcode.unique hcode'
      rfl
  | _ => exact h.elim

/-- Apart from its name, a module is determined by the program that it is a translation of. -/
theorem Translated.unique {settings : Settings} {program : Program} {m m' : Module}
    (h : Translated settings program m) (h' : Translated settings program m')
    (hname : m.name = m'.name) : m = m' := by
  obtain ⟨fs, hfs, hcompiled⟩ := h.functions
  obtain ⟨fs', hfs', hcompiled'⟩ := h'.functions
  have hright : Relator.RightUnique (Compiled settings) := fun _ _ _ hf hf' => hf.unique hf'
  have hsame : fs = fs' := hright.forall₂ hcompiled hcompiled'
  have hfunctions : m.functions = m'.functions := by rw [hfs, hfs', hsame]
  have htexts : m.texts = m'.texts := h.texts.trans h'.texts.symm
  -- the index has nothing to say that the functions do not
  have hindex : m.index = m'.index := by
    rw [h.indexed.table, h'.indexed.table, Module.names, Module.names, hfunctions]
  cases m
  cases m'
  simp_all

/-! ### Programs as edits -/

theorem Edits.name {m m' : Module} {d d' : Draft} (h : Edits m d m' d') : m'.name = m.name := by
  induction h with
  | refl | emit => rfl
  | trans _ _ ih ih' => exact ih'.trans ih
  | intern text =>
      unfold Module.intern
      split <;> rfl
  | declare hdecl =>
      obtain ⟨-, -, -, rfl⟩ := Module.insert_eq_ok_iff.mp hdecl
      rfl
  | abandon hdecl _ _ ih =>
      obtain ⟨-, -, -, rfl⟩ := Module.insert_eq_ok_iff.mp hdecl
      exact ih
  | define hdecl _ _ hfinish ih =>
      obtain ⟨-, -, -, rfl⟩ := Module.insert_eq_ok_iff.mp hdecl
      obtain ⟨f, -, -, -, rfl⟩ := Module.define_eq_ok_iff.mp hfinish
      exact ih

namespace Program

variable {settings : Settings} {program : Program} {m : Module}

/-- A lowered program is a function that was declared and received its body. -/
theorem lower_edits (h : (program.lower settings).1 = .ok m) :
    Edits (around settings).module (around settings).draft m (around settings).draft := by
  have hlower : program.lower settings = (.ok m, (program.lower settings).2) := Prod.ext h rfl
  obtain ⟨id, m₁, draft, inner, hdecl, hstart, hinner, hfinish, -⟩ := lower_eq_ok hlower
  have hinside : Lower.Within Stays
      (Lower.inside settings (entryNode settings) .int [] program) :=
    .bind (Lower.bindParams_stays _ [] 0) fun _ =>
      .bind (fun c => (lowerAll_onlyAppends program c).stays) fun _ c =>
        (Lower.OnlyAppends.implicitReturn _ .int c).stays
  have hedits := (hinside (opened settings program m₁ draft)).edits
  rw [hinner] at hedits
  exact .define hdecl hstart hedits hfinish

theorem lower_name (h : (program.lower settings).1 = .ok m) : m.name = settings.entryFunction :=
  (lower_edits h).name

/-- The module of a correct program is the translation that has the name of the entry function. -/
theorem lower_eq_of_translated (hk : program.check settings = .ok ())
    (ht : Translated settings program m) (hname : m.name = settings.entryFunction) :
    (program.lower settings).1 = .ok m := by
  rcases verdict settings program with ⟨m', hm', -, ht'⟩ | ⟨e, -, he⟩
  · rw [hm', ht'.unique ht ((lower_name hm').trans hname.symm)]
  · rw [hk] at he
    cases he

end Program

end SlotLang
