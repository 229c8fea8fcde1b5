import SlotLang.Proofs.Walks

/-!
# SlotLang.Proofs.Deletion

Striking out a function. `DropsAll f` relates statements to what is left of them when the function
`f` is struck out somewhere. What is left of a correct program is correct: a function that has not
been declared can only make room for others, and nothing but the names of functions passes from one
function to another (`Outline.Fewer`).
-/

namespace SlotLang

namespace Node

mutual

/-- `Drops f node node'`: the function `f` is struck out of the body of a function inside `node`, or
of `node` itself, and `node'` is left. -/
inductive Drops (f : Node) : Node → Node → Prop
  | left {origin : Origin} {op : ArithOp} {left left' right : Node} :
      Drops f left left' → Drops f (.binary origin op left right) (.binary origin op left' right)
  | right {origin : Origin} {op : ArithOp} {left right right' : Node} :
      Drops f right right' → Drops f (.binary origin op left right) (.binary origin op left right')
  | target {origin : Origin} {target target' value : Node} :
      Drops f target target' → Drops f (.assign origin target value) (.assign origin target' value)
  | value {origin : Origin} {target value value' : Node} :
      Drops f value value' → Drops f (.assign origin target value) (.assign origin target value')
  | body {origin : Origin} {name : String} {result : SourceType} {params : List Parameter}
      {body body' : List Node} : DropsAll f body body' →
      Drops f (.function origin name result params body) (.function origin name result params body')
  | printed {origin : Origin} {before after : List Node} {arg arg' : Node} :
      Drops f arg arg' →
      Drops f (.print origin (before ++ arg :: after)) (.print origin (before ++ arg' :: after))
  | returned {origin : Origin} {value value' : Node} :
      Drops f value value' → Drops f (.ret origin (some value)) (.ret origin (some value'))

/-- `DropsAll f nodes nodes'`: the function `f` is struck out of `nodes`, where it is one of the
statements or stands deeper, and `nodes'` are left. -/
inductive DropsAll (f : Node) : List Node → List Node → Prop
  | here {rest : List Node} : f.kind = .function → DropsAll f (f :: rest) rest
  | head {node node' : Node} {rest : List Node} :
      Drops f node node' → DropsAll f (node :: rest) (node' :: rest)
  | tail {node : Node} {rest rest' : List Node} :
      DropsAll f rest rest' → DropsAll f (node :: rest) (node :: rest')

end

end Node

/-! ### Checking -/

/-- Outlines that differ in the functions that have been declared: the second has fewer of them. The
first has all that there were at some point before. -/
def Outline.Fewer (before : List String) (o o' : Outline) : Prop :=
  ∃ gs, o' = { o with functions := gs } ∧ gs ⊆ o.functions ∧ before ⊆ o.functions

/-- The checker keeps it so. After a violation that fewer functions may have avoided, there is no
more to compare. -/
theorem Outline.fewer_likeness (before : List String) : Likeness id True (Fewer before) where
  result := fun ⟨_, h, _⟩ => by subst h; rfl
  arity := fun ⟨_, h, _⟩ => by subst h; rfl
  returned := fun ⟨_, h, _⟩ => by subst h; rfl
  role := fun ⟨_, h, _⟩ name => by subst h; rfl
  functions := fun ⟨_, h, hgs, _⟩ => by subst h; exact hgs
  strict := fun _ => .inl trivial
  bound := fun ⟨gs, h, hgs⟩ name role => ⟨gs, by subst h; rfl, hgs⟩
  left := fun ⟨gs, h, hgs⟩ => ⟨gs, by subst h; rfl, hgs⟩
  declared := by
    intro o o' h name
    obtain ⟨gs, rfl, hgs, hbefore⟩ := h
    have hkept : o.functions ⊆ o.functions ++ [name] := List.subset_append_left _ _
    refine ⟨gs ++ [name], rfl, ?_, List.Subset.trans hbefore hkept⟩
    exact List.append_subset.mpr ⟨List.Subset.trans hgs hkept, List.subset_append_right _ _⟩
  entered := fun ⟨gs, h, hgs⟩ result arity => ⟨gs, by subst h; rfl, hgs⟩
  exited := fun ⟨_, h, _⟩ ⟨gs, hi, hgs⟩ => ⟨gs, by subst h hi; rfl, hgs⟩

namespace Node

/-- A node that passes does so with fewer functions around. -/
theorem check_fewer (before : List String) (node : Node) :
    Follows True (Outline.Fewer before) node.check node.check := by
  have h := check_follows (Outline.fewer_likeness before) node
  rw [rename_id] at h
  exact h

theorem checkAll_fewer (before : List String) (nodes : List Node) :
    Follows True (Outline.Fewer before) (checkAll nodes) (checkAll nodes) := by
  have h := checkAll_follows (Outline.fewer_likeness before) nodes
  rw [renameAll_id] at h
  exact h

theorem targetOf_fewer (before : List String) {node node' : Node} (hk : node'.kind = node.kind)
    (target : Node) :
    Follows True (Outline.Fewer before) (Check.targetOf node target)
      (Check.targetOf node' target) := by
  have h := (Outline.fewer_likeness before).targetOf hk target
  rw [rename_id] at h
  exact h

/-- No function is forgotten. -/
theorem functions_subset_of_check {node : Node} {o p : Outline} {ty : Ty}
    (h : node.check o = .ok ty p) : o.functions ⊆ p.functions := by
  have hself := node.check_fewer o.functions o o
    ⟨o.functions, rfl, List.Subset.refl _, List.Subset.refl _⟩
  rw [h] at hself
  obtain ⟨-, gs, -, -, hsub⟩ := hself
  exact hsub

/-- A function changes nothing in the outline of the function around it. -/
theorem check_function {f : Node} (hf : f.kind = .function) {o p : Outline} {ty : Ty}
    (h : f.check o = .ok ty p) : p = { o with functions := p.functions } := by
  cases f with
  | function origin name result params body =>
      rw [check, bind_apply, Check.openFunction] at h
      split at h
      · next hopen =>
        split at hopen
        · cases hopen
        · split at hopen
          · cases hopen
          · cases hopen
            rw [bind_apply, Check.inFunction] at h
            split at h
            · next hinside =>
              split at hinside
              · cases hinside
                cases h
                rfl
              · cases hinside
            · cases h
      · cases h
  | _ => cases hf

variable {f : Node} {before : List String}

mutual

/-- A walk through what is left of a node follows the walk through the node. -/
theorem Drops.follows : ∀ {node node' : Node}, Drops f node node' →
    Follows True (Outline.Fewer before) node.check node'.check
  | _, _, .left h => (Outline.fewer_likeness before).binary h.follows (check_fewer before _)
  | _, _, .right h => (Outline.fewer_likeness before).binary (check_fewer before _) h.follows
  | _, _, .target h => (Outline.fewer_likeness before).assign (check_fewer before _) (by
      -- a node with a function inside is nothing to write to
      cases h <;> exact .throw ⟨rfl, rfl⟩)
  | _, _, .value h => (Outline.fewer_likeness before).assign h.follows (targetOf_fewer before rfl _)
  | _, _, .body h => (Outline.fewer_likeness before).function (Parameter.map_rename_id _) h.follows
  | _, _, @Drops.printed _ _ earlier later _ _ h => by
      -- only a print of one thing can pass
      cases earlier with
      | nil =>
          cases later with
          | nil => exact (Outline.fewer_likeness before).print h.follows
          | cons b later => exact .throw ⟨rfl, rfl⟩
      | cons a earlier => cases earlier <;> exact .throw ⟨rfl, rfl⟩
  | _, _, .returned h => (Outline.fewer_likeness before).returnValue h.follows

theorem DropsAll.follows : ∀ {nodes nodes' : List Node}, DropsAll f nodes nodes' →
    Follows True (Outline.Fewer before) (checkAll nodes) (checkAll nodes')
  | _, _, @DropsAll.here _ rest hf => by
      intro o o' ho
      obtain ⟨gs, rfl, hgs, hbefore⟩ := ho
      rw [checkAll, bind_apply]
      cases hx : f.check o with
      | error v p => exact .of_lenient trivial _ _ _
      | ok ty p =>
          have hsub := functions_subset_of_check hx
          have hp := check_function hf hx
          refine checkAll_fewer before rest p _ ⟨gs, ?_, List.Subset.trans hgs hsub,
            List.Subset.trans hbefore hsub⟩
          rw [hp]
  | _, _, .head h => .cons h.follows (checkAll_fewer before _)
  | _, _, .tail h => .cons (check_fewer before _) h.follows

end

end Node

/-- A correct program stays correct without one of its functions. -/
theorem Program.check_without {settings : Settings} {program program' : Program} {f : Node}
    (hd : Node.DropsAll f program program') (h : program.check settings = .ok ()) :
    program'.check settings = .ok () := by
  have hmain : Node.Drops f (program.main settings) (program'.main settings) := .body hd
  have hwalk := hmain.follows (outline settings) (outline settings)
    ⟨_, rfl, List.Subset.refl _, List.Subset.refl _⟩
  unfold check at h ⊢
  cases hx : (program.main settings).check (outline settings) with
  | error v p =>
      rw [hx] at h
      cases h
  | ok ty p =>
      cases hy : (program'.main settings).check (outline settings) with
      | error v p =>
          rw [hx, hy] at hwalk
          exact hwalk.elim
      | ok ty' p' => rfl

end SlotLang
