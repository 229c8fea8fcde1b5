import SlotLang.Proofs.Renaming

/-!
# SlotLang.Proofs.Walks

Two walks of the checker, side by side. The second walk may use other names for variables, may start
from an outline that differs from the first one's, and may walk another tree. What has to hold of
two outlines for the walks to go the same way is a `Likeness`; what the walks then have in common is
that one `Follows` the other. Likenesses are proved where they are used: of a program and its
renaming, and of a program and what is left of it without one of its functions.
-/

namespace SlotLang

/-- How two walks end together. If the first passes, so does the second, with the same result. If
the first meets a violation, the second meets a violation of the same rule by the same kind of node.
Where `lenient` holds, anything may happen after the first has failed. -/
def SameEnd {α : Type} (lenient : Prop) (R : Outline → Outline → Prop) :
    EStateM.Result Violation Outline α → EStateM.Result Violation Outline α → Prop
  | .ok a o, .ok a' o' => a' = a ∧ R o o'
  | .ok _ _, .error _ _ => False
  | .error v _, .error v' _ => lenient ∨ v'.kind = v.kind ∧ v'.node = v.node
  | .error _ _, .ok _ _ => lenient

/-- One walk follows another, from all outlines that are alike. -/
def Follows {α : Type} (lenient : Prop) (R : Outline → Outline → Prop) (x y : Check α) : Prop :=
  ∀ o o', R o o' → SameEnd lenient R (x o) (y o')

/-- A likeness of outlines is kept by all that the checker does. In terms of the names that `r`
gives to variables, the second outline says what the first one says. It may have fewer functions,
but only where that is allowed for. -/
structure Likeness (r : String → String) (lenient : Prop) (R : Outline → Outline → Prop) :
    Prop where
  result : ∀ {o o'}, R o o' → o'.result = o.result
  arity : ∀ {o o'}, R o o' → o'.arity = o.arity
  returned : ∀ {o o'}, R o o' → o'.returned = o.returned
  role : ∀ {o o'}, R o o' → ∀ name, o'.role? (r name) = o.role? name
  functions : ∀ {o o'}, R o o' → o'.functions ⊆ o.functions
  strict : ∀ {o o'}, R o o' → lenient ∨ o.functions ⊆ o'.functions
  bound : ∀ {o o'}, R o o' → ∀ name role, R (o.bind name role) (o'.bind (r name) role)
  left : ∀ {o o'}, R o o' → R { o with returned := true } { o' with returned := true }
  declared : ∀ {o o'}, R o o' → ∀ name, R { o with functions := o.functions ++ [name] }
    { o' with functions := o'.functions ++ [name] }
  entered : ∀ {o o'}, R o o' → ∀ result arity, R (o.enter result arity) (o'.enter result arity)
  exited : ∀ {o o' i i'}, R o o' → R i i' →
    R { o with functions := i.functions } { o' with functions := i'.functions }

section

variable {lenient : Prop} {R : Outline → Outline → Prop} {α β : Type}

/-- Where anything may happen, anything is a proper end. -/
theorem SameEnd.of_lenient (h : lenient) (v : Violation) (o : Outline)
    (y : EStateM.Result Violation Outline α) : SameEnd lenient R (.error v o) y := by
  cases y with
  | ok a o' => exact h
  | error v' o' => exact .inl h

namespace Follows

/-- Walks that follow each other step by step do so as a whole. Once the first has failed where
anything may happen, the second may go on with whatever it likes. -/
theorem bind {x y : Check α} {f g : α → Check β} (h : Follows lenient R x y)
    (k : ∀ a, Follows lenient R (f a) (g a)) : Follows lenient R (x >>= f) (y >>= g) := by
  intro o o' ho
  have hend := h o o' ho
  rw [bind_apply, bind_apply]
  cases hx : x o with
  | ok a p =>
      cases hy : y o' with
      | ok a' p' =>
          rw [hx, hy] at hend
          obtain ⟨rfl, hp⟩ := hend
          exact k _ p p' hp
      | error v' p' =>
          rw [hx, hy] at hend
          exact hend.elim
  | error v p =>
      cases hy : y o' with
      | ok a' p' =>
          rw [hx, hy] at hend
          exact .of_lenient hend _ _ _
      | error v' p' =>
          rw [hx, hy] at hend
          exact hend

theorem pure (a : α) : Follows lenient R (Pure.pure a : Check α) (Pure.pure a) :=
  fun _ _ ho => ⟨rfl, ho⟩

theorem throw {v v' : Violation} (h : v'.kind = v.kind ∧ v'.node = v.node) :
    Follows lenient R (MonadExcept.throw v : Check α) (MonadExcept.throw v') :=
  fun _ _ _ => .inr h

end Follows

namespace Likeness

variable {r : String → String} {node node' : Node}

/-! ### Steps of checking -/

theorem emit (hR : Likeness r lenient R) (hk : node'.kind = node.kind) (fits : Bool) :
    Follows lenient R (Check.emit node fits) (Check.emit node' fits) := by
  intro o o' ho
  unfold Check.emit
  rw [hR.returned ho]
  split
  · exact ⟨rfl, ho⟩
  · exact .inr ⟨rfl, hk⟩

/-- Whether a function can be left depends on its result and on whether it was left before. -/
theorem leave (hR : Likeness r lenient R) (hk : node'.kind = node.kind) (value : Option Ty) :
    Follows lenient R (Check.leave node value) (Check.leave node' value) := by
  intro o o' ho
  have hsame : (value = o'.result.returns ∧ o'.returned = false) ↔
      value = o.result.returns ∧ o.returned = false := by rw [hR.result ho, hR.returned ho]
  unfold Check.leave
  by_cases hvalue : value = o.result.returns ∧ o.returned = false
  · rw [if_pos hvalue, if_pos (hsame.mpr hvalue)]
    exact ⟨rfl, hR.left ho⟩
  · rw [if_neg hvalue, if_neg (mt hsame.mp hvalue)]
    exact .inr ⟨rfl, hk⟩

/-- A name is found under its new name, as what it was. -/
theorem resolve (hR : Likeness r lenient R) (hk : node'.kind = node.kind) (name : String) :
    Follows lenient R (Check.resolve node name) (Check.resolve node' (r name)) := by
  intro o o' ho
  unfold Check.resolve
  rw [hR.role ho]
  cases o.role? name with
  | none => exact .inr ⟨rfl, hk⟩
  | some role => exact ⟨rfl, ho⟩

theorem slotOf (hR : Likeness r lenient R) (hk : node'.kind = node.kind) (name : String) :
    Follows lenient R (Check.slotOf node name) (Check.slotOf node' (r name)) := by
  refine (hR.resolve hk name).bind ?_
  intro role
  cases role with
  | slot => exact .pure ()
  | parameter => exact .throw ⟨rfl, hk⟩

/-- A name is free if its new name is, and both are bound in the same way. -/
theorem declaration (hR : Likeness r lenient R) (hk : node'.kind = node.kind) (name : String) :
    Follows lenient R (Check.declaration node name) (Check.declaration node' (r name)) := by
  intro o o' ho
  unfold Check.declaration
  rw [hR.role ho, hR.returned ho]
  split
  · exact .inr ⟨rfl, hk⟩
  · split
    · exact .inr ⟨rfl, hk⟩
    · exact ⟨rfl, hR.bound ho name .slot⟩

theorem targetOf (hR : Likeness r lenient R) (hk : node'.kind = node.kind) (target : Node) :
    Follows lenient R (Check.targetOf node target) (Check.targetOf node' (target.rename r)) := by
  cases target with
  | use origin name mode => exact hR.slotOf (by rfl) name
  | declare origin name => exact hR.declaration (by rfl) name
  | ret origin value => cases value <;> exact .throw ⟨rfl, hk⟩
  | _ => exact .throw ⟨rfl, hk⟩

theorem useOf (hR : Likeness r lenient R) (hk : node'.kind = node.kind) (name : String)
    (mode : UseMode) :
    Follows lenient R (Check.useOf node name mode) (Check.useOf node' (r name) mode) := by
  cases mode with
  | address => exact (hR.slotOf hk name).bind fun _ => .pure _
  | value =>
      refine (hR.resolve hk name).bind ?_
      intro role
      cases role with
      | slot => exact (hR.emit hk true).bind fun _ => .pure _
      | parameter => exact .pure _

theorem argumentOf (hR : Likeness r lenient R) (hk : node'.kind = node.kind) (index : Nat) :
    Follows lenient R (Check.argumentOf node index) (Check.argumentOf node' index) := by
  intro o o' ho
  unfold Check.argumentOf
  rw [hR.arity ho]
  split
  · exact ⟨rfl, ho⟩
  · exact .inr ⟨rfl, hk⟩

/-- A name that is new among more functions is new among fewer, and the other way round only if the
functions are the same. -/
theorem openFunction (hR : Likeness r lenient R) (hk : node'.kind = node.kind) (name : String)
    (params : List Parameter) :
    Follows lenient R (Check.openFunction node name params)
      (Check.openFunction node' name (params.map (Parameter.rename r))) := by
  intro o o' ho
  have htypes : ((params.map (Parameter.rename r)).any fun p => p.type = .void) =
      params.any fun p => p.type = .void := List.any_map
  unfold Check.openFunction
  rw [htypes]
  by_cases hname : name ∈ o.functions
  · rw [if_pos hname]
    -- if the second walk may know fewer functions, nothing is asked of it here
    rcases hR.strict ho with hlenient | hsub
    · exact .of_lenient hlenient _ _ _
    · rw [if_pos (hsub hname)]
      exact .inr ⟨rfl, hk⟩
  · have hname' : name ∉ o'.functions := fun hmem => hname (hR.functions ho hmem)
    rw [if_neg hname, if_neg hname']
    split
    · exact .inr ⟨rfl, hk⟩
    · exact ⟨rfl, hR.declared ho name⟩

theorem bindParam (hR : Likeness r lenient R) (hk : node'.kind = node.kind) (name : String) :
    Follows lenient R (Check.bindParam node name) (Check.bindParam node' (r name)) := by
  intro o o' ho
  unfold Check.bindParam
  rw [hR.role ho]
  split
  · exact .inr ⟨rfl, hk⟩
  · exact ⟨rfl, hR.bound ho name .parameter⟩

/-- Parameters are bound one after the other, each under its new name. -/
theorem bindParams (hR : Likeness r lenient R) (hk : node'.kind = node.kind)
    (params : List Parameter) :
    Follows lenient R (Check.bindParams node params)
      (Check.bindParams node' (params.map (Parameter.rename r))) := by
  induction params with
  | nil => exact .pure ()
  | cons p rest ih => exact (hR.bindParam hk p.name).bind fun _ => ih

/-- Both walks enter the function and come back with what they knew before, but for the functions
that were declared inside. -/
theorem inFunction (hR : Likeness r lenient R) {body body' : Check Unit}
    (h : Follows lenient R body body') (result : SourceType) (arity : Nat) :
    Follows lenient R (Check.inFunction result arity body)
      (Check.inFunction result arity body') := by
  intro o o' ho
  -- `hend` rules out that only one of the walks comes through the body
  have hend := h _ _ (hR.entered ho result arity)
  unfold Check.inFunction
  cases hx : body (o.enter result arity) with
  | ok _ i =>
      cases hy : body' (o'.enter result arity) with
      | ok _ i' =>
          rw [hx, hy] at hend
          exact ⟨rfl, hR.exited ho hend.2⟩
      | error v' i' =>
          rw [hx, hy] at hend
          exact hend.elim
  | error v i =>
      cases hy : body' (o'.enter result arity) with
      | ok _ i' =>
          rw [hx, hy] at hend
          exact hend
      | error v' i' =>
          rw [hx, hy] at hend
          exact hend

/-! ### Nodes with others below them -/

variable {origin : Origin}

theorem binary (hR : Likeness r lenient R) {op : ArithOp} {left left' right right' : Node}
    (hl : Follows lenient R left.check left'.check)
    (hr : Follows lenient R right.check right'.check) :
    Follows lenient R (Node.check (.binary origin op left right))
      (Node.check (.binary origin op left' right')) := by
  rw [Node.check, Node.check]
  exact hl.bind fun _ => hr.bind fun _ => (hR.emit (by rfl) _).bind fun _ => .pure _

theorem assign (hR : Likeness r lenient R) {target target' value value' : Node}
    (hv : Follows lenient R value.check value'.check)
    (ht : Follows lenient R (Check.targetOf (.assign origin target value) target)
      (Check.targetOf (.assign origin target' value') target')) :
    Follows lenient R (Node.check (.assign origin target value))
      (Node.check (.assign origin target' value')) := by
  rw [Node.check, Node.check]
  exact hv.bind fun _ => ht.bind fun _ => (hR.emit (by rfl) _).bind fun _ => .pure _

/-- A function is followed if its body is. The body may be another one, as long as the parameters are
the renamed ones. -/
theorem function (hR : Likeness r lenient R) {name : String} {result : SourceType}
    {params params' : List Parameter} (hp : params.map (Parameter.rename r) = params')
    {body body' : List Node} (hb : Follows lenient R (Node.checkAll body) (Node.checkAll body')) :
    Follows lenient R (Node.check (.function origin name result params body))
      (Node.check (.function origin name result params' body')) := by
  subst hp
  rw [Node.check, Node.check, List.length_map]
  refine (hR.openFunction (by rfl) name params).bind fun _ => ?_
  refine Follows.bind ?_ fun _ => .pure _
  refine hR.inFunction ?_ result params.length
  exact (hR.bindParams (by rfl) params).bind fun _ => hb.bind fun _ _ _ ho => ⟨rfl, hR.left ho⟩

theorem print (hR : Likeness r lenient R) {arg arg' : Node}
    (ha : Follows lenient R arg.check arg'.check) :
    Follows lenient R (Node.check (.print origin [arg])) (Node.check (.print origin [arg'])) := by
  rw [Node.check, Node.check]
  exact ha.bind fun _ => (hR.emit (by rfl) _).bind fun _ => .pure _

theorem returnValue (hR : Likeness r lenient R) {value value' : Node}
    (hv : Follows lenient R value.check value'.check) :
    Follows lenient R (Node.check (.ret origin (some value)))
      (Node.check (.ret origin (some value'))) := by
  rw [Node.check, Node.check]
  exact hv.bind fun _ => (hR.leave (by rfl) _).bind fun _ => .pure _

end Likeness

/-- Statements are followed if each of them is. -/
theorem Follows.cons {node node' : Node} {rest rest' : List Node}
    (hn : Follows lenient R node.check node'.check)
    (hr : Follows lenient R (Node.checkAll rest) (Node.checkAll rest')) :
    Follows lenient R (Node.checkAll (node :: rest)) (Node.checkAll (node' :: rest')) := by
  rw [Node.checkAll, Node.checkAll]
  exact hn.bind fun _ => hr

end

namespace Node

variable {r : String → String} {lenient : Prop} {R : Outline → Outline → Prop}

mutual

/-- A walk through the renamed tree follows the walk through the tree. -/
theorem check_follows (hR : Likeness r lenient R) : ∀ node : Node,
    Follows lenient R node.check (node.rename r).check
  | .binary _ _ left right => hR.binary (check_follows hR left) (check_follows hR right)
  | .assign _ target value => hR.assign (check_follows hR value) (hR.targetOf (by rfl) target)
  | .declare _ name => by
      rw [rename, check, check]
      exact (hR.declaration (by rfl) name).bind fun _ => .pure _
  | .use _ name mode => by
      rw [rename, check, check]
      exact hR.useOf (by rfl) name mode
  | .step _ name _ _ => by
      rw [rename, check, check]
      exact (hR.slotOf (by rfl) name).bind fun _ => (hR.emit (by rfl) _).bind fun _ => .pure _
  | .int _ _ => by
      rw [rename, check]
      exact .pure _
  | .function _ _ _ _ body => hR.function rfl (checkAll_follows hR body)
  | .argument _ index => by
      rw [rename, check]
      exact (hR.argumentOf rfl index).bind fun _ => .pure _
  | .print _ [arg] => hR.print (check_follows hR arg)
  | .print _ [] => .throw ⟨rfl, rfl⟩
  | .print _ (_ :: _ :: _) => .throw ⟨rfl, rfl⟩
  | .ret _ (some value) => hR.returnValue (check_follows hR value)
  | .ret _ none => by
      rw [rename, check]
      exact (hR.leave rfl _).bind fun _ => .pure _

theorem checkAll_follows (hR : Likeness r lenient R) : ∀ nodes : List Node,
    Follows lenient R (checkAll nodes) (checkAll (renameAll r nodes))
  | [] => .pure ()
  | node :: rest => .cons (check_follows hR node) (checkAll_follows hR rest)

end

end Node

end SlotLang
