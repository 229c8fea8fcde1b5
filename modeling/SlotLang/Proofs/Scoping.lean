import Mathlib.Data.List.Induction
import SlotLang.Proofs.Tables

/-!
# SlotLang.Proofs.Scoping

What names mean after a history of openings, closings and declarations. The meaning is told by the
history alone, without a stack. A scope has no name of its own; what counts is what has happened
since: `ScopeOp.inside?` follows the scopes that are open *inside* a given one, until it is closed
itself. So a declaration lies in a scope that is still open if the operations behind it have left
that scope open, and it is found from inside if no boundary is open in between.

Histories need not be balanced. They may close more than they have opened, and a declaration then
opens a scope for itself.
-/

namespace SlotLang

/-- What can be asked of the scopes. -/
inductive ScopeOp
  | enterFunction
  | enterScope
  | exitScope
  | exitFunction
  | declare (name : String) (binding : Binding)
  | declareWith (name : String) (make : Except String Binding)

namespace ScopeOp

/-- The step of a session that asks for it. -/
def step : ScopeOp → Step
  | enterFunction => .enterFunction
  | enterScope => .enterScope
  | exitScope => .exitScope
  | exitFunction => .exitFunction
  | declare name binding => .declare name binding
  | declareWith name make => .declareWith name make

/-- What the operation makes of the scopes inside an open scope. These are told by whether they are
boundaries, the innermost first. If the operation closes the scope itself, nothing is left to
tell. -/
def inside? (inner : List Bool) : ScopeOp → Option (List Bool)
  | enterFunction => some (true :: inner)
  | enterScope => some (false :: inner)
  | exitScope =>
    match inner with
    | [] => none
    | _ :: rest => some rest
  | exitFunction =>
    match inner.dropWhile (! ·) with
    | [] => none
    | _ :: rest => some rest
  | declare _ _ | declareWith _ _ => some inner

/-- The operation binds the name. -/
def Binds (s : Scopes) (name : String) (b : Binding) : ScopeOp → Prop
  | declare x b' => x = name ∧ b' = b ∧ ∃ s', s.declare x b' = .ok s'
  | declareWith x make => x = name ∧ ∃ s', s.declareWith x (m := Id) make = .bound b s'
  | _ => False

/-- The operation opens a scope of this kind. A declaration does so if no scope is left. -/
def Opens (s : Scopes) (boundary : Bool) : ScopeOp → Prop
  | enterFunction => boundary = true
  | enterScope => boundary = false
  | exitScope | exitFunction => False
  | op => boundary = true ∧ s = [] ∧ ∃ name b, op.Binds s name b

end ScopeOp

/-- Operations in the order of time. -/
abbrev ScopeHistory := List ScopeOp

namespace ScopeHistory

/-- The scopes inside the scope that was the innermost one before some operations, if it is still
open. -/
def inside? (ops : ScopeHistory) : Option (List Bool) :=
  ops.foldlM ScopeOp.inside? []

/-- The scopes at the end of a session in which nothing else is done. -/
def scopes (settings : Settings) (history : ScopeHistory) : Scopes :=
  ((Workbench.start settings).after (history.map ScopeOp.step)).scopes

variable (settings : Settings) (history : ScopeHistory)

/-- The operation at an index was as `Q` says, and the scope that was the innermost one then is
still open and has these scopes inside it. -/
def Left (Q : Scopes → ScopeOp → Prop) (index : Nat) (inner : List Bool) : Prop :=
  ∃ before op after, history = before ++ op :: after ∧ before.length = index ∧
    Q (scopes settings before) op ∧ inside? after = some inner

/-- The operation at an index has bound the name, in a scope that is still open and has these scopes
inside it. -/
def Declares (index : Nat) (name : String) (b : Binding) (inner : List Bool) : Prop :=
  Left settings history (fun s op => op.Binds s name b) index inner

/-- A scope of this kind is still open and has these scopes inside it: the first one of all, or one
that an operation has opened. -/
def Opened (boundary : Bool) (inner : List Bool) : Prop :=
  boundary = true ∧ inside? history = some inner ∨
    ∃ index, Left settings history (fun s op => op.Opens s boundary) index inner

end ScopeHistory

/-! ### One operation -/

theorem Scope.get?_put (scope : Scope) (name x : String) (b : Binding) :
    (scope.put name b).get? x = if x = name then some b else scope.get? x := by
  unfold get? put
  rw [List.lookup_cons]
  by_cases h : x = name
  · simp [h]
  · rw [beq_false_of_ne h, if_neg h]

namespace Scopes

/-- The scope that has these scopes inside it is as `P` says. -/
def Has (P : Scope → Prop) : Scopes → List Bool → Prop
  | [], _ => False
  | scope :: _, [] => P scope
  | scope :: rest, f :: inner => scope.boundary = f ∧ Has P rest inner

section

variable {P : Scope → Prop} {scope : Scope} {s : Scopes} {inner : List Bool}

@[simp] theorem has_nil : Has P [] inner ↔ False := by
  cases inner <;> simp [Has]

theorem has_cons : Has P (scope :: s) inner ↔
    inner = [] ∧ P scope ∨ ∃ outer, inner = scope.boundary :: outer ∧ Has P s outer := by
  cases inner with
  | nil => simp [Has]
  | cons f inner =>
      simp only [Has, List.cons.injEq, reduceCtorEq, false_and, false_or]
      constructor
      · rintro ⟨rfl, h⟩
        exact ⟨inner, ⟨rfl, rfl⟩, h⟩
      · rintro ⟨outer, ⟨rfl, rfl⟩, h⟩
        exact ⟨rfl, h⟩

theorem has_exitScope : Has P s.exitScope inner ↔
    ∃ inner₀, Has P s inner₀ ∧ ScopeOp.exitScope.inside? inner₀ = some inner := by
  cases s with
  | nil => simp [exitScope]
  | cons scope rest =>
      constructor
      · intro h
        exact ⟨scope.boundary :: inner, ⟨rfl, h⟩, rfl⟩
      · rintro ⟨inner₀, h, hin⟩
        rcases has_cons.mp h with ⟨rfl, -⟩ | ⟨outer, rfl, ho⟩
        · cases hin
        · cases hin
          exact ho

theorem has_exitFunction : Has P s.exitFunction inner ↔
    ∃ inner₀, Has P s inner₀ ∧ ScopeOp.exitFunction.inside? inner₀ = some inner := by
  induction s with
  | nil => simp [exitFunction]
  | cons scope rest ih =>
      rw [exitFunction]
      cases hb : scope.boundary with
      | true =>
          simp only [if_true]
          constructor
          · intro h
            exact ⟨true :: inner, ⟨hb, h⟩, rfl⟩
          · rintro ⟨inner₀, h, hin⟩
            rcases has_cons.mp h with ⟨rfl, -⟩ | ⟨outer, rfl, ho⟩
            · cases hin
            · rw [hb] at hin
              cases hin
              exact ho
      | false =>
          simp only [Bool.false_eq_true, if_false]
          rw [ih]
          constructor
          · rintro ⟨inner₀, h, hin⟩
            exact ⟨false :: inner₀, ⟨hb, h⟩, hin⟩
          · rintro ⟨inner₀, h, hin⟩
            rcases has_cons.mp h with ⟨rfl, -⟩ | ⟨outer, rfl, ho⟩
            · cases hin
            · rw [hb] at hin
              exact ⟨outer, ho, hin⟩

/-- What is inside a scope is told by its depth. -/
theorem Has.inner_eq (h : Has P s inner) : inner = (s.map Scope.boundary).take inner.length := by
  induction s generalizing inner with
  | nil => exact absurd h has_nil.mp
  | cons scope rest ih =>
      rcases has_cons.mp h with ⟨rfl, -⟩ | ⟨outer, rfl, ho⟩
      · rfl
      · rw [List.length_cons, List.map_cons, List.take_succ_cons]
        exact congrArg _ (ih ho)

theorem Has.and {P' : Scope → Prop} (h : Has P s inner) (h' : Has P' s inner) :
    ∃ scope, P scope ∧ P' scope := by
  induction s generalizing inner with
  | nil => exact absurd h has_nil.mp
  | cons scope rest ih =>
      cases inner with
      | nil => exact ⟨scope, h, h'⟩
      | cons f inner => exact ih h.2 h'.2

/-- Two scopes that an operation leaves with the same scopes inside had the same ones before. -/
theorem Has.inside?_inj {P' : Scope → Prop} {inner₁ inner₂ : List Bool} {op : ScopeOp}
    (h₁ : Has P s inner₁) (h₂ : Has P' s inner₂) (hin₁ : op.inside? inner₁ = some inner)
    (hin₂ : op.inside? inner₂ = some inner) : inner₁ = inner₂ := by
  cases op with
  | enterFunction | enterScope =>
      exact List.tail_eq_of_cons_eq (Option.some.inj (hin₁.trans hin₂.symm))
  | declare _ _ | declareWith _ _ => exact Option.some.inj (hin₁.trans hin₂.symm)
  | exitScope =>
      cases inner₁ with
      | nil => cases hin₁
      | cons f₁ inner₁ =>
          cases inner₂ with
          | nil => cases hin₂
          | cons f₂ inner₂ =>
              cases hin₁
              cases hin₂
              rw [h₁.inner_eq, h₂.inner_eq]
              rfl
  | exitFunction =>
      induction s generalizing inner₁ inner₂ with
      | nil => exact absurd h₁ has_nil.mp
      | cons scope rest ih =>
          rcases has_cons.mp h₁ with ⟨rfl, -⟩ | ⟨outer₁, rfl, ho₁⟩
          · cases hin₁
          rcases has_cons.mp h₂ with ⟨rfl, -⟩ | ⟨outer₂, rfl, ho₂⟩
          · cases hin₂
          cases hb : scope.boundary with
          | true =>
              rw [hb] at hin₁ hin₂
              cases hin₁
              cases hin₂
              rfl
          | false =>
              rw [hb] at hin₁ hin₂
              rw [ih ho₁ ho₂ hin₁ hin₂]

end

/-! ### Declarations -/

/-- The scopes with a name bound in the innermost one. -/
def bind (s : Scopes) (name : String) (b : Binding) : Scopes :=
  match s with
  | [] => [(⟨[], true⟩ : Scope).put name b]
  | scope :: rest => scope.put name b :: rest

theorem declare_eq (s : Scopes) (name : String) (b : Binding) :
    s.declare name b =
      if s.isBound name then .error (.alreadyBound name) else .ok (s.bind name b) := by
  cases s <;> rfl

theorem declareWith_eq {m : Type → Type} [Monad m] {ε : Type} (s : Scopes) (name : String)
    (make : m (Except ε Binding)) :
    s.declareWith name make =
      if s.isBound name then pure (.refused (.alreadyBound name))
      else make >>= fun
        | .error e => pure (.failed e)
        | .ok b => pure (.bound b (s.bind name b)) := by
  unfold declareWith
  cases hb : s.isBound name with
  | true => rfl
  | false =>
      have hdeclare : ∀ b, s.declare name b = .ok (s.bind name b) := by
        intro b
        rw [declare_eq, hb, if_neg Bool.false_ne_true]
      rw [if_neg Bool.false_ne_true, if_neg Bool.false_ne_true]
      refine congrArg (make >>= ·) (funext fun made => ?_)
      cases made with
      | error e => rfl
      | ok b => simp only [hdeclare]

theorem declare_eq_ok_iff {s s' : Scopes} {name : String} {b : Binding} :
    s.declare name b = .ok s' ↔ s.isBound name = false ∧ s' = s.bind name b := by
  rw [declare_eq]
  cases s.isBound name <;> simp [eq_comm]

theorem declareWith_eq_bound_iff {ε : Type} {s s' : Scopes} {name : String} {b : Binding}
    {make : Except ε Binding} :
    s.declareWith name (m := Id) make = .bound b s' ↔
      make = .ok b ∧ s.isBound name = false ∧ s' = s.bind name b := by
  rw [declareWith_eq]
  cases s.isBound name with
  | true => simp only [if_true, reduceCtorEq, false_and, and_false]
  | false =>
      cases make with
      | error e =>
          simp only [reduceCtorEq, false_and, iff_false]
          exact nofun
      | ok b' =>
          constructor
          · intro h
            cases h
            exact ⟨rfl, rfl, rfl⟩
          · intro h
            obtain ⟨h, -, rfl⟩ := h
            cases h
            rfl

section

variable {P : Scope → Prop} {s : Scopes} {name : String} {b : Binding} {inner : List Bool}

/-- A declaration changes the innermost scope only. -/
theorem has_bind_of_ne (h : inner ≠ []) : Has P (s.bind name b) inner ↔ Has P s inner := by
  cases s with
  | nil => simp [bind, has_cons, h]
  | cons scope rest => simp only [bind, has_cons, h, false_and, false_or]; rfl

theorem has_get?_bind {x : String} {b' : Binding} :
    Has (fun scope => scope.get? x = some b') (s.bind name b) [] ↔
      if x = name then b = b' else Has (fun scope => scope.get? x = some b') s [] := by
  cases s with
  | nil =>
      show ((⟨[], true⟩ : Scope).put name b).get? x = some b' ↔ _
      rw [Scope.get?_put]
      split
      · exact Option.some_inj
      · simp [Scope.get?]
  | cons scope rest =>
      show (scope.put name b).get? x = some b' ↔ _
      rw [Scope.get?_put]
      split
      · exact Option.some_inj
      · rfl

theorem has_boundary_bind {f : Bool} :
    Has (fun scope => scope.boundary = f) (s.bind name b) [] ↔
      s = [] ∧ f = true ∨ Has (fun scope => scope.boundary = f) s [] := by
  cases s with
  | nil => simp [bind, Has, Scope.put, eq_comm]
  | cons scope rest => simp [bind, Has, Scope.put]

end

theorem isBound_iff_has {s : Scopes} {name : String} :
    s.isBound name = true ↔ ∃ b, Has (fun scope => scope.get? name = some b) s [] := by
  cases s with
  | nil => simp [isBound]
  | cons scope rest => exact Option.isSome_iff_exists

end Scopes

namespace ScopeOp

/-- What the operation makes of the scopes. -/
def apply (s : Scopes) : ScopeOp → Scopes
  | enterFunction => s.enterFunction
  | enterScope => s.enterScope
  | exitScope => s.exitScope
  | exitFunction => s.exitFunction
  | declare name b => if s.isBound name then s else s.bind name b
  | declareWith name make =>
    match make with
    | .error _ => s
    | .ok b => if s.isBound name then s else s.bind name b

theorem scopes_step (op : ScopeOp) (w : Workbench) :
    (w.step op.step).2.scopes = op.apply w.scopes := by
  cases op with
  | enterFunction | enterScope | exitScope | exitFunction => rfl
  | declare name b =>
      simp only [step, Workbench.step, Workbench.perform, bind_apply, get_apply, Scopes.declare_eq,
        apply]
      cases w.scopes.isBound name <;> rfl
  | declareWith name make =>
      simp only [step, Workbench.step, Workbench.perform, bind_apply, get_apply,
        Scopes.declareWith_eq, apply]
      cases hb : w.scopes.isBound name <;> cases make <;> rfl

section

variable {s : Scopes} {name : String} {b : Binding} {inner : List Bool}

/-- The name and the binding of a declaration, unless its binding cannot be made. -/
def binding? : ScopeOp → Option (String × Binding)
  | declare name b => some (name, b)
  | declareWith name (.ok b) => some (name, b)
  | _ => none

theorem binds_iff {op : ScopeOp} :
    op.Binds s name b ↔ op.binding? = some (name, b) ∧ s.isBound name = false := by
  cases op with
  | enterFunction | enterScope | exitScope | exitFunction => simp [Binds, binding?]
  | declare x b' =>
      simp only [Binds, binding?, Scopes.declare_eq_ok_iff, Option.some.injEq, Prod.mk.injEq]
      grind
  | declareWith x make =>
      simp only [Binds, Scopes.declareWith_eq_bound_iff]
      cases make with
      | error e => simp [binding?]
      | ok b' => simp only [binding?, Except.ok.injEq, Option.some.injEq, Prod.mk.injEq]; grind

theorem apply_of_binding? {op : ScopeOp} (h : op.binding? = some (name, b)) :
    op.apply s = if s.isBound name then s else s.bind name b := by
  rcases op with _ | _ | _ | _ | _ | ⟨x, _ | b'⟩ <;> cases h
  · rfl
  · rfl

theorem inside?_of_binding? {op : ScopeOp} (h : op.binding? = some (name, b)) :
    op.inside? inner = some inner := by
  rcases op with _ | _ | _ | _ | _ | ⟨x, _ | b'⟩ <;> cases h
  · rfl
  · rfl

theorem opens_of_binding? {op : ScopeOp} (h : op.binding? = some (name, b)) {boundary : Bool} :
    op.Opens s boundary ↔ s = [] ∧ boundary = true := by
  have hopens : op.Opens s boundary ↔ boundary = true ∧ s = [] ∧ ∃ name b, op.Binds s name b := by
    rcases op with _ | _ | _ | _ | _ | ⟨x, _ | b'⟩ <;> cases h
    · rfl
    · rfl
  rw [hopens]
  constructor
  · intro ⟨hf, hs, _⟩
    exact ⟨hs, hf⟩
  · intro ⟨hs, hf⟩
    refine ⟨hf, hs, name, b, binds_iff.mpr ⟨h, ?_⟩⟩
    rw [hs]
    rfl

/-- An operation that binds nothing can only add an empty scope. -/
theorem has_apply_of_binding?_none {P : Scope → Prop} {op : ScopeOp} (h : op.binding? = none) :
    (op.apply s).Has P inner ↔
      (∃ inner₀, s.Has P inner₀ ∧ op.inside? inner₀ = some inner) ∨
        (∃ boundary, op.Opens s boundary ∧ P ⟨[], boundary⟩) ∧ inner = [] := by
  have henter : ∀ boundary, Scopes.Has P (⟨[], boundary⟩ :: s) inner ↔
      (∃ inner₀, s.Has P inner₀ ∧ some (boundary :: inner₀) = some inner) ∨
        P ⟨[], boundary⟩ ∧ inner = [] := by
    intro boundary
    rw [Scopes.has_cons]
    grind
  cases op with
  | enterFunction => simpa [Opens, apply, inside?, Scopes.enterFunction] using henter true
  | enterScope => simpa [Opens, apply, inside?, Scopes.enterScope] using henter false
  | exitScope => simpa [Opens, apply] using Scopes.has_exitScope
  | exitFunction => simpa [Opens, apply] using Scopes.has_exitFunction
  | declare x b' => cases h
  | declareWith x make =>
      cases make with
      | ok b' => cases h
      | error e => simp [apply, inside?, Opens, binds_iff, binding?]

/-- Where a name is bound behind an operation. -/
theorem has_get?_apply (op : ScopeOp) :
    (op.apply s).Has (fun scope => scope.get? name = some b) inner ↔
      (∃ inner₀, s.Has (fun scope => scope.get? name = some b) inner₀ ∧
        op.inside? inner₀ = some inner) ∨ op.Binds s name b ∧ inner = [] := by
  rw [binds_iff]
  cases hop : op.binding? with
  | none =>
      rw [has_apply_of_binding?_none hop]
      simp [Scope.get?]
  | some p =>
      obtain ⟨x, b'⟩ := p
      simp only [apply_of_binding? hop, inside?_of_binding? hop, Option.some.injEq, Prod.mk.injEq,
        exists_eq_right]
      cases hx : s.isBound x with
      | true => grind
      | false =>
          simp only [Bool.false_eq_true, if_false]
          -- the new binding is in the innermost scope, and all others are as they were
          by_cases hi : inner = []
          · have hfree : ¬ ∃ b, s.Has (fun scope => scope.get? x = some b) [] := by
              rw [← Scopes.isBound_iff_has, hx]
              exact Bool.false_ne_true
            rw [hi, Scopes.has_get?_bind]
            by_cases hname : name = x
            · subst hname
              have hnone := not_exists.mp hfree b
              simp [hnone, hx]
            · simp [hname, Ne.symm hname]
          · rw [Scopes.has_bind_of_ne hi]
            simp [hi]

/-- Of which kinds the scopes behind an operation are. -/
theorem has_boundary_apply (op : ScopeOp) {boundary : Bool} :
    (op.apply s).Has (fun scope => scope.boundary = boundary) inner ↔
      (∃ inner₀, s.Has (fun scope => scope.boundary = boundary) inner₀ ∧
        op.inside? inner₀ = some inner) ∨ op.Opens s boundary ∧ inner = [] := by
  cases hop : op.binding? with
  | none =>
      rw [has_apply_of_binding?_none hop]
      simp
  | some p =>
      obtain ⟨x, b'⟩ := p
      simp only [apply_of_binding? hop, inside?_of_binding? hop, opens_of_binding? hop,
        Option.some.injEq, exists_eq_right]
      cases hx : s.isBound x with
      | true =>
          have hs : s ≠ [] := by
            intro h
            rw [h] at hx
            cases hx
          simp [hs]
      | false =>
          simp only [Bool.false_eq_true, if_false]
          by_cases hi : inner = []
          · rw [hi, Scopes.has_boundary_bind]
            grind
          · rw [Scopes.has_bind_of_ne hi]
            simp [hi]

end

end ScopeOp

/-! ### Histories -/

namespace ScopeHistory

variable {settings : Settings} {history : ScopeHistory}

theorem scopes_snoc (op : ScopeOp) :
    scopes settings (history ++ [op]) = op.apply (scopes settings history) := by
  unfold scopes
  rw [List.map_append, Workbench.after_append]
  exact op.scopes_step _

theorem inside?_snoc (op : ScopeOp) :
    inside? (history ++ [op]) = (inside? history).bind (ScopeOp.inside? · op) := by
  unfold inside?
  rw [List.foldlM_append]
  exact congrArg _ (funext fun inner => bind_pure _)

theorem left_snoc {Q : Scopes → ScopeOp → Prop} {op : ScopeOp} {index : Nat} {inner : List Bool} :
    Left settings (history ++ [op]) Q index inner ↔
      (∃ inner₀, Left settings history Q index inner₀ ∧ op.inside? inner₀ = some inner) ∨
        index = history.length ∧ Q (scopes settings history) op ∧ inner = [] := by
  constructor
  · rintro ⟨before, op', after, heq, hlen, hQ, hin⟩
    -- the operation is the last one, or the last one comes after it
    rcases List.eq_nil_or_concat after with rfl | ⟨after, last, rfl⟩
    · obtain ⟨rfl, hop⟩ := List.append_inj' heq rfl
      cases hop
      cases hin
      exact .inr ⟨hlen.symm, hQ, rfl⟩
    · rw [List.concat_eq_append, ← List.cons_append, ← List.append_assoc] at heq
      obtain ⟨rfl, hop⟩ := List.append_inj' heq rfl
      cases hop
      rw [List.concat_eq_append, inside?_snoc] at hin
      obtain ⟨inner₀, hin₀, hlast⟩ := Option.bind_eq_some_iff.mp hin
      exact .inl ⟨inner₀, ⟨before, op', after, rfl, hlen, hQ, hin₀⟩, hlast⟩
  · rintro (⟨inner₀, ⟨before, op', after, rfl, hlen, hQ, hin⟩, hop⟩ | ⟨rfl, hQ, rfl⟩)
    · refine ⟨before, op', after ++ [op], by simp, hlen, hQ, ?_⟩
      rw [inside?_snoc, hin]
      exact hop
    · exact ⟨history, op, [], rfl, rfl, hQ, rfl⟩

section

variable {name : String} {b b' : Binding} {inner inner' : List Bool}

/-- The bindings of the open scopes are the declarations that lie in them. -/
theorem exists_declares_iff : (∃ index, Declares settings history index name b inner) ↔
    (scopes settings history).Has (fun scope => scope.get? name = some b) inner := by
  induction history using List.reverseRecOn generalizing inner with
  | nil =>
      constructor
      · rintro ⟨index, before, op, after, h, -⟩
        simp at h
      · intro h
        rcases Scopes.has_cons.mp h with ⟨-, hget⟩ | ⟨outer, -, ho⟩
        · cases hget
        · exact absurd ho Scopes.has_nil.mp
  | append_singleton history op ih =>
      rw [scopes_snoc, ScopeOp.has_get?_apply]
      simp only [Declares, left_snoc, ← ih]
      grind

/-- The open scopes are those that were opened and not closed. -/
theorem opened_iff {boundary : Bool} : Opened settings history boundary inner ↔
    (scopes settings history).Has (fun scope => scope.boundary = boundary) inner := by
  induction history using List.reverseRecOn generalizing inner with
  | nil =>
      constructor
      · rintro (⟨rfl, hin⟩ | ⟨index, before, op, after, h, -⟩)
        · cases hin
          exact rfl
        · simp at h
      · intro h
        rcases Scopes.has_cons.mp h with ⟨rfl, hb⟩ | ⟨outer, -, ho⟩
        · exact .inl ⟨hb.symm, rfl⟩
        · exact absurd ho Scopes.has_nil.mp
  | append_singleton history op ih =>
      rw [scopes_snoc, ScopeOp.has_boundary_apply]
      simp only [Opened, left_snoc, inside?_snoc, Option.bind_eq_some_iff, ← ih]
      grind

/-- A name is declared once in a scope. -/
theorem Declares.unique {i j : Nat} (h : Declares settings history i name b inner)
    (h' : Declares settings history j name b' inner') (hlen : inner.length = inner'.length) :
    i = j ∧ b = b' := by
  have hhas := exists_declares_iff.mp ⟨i, h⟩
  have hhas' := exists_declares_iff.mp ⟨j, h'⟩
  obtain rfl : inner = inner' := by
    rw [hhas.inner_eq, hhas'.inner_eq, hlen]
  refine ⟨?_, ?_⟩
  · clear hlen hhas hhas'
    induction history using List.reverseRecOn generalizing inner with
    | nil =>
        obtain ⟨before, op, after, heq, -⟩ := h
        simp at heq
    | append_singleton history op ih =>
        -- a second declaration in the same scope would have been refused
        have hrefused : ∀ {k b₁ b₂ inner₀}, Declares settings history k name b₁ inner₀ →
            op.inside? inner₀ = some [] → ¬ op.Binds (scopes settings history) name b₂ := by
          intro k b₁ b₂ inner₀ hold hin hbinds
          obtain ⟨hop, hfree⟩ := ScopeOp.binds_iff.mp hbinds
          rw [ScopeOp.inside?_of_binding? hop] at hin
          cases hin
          have hbound := Scopes.isBound_iff_has.mpr ⟨b₁, exists_declares_iff.mp ⟨k, hold⟩⟩
          rw [hfree] at hbound
          cases hbound
        rcases left_snoc.mp h with ⟨inner₁, h₁, hin₁⟩ | ⟨rfl, hbinds₁, rfl⟩
        · rcases left_snoc.mp h' with ⟨inner₂, h₂, hin₂⟩ | ⟨rfl, hbinds₂, rfl⟩
          · have heq := (exists_declares_iff.mp ⟨i, h₁⟩).inside?_inj
              (exists_declares_iff.mp ⟨j, h₂⟩) hin₁ hin₂
            subst heq
            exact ih h₁ h₂
          · exact absurd hbinds₂ (hrefused h₁ hin₁)
        · rcases left_snoc.mp h' with ⟨inner₂, h₂, hin₂⟩ | ⟨rfl, hbinds₂, -⟩
          · exact absurd hbinds₁ (hrefused h₂ hin₂)
          · rfl
  · obtain ⟨scope, hb, hb'⟩ := hhas.and hhas'
    exact Option.some.inj (hb.symm.trans hb')

end

end ScopeHistory

/-! ### Look-ups -/

namespace Scopes

variable {name : String} {b : Binding}

theorem has_get?_cons {scope : Scope} {rest : Scopes} {inner : List Bool}
    (hget : scope.get? name = none) :
    Has (fun scope => scope.get? name = some b) (scope :: rest) inner ↔
      ∃ outer, inner = scope.boundary :: outer ∧
        Has (fun scope => scope.get? name = some b) rest outer := by
  rw [has_cons, hget]
  simp

/-- A look-up finds the innermost scope that holds the name, if no boundary lies inside that. -/
theorem resolve?_eq_some_iff {s : Scopes} : s.resolve? name = some b ↔
    ∃ inner, s.Has (fun scope => scope.get? name = some b) inner ∧ true ∉ inner ∧
      ∀ b' inner', s.Has (fun scope => scope.get? name = some b') inner' →
        inner.length ≤ inner'.length := by
  induction s with
  | nil => simp [resolve?]
  | cons scope rest ih =>
      rw [resolve?]
      cases hget : scope.get? name with
      | some b₀ =>
          constructor
          · intro h
            cases h
            exact ⟨[], hget, List.not_mem_nil, fun _ _ _ => Nat.zero_le _⟩
          · rintro ⟨inner, h, -, hmin⟩
            have hzero : inner.length = 0 := Nat.le_zero.mp (hmin b₀ [] hget)
            obtain rfl := List.eq_nil_of_length_eq_zero hzero
            exact hget.symm.trans h
      | none =>
          simp only [has_get?_cons hget]
          cases hb : scope.boundary with
          | true => simp
          | false =>
              simp only [Bool.false_eq_true, if_false]
              rw [ih]
              constructor
              · rintro ⟨inner, h, hin, hmin⟩
                refine ⟨false :: inner, ⟨inner, rfl, h⟩, by simp [hin], ?_⟩
                rintro b' _ ⟨outer, rfl, ho⟩
                exact Nat.succ_le_succ (hmin b' outer ho)
              · rintro ⟨_, ⟨outer, rfl, h⟩, hin, hmin⟩
                refine ⟨outer, h, fun hmem => hin (List.mem_cons_of_mem _ hmem), ?_⟩
                intro b' inner' h'
                exact Nat.le_of_succ_le_succ (hmin b' _ ⟨inner', rfl, h'⟩)

/-- A look-up finds nothing if a boundary lies inside every scope that holds the name. -/
theorem resolve?_eq_none_iff {s : Scopes} : s.resolve? name = none ↔
    ∀ b inner, s.Has (fun scope => scope.get? name = some b) inner → true ∈ inner := by
  induction s with
  | nil => simp [resolve?]
  | cons scope rest ih =>
      rw [resolve?]
      cases hget : scope.get? name with
      | some b₀ =>
          simp only [reduceCtorEq, false_iff]
          intro h
          exact List.not_mem_nil (h b₀ [] hget)
      | none =>
          simp only [has_get?_cons hget]
          cases scope.boundary with
          | true =>
              simp only [if_true, true_iff]
              rintro b _ ⟨outer, rfl, -⟩
              exact List.mem_cons_self
          | false =>
              simp only [Bool.false_eq_true, if_false]
              rw [ih]
              constructor
              · rintro h b _ ⟨outer, rfl, ho⟩
                exact List.mem_cons_of_mem _ (h b outer ho)
              · intro h b inner hi
                simpa using h b _ ⟨inner, rfl, hi⟩

theorem resolve_eq_ok_iff {s : Scopes} : s.resolve name = .ok b ↔ s.resolve? name = some b := by
  unfold resolve
  cases s.resolve? name <;> simp

theorem resolve_eq_error_iff {s : Scopes} :
    s.resolve name = .error (.unbound name) ↔ s.resolve? name = none := by
  unfold resolve
  cases s.resolve? name <;> simp

/-- The end of a function closes all scopes up to and including the nearest boundary. -/
theorem exitFunction_removes (s : Scopes) :
    (∃ inner last, s = inner ++ last :: s.exitFunction ∧ last.boundary = true ∧
      ∀ scope ∈ inner, scope.boundary = false) ∨
    s.exitFunction = [] ∧ ∀ scope ∈ s, scope.boundary = false := by
  induction s with
  | nil => exact .inr ⟨rfl, nofun⟩
  | cons scope rest ih =>
      rw [exitFunction]
      cases hb : scope.boundary with
      | true => exact .inl ⟨[], scope, rfl, hb, nofun⟩
      | false =>
          simp only [Bool.false_eq_true, if_false]
          rcases ih with ⟨inner, last, heq, hlast, hinner⟩ | ⟨hnil, hall⟩
          · refine .inl ⟨scope :: inner, last, congrArg _ heq, hlast, ?_⟩
            exact List.forall_mem_cons.mpr ⟨hb, hinner⟩
          · exact .inr ⟨hnil, List.forall_mem_cons.mpr ⟨hb, hall⟩⟩

theorem has_boundary_iff {s : Scopes} {boundary : Bool} {inner : List Bool} :
    s.Has (fun scope => scope.boundary = boundary) inner ↔
      inner ++ [boundary] <+: s.map Scope.boundary := by
  induction s generalizing inner with
  | nil => simp
  | cons scope rest ih =>
      cases inner with
      | nil => simp [Has, eq_comm]
      | cons f inner =>
          rw [Has, ih, List.map_cons, List.cons_append, List.cons_prefix_cons, eq_comm]

end Scopes

/-! ### The meaning of a history -/

/-- The scopes mean what the history says. -/
structure ScopeHistory.Explains (settings : Settings) (history : ScopeHistory) (s : Scopes) :
    Prop where
  /-- The scopes that are open are those that were opened and not closed, and of the same kinds. -/
  opened : ∀ boundary inner,
    Opened settings history boundary inner ↔ inner ++ [boundary] <+: s.map Scope.boundary
  /-- Of a name there is at most one declaration in an open scope. -/
  unique : ∀ {i j name b b' inner inner'}, Declares settings history i name b inner →
    Declares settings history j name b' inner' → inner.length = inner'.length → i = j ∧ b = b'
  /-- A look-up finds the declaration in the innermost scope that has one, unless a boundary lies
  inside that scope. -/
  resolve_ok : ∀ name b, s.resolve name = .ok b ↔
    ∃ i inner, Declares settings history i name b inner ∧ true ∉ inner ∧
      ∀ j b' inner', Declares settings history j name b' inner' → inner.length ≤ inner'.length
  resolve_error : ∀ name, s.resolve name = .error (.unbound name) ↔
    ∀ i b inner, Declares settings history i name b inner → true ∈ inner
  /-- The end of a function closes the scopes up to and including the nearest boundary, or all. -/
  exits : (∃ inner last, s = inner ++ last :: s.exitFunction ∧ last.boundary = true ∧
      ∀ scope ∈ inner, scope.boundary = false) ∨
    s.exitFunction = [] ∧ ∀ scope ∈ s, scope.boundary = false
  /-- A declaration is refused if the innermost scope has one already, and for no other reason. -/
  declares : ∀ name b,
    (∃ i b', Declares settings history i name b' []) ∧
      s.declare name b = .error (.alreadyBound name) ∨
    (¬ ∃ i b', Declares settings history i name b' []) ∧ ∃ s', s.declare name b = .ok s'
  /-- A binding is made only for a declaration that is not refused. What becomes of the declaration
  is then up to the making. -/
  makes : ∀ {m : Type → Type} [Monad m] {ε : Type} (name : String) (make : m (Except ε Binding)),
    (∃ i b, Declares settings history i name b []) ∧
      s.declareWith name make = pure (.refused (.alreadyBound name)) ∨
    (¬ ∃ i b, Declares settings history i name b []) ∧
      ∃ bound : Binding → Scopes, (∀ b, s.declare name b = .ok (bound b)) ∧
        s.declareWith name make = make >>= fun
          | .error e => pure (.failed e)
          | .ok b => pure (.bound b (bound b))

/-- However scopes were opened and closed and names declared, with or without success: the names
mean what the history says. -/
theorem session_scopes (settings : Settings) (history : ScopeHistory) :
    history.Explains settings
      ((Workbench.start settings).after (history.map ScopeOp.step)).scopes := by
  show history.Explains settings (history.scopes settings)
  have hbound : ∀ name, (∃ i b, history.Declares settings i name b []) ↔
      (history.scopes settings).isBound name = true := by
    intro name
    rw [Scopes.isBound_iff_has, exists_comm]
    simp only [ScopeHistory.exists_declares_iff]
  constructor
  · intro boundary inner
    rw [ScopeHistory.opened_iff, Scopes.has_boundary_iff]
  · intro i j name b b' inner inner' h h' hlen
    exact h.unique h' hlen
  · intro name b
    rw [Scopes.resolve_eq_ok_iff, Scopes.resolve?_eq_some_iff]
    simp only [← ScopeHistory.exists_declares_iff]
    constructor
    · rintro ⟨inner, ⟨i, hi⟩, hin, hmin⟩
      exact ⟨i, inner, hi, hin, fun j b' inner' hj => hmin b' inner' ⟨j, hj⟩⟩
    · rintro ⟨i, inner, hi, hin, hmin⟩
      exact ⟨inner, ⟨i, hi⟩, hin, fun b' inner' ⟨j, hj⟩ => hmin j b' inner' hj⟩
  · intro name
    rw [Scopes.resolve_eq_error_iff, Scopes.resolve?_eq_none_iff]
    simp only [← ScopeHistory.exists_declares_iff]
    constructor
    · intro h i b inner hi
      exact h b inner ⟨i, hi⟩
    · intro h b inner ⟨i, hi⟩
      exact h i b inner hi
  · exact Scopes.exitFunction_removes _
  · intro name b
    rw [hbound, Scopes.declare_eq]
    cases (history.scopes settings).isBound name with
    | true => exact .inl ⟨rfl, rfl⟩
    | false => exact .inr ⟨Bool.false_ne_true, _, rfl⟩
  · intro m _ ε name make
    rw [hbound, Scopes.declareWith_eq]
    cases hb : (history.scopes settings).isBound name with
    | true => exact .inl ⟨rfl, rfl⟩
    | false =>
        refine .inr ⟨Bool.false_ne_true, Scopes.bind _ name, fun b => ?_, rfl⟩
        exact Scopes.declare_eq_ok_iff.mpr ⟨hb, rfl⟩

end SlotLang
