import SlotLang.Handle

/-!
# SlotLang.Scopes

What names mean while a tree is lowered. Scopes nest; each function opens a scope of its own,
which is a *boundary*: no look-up passes it, because the handles of the function outside mean
nothing inside.
-/

namespace SlotLang

/-- What a name stands for. -/
inductive Binding
  /-- A variable, by the address of its slot. -/
  | storage (handle : Handle)
  /-- A parameter, which has a value and no slot. -/
  | argument (handle : Handle)
  deriving DecidableEq, Repr

namespace Binding

/-- The handle behind a binding. -/
def handle : Binding → Handle
  | storage h => h
  | argument h => h

end Binding

/-- Why a name was refused. -/
inductive ScopeError
  /-- The innermost scope holds the name already. -/
  | alreadyBound (name : String)
  /-- No scope of the function holds the name. -/
  | unbound (name : String)
  deriving DecidableEq, Repr

namespace ScopeError

/-- The refusal in words. -/
def message : ScopeError → String
  | alreadyBound name => s!"'{name}' is already declared in this scope"
  | unbound name => s!"'{name}' is not declared"

end ScopeError

/-- The names of one scope, the latest first, and whether look-ups stop here. -/
structure Scope where
  bindings : List (String × Binding)
  boundary : Bool
  deriving DecidableEq, Repr

namespace Scope

/-- The meaning of a name in this scope alone. -/
def get? (s : Scope) (name : String) : Option Binding :=
  s.bindings.lookup name

/-- Binds a name. -/
def put (s : Scope) (name : String) (binding : Binding) : Scope :=
  { s with bindings := (name, binding) :: s.bindings }

end Scope

/-- The open scopes, the innermost first. -/
abbrev Scopes := List Scope

/-- How a declaration that has to produce its binding first can end. -/
inductive Declared (ε : Type)
  /-- The name was taken, and nothing was produced. -/
  | refused (error : ScopeError)
  /-- The binding could not be produced. -/
  | failed (error : ε)
  /-- The name is bound. -/
  | bound (binding : Binding) (scopes : Scopes)
  deriving Repr

namespace Scopes

/-- One function scope, ready for the statements of a program. -/
def initial : Scopes := [⟨[], true⟩]

/-- Opens the scope of a function. -/
def enterFunction (s : Scopes) : Scopes := ⟨[], true⟩ :: s

/-- Opens a scope inside the current function. -/
def enterScope (s : Scopes) : Scopes := ⟨[], false⟩ :: s

/-- Closes the innermost scope, if there is one. -/
def exitScope (s : Scopes) : Scopes := s.tail

/-- Closes scopes up to and including the nearest boundary. -/
def exitFunction : Scopes → Scopes
  | [] => []
  | scope :: rest => if scope.boundary then rest else exitFunction rest

@[simp] theorem exitFunction_enterFunction (s : Scopes) : s.enterFunction.exitFunction = s := rfl

@[simp] theorem exitScope_enterScope (s : Scopes) : s.enterScope.exitScope = s := rfl

/-- The meaning of a name. The search goes outwards and ends at the first boundary. -/
def resolve? (name : String) : Scopes → Option Binding
  | [] => none
  | scope :: rest =>
    match scope.get? name with
    | some binding => some binding
    | none => if scope.boundary then none else resolve? name rest

/-- The meaning of a name, or the reason why it has none. -/
def resolve (s : Scopes) (name : String) : Except ScopeError Binding :=
  match s.resolve? name with
  | some binding => .ok binding
  | none => .error (.unbound name)

/-- The innermost scope holds the name. -/
def isBound (s : Scopes) (name : String) : Bool :=
  match s with
  | [] => false
  | scope :: _ => (scope.get? name).isSome

/-- Binds a name in the innermost scope, once. If no scope is open, a function scope is opened for
it. -/
def declare (s : Scopes) (name : String) (binding : Binding) : Except ScopeError Scopes :=
  match s with
  | [] => .ok [(⟨[], true⟩ : Scope).put name binding]
  | scope :: rest =>
    if (scope.get? name).isSome then
      .error (.alreadyBound name)
    else
      .ok (scope.put name binding :: rest)

/-- In an open scope a declaration succeeds exactly if the name is free there. -/
theorem declare_cons_eq_ok_iff {scope : Scope} {rest s' : Scopes} {name : String}
    {binding : Binding} :
    declare (scope :: rest) name binding = .ok s' ↔
      scope.get? name = none ∧ s' = scope.put name binding :: rest := by
  cases h : scope.get? name with
  | some _ => simp [declare, h]
  | none => simp [declare, h, eq_comm (a := s')]

/-- Binds a name to what `make` produces. A taken name is refused before `make` runs. -/
def declareWith {m : Type → Type} [Monad m] {ε : Type} (s : Scopes) (name : String)
    (make : m (Except ε Binding)) : m (Declared ε) :=
  if s.isBound name then
    pure (.refused (.alreadyBound name))
  else do
    match ← make with
    | .error e => pure (.failed e)
    | .ok binding =>
      match s.declare name binding with
      | .error e => pure (.refused e)
      | .ok scopes => pure (.bound binding scopes)

end Scopes

end SlotLang
