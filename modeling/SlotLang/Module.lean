import SlotLang.BuildError

/-!
# SlotLang.Module

A module holds functions and texts in the order in which they were added. Their indices are their
identities: nothing is ever removed or renumbered, a function receives its body at most once, and
equal texts share one index. Beside the functions there is a table of their indices by name.

Requests change a module piece by piece. One that fails keeps what it has changed before, so that a
refused request leaves the module alone only because of the order of its steps.
-/

namespace SlotLang

/-- A named parameter of a function. -/
structure Param where
  name : String
  ty : Ty
  deriving DecidableEq, Repr

/-- A function of a module. -/
structure Func where
  name : String
  params : List Param
  result : Ty
  /-- The function takes further arguments behind its parameters. -/
  isVariadic : Bool
  /-- The function lives outside the module. -/
  isExternal : Bool
  /-- The instructions of the body, once there is one. -/
  body? : Option (List Instr)
  /-- The types of the registers that the instructions fill, by position. -/
  types : List Ty
  deriving DecidableEq, Repr

namespace Func

/-- A function that waits for its body. -/
def pending (name : String) (params : List Param) (result : Ty) : Func :=
  ⟨name, params, result, false, false, none, []⟩

/-- A function that lives outside the module. -/
def external (name : String) (params : List Param) (variadic : Bool) (result : Ty) : Func :=
  ⟨name, params, result, variadic, true, none, []⟩

/-- The instructions of the body, of which a function without a body has none. -/
def code (f : Func) : List Instr := f.body?.getD []

/-- Parameters must be passable and the result returnable; the first offence is reported. -/
def checkTypes (f : Func) : Except BuildError Unit :=
  match f.params.find? fun p => !p.ty.passable with
  | some p => .error (.invalidType (.parameter p.name f.name) p.ty)
  | none =>
    if f.result.returnable then .ok () else .error (.invalidType (.result f.name) f.result)

end Func

/-- Functions and texts that belong together. -/
structure Module where
  name : String
  functions : List Func
  /-- The indices of functions by name. The latest entry of a name counts. -/
  index : List (String × Nat)
  texts : List String
  deriving DecidableEq, Repr

/-- Requests at work: they change a module and may fail, and a failure keeps the changes. -/
abbrev Request := EStateM BuildError Module

namespace Module

/-- A module with nothing in it. -/
def empty (name : String) : Module := ⟨name, [], [], []⟩

/-- The index of the function with this name, as the table has it. -/
def find? (m : Module) (name : String) : Option Nat :=
  m.index.lookup name

/-- The function at an index. -/
def function? (m : Module) (id : Nat) : Option Func :=
  m.functions[id]?

/-- The text at an index. -/
def text? (m : Module) (id : Nat) : Option String :=
  m.texts[id]?

/-- Enters the index of a function under its name. -/
def enterIndex (m : Module) (name : String) (id : Nat) : Module :=
  { m with index := (name, id) :: m.index }

/-- Adds a function behind the others. -/
def push (m : Module) (f : Func) : Module :=
  { m with functions := m.functions ++ [f] }

/-- Changes the function at an index. -/
def update (m : Module) (id : Nat) (change : Func → Func) : Module :=
  { m with functions := m.functions.modify id change }

end Module

/-- To look at the state changes nothing. -/
theorem get_bind_apply {ε σ α : Type} (f : σ → EStateM ε σ α) (s : σ) :
    (get >>= f) s = f s s := rfl

namespace Request

/-- Adds a function and tells its index. A taken name is refused before the types are looked at. -/
def insert (f : Func) : Request Nat := do
  if ((← get).find? f.name).isSome then
    throw (.duplicateFunction f.name)
  MonadExcept.ofExcept f.checkTypes
  let id := (← get).functions.length
  modify fun m => m.enterIndex f.name id
  modify fun m => m.push f
  return id

/-- Gives the function at an index its body. External functions and functions that have one are
refused. -/
def define (id : Nat) (code : List Instr) (types : List Ty) : Request Unit := do
  match (← get).function? id with
  | none => throw (.unknownValue (.func id))
  | some f =>
    if f.isExternal || f.body?.isSome then
      throw (.duplicateFunction f.name)
    modify fun m => m.update id fun f => { f with body? := some code }
    modify fun m => m.update id fun f => { f with types }

end Request

namespace Module

/-- Adds a function, see `Request.insert`. -/
def insert (m : Module) (f : Func) : EStateM.Result BuildError Module Nat :=
  Request.insert f m

/-- Declares a function that will receive a body. -/
def declare (m : Module) (name : String) (params : List Param) (result : Ty) :
    EStateM.Result BuildError Module Nat :=
  m.insert (.pending name params result)

/-- Declares a function that lives outside the module. -/
def declareExternal (m : Module) (name : String) (params : List Param) (variadic : Bool)
    (result : Ty) : EStateM.Result BuildError Module Nat :=
  m.insert (.external name params variadic result)

/-- Gives a function its body, see `Request.define`. -/
def define (m : Module) (id : Nat) (code : List Instr) (types : List Ty) :
    EStateM.Result BuildError Module Unit :=
  Request.define id code types m

/-- The index of a text, which is added if it is not there yet. -/
def intern (m : Module) (text : String) : Nat × Module :=
  match m.texts.findIdx? fun t => t == text with
  | some id => (id, m)
  | none => (m.texts.length, { m with texts := m.texts ++ [text] })

/-! ### What requests do -/

/-- An insertion that comes to its end has added one function and its entry in the table; any other
has changed nothing. -/
theorem insert_eq (m : Module) (f : Func) :
    m.insert f =
      match m.find? f.name with
      | some _ => .error (.duplicateFunction f.name) m
      | none =>
        match f.checkTypes with
        | .error e => .error e m
        | .ok () => .ok m.functions.length { m with
            functions := m.functions ++ [f]
            index := (f.name, m.functions.length) :: m.index } := by
  cases hfind : m.find? f.name with
  | some id =>
    simp only [insert, Request.insert, get_bind_apply, hfind, Option.isSome_some, if_true]
    rfl
  | none =>
    simp only [insert, Request.insert, get_bind_apply, hfind, Option.isSome_none,
      Bool.false_eq_true, if_false]
    cases f.checkTypes <;> rfl

/-- An insertion succeeds exactly if the name is free and the types are right. -/
theorem insert_eq_ok_iff {m m' : Module} {f : Func} {id : Nat} :
    m.insert f = .ok id m' ↔
      m.find? f.name = none ∧ f.checkTypes = .ok () ∧ id = m.functions.length ∧
        m' = { m with
          functions := m.functions ++ [f]
          index := (f.name, m.functions.length) :: m.index } := by
  rw [insert_eq]
  cases m.find? f.name with
  | some _ => simp
  | none => cases f.checkTypes <;> simp [eq_comm]

/-- Nothing is changed before the last check. -/
theorem eq_of_insert_error {m m' : Module} {f : Func} {e : BuildError}
    (h : m.insert f = .error e m') : m' = m := by
  rw [insert_eq] at h
  cases hfind : m.find? f.name with
  | some _ =>
    rw [hfind] at h
    cases h
    rfl
  | none =>
    rw [hfind] at h
    cases ht : f.checkTypes with
    | error _ =>
      rw [ht] at h
      cases h
      rfl
    | ok _ =>
      rw [ht] at h
      cases h

/-- A definition that comes to its end has changed the body and the types of one function; any other
has changed nothing. -/
theorem define_eq (m : Module) (id : Nat) (code : List Instr) (types : List Ty) :
    m.define id code types =
      match m.function? id with
      | none => .error (.unknownValue (.func id)) m
      | some f =>
        if f.isExternal || f.body?.isSome then .error (.duplicateFunction f.name) m
        else .ok () { m with
          functions := m.functions.set id { f with body? := some code, types } } := by
  cases hf : m.function? id with
  | none =>
    simp only [define, Request.define, get_bind_apply, hf]
    rfl
  | some f =>
    simp only [define, Request.define, get_bind_apply, hf]
    split
    · rfl
    · -- the body and the types are written one after the other
      have htwo : ((m.update id fun f => { f with body? := some code }).update id
          fun f => { f with types }) =
          { m with functions := m.functions.set id { f with body? := some code, types } } := by
        have hset : m.functions.modify id (fun f => { f with body? := some code, types }) =
            m.functions.set id { f with body? := some code, types } := by
          have : Inhabited Func := ⟨f⟩
          rw [List.modify_eq_set, show m.functions[id]? = some f from hf]
          rfl
        simp only [update, List.modify_modify_eq, ← hset]
        rfl
      exact congrArg _ htwo

/-- A definition succeeds exactly for a function of the module that has no body. -/
theorem define_eq_ok_iff {m m' : Module} {id : Nat} {code : List Instr} {types : List Ty} :
    m.define id code types = .ok () m' ↔
      ∃ f, m.functions[id]? = some f ∧ f.isExternal = false ∧ f.body? = none ∧
        m' = { m with functions := m.functions.set id { f with body? := some code, types } } := by
  rw [define_eq, function?]
  cases m.functions[id]? with
  | none => simp
  | some f =>
    cases he : f.isExternal with
    | true => simp [he]
    | false =>
      cases hb : f.body? with
      | some _ => simp [he, hb]
      | none =>
        simp only [Option.isSome_none, Bool.or_self, Bool.false_eq_true, if_false, he,
          Option.some.injEq, EStateM.Result.ok.injEq, true_and, exists_eq_left', hb]
        exact eq_comm

/-- Nothing is changed before the last check. -/
theorem eq_of_define_error {m m' : Module} {id : Nat} {code : List Instr} {types : List Ty}
    {e : BuildError} (h : m.define id code types = .error e m') : m' = m := by
  rw [define_eq] at h
  cases hf : m.function? id with
  | none =>
    rw [hf] at h
    cases h
    rfl
  | some f =>
    rw [hf] at h
    dsimp only at h
    split at h
    · cases h
      rfl
    · cases h

end Module

end SlotLang
