import SlotLang.Instr

/-!
# SlotLang.BuildError

Why a module or a function under construction refuses what it is asked for.
-/

namespace SlotLang

/-- The use for which a type was refused. -/
inductive Usage
  /-- A parameter of a declared function. -/
  | parameter (name function : String)
  /-- The result of a declared function. -/
  | result (function : String)
  /-- The body of a function that lives outside the module. -/
  | externalBody (function : String)
  /-- An argument past the declared parameters. -/
  | variadicArgument (function : String)
  /-- A return without a value from a function that yields one. -/
  | emptyReturn (function : String) (expected : Ty)
  /-- Any other use, in words. -/
  | described (text : String)
  deriving DecidableEq, Repr

namespace Usage

/-- The use in words. -/
def text : Usage → String
  | parameter name function => s!"parameter '{name}' of '{function}'"
  | result function => s!"return of '{function}'"
  | externalBody function => s!"body of external '{function}'"
  | variadicArgument function => s!"variadic argument to '{function}'"
  | emptyReturn function expected => s!"empty return from '{function}' returning {expected.text}"
  | described text => text

end Usage

/-- A refusal. -/
inductive BuildError
  /-- An operand of the wrong type. -/
  | typeMismatch (operation : Opcode) (expected found : Ty) (value : Handle)
  /-- A call with the wrong number of arguments. -/
  | argumentCount (callee : String) (expected found : Nat) (variadic : Bool)
  /-- An instruction behind the return that ends the body. -/
  | afterTerminator (function : String)
  /-- A second declaration, or a second body, of a function. -/
  | duplicateFunction (name : String)
  /-- A function name that the module does not know. -/
  | unknownFunction (name : String)
  /-- A handle that names nothing here. -/
  | unknownValue (value : Handle)
  /-- A type that does not fit its use. -/
  | invalidType (usage : Usage) (ty : Ty)
  deriving DecidableEq, Repr

namespace BuildError

/-- The refusal in words. -/
def message : BuildError → String
  | typeMismatch operation expected found value =>
    s!"{operation.mnemonic} expects {expected.text} but {value.text} has type {found.text}"
  | argumentCount callee expected found variadic =>
    let least := if variadic then "at least " else ""
    s!"call to '{callee}' expects {least}{expected} argument(s), got {found}"
  | afterTerminator function => s!"instruction emitted after terminator in '{function}'"
  | duplicateFunction name => s!"function '{name}' is already defined"
  | unknownFunction name => s!"function '{name}' is not declared"
  | unknownValue value => s!"value {value.text} does not belong to this function"
  | invalidType usage ty => s!"type {ty.text} is not valid for {usage.text}"

end BuildError

end SlotLang
