import SlotLang.Module

/-!
# SlotLang.Module.Printer

The text of a module: a title, the texts, then each function with its instructions.
-/

namespace SlotLang.Module

/-- A handle as the module prints it: functions go by name where the index is known. -/
def handleText (m : Module) : Handle → String
  | .func id =>
    match m.function? id with
    | some f => "@" ++ f.name
    | none => (Handle.func id).text
  | h => h.text

/-- An instruction as the module prints it. -/
def instrText (m : Module) : Instr → String
  | .alloca name => "alloca i64 ; " ++ name
  | .load ptr => "load " ++ m.handleText ptr
  | .store ptr value => "store " ++ m.handleText value ++ ", " ++ m.handleText ptr
  | .binary op lhs rhs => op.mnemonic ++ " " ++ m.handleText lhs ++ ", " ++ m.handleText rhs
  | .call callee args =>
    "call " ++ m.handleText (.func callee) ++ "(" ++ ", ".intercalate (args.map m.handleText) ++ ")"
  | .ret (some value) => "ret " ++ m.handleText value
  | .ret none => "ret void"

/-- The line of an instruction. Its register is named if it holds a value. -/
def lineText (m : Module) (index : Nat) (ty? : Option Ty) (instr : Instr) : String :=
  if ty?.any (· ≠ .void) then
    s!"  %{index} = " ++ m.instrText instr ++ "\n"
  else
    "  " ++ m.instrText instr ++ "\n"

/-- The lines of a body, counted from an index. -/
def bodyText (m : Module) (types : List Ty) : Nat → List Instr → String
  | _, [] => ""
  | index, instr :: rest =>
    m.lineText index types[index]? instr ++ m.bodyText types (index + 1) rest

/-- Result, name and parameters of a function; dots stand for further arguments. -/
def headText (f : Func) : String :=
  let params := f.params.map fun p => p.ty.text ++ " %" ++ p.name
  let dots := if f.isVariadic then ["..."] else []
  f.result.text ++ " @" ++ f.name ++ "(" ++ ", ".intercalate (params ++ dots) ++ ")"

/-- A function, with its body if it has one. -/
def functionText (m : Module) (f : Func) : String :=
  match f.body? with
  | none => "declare " ++ headText f ++ "\n"
  | some body =>
    "define " ++ headText f ++ " \x7b\n" ++ m.bodyText f.types 0 body ++ "\x7d\n"

/-- The texts of a module, counted from an index. -/
def textLines : Nat → List String → String
  | _, [] => ""
  | id, text :: rest =>
    (Handle.global id).text ++ " = " ++ Text.quote text ++ "\n" ++ textLines (id + 1) rest

/-- The whole module. -/
def print (m : Module) : String :=
  "; module " ++ m.name ++ "\n" ++ textLines 0 m.texts ++
    String.join (m.functions.map m.functionText)

end SlotLang.Module
