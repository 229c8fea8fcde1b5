import SlotLang.Machine.Value
import SlotLang.Module

/-!
# SlotLang.Machine.Print

The print routine. If its first argument is a text, that text is a format in which `%d` and `%i`
take the next integer and `%%` is a percent sign. Without a format the integers stand on one line.
-/

namespace SlotLang

/-- Why nothing can be printed. -/
inductive PrintFault
  /-- The format is a text that the module does not have. -/
  | unknownText (id : Nat)
  /-- A value that is no integer. -/
  | notAnInt (found : ValueKind)
  /-- The format takes more integers than there are. -/
  | missingArgument
  /-- A percent sign before a character that means nothing there. -/
  | unsupported (conversion : Char)
  /-- A percent sign at the end. -/
  | danglingPercent
  deriving DecidableEq, Repr

namespace PrintFault

/-- The fault in words. -/
def message : PrintFault → String
  | unknownText id => s!"print: unknown string global {id}"
  | notAnInt found => s!"print: cannot print a {found.text}"
  | missingArgument => "print: format expects more arguments"
  | unsupported conversion => s!"print: unsupported conversion '%{conversion}'"
  | danglingPercent => "print: format string ends with '%'"

end PrintFault

namespace Print

/-- An integer in decimal. -/
def decimal (v : Int64) : String := toString v.toInt

/-- All values as integers, or the first that is none. -/
def integers : List Value → Except PrintFault (List Int64)
  | [] => .ok []
  | .int v :: rest => do return v :: (← integers rest)
  | other :: _ => .error (.notAnInt other.kind)

/-- Without a format, integers are parted by blanks and end the line. -/
def plain (values : List Int64) : String :=
  " ".intercalate (values.map decimal) ++ "\n"

/-- Fills a format from left to right. Integers that are left over do not matter. -/
def fill : List Char → List Int64 → Except PrintFault String
  | [], _ => .ok ""
  | '%' :: '%' :: rest, values => do return "%" ++ (← fill rest values)
  | '%' :: 'd' :: rest, values | '%' :: 'i' :: rest, values =>
    match values with
    | [] => .error .missingArgument
    | v :: values => do return decimal v ++ (← fill rest values)
  | '%' :: c :: _, _ => .error (.unsupported c)
  | ['%'], _ => .error .danglingPercent
  | c :: rest, values => do return String.singleton c ++ (← fill rest values)

/-- The text that a list of arguments prints. -/
def run (m : Module) (args : List Value) : Except PrintFault String :=
  match args with
  | .text id :: rest =>
    match m.text? id with
    | none => .error (.unknownText id)
    | some format => do fill format.toList (← integers rest)
  | _ => do return plain (← integers args)

end Print

end SlotLang
