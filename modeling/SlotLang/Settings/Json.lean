import SlotLang.Json.Skip
import SlotLang.Settings.Load

/-!
# SlotLang.Settings.Json

Settings as JSON text. They are read from an object, in which every field is optional and unknown
fields do not matter, or from a list of the fields in order. They are written as an object with
all fields.
-/

namespace SlotLang.Settings

open SlotLang.Json

/-! ### Fields -/

/-- A field of the settings. -/
inductive Field
  | entryFunction
  | printRoutine
  | printFormat
  deriving DecidableEq, Repr

namespace Field

/-- The key of a field. -/
def key : Field → String
  | entryFunction => "entry_function"
  | printRoutine => "print_routine"
  | printFormat => "print_format"

/-- The field with a key. -/
def ofKey? : String → Option Field
  | "entry_function" => some entryFunction
  | "print_routine" => some printRoutine
  | "print_format" => some printFormat
  | _ => none

@[simp] theorem ofKey?_key (f : Field) : ofKey? f.key = some f := by
  cases f <;> rfl

end Field

/-- The fields that a text has given so far. -/
structure Given where
  entryFunction : Option String
  printRoutine : Option String
  printFormat : Option (Option String)
  deriving DecidableEq, Repr

namespace Given

/-- No field is given. -/
def nothing : Given := ⟨none, none, none⟩

/-- The field is given. -/
def has (g : Given) : Field → Bool
  | .entryFunction => g.entryFunction.isSome
  | .printRoutine => g.printRoutine.isSome
  | .printFormat => g.printFormat.isSome

/-- The settings with the given fields; the others keep their defaults. -/
def settings (g : Given) : Settings :=
  ⟨g.entryFunction.getD default.entryFunction, g.printRoutine.getD default.printRoutine,
    g.printFormat.getD default.printFormat⟩

end Given

/-! ### Values -/

/-- Fails because another value is found where a certain one is wanted. Scalars are read to their
end first. -/
def failType {α : Type} (expected : String) (cs : List Char) : Except ReadError α :=
  let scalar (found : Found) (rest : List Char) : Except ReadError α :=
    failAt (.wrongType found expected) rest
  match cs with
  | 'n' :: rest => do scalar .null (← readWord ['u', 'l', 'l'] rest)
  | 't' :: rest => do scalar (.boolean true) (← readWord ['r', 'u', 'e'] rest)
  | 'f' :: rest => do scalar (.boolean false) (← readWord ['a', 'l', 's', 'e'] rest)
  | '-' :: rest => do
    let (found, rest) ← readNumber true rest
    scalar found rest
  | '"' :: rest => do
    let (text, rest) ← readText rest
    scalar (.text (String.ofList text)) rest
  | '[' :: _ => scalar .sequence cs
  | '\x7b' :: _ => scalar .map cs
  | c :: _ =>
    if c.isDigit then do
      let (found, rest) ← readNumber false cs
      scalar found rest
    else
      failPast .expectedValue 1 cs
  | [] => failPast .expectedValue 1 []

/-- Reads a string value. -/
def readName (cs : List Char) : Except ReadError (String × List Char) :=
  match skipSpace cs with
  | [] => failAt .endInValue []
  | '"' :: rest => do
    let (text, rest) ← readText rest
    return (String.ofList text, rest)
  | rest => failType "a string" rest

/-- Reads a string value or null. -/
def readFormat (cs : List Char) : Except ReadError (Option String × List Char) :=
  match skipSpace cs with
  | 'n' :: rest => do return (none, ← readWord ['u', 'l', 'l'] rest)
  | rest => do
    let (format, rest) ← readName rest
    return (some format, rest)

/-- Reads the value of a field. -/
def readField (g : Given) (field : Field) (cs : List Char) : Except ReadError (Given × List Char) :=
  match field with
  | .entryFunction => do
    let (name, rest) ← readName cs
    return ({ g with entryFunction := some name }, rest)
  | .printRoutine => do
    let (name, rest) ← readName cs
    return ({ g with printRoutine := some name }, rest)
  | .printFormat => do
    let (format, rest) ← readFormat cs
    return ({ g with printFormat := some format }, rest)

/-! ### Objects -/

/-- Fails because a field is given twice. The failure is noticed behind the key, and behind the
end of the object if that follows. -/
def failDuplicate {α : Type} (field : Field) (cs : List Char) : Except ReadError α :=
  match skipSpace cs with
  | '\x7d' :: rest => failAt (.duplicateField field.key) rest
  | rest => failAt (.duplicateField field.key) rest

/-- Reads a member behind the quote that opens its key. -/
def readMember (g : Given) (cs : List Char) : Except ReadError (Given × List Char) := do
  let (key, rest) ← readText cs
  match Field.ofKey? (String.ofList key) with
  | some field =>
    if g.has field then failDuplicate field rest
    else readField g field (← readColon rest)
  | none => return (g, ← skipValue (← readColon rest))

/-- Reads the members of an object behind the first one. The fuel is the length of the text. -/
def readMembers : Nat → Given → List Char → Except ReadError (Given × List Char)
  | 0, _, _ => failAt .endInObject []
  | fuel + 1, g, cs =>
    match skipSpace cs with
    | [] => failAt .endInObject []
    | '\x7d' :: rest => .ok (g, rest)
    | ',' :: rest =>
      match skipSpace rest with
      | [] => failAt .endInValue []
      | '"' :: rest => do
        let (g, rest) ← readMember g rest
        readMembers fuel g rest
      | '\x7d' :: rest => failPast .trailingComma 1 ('\x7d' :: rest)
      | rest => failPast .keyNotString 1 rest
    | rest => failPast .expectedObjectSeparator 1 rest

/-- Reads an object behind its opening bracket. -/
def readObject (cs : List Char) : Except ReadError (Given × List Char) :=
  match skipSpace cs with
  | [] => failAt .endInObject []
  | '\x7d' :: rest => .ok (.nothing, rest)
  | '"' :: rest => do
    let (g, rest) ← readMember .nothing rest
    readMembers (rest.length + 1) g rest
  | rest => failPast .keyNotString 1 rest

/-! ### Lists -/

/-- Reads the end of a list in which all fields are given. -/
def readListEnd (cs : List Char) : Except ReadError (List Char) :=
  match skipSpace cs with
  | [] => failAt .endInList []
  | ']' :: rest => .ok rest
  | ',' :: rest =>
    match skipSpace rest with
    | ']' :: rest => failPast .trailingComma 1 (']' :: rest)
    | rest => failPast .trailingCharacters 1 rest
  | rest => failPast .trailingCharacters 1 rest

/-- Reads the values of the fields that remain behind an element of a list. -/
def readElements (g : Given) : List Field → List Char → Except ReadError (Given × List Char)
  | [], cs => do return (g, ← readListEnd cs)
  | field :: fields, cs =>
    match skipSpace cs with
    | [] => failAt .endInList []
    | ']' :: rest => .ok (g, rest)
    | ',' :: rest =>
      match skipSpace rest with
      | [] => failAt .endInValue []
      | ']' :: rest => failPast .trailingComma 1 (']' :: rest)
      | rest => do
        let (g, rest) ← readField g field rest
        readElements g fields rest
    | rest => failPast .expectedListSeparator 1 rest

/-- Reads a list behind its opening bracket. -/
def readList (cs : List Char) : Except ReadError (Given × List Char) :=
  match skipSpace cs with
  | [] => failAt .endInList []
  | ']' :: rest => .ok (.nothing, rest)
  | rest => do
    let (g, rest) ← readField .nothing .entryFunction rest
    readElements g [.printRoutine, .printFormat] rest

/-! ### Whole texts -/

/-- Reads the fields that a text gives. -/
def readGiven (cs : List Char) : Except ReadError Given := do
  let (g, rest) ← match skipSpace cs with
    | [] => failAt .endInValue []
    | '\x7b' :: rest => readObject rest
    | '[' :: rest => readList rest
    | rest => failType "struct LowerConfig" rest
  match skipSpace rest with
  | [] => return g
  | rest => failPast .trailingCharacters 1 rest

/-- The decoder of JSON texts. A text that is malformed is so at a line and a column. -/
def readJson : Decoder := fun text =>
  match readGiven text.toList with
  | .error e =>
    let (line, column) := locate text.toList e.unread
    .error ⟨e.cause, line, column⟩
  | .ok g => .ok g.settings

/-! ### Writing -/

/-- A key with its colon. -/
def writeKey (field : Field) : List Char :=
  writeText field.key ++ [':']

/-- The settings as an object, without blanks. -/
def toJson (s : Settings) : String :=
  let format := match s.printFormat with
    | some format => writeText format
    | none => ['n', 'u', 'l', 'l']
  String.ofList <|
    ['\x7b'] ++ writeKey .entryFunction ++ writeText s.entryFunction ++
      [','] ++ writeKey .printRoutine ++ writeText s.printRoutine ++
      [','] ++ writeKey .printFormat ++ format ++ ['\x7d']

end SlotLang.Settings
