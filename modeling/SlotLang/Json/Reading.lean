import SlotLang.Decimal.Shortest
import SlotLang.Text.Quoted

/-!
# SlotLang.Json.Reading

Readers of JSON text. A reader takes characters and yields what it read together with the
characters that are left. A failure says how many bytes of the text were still unread, and
`locate` turns that into a line and a column.
-/

namespace SlotLang.Json

open SlotLang.Decimal (Double)

/-- A value that was found where another was wanted. -/
inductive Found
  | null
  | boolean (value : Bool)
  | integer (value : Int)
  | float (value : Double)
  | text (value : String)
  | sequence
  | map
  deriving DecidableEq, Repr

namespace Found

/-- The value in words. -/
def description : Found → String
  | null => "null"
  | boolean true => "boolean `true`"
  | boolean false => "boolean `false`"
  | integer value => s!"integer `{value}`"
  | float value => s!"floating point `{value.text}`"
  | text value => "string " ++ Text.quote value
  | sequence => "sequence"
  | map => "map"

end Found

/-- Why a text cannot be read. -/
inductive Cause
  | endInValue
  | endInList
  | endInObject
  | endInString
  | expectedColon
  | expectedListSeparator
  | expectedObjectSeparator
  | expectedWord
  | expectedValue
  | keyNotString
  | trailingComma
  | trailingCharacters
  | controlCharacter
  | invalidEscape
  | loneSurrogate
  | unfinishedSurrogate
  | invalidNumber
  | numberOutOfRange
  | duplicateField (name : String)
  | wrongType (found : Found) (expected : String)
  deriving DecidableEq, Repr

namespace Cause

/-- The cause in words. -/
def message : Cause → String
  | endInValue => "EOF while parsing a value"
  | endInList => "EOF while parsing a list"
  | endInObject => "EOF while parsing an object"
  | endInString => "EOF while parsing a string"
  | expectedColon => "expected `:`"
  | expectedListSeparator => "expected `,` or `]`"
  | expectedObjectSeparator => "expected `,` or `\x7d`"
  | expectedWord => "expected ident"
  | expectedValue => "expected value"
  | keyNotString => "key must be a string"
  | trailingComma => "trailing comma"
  | trailingCharacters => "trailing characters"
  | controlCharacter => "control character (\\u0000-\\u001F) found while parsing a string"
  | invalidEscape => "invalid escape"
  | loneSurrogate => "lone leading surrogate in hex escape"
  | unfinishedSurrogate => "unexpected end of hex escape"
  | invalidNumber => "invalid number"
  | numberOutOfRange => "number out of range"
  | duplicateField name => s!"duplicate field `{name}`"
  | wrongType found expected => s!"invalid type: {found.description}, expected {expected}"

end Cause

/-- A failure to read, and the number of bytes that were unread when it was noticed. -/
structure ReadError where
  cause : Cause
  unread : Nat
  deriving DecidableEq, Repr

/-- The number of bytes that characters take in UTF-8. -/
def byteCount (cs : List Char) : Nat :=
  cs.foldl (fun count c => count + c.utf8Size) 0

/-- Fails where the characters start. -/
def failAt {α : Type} (cause : Cause) (cs : List Char) : Except ReadError α :=
  .error ⟨cause, byteCount cs⟩

/-- Fails behind the next bytes, or at the end if there are fewer. -/
def failPast {α : Type} (cause : Cause) (bytes : Nat) (cs : List Char) : Except ReadError α :=
  .error ⟨cause, byteCount cs - bytes⟩

/-- The line and column behind the first bytes of a text. Lines count from one; columns count
bytes. -/
def advance : List Char → Nat → Nat × Nat → Nat × Nat
  | [], _, position => position
  | c :: rest, bytes, (line, column) =>
    if bytes < c.utf8Size then (line, column + bytes)
    else if c = '\n' then advance rest (bytes - 1) (line + 1, 0)
    else advance rest (bytes - c.utf8Size) (line, column + c.utf8Size)

/-- The line and column at which so many bytes of a text are unread. -/
def locate (text : List Char) (unread : Nat) : Nat × Nat :=
  advance text (byteCount text - unread) (1, 0)

/-! ### Blanks and words -/

/-- The characters that may stand between the parts of a text. -/
def isSpace (c : Char) : Bool :=
  c = ' ' || c = '\t' || c = '\n' || c = '\r'

/-- Drops blanks. -/
def skipSpace (cs : List Char) : List Char :=
  cs.dropWhile isSpace

theorem length_skipSpace_le (cs : List Char) : (skipSpace cs).length ≤ cs.length :=
  (List.dropWhile_suffix isSpace).length_le

/-- Reads the rest of a word whose first letter is known. -/
def readWord : List Char → List Char → Except ReadError (List Char)
  | [], cs => .ok cs
  | _ :: _, [] => failAt .endInValue []
  | w :: word, c :: rest =>
    if c = w then readWord word rest else failPast .expectedWord 1 (c :: rest)

theorem length_le_of_readWord {word cs rest : List Char} (h : readWord word cs = .ok rest) :
    rest.length ≤ cs.length := by
  induction word generalizing cs with
  | nil =>
    obtain rfl := Except.ok.inj h
    exact Nat.le_refl _
  | cons w word ih =>
    cases cs with
    | nil => simp [readWord, failAt] at h
    | cons c cs =>
      by_cases hc : c = w
      · rw [readWord, if_pos hc] at h
        exact Nat.le_succ_of_le (ih h)
      · simp [readWord, hc, failPast] at h

end SlotLang.Json
