import SlotLang.Json.Reading

/-!
# SlotLang.Json.Text

Strings of JSON text. `readText` decodes a string, `skipText` only looks for its end, and
`writeText` is the form in which strings are written.
-/

namespace SlotLang.Json

/-- The character that a letter behind a backslash stands for. -/
def shortEscape? : Char → Option Char
  | '"' => some '"'
  | '\\' => some '\\'
  | '/' => some '/'
  | 'b' => some '\x08'
  | 'f' => some '\x0c'
  | 'n' => some '\n'
  | 'r' => some '\r'
  | 't' => some '\t'
  | _ => none

/-- The value of a hexadecimal digit. -/
def hexDigit? (c : Char) : Option Nat :=
  if '0' ≤ c ∧ c ≤ '9' then some (c.toNat - '0'.toNat)
  else if 'a' ≤ c ∧ c ≤ 'f' then some (c.toNat - 'a'.toNat + 10)
  else if 'A' ≤ c ∧ c ≤ 'F' then some (c.toNat - 'A'.toNat + 10)
  else none

/-- The value of four hexadecimal digits. -/
def hexUnit? (a b c d : Char) : Option Nat := do
  return (((← hexDigit? a) * 16 + (← hexDigit? b)) * 16 + (← hexDigit? c)) * 16 + (← hexDigit? d)

/-- The first half of a pair of units. -/
def isLeading (unit : Nat) : Bool := 0xD800 ≤ unit && unit < 0xDC00

/-- The second half of a pair of units. -/
def isTrailing (unit : Nat) : Bool := 0xDC00 ≤ unit && unit < 0xE000

/-- The character that a pair of units stands for. -/
def pairChar (leading trailing : Nat) : Char :=
  Char.ofNat (0x10000 + (leading - 0xD800) * 0x400 + (trailing - 0xDC00))

/-- The failure where fewer than four characters follow `\u`. -/
def failHex {α : Type} (cs : List Char) : Except ReadError α :=
  if byteCount cs < 4 then failAt .endInString [] else failPast .invalidEscape 4 cs

/-- The failure where no escape follows the first half of a pair. -/
def failPair {α : Type} : List Char → Except ReadError α
  | [] | ['\\'] => failAt .endInString []
  | '\\' :: 'u' :: rest => failHex rest
  | '\\' :: rest => failPast .unfinishedSurrogate 1 rest
  | rest => failPast .unfinishedSurrogate 1 rest

/-- Reads a string behind its opening quote. -/
def readText : List Char → Except ReadError (List Char × List Char)
  | [] => failAt .endInString []
  | '"' :: rest => .ok ([], rest)
  | ['\\'] => failAt .endInString []
  | '\\' :: 'u' :: a :: b :: c :: d :: rest =>
    match hexUnit? a b c d with
    | none => failPast .invalidEscape 4 (a :: b :: c :: d :: rest)
    | some unit =>
      if isTrailing unit then
        failAt .loneSurrogate rest
      else if isLeading unit then
        match rest with
        | '\\' :: 'u' :: e :: f :: g :: h :: rest =>
          match hexUnit? e f g h with
          | none => failPast .invalidEscape 4 (e :: f :: g :: h :: rest)
          | some second =>
            if isTrailing second then do
              let (text, rest) ← readText rest
              return (pairChar unit second :: text, rest)
            else
              failAt .loneSurrogate rest
        | rest => failPair rest
      else do
        let (text, rest) ← readText rest
        return (Char.ofNat unit :: text, rest)
  | '\\' :: 'u' :: rest => failHex rest
  | '\\' :: c :: rest =>
    match shortEscape? c with
    | none => failPast .invalidEscape 1 (c :: rest)
    | some escaped => do
      let (text, rest) ← readText rest
      return (escaped :: text, rest)
  | c :: rest =>
    if c.toNat < 0x20 then
      failAt .controlCharacter rest
    else do
      let (text, rest) ← readText rest
      return (c :: text, rest)

/-- Passes over a string behind its opening quote. Pairs of units are not looked at. -/
def skipText : List Char → Except ReadError (List Char)
  | [] => failAt .endInString []
  | '"' :: rest => .ok rest
  | ['\\'] => failAt .endInString []
  | '\\' :: 'u' :: a :: b :: c :: d :: rest =>
    match hexUnit? a b c d with
    | none => failPast .invalidEscape 4 (a :: b :: c :: d :: rest)
    | some _ => skipText rest
  | '\\' :: 'u' :: rest => failHex rest
  | '\\' :: c :: rest =>
    match shortEscape? c with
    | none => failPast .invalidEscape 1 (c :: rest)
    | some _ => skipText rest
  | c :: rest =>
    if c.toNat < 0x20 then failAt .controlCharacter (c :: rest) else skipText rest

/-! ### Writing -/

/-- Two hexadecimal digits of a number below 256. -/
def twoHex (n : Nat) : List Char :=
  [Nat.digitChar (n / 16), Nat.digitChar (n % 16)]

/-- One character of a written string. Only the quote, the backslash and the controls are escaped.
-/
def writeChar (c : Char) : List Char :=
  if c = '"' then ['\\', '"']
  else if c = '\\' then ['\\', '\\']
  else if c = '\x08' then ['\\', 'b']
  else if c = '\t' then ['\\', 't']
  else if c = '\n' then ['\\', 'n']
  else if c = '\x0c' then ['\\', 'f']
  else if c = '\r' then ['\\', 'r']
  else if c.toNat < 0x20 then '\\' :: 'u' :: '0' :: '0' :: twoHex c.toNat
  else [c]

/-- A string with its quotes. -/
def writeText (s : String) : List Char :=
  '"' :: s.toList.flatMap writeChar ++ ['"']

end SlotLang.Json
