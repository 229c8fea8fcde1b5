import SlotLang.Text.Escaped

/-!
# SlotLang.Text.Quoted

Text between double quotes. Every character of the text stays visible: the quote and the backslash
are marked, the common controls have letters, and whatever else cannot be seen is written by its
number.
-/

namespace SlotLang.Text

/-- A code point in lower-case hexadecimal, without padding. -/
def hex (n : Nat) : String :=
  String.ofList (Nat.toDigits 16 n)

/-- One character as it stands between the quotes. -/
def quotedChar (c : Char) : String :=
  if c = '\x00' then "\\0"
  else if c = '\t' then "\\t"
  else if c = '\r' then "\\r"
  else if c = '\n' then "\\n"
  else if c = '"' then "\\\""
  else if c = '\\' then "\\\\"
  else if isEscaped c then "\\u\x7b" ++ hex c.toNat ++ "\x7d"
  else String.singleton c

/-- The text in double quotes. -/
def quote (s : String) : String :=
  "\"" ++ String.join (s.toList.map quotedChar) ++ "\""

end SlotLang.Text
