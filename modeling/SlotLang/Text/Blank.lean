/-!
# SlotLang.Text.Blank

White space, and texts that hold nothing else. A name made of white space alone counts as missing.
-/

namespace SlotLang.Text

/-- The characters with the Unicode property White_Space. -/
def isBlank (c : Char) : Bool :=
  let n := c.toNat
  (9 ≤ n && n ≤ 13) || n == 0x20 || n == 0x85 || n == 0xA0 || n == 0x1680 ||
    (0x2000 ≤ n && n ≤ 0x200A) || n == 0x2028 || n == 0x2029 || n == 0x202F || n == 0x205F ||
    n == 0x3000

/-- Nothing is left of the text once white space is taken away. -/
def blank (s : String) : Bool :=
  s.toList.all isBlank

end SlotLang.Text
