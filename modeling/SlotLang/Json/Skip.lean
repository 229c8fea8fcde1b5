import SlotLang.Json.Numeral
import SlotLang.Json.Text

/-!
# SlotLang.Json.Skip

Passing over values that nobody asks for. Values may be nested to any depth: the brackets that are
still open are kept in a list, the innermost first.
-/

namespace SlotLang.Json

/-- A bracket that is still open. -/
inductive Bracket
  | list
  | object
  deriving DecidableEq, Repr

namespace Bracket

/-- The character that closes a bracket. -/
def closing : Bracket → Char
  | list => ']'
  | object => '\x7d'

/-- The failure at the end of the text. -/
def atEnd : Bracket → Cause
  | list => .endInList
  | object => .endInObject

/-- The failure where an element is followed by something else than a comma or the closing
bracket. -/
def separator : Bracket → Cause
  | list => .expectedListSeparator
  | object => .expectedObjectSeparator

end Bracket

/-- Reads the colon between a key and its value. -/
def readColon (cs : List Char) : Except ReadError (List Char) :=
  match skipSpace cs with
  | [] => failAt .endInObject []
  | ':' :: rest => .ok rest
  | rest => failPast .expectedColon 1 rest

/-- Passes over what stands in front of a value: nothing in a list, a key and a colon in an
object. -/
def skipKey (bracket : Bracket) (cs : List Char) : Except ReadError (List Char) :=
  match bracket with
  | .list => .ok cs
  | .object =>
    match skipSpace cs with
    | [] => failAt .endInObject []
    | '"' :: rest => do readColon (← skipText rest)
    | rest => failPast .keyNotString 1 rest

/-- Passes over a value that is neither a list nor an object. -/
def skipScalar (cs : List Char) : Except ReadError (List Char) :=
  match cs with
  | [] => failAt .endInValue []
  | 'n' :: rest => readWord ['u', 'l', 'l'] rest
  | 't' :: rest => readWord ['r', 'u', 'e'] rest
  | 'f' :: rest => readWord ['a', 'l', 's', 'e'] rest
  | '"' :: rest => skipText rest
  | '-' :: rest => Prod.snd <$> scan .invalidNumber rest
  | c :: rest =>
    if c.isDigit then
      Prod.snd <$> scan .invalidNumber (c :: rest)
    else
      failPast .expectedValue 1 (c :: rest)

/-! ### Length -/

theorem length_lt_of_skipText {cs rest : List Char} (h : skipText cs = .ok rest) :
    rest.length < cs.length := by
  fun_induction skipText cs <;> simp only [List.length_cons, List.length_nil] <;>
    grind [failAt, failPast, failHex]

theorem length_lt_of_readColon {cs rest : List Char} (h : readColon cs = .ok rest) :
    rest.length < cs.length := by
  have hle := length_skipSpace_le cs
  unfold readColon at h
  split at h
  · simp [failAt] at h
  · rename_i tail heq
    rw [heq, List.length_cons] at hle
    obtain rfl := Except.ok.inj h
    exact hle
  · simp [failPast] at h

theorem length_le_of_skipKey {bracket : Bracket} {cs rest : List Char}
    (h : skipKey bracket cs = .ok rest) : rest.length ≤ cs.length := by
  have hle := length_skipSpace_le cs
  unfold skipKey at h
  split at h
  · obtain rfl := Except.ok.inj h
    exact Nat.le_refl _
  · split at h
    · simp [failAt] at h
    · rename_i tail heq
      rw [heq, List.length_cons] at hle
      cases ht : skipText tail with
      | error e => simp [ht, bind, Except.bind] at h
      | ok mid =>
        have hmid := length_lt_of_skipText ht
        have hrest : rest.length < mid.length :=
          length_lt_of_readColon (by simpa only [ht, bind, Except.bind] using h)
        omega
    · simp [failPast] at h

theorem length_lt_of_skipScalar {cs rest : List Char} (h : skipScalar cs = .ok rest) :
    rest.length < cs.length := by
  have number : ∀ tail : List Char, Prod.snd <$> scan .invalidNumber tail = Except.ok rest →
      rest.length < tail.length := by
    intro tail ht
    cases hs : scan .invalidNumber tail with
    | error e => simp [hs, Functor.map, Except.map] at ht
    | ok r =>
      have := length_lt_of_scan hs
      simp only [hs, Functor.map, Except.map, Except.ok.injEq] at ht
      exact ht ▸ this
  unfold skipScalar at h
  split at h
  · simp [failAt] at h
  · exact Nat.lt_succ_of_le (length_le_of_readWord h)
  · exact Nat.lt_succ_of_le (length_le_of_readWord h)
  · exact Nat.lt_succ_of_le (length_le_of_readWord h)
  · exact Nat.lt_succ_of_lt (length_lt_of_skipText h)
  · exact Nat.lt_succ_of_lt (number _ h)
  · split at h
    · exact number _ h
    · simp [failPast] at h

/-! ### Nested values

The names given to matches are for the proofs that each call has less text to pass over. -/

set_option linter.unusedVariables false in
mutual

/-- Passes over a value, and over all that follows up to the end of the outermost open bracket. -/
def skipNested (opened : List Bracket) (cs : List Char) : Except ReadError (List Char) :=
  match h : skipSpace cs with
  | '[' :: rest => skipFirst .list opened rest
  | '\x7b' :: rest => skipFirst .object opened rest
  | start =>
    match hs : skipScalar start with
    | .error e => .error e
    | .ok rest => skipAfter opened rest
termination_by 2 * cs.length
decreasing_by
  all_goals
    have := length_skipSpace_le cs
    simp only [h, List.length_cons] at this
    try have := length_lt_of_skipScalar hs
    omega

/-- Continues behind an opening bracket, where the bracket may close at once. -/
def skipFirst (bracket : Bracket) (opened : List Bracket) (cs : List Char) :
    Except ReadError (List Char) :=
  match h : skipSpace cs with
  | [] => failAt bracket.atEnd []
  | c :: rest =>
    if c = bracket.closing then
      skipAfter opened rest
    else
      match hk : skipKey bracket (c :: rest) with
      | .error e => .error e
      | .ok start => skipNested (bracket :: opened) start
termination_by 2 * cs.length + 1
decreasing_by
  all_goals
    have := length_skipSpace_le cs
    simp only [h, List.length_cons] at this
    try have := length_le_of_skipKey hk
    try simp only [List.length_cons] at this
    omega

/-- Continues behind a value: with the next element, or behind the closing bracket. -/
def skipAfter (opened : List Bracket) (cs : List Char) : Except ReadError (List Char) :=
  match opened with
  | [] => .ok cs
  | bracket :: outer =>
    match h : skipSpace cs with
    | [] => failAt bracket.atEnd []
    | c :: rest =>
      if c = ',' then
        match hk : skipKey bracket rest with
        | .error e => .error e
        | .ok start => skipNested (bracket :: outer) start
      else if c = bracket.closing then
        skipAfter outer rest
      else
        failPast bracket.separator 1 (c :: rest)
termination_by 2 * cs.length
decreasing_by
  all_goals
    have := length_skipSpace_le cs
    simp only [h, List.length_cons] at this
    try have := length_le_of_skipKey hk
    omega

end

/-- Passes over one value. -/
def skipValue (cs : List Char) : Except ReadError (List Char) :=
  skipNested [] cs

end SlotLang.Json
