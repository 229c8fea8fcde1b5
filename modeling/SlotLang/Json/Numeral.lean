import SlotLang.Json.Reading

/-!
# SlotLang.Json.Numeral

Numbers of JSON text. `scan` finds the extent of a number; `Numeral.value` is the integer or
double it stands for. Doubles are made from a 64-bit significand and a power of ten, with one
rounding for each of the two and one for their product.
-/

namespace SlotLang.Json

open SlotLang.Decimal (Double)

/-- The parts of a written number, without its sign. -/
structure Numeral where
  /-- Digits before the point. -/
  whole : List Char
  /-- Digits behind the point, if there is one. -/
  fraction : Option (List Char)
  /-- The exponent, if there is one: whether it is negative, and its digits. -/
  exponent : Option (Bool × List Char)
  deriving DecidableEq, Repr

/-- Parts a text behind its leading digits. -/
def spanDigits (cs : List Char) : List Char × List Char :=
  (cs.takeWhile Char.isDigit, cs.dropWhile Char.isDigit)

/-- Reads an exponent behind its letter. A missing digit at the end of the text is told apart by
`atEnd`. -/
def scanExponent (atEnd : Cause) (cs : List Char) :
    Except ReadError ((Bool × List Char) × List Char) :=
  let (negative, cs) := match cs with
    | '+' :: rest => (false, rest)
    | '-' :: rest => (true, rest)
    | rest => (false, rest)
  match cs with
  | [] => failAt atEnd []
  | c :: rest =>
    if c.isDigit then
      let (digits, rest) := spanDigits (c :: rest)
      .ok ((negative, digits), rest)
    else
      failPast .invalidNumber 1 (c :: rest)

/-- Reads an exponent, if there is one. -/
def scanExponent? (atEnd : Cause) (cs : List Char) :
    Except ReadError (Option (Bool × List Char) × List Char) :=
  match cs with
  | 'e' :: rest | 'E' :: rest => do
    let (exponent, rest) ← scanExponent atEnd rest
    return (some exponent, rest)
  | rest => return (none, rest)

/-- Reads the digits behind a point, of which there must be one. -/
def scanFraction (atEnd : Cause) (cs : List Char) : Except ReadError (List Char × List Char) :=
  match cs with
  | [] => failAt atEnd []
  | c :: rest =>
    if c.isDigit then .ok (spanDigits (c :: rest)) else failPast .invalidNumber 1 (c :: rest)

/-- Reads the digits behind a point, if there is one. -/
def scanFraction? (atEnd : Cause) (cs : List Char) :
    Except ReadError (Option (List Char) × List Char) :=
  match cs with
  | '.' :: rest => do
    let (digits, rest) ← scanFraction atEnd rest
    return (some digits, rest)
  | rest => return (none, rest)

/-- Reads the digits before a point. Zero stands alone. -/
def scanWhole (atEnd : Cause) (cs : List Char) : Except ReadError (List Char × List Char) :=
  match cs with
  | [] => failAt atEnd []
  | '0' :: rest =>
    match rest with
    | d :: _ => if d.isDigit then failPast .invalidNumber 1 rest else .ok (['0'], rest)
    | [] => .ok (['0'], [])
  | c :: rest =>
    if c.isDigit then .ok (spanDigits (c :: rest)) else failPast .invalidNumber 1 (c :: rest)

/-- Reads a number behind its sign. A number cut off by the end of the text fails with `atEnd`. -/
def scan (atEnd : Cause) (cs : List Char) : Except ReadError (Numeral × List Char) := do
  let (whole, cs) ← scanWhole atEnd cs
  let (fraction, cs) ← scanFraction? atEnd cs
  let (exponent, cs) ← scanExponent? atEnd cs
  return (⟨whole, fraction, exponent⟩, cs)

/-! ### Length -/

theorem length_spanDigits_le (cs : List Char) : (spanDigits cs).2.length ≤ cs.length :=
  (List.dropWhile_suffix Char.isDigit).length_le

theorem length_spanDigits_lt {c : Char} (cs : List Char) (h : c.isDigit = true) :
    (spanDigits (c :: cs)).2.length < (c :: cs).length := by
  have := length_spanDigits_le cs
  simp only [spanDigits, List.dropWhile_cons_of_pos h, List.length_cons] at this ⊢
  omega

theorem length_lt_of_scanWhole {atEnd : Cause} {cs : List Char} {r : List Char × List Char}
    (h : scanWhole atEnd cs = .ok r) : r.2.length < cs.length := by
  unfold scanWhole at h
  split at h
  · simp [failAt] at h
  · split at h
    · split at h
      · simp [failPast] at h
      · simp only [Except.ok.injEq] at h
        simp [← h]
    · simp only [Except.ok.injEq] at h
      simp [← h]
  · split at h
    · rename_i hd
      simp only [Except.ok.injEq] at h
      exact h ▸ length_spanDigits_lt _ hd
    · simp [failPast] at h

theorem length_lt_of_scanFraction {atEnd : Cause} {cs : List Char} {r : List Char × List Char}
    (h : scanFraction atEnd cs = .ok r) : r.2.length < cs.length := by
  unfold scanFraction at h
  split at h
  · simp [failAt] at h
  · split at h
    · rename_i hd
      simp only [Except.ok.injEq] at h
      exact h ▸ length_spanDigits_lt _ hd
    · simp [failPast] at h

theorem length_le_of_scanFraction? {atEnd : Cause} {cs : List Char}
    {r : Option (List Char) × List Char} (h : scanFraction? atEnd cs = .ok r) : r.2.length ≤ cs.length := by
  unfold scanFraction? at h
  split at h
  · rename_i rest
    cases hf : scanFraction atEnd rest with
    | error e => simp [hf, bind, Except.bind] at h
    | ok s =>
      have := length_lt_of_scanFraction hf
      simp only [hf, bind, Except.bind, pure, Except.pure, Except.ok.injEq] at h
      simp only [← h, List.length_cons]
      omega
  · simp only [pure, Except.pure, Except.ok.injEq] at h
    simp [← h]

theorem length_le_of_scanExponent {atEnd : Cause} {cs : List Char}
    {r : (Bool × List Char) × List Char} (h : scanExponent atEnd cs = .ok r) : r.2.length ≤ cs.length := by
  have body : ∀ (negative : Bool) (tail : List Char), tail.length ≤ cs.length →
      (match tail with
        | [] => failAt atEnd []
        | c :: rest =>
          if c.isDigit then .ok ((negative, (spanDigits (c :: rest)).1), (spanDigits (c :: rest)).2)
          else failPast .invalidNumber 1 (c :: rest)) = Except.ok r → r.2.length ≤ cs.length := by
    intro negative tail hle ht
    split at ht
    · simp [failAt] at ht
    · split at ht
      · simp only [Except.ok.injEq] at ht
        simp only [← ht]
        exact Nat.le_trans (length_spanDigits_le _) hle
      · simp [failPast] at ht
  unfold scanExponent at h
  split at h
  rename_i heq
  split at heq
  · obtain ⟨rfl, rfl⟩ := Prod.mk.inj heq
    exact body _ _ (by simp) h
  · obtain ⟨rfl, rfl⟩ := Prod.mk.inj heq
    exact body _ _ (by simp) h
  · obtain ⟨rfl, rfl⟩ := Prod.mk.inj heq
    exact body _ _ (Nat.le_refl _) h

theorem length_le_of_scanExponent? {atEnd : Cause} {cs : List Char}
    {r : Option (Bool × List Char) × List Char} (h : scanExponent? atEnd cs = .ok r) :
    r.2.length ≤ cs.length := by
  have step : ∀ rest : List Char, (do
      let (exponent, rest) ← scanExponent atEnd rest
      return (some exponent, rest) : Except ReadError _) = .ok r → r.2.length ≤ rest.length := by
    intro rest hr
    cases he : scanExponent atEnd rest with
    | error e => simp [he, bind, Except.bind] at hr
    | ok s =>
      have := length_le_of_scanExponent he
      simp only [he, bind, Except.bind, pure, Except.pure, Except.ok.injEq] at hr
      simpa only [← hr] using this
  unfold scanExponent? at h
  split at h
  · exact Nat.le_succ_of_le (step _ h)
  · exact Nat.le_succ_of_le (step _ h)
  · simp only [pure, Except.pure, Except.ok.injEq] at h
    simp [← h]

/-- A number takes up at least one character. -/
theorem length_lt_of_scan {atEnd : Cause} {cs : List Char} {r : Numeral × List Char}
    (h : scan atEnd cs = .ok r) : r.2.length < cs.length := by
  unfold scan at h
  cases hw : scanWhole atEnd cs with
  | error e => simp [hw, bind, Except.bind] at h
  | ok w =>
    simp only [hw, bind, Except.bind] at h
    cases hf : scanFraction? atEnd w.2 with
    | error e => simp [hf] at h
    | ok f =>
      simp only [hf] at h
      cases he : scanExponent? atEnd f.2 with
      | error e => simp [he] at h
      | ok x =>
        simp only [he, pure, Except.pure, Except.ok.injEq] at h
        have := length_lt_of_scanWhole hw
        have := length_le_of_scanFraction? hf
        have := length_le_of_scanExponent? he
        simp only [← h]
        omega

/-! ### Value -/

/-- The value of a decimal digit. -/
def digitValue (c : Char) : Nat := c.toNat - '0'.toNat

/-- Extends a significand by digits as long as it fits into 64 bits, and tells which digits are
left. -/
def extend : Nat → List Char → Nat × List Char
  | significand, [] => (significand, [])
  | significand, d :: rest =>
    let next := significand * 10 + digitValue d
    if next < Nat.pow 2 64 then extend next rest else (significand, d :: rest)

/-- A power of ten with an exponent of at most 308. -/
def powerOfTen (n : Nat) : Float := Float.ofScientific 1 false n

/-- A number times a power of ten, unless it is too large for a double. -/
def scale (f : Float) (power : Int) : Option Float :=
  if 0 ≤ power then
    if power ≤ 308 then
      let scaled := f * powerOfTen power.toNat
      if scaled.isInf then none else some scaled
    else if f == 0 then some f else none
  else if -308 ≤ power then
    some (f / powerOfTen (-power).toNat)
  else if f == 0 then
    some f
  else
    scale (f / powerOfTen 308) (power + 308)
termination_by (-power).toNat
decreasing_by omega

/-- A number with its sign. -/
def signed (negative : Bool) (f : Float) : Found :=
  .float (.ofFloat (if negative then -f else f))

/-- The digits of an exponent as a number below 2 ^ 31, or else the digits that are left once they
exceed it. -/
def exponentValue : Nat → List Char → Except (List Char) Nat
  | n, [] => .ok n
  | n, d :: rest =>
    let next := n * 10 + digitValue d
    if next < Nat.pow 2 31 then exponentValue next rest else .error rest

namespace Numeral

/-- The number that a numeral stands for, read in front of `rest`. Integers that fit into 64 bits
stay integers, except for a negative zero. Digits beyond the significand only count for the
magnitude. -/
def value (n : Numeral) (negative : Bool) (rest : List Char) : Except ReadError Found :=
  let (whole, surplus) := extend 0 n.whole
  let (significand, dropped) := extend whole (n.fraction.getD [])
  let power : Int := (surplus.length : Int) - ((n.fraction.getD []).length - dropped.length : Nat)
  let float (power : Int) : Except ReadError Found :=
    match scale significand.toUInt64.toFloat power with
    | some f => .ok (signed negative f)
    | none => failAt .numberOutOfRange rest
  match n.exponent with
  | some (false, digits) =>
    match exponentValue 0 digits with
    | .ok e => float (power + e)
    | .error left =>
      if significand = 0 then .ok (signed negative 0) else failAt .numberOutOfRange (left ++ rest)
  | some (true, digits) =>
    match exponentValue 0 digits with
    | .ok e => float (power - e)
    | .error _ => .ok (signed negative 0)
  | none =>
    if n.fraction.isSome || !surplus.isEmpty then float power
    else if !negative then .ok (.integer significand)
    else if 0 < significand ∧ significand ≤ Nat.pow 2 63 then .ok (.integer (-significand))
    else .ok (signed true significand.toUInt64.toFloat)

end Numeral

/-- Reads a number behind its sign and evaluates it. -/
def readNumber (negative : Bool) (cs : List Char) : Except ReadError (Found × List Char) := do
  let (numeral, rest) ← scan .endInValue cs
  return (← numeral.value negative rest, rest)

end SlotLang.Json
