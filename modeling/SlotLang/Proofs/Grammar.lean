import SlotLang.Json.Skip

/-!
# SlotLang.Proofs.Grammar

Texts of JSON, described without the readers, and what the readers make of them. A reader that meets
a text of the grammar takes that text, whatever its layout, and leaves what follows: decoding a
string (`readText_spells`), or passing over any value (`skipValue_append`).

Only numbers ask for something of the text that follows: it must not go on like a number. In a list
or an object a value is followed by a blank, a comma or a closing bracket (`Ends`).
-/

namespace SlotLang.Json

/-! ### Blanks and words -/

/-- Nothing but blanks. -/
def Blank (cs : List Char) : Prop := ∀ c ∈ cs, c ∈ [' ', '\t', '\n', '\r']

theorem blank_nil : Blank [] := by simp [Blank]

theorem isSpace_iff {c : Char} : isSpace c = true ↔ c ∈ [' ', '\t', '\n', '\r'] := by
  simp [isSpace, or_assoc]

theorem skipSpace_blank {ws : List Char} (h : Blank ws) (cs : List Char) :
    skipSpace (ws ++ cs) = skipSpace cs :=
  List.dropWhile_append_of_pos fun c hc => isSpace_iff.mpr (h c hc)

theorem skipSpace_eq_nil {ws : List Char} (h : Blank ws) : skipSpace ws = [] := by
  rw [← List.append_nil ws, skipSpace_blank h]
  rfl

theorem skipSpace_append {ws : List Char} {c : Char} (h : Blank ws) (hc : isSpace c = false)
    (cs : List Char) : skipSpace (ws ++ c :: cs) = c :: cs := by
  rw [skipSpace_blank h]
  exact List.dropWhile_cons_of_neg (by simp [hc])

theorem Bracket.isSpace_closing (b : Bracket) : isSpace b.closing = false := by
  cases b <;> rfl

theorem readWord_append (word cs : List Char) : readWord word (word ++ cs) = .ok cs := by
  induction word with
  | nil => rfl
  | cons w word ih => simpa [readWord] using ih

/-! ### Strings -/

/-- Letters behind a backslash and what they stand for. -/
def escapes : List (Char × Char) :=
  [('"', '"'), ('\\', '\\'), ('/', '/'), ('b', '\x08'), ('f', '\x0c'), ('n', '\n'), ('r', '\r'),
    ('t', '\t')]

/-- A hexadecimal digit, small or capital. -/
def HexDigit (c : Char) (n : Nat) : Prop :=
  n < 16 ∧ (c = n.digitChar ∨ c = n.digitChar.toUpper)

instance (c : Char) (n : Nat) : Decidable (HexDigit c n) := inferInstanceAs (Decidable (_ ∧ _))

/-- Four hexadecimal digits and the number that they make. -/
inductive HexUnit : List Char → Nat → Prop
  | mk {a b c d : Char} {i j k l : Nat} : HexDigit a i → HexDigit b j → HexDigit c k →
      HexDigit d l → HexUnit [a, b, c, d] (((i * 16 + j) * 16 + k) * 16 + l)

/-- The ways to write a character in a string. -/
inductive Spelled (c : Char) : List Char → Prop
  /-- As it is. -/
  | plain : c ≠ '"' → c ≠ '\\' → 0x20 ≤ c.toNat → Spelled c [c]
  /-- By a letter. -/
  | short {letter : Char} : (letter, c) ∈ escapes → Spelled c ['\\', letter]
  /-- By its number. -/
  | unit {ds : List Char} : HexUnit ds c.toNat → Spelled c ('\\' :: 'u' :: ds)
  /-- By two numbers, if its own has more than four digits. -/
  | pair {ds es : List Char} {i j : Nat} : HexUnit ds (0xD800 + i) → HexUnit es (0xDC00 + j) →
      i < 0x400 → j < 0x400 → c.toNat = 0x10000 + i * 0x400 + j →
      Spelled c ('\\' :: 'u' :: ds ++ '\\' :: 'u' :: es)

/-- The ways to write a string, without its quotes. -/
inductive Spells : List Char → List Char → Prop
  | nil : Spells [] []
  | cons {c : Char} {s cs body : List Char} : Spelled c cs → Spells s body →
      Spells (c :: s) (cs ++ body)

/-- What may stand between quotes. Numbers of characters need not make sense here. -/
inductive Raw : List Char → Prop
  | nil : Raw []
  | plain {c : Char} {body : List Char} : c ≠ '"' → c ≠ '\\' → 0x20 ≤ c.toNat → Raw body →
      Raw (c :: body)
  | short {letter c : Char} {body : List Char} : (letter, c) ∈ escapes → Raw body →
      Raw ('\\' :: letter :: body)
  | unit {ds body : List Char} {n : Nat} : HexUnit ds n → Raw body →
      Raw ('\\' :: 'u' :: (ds ++ body))

theorem shortEscape?_of_mem {letter c : Char} (h : (letter, c) ∈ escapes) :
    letter ≠ 'u' ∧ shortEscape? letter = some c := by
  have hall : ∀ p ∈ escapes, p.1 ≠ 'u' ∧ shortEscape? p.1 = some p.2 := by decide
  exact hall _ h

theorem hexDigit?_eq {c : Char} {n : Nat} (h : HexDigit c n) : hexDigit? c = some n := by
  have hlower : ∀ n < 16, hexDigit? n.digitChar = some n := by decide
  have hupper : ∀ n < 16, hexDigit? n.digitChar.toUpper = some n := by decide
  rcases h with ⟨hn, rfl | rfl⟩
  · exact hlower n hn
  · exact hupper n hn

theorem hexUnit?_eq {ds : List Char} {n : Nat} (h : HexUnit ds n) :
    ∃ a b c d, ds = [a, b, c, d] ∧ hexUnit? a b c d = some n := by
  cases h with
  | mk ha hb hc hd =>
      refine ⟨_, _, _, _, rfl, ?_⟩
      simp only [hexUnit?, hexDigit?_eq ha, hexDigit?_eq hb, hexDigit?_eq hc, hexDigit?_eq hd]
      rfl

/-- The number of a character is no half of a pair. -/
theorem not_surrogate (c : Char) : isTrailing c.toNat = false ∧ isLeading c.toNat = false := by
  have hvalid : c.toNat < 0xD800 ∨ 0xDFFF < c.toNat ∧ c.toNat < 0x110000 := c.valid
  simp only [isTrailing, isLeading, Bool.and_eq_false_iff, decide_eq_false_iff_not]
  omega

/-- The numbers of a pair are told apart, and give the character back. -/
theorem pair_facts {c : Char} {i j : Nat} (hi : i < 0x400) (hj : j < 0x400)
    (hc : c.toNat = 0x10000 + i * 0x400 + j) :
    isTrailing (0xD800 + i) = false ∧ isLeading (0xD800 + i) = true ∧
      isTrailing (0xDC00 + j) = true ∧ pairChar (0xD800 + i) (0xDC00 + j) = c := by
  refine ⟨?_, ?_, ?_, ?_⟩
  · simp only [isTrailing, Bool.and_eq_false_iff, decide_eq_false_iff_not]
    omega
  · simp only [isLeading, Bool.and_eq_true, decide_eq_true_eq]
    omega
  · simp only [isTrailing, Bool.and_eq_true, decide_eq_true_eq]
    omega
  · rw [pairChar, Nat.add_sub_cancel_left, Nat.add_sub_cancel_left, ← hc, Char.ofNat_toNat]

/-- However a character is written, it is read. -/
theorem readText_spelled {c : Char} {cs : List Char} (h : Spelled c cs) (rest : List Char) :
    readText (cs ++ rest) = (readText rest).map fun p => (c :: p.1, p.2) := by
  cases h with
  | plain hquote hslash hcontrol =>
      show readText (c :: rest) = _
      rw [readText]
      · rw [if_neg (by omega)]
        cases readText rest <;> rfl
      · exact hquote
      · exact fun h _ => hslash h
      · exact fun _ _ _ _ _ h _ => hslash h
      · exact fun _ h _ => hslash h
      · exact fun _ _ h _ => hslash h
  | @short letter hmem =>
      obtain ⟨hu, hshort⟩ := shortEscape?_of_mem hmem
      show readText ('\\' :: letter :: rest) = _
      rw [readText]
      · rw [hshort]
        cases readText rest <;> rfl
      · exact fun _ _ _ _ _ h _ => hu h
      · exact hu
  | unit hunit =>
      obtain ⟨d₁, d₂, d₃, d₄, rfl, hvalue⟩ := hexUnit?_eq hunit
      obtain ⟨htrailing, hleading⟩ := not_surrogate c
      show readText ('\\' :: 'u' :: d₁ :: d₂ :: d₃ :: d₄ :: rest) = _
      rw [readText, hvalue]
      simp only [htrailing, hleading, Bool.false_eq_true, if_false, Char.ofNat_toNat]
      cases readText rest <;> rfl
  | pair hfirst hsecond hi hj hc =>
      obtain ⟨d₁, d₂, d₃, d₄, rfl, hvalue⟩ := hexUnit?_eq hfirst
      obtain ⟨e₁, e₂, e₃, e₄, rfl, hvalue'⟩ := hexUnit?_eq hsecond
      obtain ⟨hfirst, hleading, htrailing, hchar⟩ := pair_facts hi hj hc
      show readText ('\\' :: 'u' :: d₁ :: d₂ :: d₃ :: d₄ ::
        '\\' :: 'u' :: e₁ :: e₂ :: e₃ :: e₄ :: rest) = _
      rw [readText, hvalue]
      simp only [hfirst, hleading, hvalue', htrailing, hchar, Bool.false_eq_true, if_false, if_true]
      cases readText rest <;> rfl

/-- However a string is written, it is read up to its closing quote. -/
theorem readText_spells {s body : List Char} (h : Spells s body) (rest : List Char) :
    readText (body ++ '"' :: rest) = .ok (s, rest) := by
  induction h with
  | nil => rfl
  | cons hc _ ih =>
      rw [List.append_assoc, readText_spelled hc, ih]
      rfl

/-- Strings are written piece by piece. -/
theorem Spells.append {s t body body' : List Char} (h : Spells s body) (h' : Spells t body') :
    Spells (s ++ t) (body ++ body') := by
  induction h with
  | nil => exact h'
  | cons hc _ ih =>
      rw [List.append_assoc]
      exact .cons hc ih

/-- A string may be written as it is, if there is nothing special in it. -/
theorem spells_self {s : List Char} (h : ∀ c ∈ s, c ≠ '"' ∧ c ≠ '\\' ∧ 0x20 ≤ c.toNat) :
    Spells s s := by
  induction s with
  | nil => exact .nil
  | cons c s ih =>
      rw [List.forall_mem_cons] at h
      exact .cons (.plain h.1.1 h.1.2.1 h.1.2.2) (ih h.2)

theorem skipText_raw {body : List Char} (h : Raw body) (rest : List Char) :
    skipText (body ++ '"' :: rest) = .ok rest := by
  induction h with
  | nil => rfl
  | @plain c body hquote hslash hcontrol _ ih =>
      show skipText (c :: (body ++ '"' :: rest)) = _
      rw [skipText]
      · rw [if_neg (by omega)]
        exact ih
      · exact hquote
      · exact fun h _ => hslash h
      · exact fun _ _ _ _ _ h _ => hslash h
      · exact fun _ h _ => hslash h
      · exact fun _ _ h _ => hslash h
  | @short letter c body hmem _ ih =>
      obtain ⟨hu, hshort⟩ := shortEscape?_of_mem hmem
      show skipText ('\\' :: letter :: (body ++ '"' :: rest)) = _
      rw [skipText]
      · rw [hshort]
        exact ih
      · exact fun _ _ _ _ _ h _ => hu h
      · exact hu
  | @unit ds body n hunit _ ih =>
      obtain ⟨d₁, d₂, d₃, d₄, rfl, hvalue⟩ := hexUnit?_eq hunit
      show skipText ('\\' :: 'u' :: d₁ :: d₂ :: d₃ :: d₄ :: (body ++ '"' :: rest)) = _
      rw [skipText, hvalue]
      exact ih

theorem Spells.raw {s body : List Char} (h : Spells s body) : Raw body := by
  induction h with
  | nil => exact .nil
  | cons hc _ ih =>
      cases hc with
      | plain hquote hslash hcontrol => exact .plain hquote hslash hcontrol ih
      | short hmem => exact .short hmem ih
      | unit hunit => exact .unit hunit ih
      | pair hfirst hsecond =>
          have h := Raw.unit hfirst (.unit hsecond ih)
          simpa using h

/-! ### Numbers -/

/-- One or more digits. -/
def Digits (cs : List Char) : Prop := cs ≠ [] ∧ ∀ c ∈ cs, c.isDigit = true

/-- Digits before the point. None but zero starts with a zero. -/
inductive Whole : List Char → Prop
  | zero : Whole ['0']
  | digits {c : Char} {cs : List Char} : c ≠ '0' → Digits (c :: cs) → Whole (c :: cs)

/-- A point with digits behind it, or nothing. -/
inductive Fraction : List Char → Prop
  | none : Fraction []
  | some {ds : List Char} : Digits ds → Fraction ('.' :: ds)

/-- A power of ten, or nothing. -/
inductive Exponent : List Char → Prop
  | none : Exponent []
  | some {e : Char} {sign ds : List Char} : e ∈ ['e', 'E'] → sign ∈ [[], ['+'], ['-']] → Digits ds →
      Exponent (e :: (sign ++ ds))

/-- The texts of numbers. -/
inductive IsNumber : List Char → Prop
  | mk {sign w f e : List Char} : sign ∈ [[], ['-']] → Whole w → Fraction f → Exponent e →
      IsNumber (sign ++ (w ++ (f ++ e)))

/-- The text starts with one of these characters, if with any. -/
def Starts (P : Char → Prop) (cs : List Char) : Prop := ∀ c ∈ cs.head?, P c

theorem Starts.mono {P Q : Char → Prop} {cs : List Char} (h : Starts P cs) (hpq : ∀ c, P c → Q c) :
    Starts Q cs := fun c hc => hpq c (h c hc)

/-- What may follow a value. -/
def Ends (cs : List Char) : Prop :=
  Starts (· ∈ [' ', '\t', '\n', '\r', ',', ']', '\x7d']) cs

theorem spanDigits_append {ds rest : List Char} (hds : ∀ c ∈ ds, c.isDigit = true)
    (hrest : Starts (fun c => c.isDigit = false) rest) : spanDigits (ds ++ rest) = (ds, rest) := by
  rw [spanDigits, List.takeWhile_append_of_pos hds, List.dropWhile_append_of_pos hds]
  cases rest with
  | nil => simp
  | cons c rest =>
      have hc : c.isDigit = false := hrest c rfl
      simp [hc]

/-- What follows the fraction of a number. -/
theorem Exponent.starts {e rest : List Char} (he : Exponent e) (hrest : Ends rest) :
    Starts (fun c => c.isDigit = false ∧ c ≠ '.') (e ++ rest) := by
  cases he with
  | none =>
      have hends : ∀ c ∈ [' ', '\t', '\n', '\r', ',', ']', '\x7d'],
          c.isDigit = false ∧ c ≠ '.' := by simp
      exact hrest.mono hends
  | some hletter =>
      have hletters : ∀ c ∈ ['e', 'E'], c.isDigit = false ∧ c ≠ '.' := by simp
      intro c hc
      cases hc
      exact hletters _ hletter

/-- What follows the whole part of a number. -/
theorem Fraction.starts {f e rest : List Char} (hf : Fraction f) (he : Exponent e)
    (hrest : Ends rest) : Starts (fun c => c.isDigit = false) (f ++ (e ++ rest)) := by
  cases hf with
  | none => exact (he.starts hrest).mono fun _ h => h.1
  | some =>
      intro c hc
      cases hc
      decide

section

variable (atEnd : Cause)

theorem scanWhole_append {w rest : List Char} (h : Whole w)
    (hrest : Starts (fun c => c.isDigit = false) rest) :
    scanWhole atEnd (w ++ rest) = .ok (w, rest) := by
  cases h with
  | zero =>
      cases rest with
      | nil => rfl
      | cons c rest =>
          have hc : c.isDigit = false := hrest c rfl
          simp [scanWhole, hc]
  | @digits c cs hzero hds =>
      have hc : c.isDigit = true := hds.2 c List.mem_cons_self
      have hspan := spanDigits_append hds.2 hrest
      rw [List.cons_append] at hspan ⊢
      rw [scanWhole]
      · rw [if_pos hc, hspan]
      · exact hzero

theorem scanFraction?_append {f rest : List Char} (h : Fraction f)
    (hrest : Starts (fun c => c.isDigit = false ∧ c ≠ '.') rest) :
    ∃ fraction, scanFraction? atEnd (f ++ rest) = .ok (fraction, rest) := by
  cases h with
  | none =>
      refine ⟨none, ?_⟩
      rw [List.nil_append, scanFraction?]
      · rfl
      · intro tail htail
        exact (hrest '.' (by rw [htail]; rfl)).2 rfl
  | @some ds hds =>
      obtain ⟨hne, hds⟩ := hds
      cases ds with
      | nil => exact absurd rfl hne
      | cons d ds =>
          have hspan := spanDigits_append hds (hrest.mono fun _ h => h.1)
          rw [List.cons_append] at hspan
          refine ⟨some (d :: ds), ?_⟩
          simp only [List.cons_append, scanFraction?, scanFraction, hds d List.mem_cons_self,
            if_true, hspan]
          rfl

theorem scanExponent_append {sign ds rest : List Char} (hsign : sign ∈ [[], ['+'], ['-']])
    (hds : Digits ds) (hrest : Ends rest) :
    ∃ exponent, scanExponent atEnd (sign ++ ds ++ rest) = .ok (exponent, rest) := by
  have hends : ∀ c ∈ [' ', '\t', '\n', '\r', ',', ']', '\x7d'], c.isDigit = false := by simp
  have hspan := spanDigits_append hds.2 (hrest.mono hends)
  obtain ⟨hne, hds⟩ := hds
  cases ds with
  | nil => exact absurd rfl hne
  | cons d ds =>
      have hd : d.isDigit = true := hds d List.mem_cons_self
      rw [List.cons_append] at hspan
      simp only [List.mem_cons, List.not_mem_nil, or_false] at hsign
      rcases hsign with rfl | rfl | rfl
      · -- without a sign the first digit must not be taken for one
        have hplus : d ≠ '+' := by
          rintro rfl
          cases hd
        have hminus : d ≠ '-' := by
          rintro rfl
          cases hd
        exact ⟨(false, d :: ds), by simp [scanExponent, hplus, hminus, hd, hspan]⟩
      · exact ⟨(false, d :: ds), by simp [scanExponent, hd, hspan]⟩
      · exact ⟨(true, d :: ds), by simp [scanExponent, hd, hspan]⟩

theorem scanExponent?_append {e rest : List Char} (h : Exponent e) (hrest : Ends rest) :
    ∃ exponent, scanExponent? atEnd (e ++ rest) = .ok (exponent, rest) := by
  cases h with
  | none =>
      refine ⟨none, ?_⟩
      rw [List.nil_append, scanExponent?]
      · rfl
      · intro tail htail
        exact absurd (hrest 'e' (by rw [htail]; rfl)) (by decide)
      · intro tail htail
        exact absurd (hrest 'E' (by rw [htail]; rfl)) (by decide)
  | @some e sign ds hletter hsign hds =>
      obtain ⟨exponent, hexponent⟩ := scanExponent_append atEnd hsign hds hrest
      refine ⟨some exponent, ?_⟩
      simp only [List.mem_cons, List.not_mem_nil, or_false] at hletter
      rcases hletter with rfl | rfl
      · simp only [List.cons_append, scanExponent?, hexponent]
        rfl
      · simp only [List.cons_append, scanExponent?, hexponent]
        rfl

/-- A number is scanned to its end. -/
theorem scan_append {w f e rest : List Char} (hw : Whole w) (hf : Fraction f) (he : Exponent e)
    (hrest : Ends rest) :
    ∃ numeral, scan atEnd (w ++ (f ++ (e ++ rest))) = .ok (numeral, rest) := by
  have hwhole := scanWhole_append atEnd hw (hf.starts he hrest)
  obtain ⟨fraction, hfraction⟩ := scanFraction?_append atEnd hf (he.starts hrest)
  obtain ⟨exponent, hexponent⟩ := scanExponent?_append atEnd he hrest
  refine ⟨⟨w, fraction, exponent⟩, ?_⟩
  simp only [scan, hwhole, hfraction, hexponent, bind, Except.bind]
  rfl

end

/-! ### Values -/

/-- The texts of values that are neither lists nor objects. -/
inductive IsScalar : List Char → Prop
  | word {cs : List Char} :
      cs ∈ [['n', 'u', 'l', 'l'], ['t', 'r', 'u', 'e'], ['f', 'a', 'l', 's', 'e']] → IsScalar cs
  | number {cs : List Char} : IsNumber cs → IsScalar cs
  | text {body : List Char} : Raw body → IsScalar ('"' :: (body ++ ['"']))

/-- The character that opens a bracket. -/
def Bracket.opening : Bracket → Char
  | list => '['
  | object => '\x7b'

/-- What stands before an element: nothing in a list, a key and a colon in an object. -/
inductive Head : Bracket → List Char → Prop
  | list : Head .list []
  | object {ws body ws' : List Char} : Blank ws → Raw body → Blank ws' →
      Head .object (ws ++ '"' :: (body ++ '"' :: (ws' ++ [':'])))

mutual

/-- The texts of values. -/
inductive IsValue : List Char → Prop
  | scalar {cs : List Char} : IsScalar cs → IsValue cs
  | empty {b : Bracket} {ws : List Char} : Blank ws → IsValue (b.opening :: (ws ++ [b.closing]))
  | filled {b : Bracket} {head ws v tail : List Char} : Head b head → Blank ws → IsValue v →
      IsTail b tail → IsValue (b.opening :: (head ++ (ws ++ (v ++ tail))))

/-- What follows an element of a list or an object, up to the end of it. -/
inductive IsTail : Bracket → List Char → Prop
  | close {b : Bracket} {ws : List Char} : Blank ws → IsTail b (ws ++ [b.closing])
  | next {b : Bracket} {ws head ws' v tail : List Char} : Blank ws → Head b head → Blank ws' →
      IsValue v → IsTail b tail → IsTail b (ws ++ ',' :: (head ++ (ws' ++ (v ++ tail))))

end

theorem Whole.first {w : List Char} (h : Whole w) : ∃ c cs, w = c :: cs ∧ c.isDigit = true := by
  cases h with
  | zero => exact ⟨_, _, rfl, rfl⟩
  | digits _ hds => exact ⟨_, _, rfl, hds.2 _ List.mem_cons_self⟩

theorem skipScalar_digit {c : Char} (hc : c.isDigit = true) (cs : List Char) :
    skipScalar (c :: cs) = Prod.snd <$> scan .invalidNumber (c :: cs) := by
  have hne : ∀ d ∈ ['n', 't', 'f', '"', '-'], c ≠ d := by
    have hall : ∀ d ∈ ['n', 't', 'f', '"', '-'], d.isDigit = false := by simp
    rintro d hd rfl
    rw [hall c hd] at hc
    cases hc
  rw [skipScalar]
  · rw [if_pos hc]
  all_goals exact hne _ (by decide)

theorem skipScalar_number {v rest : List Char} (h : IsNumber v) (hrest : Ends rest) :
    skipScalar (v ++ rest) = .ok rest := by
  cases h with
  | @mk sign w f e hsign hw hf he =>
      obtain ⟨numeral, hscan⟩ := scan_append .invalidNumber hw hf he hrest
      simp only [List.append_assoc]
      simp only [List.mem_cons, List.not_mem_nil, or_false] at hsign
      rcases hsign with rfl | rfl
      · obtain ⟨c, cs, rfl, hc⟩ := hw.first
        rw [List.nil_append, List.cons_append, skipScalar_digit hc, ← List.cons_append, hscan]
        rfl
      · show Prod.snd <$> scan .invalidNumber (w ++ (f ++ (e ++ rest))) = _
        rw [hscan]
        rfl

/-- A scalar is passed over to its end. -/
theorem skipScalar_append {v rest : List Char} (h : IsScalar v) (hrest : Ends rest) :
    skipScalar (v ++ rest) = .ok rest := by
  cases h with
  | word hword =>
      simp only [List.mem_cons, List.not_mem_nil, or_false] at hword
      rcases hword with rfl | rfl | rfl
      · exact readWord_append ['u', 'l', 'l'] rest
      · exact readWord_append ['r', 'u', 'e'] rest
      · exact readWord_append ['a', 'l', 's', 'e'] rest
  | number hnumber => exact skipScalar_number hnumber hrest
  | @text body hbody =>
      show skipText (body ++ ['"'] ++ rest) = _
      rw [List.append_assoc]
      exact skipText_raw hbody rest

/-- A scalar starts with no blank and no bracket. -/
theorem IsScalar.first {v : List Char} (h : IsScalar v) :
    ∃ c cs, v = c :: cs ∧ c ∉ [' ', '\t', '\n', '\r', ']', '\x7d', '[', '\x7b'] := by
  cases h with
  | word hword =>
      simp only [List.mem_cons, List.not_mem_nil, or_false] at hword
      rcases hword with rfl | rfl | rfl <;> exact ⟨_, _, rfl, by decide⟩
  | text => exact ⟨_, _, rfl, by decide⟩
  | @number _ hnumber =>
      cases hnumber with
      | @mk sign w f e hsign hw hf he =>
          simp only [List.mem_cons, List.not_mem_nil, or_false] at hsign
          rcases hsign with rfl | rfl
          · obtain ⟨c, cs, rfl, hc⟩ := hw.first
            refine ⟨c, _, rfl, fun hmem => ?_⟩
            have hall : ∀ c ∈ [' ', '\t', '\n', '\r', ']', '\x7d', '[', '\x7b'],
                c.isDigit = false := by simp
            rw [hall c hmem] at hc
            cases hc
          · exact ⟨'-', _, rfl, by decide⟩

/-- A value starts with no blank, and closes nothing. -/
theorem IsValue.first {v : List Char} (h : IsValue v) :
    ∃ c cs, v = c :: cs ∧ c ∉ [' ', '\t', '\n', '\r', ']', '\x7d'] := by
  have hopening : ∀ b : Bracket, b.opening ∉ [' ', '\t', '\n', '\r', ']', '\x7d'] := by
    intro b
    cases b <;> decide
  cases h with
  | scalar hv =>
      obtain ⟨c, cs, rfl, hc⟩ := hv.first
      exact ⟨c, cs, rfl, fun hmem => hc (List.mem_append_left ['[', '\x7b'] hmem)⟩
  | @empty b => exact ⟨_, _, rfl, hopening b⟩
  | @filled b => exact ⟨_, _, rfl, hopening b⟩

/-! ### Passing over values -/

section

variable {b : Bracket} {opened : List Bracket} {c : Char} {cs rest start : List Char}

theorem skipNested_open (h : skipSpace cs = b.opening :: rest) :
    skipNested opened cs = skipFirst b opened rest := by
  rw [skipNested]
  -- the definition keeps the equation of its match, so `h` cannot be rewritten into it
  split
  · next tail htail =>
    rw [htail] at h
    cases b with
    | list => cases h; rfl
    | object => cases h
  · next tail htail =>
    rw [htail] at h
    cases b with
    | list => cases h
    | object => cases h; rfl
  · next hlist hobject =>
    cases b with
    | list => exact absurd h (hlist rest)
    | object => exact absurd h (hobject rest)

theorem skipNested_scalar (h : skipSpace cs = c :: start) (hlist : c ≠ '[') (hobject : c ≠ '\x7b')
    (hs : skipScalar (c :: start) = .ok rest) : skipNested opened cs = skipAfter opened rest := by
  rw [skipNested]
  split
  · next tail htail =>
    rw [htail] at h
    exact absurd (List.cons.inj h).1.symm hlist
  · next tail htail =>
    rw [htail] at h
    exact absurd (List.cons.inj h).1.symm hobject
  · rw [← h] at hs
    split
    · next e he =>
      rw [hs] at he
      cases he
    · next tail htail =>
      rw [hs] at htail
      cases htail
      rfl

theorem skipFirst_close (h : skipSpace cs = b.closing :: rest) :
    skipFirst b opened cs = skipAfter opened rest := by
  rw [skipFirst]
  split
  · next hnil =>
    rw [hnil] at h
    cases h
  · next hcons =>
    rw [hcons] at h
    cases h
    rw [if_pos rfl]

theorem skipFirst_key (h : skipSpace cs = c :: rest) (hc : c ≠ b.closing)
    (hk : skipKey b (c :: rest) = .ok start) :
    skipFirst b opened cs = skipNested (b :: opened) start := by
  rw [skipFirst]
  split
  · next hnil =>
    rw [hnil] at h
    cases h
  · next hcons =>
    rw [hcons] at h
    cases h
    rw [if_neg hc]
    split
    · next e he =>
      rw [hk] at he
      cases he
    · next tail htail =>
      rw [hk] at htail
      cases htail
      rfl

theorem skipAfter_comma (h : skipSpace cs = ',' :: rest) (hk : skipKey b rest = .ok start) :
    skipAfter (b :: opened) cs = skipNested (b :: opened) start := by
  rw [skipAfter]
  split
  · next hnil =>
    rw [hnil] at h
    cases h
  · next hcons =>
    rw [hcons] at h
    cases h
    rw [if_pos rfl]
    split
    · next e he =>
      rw [hk] at he
      cases he
    · next tail htail =>
      rw [hk] at htail
      cases htail
      rfl

theorem skipAfter_close (h : skipSpace cs = b.closing :: rest) :
    skipAfter (b :: opened) cs = skipAfter opened rest := by
  rw [skipAfter]
  split
  · next hnil =>
    rw [hnil] at h
    cases h
  · next hcons =>
    rw [hcons] at h
    cases h
    have hcomma : b.closing ≠ ',' := by cases b <;> decide
    rw [if_neg hcomma, if_pos rfl]

end

theorem readColon_append {ws : List Char} (h : Blank ws) (rest : List Char) :
    readColon (ws ++ ':' :: rest) = .ok rest := by
  have hskip := skipSpace_append (c := ':') h rfl rest
  simp only [readColon, hskip]

theorem skipKey_append {b : Bracket} {head : List Char} (h : Head b head) (rest : List Char) :
    skipKey b (head ++ rest) = .ok rest := by
  cases h with
  | list => rfl
  | @object ws body ws' hws hbody hws' =>
      have hskip := skipSpace_append (c := '"') hws rfl (body ++ '"' :: (ws' ++ ':' :: rest))
      have hbody := skipText_raw hbody (ws' ++ ':' :: rest)
      simp only [List.append_assoc, List.cons_append, List.nil_append, skipKey, hskip, hbody]
      exact readColon_append hws' rest

theorem IsValue.skipSpace_eq {v ws : List Char} (hv : IsValue v) (hws : Blank ws)
    (rest : List Char) : skipSpace (ws ++ (v ++ rest)) = v ++ rest := by
  obtain ⟨c, cs, rfl, hc⟩ := hv.first
  have hspace : isSpace c = false := by
    rw [Bool.eq_false_iff, Ne, isSpace_iff]
    exact fun hmem => hc (List.mem_append_left [']', '\x7d'] hmem)
  exact skipSpace_append hws hspace _

/-- Behind an opening bracket the first element is found. -/
theorem skipFirst_append {b : Bracket} {head ws v : List Char} (hhead : Head b head)
    (hws : Blank ws) (hv : IsValue v) (opened : List Bracket) (rest : List Char) :
    ∃ ws', Blank ws' ∧ skipFirst b opened (head ++ (ws ++ (v ++ rest))) =
      skipNested (b :: opened) (ws' ++ (v ++ rest)) := by
  cases hhead with
  | list =>
      -- the blanks before the first element are skipped with those behind the bracket
      have hskip := hv.skipSpace_eq hws rest
      obtain ⟨c, cs, rfl, hc⟩ := hv.first
      refine ⟨[], blank_nil, ?_⟩
      refine skipFirst_key hskip ?_ rfl
      rintro rfl
      exact hc (by decide)
  | @object ws₀ body ws₁ hws₀ hbody hws₁ =>
      have hkey := skipKey_append (Head.object blank_nil hbody hws₁)
        (ws ++ (v ++ rest))
      simp only [List.nil_append, List.append_assoc, List.cons_append] at hkey ⊢
      exact ⟨ws, hws, skipFirst_key (skipSpace_append hws₀ rfl _) (by decide) hkey⟩

theorem ends_append {ws : List Char} {c : Char} (hws : Blank ws) (hc : c ∈ [',', ']', '\x7d'])
    (cs : List Char) : Ends (ws ++ c :: cs) := by
  intro d hd
  cases ws with
  | nil =>
      cases hd
      exact List.mem_append_right [' ', '\t', '\n', '\r'] hc
  | cons w ws =>
      cases hd
      exact List.mem_append_left [',', ']', '\x7d'] (hws _ List.mem_cons_self)

theorem IsTail.ends {b : Bracket} {tail : List Char} (h : IsTail b tail) (rest : List Char) :
    Ends (tail ++ rest) := by
  cases h with
  | close hws =>
      rw [List.append_assoc]
      exact ends_append hws (by cases b <;> decide) _
  | next hws =>
      rw [List.append_assoc]
      exact ends_append hws (by decide) _

mutual

/-- A value is passed over, however deep it is and whatever its layout. -/
theorem skipNested_append : ∀ {v : List Char}, IsValue v → ∀ {ws : List Char} {opened : List Bracket}
    {rest : List Char}, Blank ws → Ends rest →
    skipNested opened (ws ++ (v ++ rest)) = skipAfter opened rest
  | _, .scalar hv, ws, opened, rest, hws, hrest => by
      have hskip := (IsValue.scalar hv).skipSpace_eq hws rest
      have hscalar := skipScalar_append hv hrest
      obtain ⟨c, cs, rfl, hc⟩ := hv.first
      refine skipNested_scalar hskip ?_ ?_ hscalar
      · rintro rfl
        exact hc (by decide)
      · rintro rfl
        exact hc (by decide)
  | _, .empty hws', ws, opened, rest, hws, hrest => by
      rw [skipNested_open ((IsValue.empty hws').skipSpace_eq hws rest)]
      refine skipFirst_close ?_
      show skipSpace (_ ++ [_] ++ rest) = _
      rw [List.append_assoc]
      exact skipSpace_append hws' (Bracket.isSpace_closing _) _
  | _, .filled hhead hws' hv htail, ws, opened, rest, hws, hrest => by
      rw [skipNested_open ((IsValue.filled hhead hws' hv htail).skipSpace_eq hws rest)]
      simp only [List.append_eq, List.append_assoc]
      obtain ⟨ws₁, hws₁, hfirst⟩ := skipFirst_append hhead hws' hv opened (_ ++ rest)
      rw [hfirst, skipNested_append hv hws₁ (htail.ends rest), skipAfter_append htail]

/-- What follows an element is passed over up to the closing bracket. -/
theorem skipAfter_append : ∀ {b : Bracket} {tail : List Char}, IsTail b tail →
    ∀ {opened : List Bracket} {rest : List Char},
    skipAfter (b :: opened) (tail ++ rest) = skipAfter opened rest
  | _, _, .close hws, opened, rest => by
      refine skipAfter_close ?_
      rw [List.append_assoc]
      exact skipSpace_append hws (Bracket.isSpace_closing _) _
  | _, _, .next hws hhead hws' hv htail, opened, rest => by
      simp only [List.append_assoc, List.cons_append]
      rw [skipAfter_comma (skipSpace_append hws rfl _) (skipKey_append hhead _),
        skipNested_append hv hws' (htail.ends rest), skipAfter_append htail]

end

/-- A value is passed over, and nothing else. -/
theorem skipValue_append {v ws rest : List Char} (hv : IsValue v) (hws : Blank ws)
    (hrest : Ends rest) : skipValue (ws ++ (v ++ rest)) = .ok rest := by
  rw [skipValue, skipNested_append hv hws hrest, skipAfter]

end SlotLang.Json
