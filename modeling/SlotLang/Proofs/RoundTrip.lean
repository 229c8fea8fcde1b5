import SlotLang.Proofs.Layout

/-!
# SlotLang.Proofs.RoundTrip

Settings survive being written and read again, whatever characters are in them. The encoder may be
any that writes the three fields in their order and escapes no more than it has to
(`Encoder.Compact`), and the decoder any that reads JSON. What the one writes presents the settings
in the sense of the other, so the text is read as they are and checked as if it had never been a
text.
-/

namespace SlotLang

namespace Json

/-- How a string is written between its quotes if only quotes, backslashes and controls are escaped,
each in one of the ways that there are for it. -/
inductive Escapes : List Char → List Char → Prop
  | nil : Escapes [] []
  | plain {c : Char} {s body : List Char} : c ≠ '"' → c ≠ '\\' → 0x20 ≤ c.toNat → Escapes s body →
      Escapes (c :: s) (c :: body)
  | escaped {c : Char} {s cs body : List Char} : c = '"' ∨ c = '\\' ∨ c.toNat < 0x20 →
      Spelled c cs → Escapes s body → Escapes (c :: s) (cs ++ body)

/-- To escape what has to be is one way to write a string. -/
theorem Escapes.spells {s body : List Char} (h : Escapes s body) : Spells s body := by
  induction h with
  | nil => exact .nil
  | plain hquote hslash hcontrol _ ih => exact .cons (.plain hquote hslash hcontrol) ih
  | escaped _ hspelled _ ih => exact .cons hspelled ih

/-- However a character is written, it is one of the ways that there are for it. -/
theorem spelled_writeChar (c : Char) : Spelled c (writeChar c) := by
  unfold writeChar
  -- the seven characters with a letter of their own
  iterate 7
    split
    · subst_vars
      exact .short (by decide)
  split
  · next hlt =>
    have hunit : HexUnit ('0' :: '0' :: twoHex c.toNat)
        (((0 * 16 + 0) * 16 + c.toNat / 16) * 16 + c.toNat % 16) :=
      .mk (by decide) (by decide) ⟨by omega, .inl rfl⟩ ⟨by omega, .inl rfl⟩
    have hsum : ((0 * 16 + 0) * 16 + c.toNat / 16) * 16 + c.toNat % 16 = c.toNat := by omega
    rw [hsum] at hunit
    exact .unit hunit
  · exact .plain ‹_› ‹_› (by omega)

/-- A character is written as it is if it can be. -/
theorem writeChar_eq_self {c : Char} (hquote : c ≠ '"') (hslash : c ≠ '\\')
    (hcontrol : 0x20 ≤ c.toNat) : writeChar c = [c] := by
  have hne : ∀ d : Char, d.toNat < 0x20 → c ≠ d := by
    intro d hd h
    subst h
    omega
  have hb := hne '\x08' (by decide)
  have ht := hne '\t' (by decide)
  have hn := hne '\n' (by decide)
  have hf := hne '\x0c' (by decide)
  have hr := hne '\r' (by decide)
  simp [writeChar, hquote, hslash, hb, ht, hn, hf, hr, hcontrol]

theorem escapes_writeChar (s : List Char) : Escapes s (s.flatMap writeChar) := by
  induction s with
  | nil => exact .nil
  | cons c s ih =>
      rw [List.flatMap_cons]
      by_cases hspecial : c = '"' ∨ c = '\\' ∨ c.toNat < 0x20
      · exact .escaped hspecial (spelled_writeChar c) ih
      · simp only [not_or, Nat.not_lt] at hspecial
        rw [writeChar_eq_self hspecial.1 hspecial.2.1 hspecial.2.2]
        exact .plain hspecial.1 hspecial.2.1 hspecial.2.2 ih

end Json

namespace Settings

open SlotLang.Json

/-! ### Encoders -/

/-- Writes settings as a text. -/
abbrev Encoder := Settings → String

/-- A format as it is written. -/
inductive FormatText : Option String → List Char → Prop
  | none : FormatText none "null".toList
  | some {format : String} {body : List Char} : Escapes format.toList body →
      FormatText (some format) ('"' :: (body ++ ['"']))

/-- An encoder that writes an object of the three fields in their order, without blanks, and escapes
only what has to be escaped. -/
structure Encoder.Compact (encode : Encoder) : Prop where
  encode_eq : ∀ s : Settings, ∃ entry routine format : List Char,
    Escapes s.entryFunction.toList entry ∧ Escapes s.printRoutine.toList routine ∧
      FormatText s.printFormat format ∧
      (encode s).toList =
        "\x7b\"entry_function\":\"".toList ++ entry ++
          "\",\"print_routine\":\"".toList ++ routine ++
          "\",\"print_format\":".toList ++ format ++ "\x7d".toList

/-- A format as a value. -/
def Content.ofFormat : Option String → Content
  | none => .null
  | some format => .text format

/-- All fields as members. -/
def members (s : Settings) : List Member :=
  [("entry_function", .text s.entryFunction), ("print_routine", .text s.printRoutine),
    ("print_format", .ofFormat s.printFormat)]

theorem stated_members (s : Settings) : stated s.members = s := by
  obtain ⟨entry, routine, format⟩ := s
  cases format <;> rfl

theorem FormatText.hasContent {format : Option String} {v : List Char} (h : FormatText format v) :
    HasContent (.ofFormat format) v := by
  cases h with
  | none => exact .null
  | some hbody => exact .text hbody.spells

theorem proper_members (s : Settings) : ∀ p ∈ s.members, Proper p := by
  intro p hp
  simp only [members, List.mem_cons, List.not_mem_nil, or_false] at hp
  rcases hp with rfl | rfl | rfl
  · exact ⟨fun _ => ⟨_, rfl⟩, by simp⟩
  · exact ⟨fun _ => ⟨_, rfl⟩, by simp⟩
  · refine ⟨by simp, fun _ => ?_⟩
    cases s.printFormat with
    | none => exact .inl rfl
    | some format => exact .inr ⟨format, rfl⟩

/-- What is written presents all fields. -/
theorem Encoder.Compact.presents {encode : Encoder} (h : encode.Compact) (s : Settings) :
    Presents (encode s) s.members := by
  obtain ⟨entry, routine, format, hentry, hroutine, hformat, htext⟩ := h.encode_eq s
  have hkey : ∀ field : Field, Spells field.key.toList field.key.toList := by
    intro field
    cases field <;> exact spells_self (by simp [Field.key])
  have hfirst : IsMember ("entry_function", .text s.entryFunction) _ :=
    .mk blank_nil (hkey .entryFunction) blank_nil blank_nil (.text hentry.spells)
  have hsecond : IsMember ("print_routine", .text s.printRoutine) _ :=
    .mk blank_nil (hkey .printRoutine) blank_nil blank_nil (.text hroutine.spells)
  have hthird : IsMember ("print_format", .ofFormat s.printFormat) _ :=
    .mk blank_nil (hkey .printFormat) blank_nil blank_nil hformat.hasContent
  have hobject := IsObject.filled blank_nil hfirst
    (.next blank_nil hsecond (.next blank_nil hthird (.close blank_nil))) blank_nil
  refine ⟨?_, by simp [members], proper_members s⟩
  rw [htext]
  simpa [Field.key, members] using hobject

/-- Nothing has to be escaped in a key. -/
theorem writeKey_eq (field : Field) : writeKey field = '"' :: (field.key.toList ++ ['"', ':']) := by
  cases field <;> decide

theorem compact_toJson : Encoder.Compact toJson where
  encode_eq := by
    rintro ⟨entry, routine, format⟩
    cases format with
    | none =>
        refine ⟨_, _, _, escapes_writeChar _, escapes_writeChar _, .none, ?_⟩
        simp [toJson, writeKey_eq, writeText, Field.key]
    | some format =>
        refine ⟨_, _, _, escapes_writeChar _, escapes_writeChar _, .some (escapes_writeChar _), ?_⟩
        simp [toJson, writeKey_eq, writeText, Field.key]

/-- Settings that are written and read again are the same if they are usable, and otherwise they are
refused for what makes them unusable. -/
theorem ofJson_encode {encode : Encoder} {decode : Decoder} {visit : List Member → Option Settings}
    (hencode : encode.Compact) (hdecode : decode.Standard visit) (hvisit : Defaulting visit)
    (s : Settings) :
    ofJson decode (encode s) =
      match s.validate with
      | .ok events => .ok (s, events)
      | .error fault => .error (.unusable fault) := by
  rw [(hencode.presents s).ofJson_eq hdecode hvisit, stated_members]
  rfl

/-- Settings with a quote, a backslash, controls with and without a letter of their own, and a
character that takes four bytes. -/
def awkward : Settings := ⟨"a\"\\", "\x01\n/", some "😀%d\x7f"⟩

/-- They come back from their text, and the same text with one name for both functions does not. -/
theorem ofJson_encode_awkward :
    awkward.toJson = "\x7b\"entry_function\":\"a\\\"\\\\\",\"print_routine\":\"\\u0001\\n/\"," ++
        "\"print_format\":\"😀%d\x7f\"\x7d" ∧
      ofJson readJson awkward.toJson = .ok (awkward, []) ∧
      ofJson readJson { awkward with entryFunction := "\x01\n/" }.toJson =
        .error (.unusable (.sharedName "\x01\n/")) := by
  have hread := ofJson_encode compact_toJson standard_readJson defaulting_gathered
  exact ⟨by decide, hread awkward, hread _⟩

end Settings

end SlotLang
