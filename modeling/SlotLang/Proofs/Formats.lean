import SlotLang.Proofs.Meaning

/-!
# SlotLang.Proofs.Formats

The print routine and the language of formats. A format is a sequence of `Part`s: characters that
stand for themselves, doubled percent signs and conversions, each with the integer that it shows.
The routine reads a format from left to right, one or two characters at a time. Parts are the other
view of it: what they are written as, what they print and which integers they show.

Every format begins with parts that can be printed (`exists_leads`), and behind them it either ends
or has a percent sign that `Offends`. What the routine makes of the parts is found part by part
(`Leads.fill_eq`), so the two views agree on every format.
-/

namespace SlotLang

/-! ### Faults and their words -/

namespace PrintFault

/-- How the words for a fault begin, whatever is at fault. -/
def opening : PrintFault → String
  | unknownText _ => "print: unknown string global "
  | notAnInt _ => "print: cannot print a "
  | missingArgument => "print: format expects more arguments"
  | unsupported _ => "print: unsupported conversion '%"
  | danglingPercent => "print: format string ends with '%'"

/-- What is at fault, in words. -/
def detail : PrintFault → String
  | unknownText id => id.repr
  | notAnInt found => found.text
  | unsupported conversion => String.singleton conversion ++ "'"
  | missingArgument | danglingPercent => ""

theorem message_eq (f : PrintFault) : f.message = f.opening ++ f.detail := by
  cases f with
  | unsupported conversion => exact String.append_assoc
  | missingArgument | danglingPercent => exact String.append_empty.symm
  | unknownText | notAnInt => rfl

/-- No two classes of faults begin alike. -/
theorem opening_of_isPrefix {f g : PrintFault} (h : f.opening.toList <+: g.opening.toList) :
    f.opening = g.opening := by
  revert h
  cases f <;> cases g <;> simp only [opening] <;> decide

/-- Within a class, a fault is known by its details. -/
theorem eq_of_detail {f g : PrintFault} (ho : f.opening = g.opening) (hd : f.detail = g.detail) :
    f = g := by
  cases f with
  | unknownText id =>
      cases g with
      | unknownText id' =>
          have hdigits := congrArg (Nat.ofDigitChars 10 ·.toList 0) (show id.repr = id'.repr from hd)
          simp only [Nat.toList_repr, Nat.ofDigitChars_ten_toDigits] at hdigits
          rw [hdigits]
      | _ => simp [opening] at ho
  | notAnInt kind =>
      cases g with
      | notAnInt kind' =>
          change kind.text = kind'.text at hd
          cases kind <;> cases kind' <;> simp [ValueKind.text] at hd ⊢
      | _ => simp [opening] at ho
  | unsupported c =>
      cases g with
      | unsupported c' =>
          have hchars := congrArg String.toList hd
          simp only [detail, String.toList_append, String.toList_singleton] at hchars
          rw [(List.cons.inj hchars).1]
      | _ => simp [opening] at ho
  | missingArgument =>
      cases g with
      | missingArgument => rfl
      | _ => simp [opening] at ho
  | danglingPercent =>
      cases g with
      | danglingPercent => rfl
      | _ => simp [opening] at ho

/-- No two faults have the same words. -/
theorem message_injective : Function.Injective message := by
  intro f g h
  rw [message_eq, message_eq] at h
  have hlist : g.opening.toList ++ g.detail.toList = f.opening.toList ++ f.detail.toList := by
    rw [← String.toList_append, ← String.toList_append, h]
  have ho : f.opening = g.opening := by
    rcases List.prefix_or_prefix_of_prefix (List.prefix_append _ _)
      (hlist ▸ List.prefix_append _ _) with hp | hp
    · exact opening_of_isPrefix hp
    · exact (opening_of_isPrefix hp).symm
  rw [ho] at h
  exact eq_of_detail ho ((String.append_right_inj _).mp h)

end PrintFault

namespace Print

/-! ### Parts of a format -/

/-- A part of a format. A conversion comes with the integer that it shows. -/
inductive Part
  | literal (c : Char) (plain : c ≠ '%')
  | percent
  | number (letter : Char) (known : letter = 'd' ∨ letter = 'i') (value : Int64)

namespace Part

/-- How a part is written. -/
def source : Part → List Char
  | literal c _ => [c]
  | percent => ['%', '%']
  | number letter _ _ => ['%', letter]

/-- What a part prints. -/
def text : Part → String
  | literal c _ => String.singleton c
  | percent => "%"
  | number _ _ value => toString value.toInt

/-- The integer that a part shows. -/
def value? : Part → Option Int64
  | number _ _ value => some value
  | literal .. | percent => none

end Part

/-- The text of parts in a row. -/
def textOf (parts : List Part) : String := String.join (parts.map Part.text)

/-- A format begins with parts that show the first integers. Behind them it goes on with `tail`,
and there are the integers `left`. -/
structure Leads (parts : List Part) (format tail : List Char) (values left : List Int64) :
    Prop where
  format_eq : format = parts.flatMap Part.source ++ tail
  values_eq : values = parts.filterMap Part.value? ++ left

/-- Why a percent sign is no part of a format: which characters follow it, and which integers are
left at that point. -/
inductive Offends (left : List Int64) : List Char → PrintFault → Prop
  /-- There is no integer to show. -/
  | missing {letter : Char} {tail : List Char} :
      letter = 'd' ∨ letter = 'i' → left = [] → Offends left (letter :: tail) .missingArgument
  /-- The character behind it means nothing there. -/
  | unsupported {c : Char} {tail : List Char} :
      c ≠ '%' → c ≠ 'd' → c ≠ 'i' → Offends left (c :: tail) (.unsupported c)
  /-- The format ends with it. -/
  | dangling : Offends left [] .danglingPercent

/-! ### Reading a format -/

/-- In decimal, an integer is the digits of its absolute value, with a minus sign in front of them
if it is below zero. -/
theorem toList_decimal (v : Int64) :
    (decimal v).toList =
      (if v.toInt < 0 then ['-'] else []) ++ Nat.toDigits 10 v.toInt.natAbs := by
  unfold decimal
  cases v.toInt with
  | ofNat n => simp [toString, Int.repr]
  | negSucc n => simp [toString, Int.repr]

/-- One part is read, and its text comes first. -/
theorem fill_part (part : Part) (tail : List Char) (left : List Int64) :
    fill (part.source ++ tail) (part.value?.toList ++ left) =
      (fill tail left).map (part.text ++ ·) := by
  cases part with
  | literal c plain =>
      change fill (c :: tail) left = _
      rw [fill]
      · rfl
      all_goals simp [plain]
  | percent => rfl
  | number letter known value =>
      rcases known with rfl | rfl
      · rfl
      · rfl

namespace Leads

variable {parts : List Part} {format tail : List Char} {values left : List Int64}

theorem nil (tail : List Char) (left : List Int64) : Leads [] tail tail left left := ⟨rfl, rfl⟩

theorem cons (part : Part) (h : Leads parts format tail values left) :
    Leads (part :: parts) (part.source ++ format) tail (part.value?.toList ++ values) left := by
  obtain ⟨rfl, rfl⟩ := h
  refine ⟨by simp, ?_⟩
  cases hv : part.value? <;> simp [hv]

/-- The parts at the front of a format are read, and then the rest of it. -/
theorem fill_eq (h : Leads parts format tail values left) :
    fill format values = (fill tail left).map (textOf parts ++ ·) := by
  induction parts generalizing format values with
  | nil =>
      rw [h.format_eq, h.values_eq]
      change fill tail left = (fill tail left).map ("" ++ ·)
      cases fill tail left <;> simp [Except.map]
  | cons part parts ih =>
      have hrest : Leads parts (parts.flatMap Part.source ++ tail) tail
          (parts.filterMap Part.value? ++ left) left := ⟨rfl, rfl⟩
      rw [h.format_eq, h.values_eq, ← (hrest.cons part).format_eq, ← (hrest.cons part).values_eq,
        fill_part, ih hrest]
      cases fill tail left with
      | error fault => rfl
      | ok text => simp [Except.map, textOf, String.append_assoc]

end Leads

theorem Offends.fill_eq {left : List Int64} {tail : List Char} {fault : PrintFault}
    (h : Offends left tail fault) : fill ('%' :: tail) left = .error fault := by
  cases h with
  | missing known hnone =>
      subst hnone
      rcases known with rfl | rfl
      · rfl
      · rfl
  | unsupported => simp [fill, *]
  | dangling => rfl

/-- A format consists of parts, or behind its first parts there is a percent sign that offends. -/
theorem exists_leads (format : List Char) (values : List Int64) :
    ∃ parts left tail, Leads parts format tail values left ∧
      (tail = [] ∨ ∃ rest fault, tail = '%' :: rest ∧ Offends left rest fault) := by
  fun_induction fill format values with
  | case1 values => exact ⟨[], values, _, .nil _ _, .inl rfl⟩
  | case2 rest values ih =>
      obtain ⟨parts, left, tail, h, hend⟩ := ih
      exact ⟨_, left, tail, h.cons .percent, hend⟩
  | case3 rest =>
      exact ⟨[], [], _, .nil _ _, .inr ⟨_, _, rfl, .missing (.inl rfl) rfl⟩⟩
  | case4 rest v values ih =>
      obtain ⟨parts, left, tail, h, hend⟩ := ih
      exact ⟨_, left, tail, h.cons (.number 'd' (.inl rfl) v), hend⟩
  | case5 rest =>
      exact ⟨[], [], _, .nil _ _, .inr ⟨_, _, rfl, .missing (.inr rfl) rfl⟩⟩
  | case6 rest v values ih =>
      obtain ⟨parts, left, tail, h, hend⟩ := ih
      exact ⟨_, left, tail, h.cons (.number 'i' (.inr rfl) v), hend⟩
  | case7 c rest values h₁ h₂ h₃ =>
      exact ⟨[], values, _, .nil _ _, .inr ⟨_, _, rfl, .unsupported h₁ h₂ h₃⟩⟩
  | case8 values => exact ⟨[], values, _, .nil _ _, .inr ⟨_, _, rfl, .dangling⟩⟩
  | case9 c rest values _ _ _ hnext hlast ih =>
      -- a percent sign has been dealt with before, alone or with what follows it
      have plain : c ≠ '%' := by
        intro hc
        cases rest with
        | nil => exact hlast hc rfl
        | cons c' tail => exact hnext c' tail hc rfl
      obtain ⟨parts, left, tail, h, hend⟩ := ih
      exact ⟨_, left, tail, h.cons (.literal c plain), hend⟩

/-- A format that consists of parts is filled with their text. -/
theorem Leads.fill_eq_ok {parts : List Part} {format : List Char} {values left : List Int64}
    (h : Leads parts format [] values left) : fill format values = .ok (textOf parts) := by
  rw [h.fill_eq]
  exact congrArg Except.ok String.append_empty

/-- A format with a percent sign that offends is refused for it. -/
theorem Leads.fill_eq_error {parts : List Part} {format tail : List Char}
    {values left : List Int64} {fault : PrintFault}
    (h : Leads parts format ('%' :: tail) values left) (ho : Offends left tail fault) :
    fill format values = .error fault := by
  rw [h.fill_eq, ho.fill_eq]
  rfl

theorem fill_eq_ok_iff {format : List Char} {values : List Int64} {text : String} :
    fill format values = .ok text ↔
      ∃ parts left, Leads parts format [] values left ∧ text = textOf parts := by
  constructor
  · intro htext
    obtain ⟨parts, left, tail, h, rfl | ⟨rest, fault, rfl, ho⟩⟩ := exists_leads format values
    · exact ⟨parts, left, h, Except.ok.inj (htext.symm.trans h.fill_eq_ok)⟩
    · cases htext.symm.trans (h.fill_eq_error ho)
  · rintro ⟨parts, left, h, rfl⟩
    exact h.fill_eq_ok

theorem fill_eq_error_iff {format : List Char} {values : List Int64} {fault : PrintFault} :
    fill format values = .error fault ↔
      ∃ parts left tail, Leads parts format ('%' :: tail) values left ∧
        Offends left tail fault := by
  constructor
  · intro hfault
    obtain ⟨parts, left, tail, h, rfl | ⟨rest, fault', rfl, ho⟩⟩ := exists_leads format values
    · cases hfault.symm.trans h.fill_eq_ok
    · cases hfault.symm.trans (h.fill_eq_error ho)
      exact ⟨parts, left, rest, h, ho⟩
  · rintro ⟨parts, left, tail, h, ho⟩
    exact h.fill_eq_error ho

/-! ### What there is to print -/

/-- Values are integers up to the first that is none. -/
theorem integers_append (values : List Int64) {v : Value} (hv : v.kind ≠ .int)
    (after : List Value) : integers (values.map .int ++ v :: after) = .error (.notAnInt v.kind) := by
  induction values with
  | nil =>
      cases v with
      | int => exact absurd rfl hv
      | slot | text | func | void => rfl
  | cons n values ih =>
      rw [List.map_cons, List.cons_append, integers, ih]
      rfl

/-- Values are all integers, or there is a first that is none. -/
theorem exists_integers (args : List Value) :
    (∃ values : List Int64, args = values.map .int) ∨
      ∃ (values : List Int64) (v : Value) (after : List Value),
        args = values.map .int ++ v :: after ∧ v.kind ≠ .int := by
  induction args with
  | nil => exact .inl ⟨[], rfl⟩
  | cons v rest ih =>
      cases v with
      | int n =>
          rcases ih with ⟨values, rfl⟩ | ⟨values, v, after, rfl, hv⟩
          · exact .inl ⟨n :: values, rfl⟩
          · exact .inr ⟨n :: values, v, after, rfl, hv⟩
      | slot | text | func | void => exact .inr ⟨[], _, rest, rfl, nofun⟩

/-- The index of the format, if the first value is a text. -/
def formatId? : List Value → Option Nat
  | .text id :: _ => some id
  | _ => none

/-- The values behind the format; without a format, all of them. -/
def operands : List Value → List Value
  | .text _ :: rest => rest
  | args => args

/-- The text that a list of arguments prints, or a fault in words. -/
def reply (m : Module) (args : List Value) : Except String String :=
  (run m args).mapError PrintFault.message

theorem reply_eq_ok_iff {m : Module} {args : List Value} {text : String} :
    reply m args = .ok text ↔ run m args = .ok text := by
  unfold reply
  cases run m args <;> simp [Except.mapError]

theorem reply_eq_error_iff {m : Module} {args : List Value} {message : String} :
    reply m args = .error message ↔
      ∃ fault, run m args = .error fault ∧ message = fault.message := by
  unfold reply
  cases run m args <;> simp [Except.mapError, eq_comm]

/-- A fault is known by its words. -/
theorem reply_eq_message_iff {m : Module} {args : List Value} {fault : PrintFault} :
    reply m args = .error fault.message ↔ run m args = .error fault := by
  rw [reply_eq_error_iff]
  constructor
  · rintro ⟨fault', hrun, hmessage⟩
    rw [hrun, PrintFault.message_injective hmessage]
  · intro hrun
    exact ⟨fault, hrun, rfl⟩

/-- The routine looks for the format first, then at the values, and at last into the format. -/
theorem run_eq (m : Module) (args : List Value) :
    run m args =
      match formatId? args with
      | none => (integers (operands args)).map plain
      | some id =>
        match m.text? id with
        | none => .error (.unknownText id)
        | some format => integers (operands args) >>= fill format.toList := by
  cases args with
  | nil => rfl
  | cons v rest => cases v <;> rfl

section

variable {m : Module} {args : List Value}

theorem run_of_unknown {id : Nat} (hid : formatId? args = some id) (hm : m.text? id = none) :
    run m args = .error (.unknownText id) := by
  rw [run_eq, hid]
  simp only [hm]

theorem run_of_plain {values : List Int64} (hid : formatId? args = none)
    (hargs : operands args = values.map .int) : run m args = .ok (plain values) := by
  rw [run_eq, hid, hargs, integers_map]
  rfl

theorem run_of_format {id : Nat} {format : String} {values : List Int64}
    (hid : formatId? args = some id) (hm : m.text? id = some format)
    (hargs : operands args = values.map .int) : run m args = fill format.toList values := by
  rw [run_eq, hid, hargs, integers_map]
  simp only [hm]
  rfl

/-- A value that is no integer matters before the format is looked into. -/
theorem run_of_notAnInt {values : List Int64} {v : Value} {after : List Value}
    (hknown : ∀ id, formatId? args = some id → m.text? id ≠ none)
    (hargs : operands args = values.map .int ++ v :: after) (hv : v.kind ≠ .int) :
    run m args = .error (.notAnInt v.kind) := by
  rw [run_eq, hargs, integers_append values hv]
  cases hid : formatId? args with
  | none => rfl
  | some id =>
      cases hm : m.text? id with
      | none => exact absurd hm (hknown id hid)
      | some format =>
          simp only [hm]
          rfl

/-- The routine fails for its format, for a value, or for a percent sign in the format. -/
theorem run_eq_error {fault : PrintFault} (hrun : run m args = .error fault) :
    (∃ id, formatId? args = some id ∧ m.text? id = none ∧ fault = .unknownText id) ∨
      ((∀ id, formatId? args = some id → m.text? id ≠ none) ∧
        ∃ (values : List Int64) (v : Value) (after : List Value),
          operands args = values.map .int ++ v :: after ∧ v.kind ≠ .int ∧
            fault = .notAnInt v.kind) ∨
      ∃ left tail, Offends left tail fault := by
  -- the routine looks for the format, then at the values, and only then into the format
  by_cases hknown : ∀ id, formatId? args = some id → m.text? id ≠ none
  · rcases exists_integers (operands args) with ⟨values, hargs⟩ | ⟨values, v, after, hargs, hv⟩
    · cases hid : formatId? args with
      | none => cases hrun.symm.trans (run_of_plain hid hargs)
      | some id =>
          obtain ⟨format, hm⟩ := Option.ne_none_iff_exists'.mp (hknown id hid)
          rw [run_of_format hid hm hargs] at hrun
          obtain ⟨parts, left, tail, -, ho⟩ := fill_eq_error_iff.mp hrun
          exact .inr (.inr ⟨left, tail, ho⟩)
    · cases hrun.symm.trans (run_of_notAnInt hknown hargs hv)
      exact .inr (.inl ⟨hknown, values, v, after, hargs, hv, rfl⟩)
  · simp only [not_forall, not_not] at hknown
    obtain ⟨id, hid, hm⟩ := hknown
    cases hrun.symm.trans (run_of_unknown hid hm)
    exact .inl ⟨id, hid, hm, rfl⟩

theorem run_eq_unknownText_iff {id : Nat} :
    run m args = .error (.unknownText id) ↔ formatId? args = some id ∧ m.text? id = none := by
  constructor
  · intro hrun
    rcases run_eq_error hrun with ⟨id', hid, hm, ⟨⟩⟩ | ⟨-, _, _, _, -, -, ⟨⟩⟩ | ⟨left, tail, ⟨⟩⟩
    exact ⟨hid, hm⟩
  · rintro ⟨hid, hm⟩
    exact run_of_unknown hid hm

theorem run_eq_notAnInt_iff {kind : ValueKind} :
    run m args = .error (.notAnInt kind) ↔
      (∀ id, formatId? args = some id → m.text? id ≠ none) ∧
        ∃ (values : List Int64) (v : Value) (after : List Value),
          operands args = values.map .int ++ v :: after ∧ v.kind = kind ∧ kind ≠ .int := by
  constructor
  · intro hrun
    rcases run_eq_error hrun with ⟨_, -, -, ⟨⟩⟩ | ⟨hknown, values, v, after, hargs, hv, ⟨⟩⟩ |
      ⟨left, tail, ⟨⟩⟩
    exact ⟨hknown, values, v, after, hargs, rfl, hv⟩
  · rintro ⟨hknown, values, v, after, hargs, rfl, hv⟩
    exact run_of_notAnInt hknown hargs hv

end

/-- The print routine fills formats as `printf` does, with `%d`, `%i` and `%%`. It fails for a
format that the module does not have. Otherwise it fails for the first value behind the format that
is no integer, whatever the format is. Otherwise, without a format, the integers stand on one line.
A format is filled exactly if it consists of parts that show the first integers, and then their
texts are printed in order. All other formats are refused for the first percent sign that is no
part. -/
theorem reply_exact (m : Module) (args : List Value) :
    (∀ id, reply m args = .error (PrintFault.unknownText id).message ↔
      formatId? args = some id ∧ m.text? id = none) ∧
    (∀ kind, reply m args = .error (PrintFault.notAnInt kind).message ↔
      (∀ id, formatId? args = some id → m.text? id ≠ none) ∧
        ∃ (values : List Int64) (v : Value) (after : List Value),
          operands args = values.map .int ++ v :: after ∧ v.kind = kind ∧ kind ≠ .int) ∧
    (∀ values : List Int64, formatId? args = none → operands args = values.map .int →
      reply m args =
        .ok (" ".intercalate (values.map fun value => toString value.toInt) ++ "\n")) ∧
    ∀ (id : Nat) (format : String) (values : List Int64), formatId? args = some id →
      m.text? id = some format → operands args = values.map .int →
      (∀ text, reply m args = .ok text ↔
        ∃ parts left, Leads parts format.toList [] values left ∧ text = textOf parts) ∧
      ∀ message, reply m args = .error message ↔
        ∃ parts left tail fault, Leads parts format.toList ('%' :: tail) values left ∧
          Offends left tail fault ∧ message = fault.message := by
  refine ⟨fun id => reply_eq_message_iff.trans run_eq_unknownText_iff,
    fun kind => reply_eq_message_iff.trans run_eq_notAnInt_iff, ?_, ?_⟩
  · intro values hid hargs
    exact reply_eq_ok_iff.mpr (run_of_plain hid hargs)
  · intro id format values hid hm hargs
    have hrun := run_of_format hid hm hargs
    constructor
    · intro text
      rw [reply_eq_ok_iff, hrun, fill_eq_ok_iff]
    · intro message
      rw [reply_eq_error_iff, hrun]
      constructor
      · rintro ⟨fault, hfault, hmessage⟩
        obtain ⟨parts, left, tail, h, ho⟩ := fill_eq_error_iff.mp hfault
        exact ⟨parts, left, tail, fault, h, ho, hmessage⟩
      · rintro ⟨parts, left, tail, fault, h, ho, hmessage⟩
        exact ⟨fault, h.fill_eq_error ho, hmessage⟩

/-- A module with two formats. -/
def formats : Module := ⟨"formats", [], [], ["%%d %i%%\n", "%d %d %"]⟩

/-- `%%d` is a percent sign and a letter. If two conversions meet one integer, the second of them is
what is wrong, and not the percent sign at the end. -/
theorem reply_exact_doubled :
    reply formats [.text 0, .int 7, .int 8] = .ok "%d 7%\n" ∧
      reply formats [.text 1, .int 7] = .error "print: format expects more arguments" := by
  constructor
  · refine (((reply_exact formats _).2.2.2 0 _ [7, 8] rfl rfl rfl).1 _).mpr ⟨[.percent,
      .literal 'd' (by decide), .literal ' ' (by decide), .number 'i' (.inr rfl) 7, .percent,
      .literal '\n' (by decide)], [8], ⟨by decide, rfl⟩, by decide⟩
  · exact (((reply_exact formats _).2.2.2 1 _ [7] rfl rfl rfl).2 _).mpr ⟨[.number 'd' (.inl rfl) 7,
      .literal ' ' (by decide)], [], "d %".toList, .missingArgument, ⟨by decide, rfl⟩,
      .missing (.inl rfl) rfl, rfl⟩

end Print

end SlotLang
