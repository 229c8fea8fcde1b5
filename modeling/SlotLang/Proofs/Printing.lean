import SlotLang.Proofs.Drafts

/-!
# SlotLang.Proofs.Printing

Printed instructions can be told apart, whatever functions and variables are called. The operation
stands before the first blank. Operands are written without commas and brackets, so in a list of them
every comma separates two, and the list of a call starts at its last opening bracket: what stands
before that is the name of the callee, which may contain anything.

Two things are needed of the instructions (`Instr.Admitted`): no operand is a function, which would
be printed by its name, and callees are known to the module, in which names are unique.
-/

namespace SlotLang

/-! ### Separators -/

section

variable {α : Type} {a : α} {xs ys xs' ys' : List α}

/-- There is one way to cut a list at the first place of an element. -/
theorem cut_first_inj (hx : a ∉ xs) (hx' : a ∉ xs') (h : xs ++ a :: ys = xs' ++ a :: ys') :
    xs = xs' ∧ ys = ys' := by
  -- otherwise the longer of the two beginnings contains the element
  rcases List.append_eq_append_iff.mp h with ⟨_ | ⟨z, zs⟩, rfl, hz⟩ | ⟨_ | ⟨z, zs⟩, rfl, hz⟩
  · exact ⟨(List.append_nil _).symm, (List.cons.inj hz).2⟩
  · cases hz
    simp at hx'
  · exact ⟨List.append_nil _, (List.cons.inj hz).2.symm⟩
  · cases hz
    simp at hx

/-- There is one way to cut a list at the last place of an element. -/
theorem cut_last_inj (hy : a ∉ ys) (hy' : a ∉ ys') (h : xs ++ a :: ys = xs' ++ a :: ys') :
    xs = xs' ∧ ys = ys' := by
  have hreverse := congrArg List.reverse h
  simp only [List.reverse_append, List.reverse_cons, List.append_assoc, List.singleton_append]
    at hreverse
  obtain ⟨hys, hxs⟩ := cut_first_inj (by simpa using hy) (by simpa using hy') hreverse
  exact ⟨List.reverse_injective hxs, List.reverse_injective hys⟩

end

/-- A blank behind a comma might as well belong to the text that follows. -/
theorem join_eq (x : List Char) (xs : List (List Char)) :
    [',', ' '].intercalate (x :: xs) = [','].intercalate (x :: xs.map (' ' :: ·)) := by
  induction xs generalizing x with
  | nil => rfl
  | cons y ys ih =>
      rw [List.map_cons, List.intercalate_cons_cons, List.intercalate_cons_cons, ih,
        List.intercalate_cons_cons_left]
      simp

/-- Texts without commas can be told apart when they are joined by commas. -/
theorem join_inj {xs ys : List (List Char)} (hx : ∀ x ∈ xs, ',' ∉ x ∧ x ≠ [])
    (hy : ∀ y ∈ ys, ',' ∉ y ∧ y ≠ []) (h : [',', ' '].intercalate xs = [',', ' '].intercalate ys) :
    xs = ys := by
  have hsplit : ∀ z zs, (∀ x ∈ z :: zs, ',' ∉ x ∧ x ≠ []) →
      ([',', ' '].intercalate (z :: zs)).splitOn ',' = z :: zs.map (' ' :: ·) := by
    intro z zs hz
    rw [join_eq, List.splitOn_intercalate _ _ (List.cons_ne_nil _ _)]
    intro x hx
    rcases List.mem_cons.mp hx with rfl | hx
    · exact (hz x List.mem_cons_self).1
    · obtain ⟨w, hw, rfl⟩ := List.mem_map.mp hx
      simpa using (hz w (List.mem_cons_of_mem _ hw)).1
  have hparts := congrArg (List.splitOn ',') h
  cases xs with
  | nil =>
      cases ys with
      | nil => rfl
      | cons y ys =>
          rw [hsplit y ys hy] at hparts
          exact absurd (List.cons.inj hparts).1.symm (hy y List.mem_cons_self).2
  | cons x xs =>
      rw [hsplit x xs hx] at hparts
      cases ys with
      | nil => exact absurd (List.cons.inj hparts).1 (hx x List.mem_cons_self).2
      | cons y ys =>
          rw [hsplit y ys hy] at hparts
          obtain ⟨rfl, hrest⟩ := List.cons.inj hparts
          rw [List.map_injective_iff.mpr (List.cons_injective) hrest]

/-- What is joined contains nothing besides the texts and the separators. -/
theorem notMem_join {c : Char} {xs : List (List Char)} (hc : c ∉ [',', ' '])
    (hx : ∀ x ∈ xs, c ∉ x) : c ∉ [',', ' '].intercalate xs := by
  induction xs with
  | nil => simp
  | cons x xs ih =>
      rw [List.forall_mem_cons] at hx
      cases xs with
      | nil => simpa using hx.1
      | cons y ys =>
          rw [List.intercalate_cons_cons, List.mem_append, List.mem_append]
          rintro ((h | h) | h)
          · exact hx.1 h
          · exact hc h
          · exact ih hx.2 h

/-! ### Operands -/

namespace Handle

/-- What stands before the number of a printed handle. -/
def mark : Handle → String
  | const v => if v.toInt < 0 then "-" else ""
  | arg _ => "%arg"
  | inst _ => "%"
  | global _ => "@.str"
  | func _ => "@fn"

/-- The number of a printed handle. -/
def number : Handle → Nat
  | const v => v.toInt.natAbs
  | arg i => i.toNat
  | inst i | global i | func i => i

/-- Mark and number make a handle. -/
def ofParts (mark : String) (number : Nat) : Handle :=
  match mark with
  | "-" => const (.ofInt (-number))
  | "" => const (.ofInt number)
  | "%arg" => arg (.ofNat number)
  | "%" => inst number
  | "@.str" => global number
  | _ => func number

theorem text_eq (h : Handle) : h.text = h.mark ++ h.number.repr := by
  cases h with
  | const v =>
      simp only [text, mark, number]
      cases v.toInt with
      | ofNat n => simp; rfl
      | negSucc n => simp; rfl
  | _ => rfl

theorem ofParts_mark_number (h : Handle) : ofParts h.mark h.number = h := by
  cases h with
  | const v =>
      simp only [mark, number]
      split
      · next hneg =>
        have hint : -(v.toInt.natAbs : Int) = v.toInt := by omega
        simp only [ofParts, hint, Int64.ofInt_toInt]
      · next hpos =>
        have hint : (v.toInt.natAbs : Int) = v.toInt := by omega
        simp only [ofParts, hint, Int64.ofInt_toInt]
  | _ => simp [mark, number, ofParts]

/-- The marks contain no digits, separators or brackets. -/
theorem plain_of_mem_mark {h : Handle} {c : Char} (hc : c ∈ h.mark.toList) :
    c.isDigit = false ∧ c ≠ ',' ∧ c ≠ '(' := by
  have hmarks : ∀ mark ∈ ["-", "", "%arg", "%", "@.str", "@fn"], ∀ c ∈ mark.toList,
      c.isDigit = false ∧ c ≠ ',' ∧ c ≠ '(' := by simp
  refine hmarks h.mark ?_ c hc
  cases h with
  | const v =>
      rw [mark]
      split <;> simp
  | _ => simp [mark]

/-- The number of a printed handle starts with its first digit. -/
theorem parts_inj {s s' : List Char} {n n' : Nat} (hs : ∀ c ∈ s, c.isDigit = false)
    (hs' : ∀ c ∈ s', c.isDigit = false)
    (h : s ++ Nat.toDigits 10 n = s' ++ Nat.toDigits 10 n') : s = s' ∧ n = n' := by
  have htake : ∀ {s : List Char} {n : Nat}, (∀ c ∈ s, c.isDigit = false) →
      (s ++ Nat.toDigits 10 n).takeWhile (fun c => !c.isDigit) = s := by
    intro s n hs
    rw [List.takeWhile_append_of_pos (by simpa using hs)]
    cases hn : Nat.toDigits 10 n with
    | nil => exact List.append_nil _
    | cons c cs =>
        have hc : c.isDigit = true := Nat.isDigit_of_mem_toDigits (b := 10) (n := n) (by decide)
          (by decide) (hn ▸ List.mem_cons_self)
        simp [hc]
  have hss : s = s' := by rw [← htake (n := n) hs, h, htake hs']
  subst hss
  have hdigits := congrArg (Nat.ofDigitChars 10 · 0) (List.append_cancel_left h)
  simp only [Nat.ofDigitChars_ten_toDigits] at hdigits
  exact ⟨rfl, hdigits⟩

theorem text_injective {h h' : Handle} (he : h.text = h'.text) : h = h' := by
  have hparts := congrArg String.toList he
  rw [text_eq, text_eq, String.toList_append, String.toList_append, Nat.toList_repr,
    Nat.toList_repr] at hparts
  obtain ⟨hmark, hnumber⟩ := parts_inj (fun _ hc => (plain_of_mem_mark hc).1)
    (fun _ hc => (plain_of_mem_mark hc).1) hparts
  rw [← ofParts_mark_number h, ← ofParts_mark_number h', String.toList_injective hmark, hnumber]

/-- There is always a number. -/
theorem exists_digit (h : Handle) : ∃ c ∈ h.text.toList, c.isDigit = true := by
  obtain ⟨c, hc⟩ := List.exists_mem_of_ne_nil _ (Nat.toDigits_ne_nil (b := 10) (n := h.number))
  refine ⟨c, ?_, Nat.isDigit_of_mem_toDigits (by decide) (by decide) hc⟩
  rw [text_eq, String.toList_append, Nat.toList_repr]
  exact List.mem_append_right _ hc

/-- Separators and brackets do not occur in printed handles. -/
theorem plain_of_mem_text {h : Handle} {c : Char} (hc : c ∈ h.text.toList) : c ≠ ',' ∧ c ≠ '(' := by
  rw [text_eq, String.toList_append, Nat.toList_repr, List.mem_append] at hc
  rcases hc with hmark | hdigit
  · exact (plain_of_mem_mark hmark).2
  · have hdigit := Nat.isDigit_of_mem_toDigits (by decide) (by decide) hdigit
    constructor
    · rintro rfl
      cases hdigit
    · rintro rfl
      cases hdigit

end Handle

/-! ### Instructions -/

namespace Opcode

/-- Reads the word that an instruction starts with. -/
def ofMnemonic (word : String) : Opcode :=
  match word with
  | "alloca" => alloca
  | "load" => load
  | "store" => store
  | "call" => call
  | "ret" => ret
  | "sub" => binary .sub
  | "mul" => binary .mul
  | "sdiv" => binary .sdiv
  | "srem" => binary .srem
  | "or" => binary .or
  | "and" => binary .and
  | _ => binary .add

theorem ofMnemonic_mnemonic (op : Opcode) : ofMnemonic op.mnemonic = op := by
  cases op with
  | binary op => cases op <;> rfl
  | _ => rfl

theorem blank_notMem_mnemonic (op : Opcode) : ' ' ∉ op.mnemonic.toList := by
  cases op with
  | binary op => cases op <;> decide
  | _ => decide

end Opcode

/-- An instruction that a module prints so that it can be told apart: no operand is a function, and
a callee is known. -/
structure Instr.Admitted (m : Module) (instr : Instr) : Prop where
  operands : ∀ id, .func id ∉ instr.operands
  callee : ∀ id args, instr = .call id args → ∃ f, m.function? id = some f

theorem Instr.Admitted.ne_func {m : Module} {instr : Instr} (h : instr.Admitted m) {a : Handle}
    (ha : a ∈ instr.operands) (id : Nat) : a ≠ .func id := fun heq => h.operands id (heq ▸ ha)

namespace Module

variable {m : Module}

/-- The text of an instruction behind the operation. -/
def operandText (m : Module) : Instr → String
  | .alloca name => "i64 ; " ++ name
  | .load ptr => m.handleText ptr
  | .store ptr value => m.handleText value ++ ", " ++ m.handleText ptr
  | .binary _ lhs rhs => m.handleText lhs ++ ", " ++ m.handleText rhs
  | .call callee args =>
    m.handleText (.func callee) ++ "(" ++ ", ".intercalate (args.map m.handleText) ++ ")"
  | .ret (some value) => m.handleText value
  | .ret none => "void"

theorem instrText_eq (m : Module) (instr : Instr) :
    m.instrText instr = instr.opcode.mnemonic ++ " " ++ m.operandText instr := by
  cases instr with
  | alloca name =>
      show "alloca " ++ "i64 ; " ++ name = _
      exact String.append_assoc
  | ret value => cases value <;> rfl
  | _ => simp [instrText, operandText, Instr.opcode, Opcode.mnemonic, String.append_assoc]

theorem handleText_eq (m : Module) {h : Handle} (hh : ∀ id, h ≠ .func id) :
    m.handleText h = h.text := by
  cases h with
  | func id => exact absurd rfl (hh id)
  | _ => rfl

theorem handleText_inj {h h' : Handle} (hh : ∀ id, h ≠ .func id) (hh' : ∀ id, h' ≠ .func id)
    (he : m.handleText h = m.handleText h') : h = h' := by
  rw [handleText_eq m hh, handleText_eq m hh'] at he
  exact Handle.text_injective he

/-- Two operands end and begin at the comma between them. -/
theorem pairText_inj {a b a' b' : Handle} (ha : ∀ id, a ≠ .func id) (hb : ∀ id, b ≠ .func id)
    (ha' : ∀ id, a' ≠ .func id) (hb' : ∀ id, b' ≠ .func id)
    (h : m.handleText a ++ ", " ++ m.handleText b = m.handleText a' ++ ", " ++ m.handleText b') :
    a = a' ∧ b = b' := by
  have hchars := congrArg String.toList h
  simp only [handleText_eq m ha, handleText_eq m hb, handleText_eq m ha', handleText_eq m hb',
    String.toList_append, List.append_assoc] at hchars
  obtain ⟨htext, hrest⟩ := cut_first_inj (fun hc => (Handle.plain_of_mem_text hc).1 rfl)
    (fun hc => (Handle.plain_of_mem_text hc).1 rfl) hchars
  exact ⟨Handle.text_injective (String.toList_injective htext),
    Handle.text_injective (String.toList_injective (List.cons.inj hrest).2)⟩

/-- Nothing is returned in a form that no operand has. -/
theorem handleText_ne_void {h : Handle} (hh : ∀ id, h ≠ .func id) : m.handleText h ≠ "void" := by
  intro heq
  obtain ⟨c, hc, hdigit⟩ := h.exists_digit
  rw [← handleText_eq m hh, heq] at hc
  have hword : ∀ c ∈ "void".toList, c.isDigit = false := by simp
  rw [hword c hc] at hdigit
  cases hdigit

theorem toList_callText {id : Nat} {args : List Handle} {f : Func} (hf : m.function? id = some f)
    (h : (Instr.call id args).Admitted m) :
    (m.operandText (.call id args)).toList = ('@' :: f.name.toList) ++
      '(' :: ([',', ' '].intercalate (args.map fun a => a.text.toList) ++ [')']) := by
  have htexts : args.map m.handleText = args.map Handle.text :=
    List.map_congr_left fun a ha => handleText_eq m (h.ne_func ha)
  simp only [operandText, handleText, hf, htexts, String.toList_append, String.toList_intercalate,
    List.map_map, List.append_assoc]
  rfl

/-- The operands of a call start at the last bracket that is opened, and there is one way to read
them. What is left is the name of the callee. -/
theorem callText_inj (hm : m.Tidy) {id id' : Nat} {args args' : List Handle}
    (hx : (Instr.call id args).Admitted m) (hy : (Instr.call id' args').Admitted m)
    (h : m.operandText (.call id args) = m.operandText (.call id' args')) :
    id = id' ∧ args = args' := by
  obtain ⟨f, hf⟩ := hx.callee id args rfl
  obtain ⟨f', hf'⟩ := hy.callee id' args' rfl
  have hchars := congrArg String.toList h
  rw [toList_callText hf hx, toList_callText hf' hy] at hchars
  have hbracket : ∀ args : List Handle,
      '(' ∉ [',', ' '].intercalate (args.map fun a => a.text.toList) ++ [')'] := by
    intro args hmem
    rcases List.mem_append.mp hmem with hmem | hmem
    · refine notMem_join (by decide) ?_ hmem
      rw [List.forall_mem_map]
      exact fun a _ hc => (Handle.plain_of_mem_text hc).2 rfl
    · cases List.mem_singleton.mp hmem
  obtain ⟨hname, hargs⟩ := cut_last_inj (hbracket args) (hbracket args') hchars
  constructor
  · have hid := (hm.indexed.find?_eq_some_iff f.name id).mpr ⟨f, hf, rfl⟩
    have hid' := (hm.indexed.find?_eq_some_iff f'.name id').mpr ⟨f', hf', rfl⟩
    rw [String.toList_injective (List.cons.inj hname).2, hid'] at hid
    exact (Option.some.inj hid).symm
  · have hplain : ∀ args : List Handle, ∀ x ∈ args.map (fun a => a.text.toList),
        ',' ∉ x ∧ x ≠ [] := by
      intro args
      rw [List.forall_mem_map]
      intro a _
      obtain ⟨c, hc, -⟩ := a.exists_digit
      exact ⟨fun hc => (Handle.plain_of_mem_text hc).1 rfl, List.ne_nil_of_mem hc⟩
    have htexts := join_inj (hplain args) (hplain args') (List.append_cancel_right hargs)
    exact List.map_injective_iff.mpr
      (fun a b hab => Handle.text_injective (String.toList_injective hab)) htexts

/-- Operands can be told apart once the operation is known. -/
theorem operandText_inj (hm : m.Tidy) {x y : Instr} (hx : x.Admitted m) (hy : y.Admitted m)
    (hop : x.opcode = y.opcode) (h : m.operandText x = m.operandText y) : x = y := by
  cases x with
  | alloca name =>
      cases y with
      | alloca name' => rw [(String.append_right_inj _).mp h]
      | _ => cases hop
  | load p =>
      cases y with
      | load p' =>
          rw [handleText_inj (hx.ne_func List.mem_cons_self) (hy.ne_func List.mem_cons_self) h]
      | _ => cases hop
  | store p v =>
      cases y with
      | store p' v' =>
          obtain ⟨rfl, rfl⟩ := pairText_inj (hx.ne_func (by simp [Instr.operands]))
            (hx.ne_func (by simp [Instr.operands])) (hy.ne_func (by simp [Instr.operands]))
            (hy.ne_func (by simp [Instr.operands])) h
          rfl
      | _ => cases hop
  | binary op l r =>
      cases y with
      | binary op' l' r' =>
          obtain ⟨rfl, rfl⟩ := pairText_inj (hx.ne_func (by simp [Instr.operands]))
            (hx.ne_func (by simp [Instr.operands])) (hy.ne_func (by simp [Instr.operands]))
            (hy.ne_func (by simp [Instr.operands])) h
          cases hop
          rfl
      | _ => cases hop
  | call id args =>
      cases y with
      | call id' args' =>
          obtain ⟨rfl, rfl⟩ := callText_inj hm hx hy h
          rfl
      | _ => cases hop
  | ret value =>
      cases y with
      | ret value' =>
          cases value with
          | none =>
              cases value' with
              | none => rfl
              | some v' => exact absurd h.symm (handleText_ne_void (hy.ne_func List.mem_cons_self))
          | some v =>
              cases value' with
              | none => exact absurd h (handleText_ne_void (hx.ne_func List.mem_cons_self))
              | some v' =>
                  rw [handleText_inj (hx.ne_func List.mem_cons_self)
                    (hy.ne_func List.mem_cons_self) h]
      | _ => cases hop

/-- Instructions that are printed alike are the same. -/
theorem instrText_inj (hm : m.Tidy) {x y : Instr} (hx : x.Admitted m) (hy : y.Admitted m)
    (h : m.instrText x = m.instrText y) : x = y := by
  rw [instrText_eq, instrText_eq] at h
  have hchars := congrArg String.toList h
  simp only [String.toList_append, List.append_assoc] at hchars
  obtain ⟨hword, hrest⟩ := cut_first_inj (Opcode.blank_notMem_mnemonic _)
    (Opcode.blank_notMem_mnemonic _) hchars
  refine operandText_inj hm hx hy ?_ (String.toList_injective hrest)
  rw [← Opcode.ofMnemonic_mnemonic x.opcode, String.toList_injective hword,
    Opcode.ofMnemonic_mnemonic]

end Module

end SlotLang
