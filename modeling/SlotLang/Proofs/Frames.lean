import SlotLang.Machine
import SlotLang.Proofs.Evaluate
import SlotLang.Proofs.Steps

/-!
# SlotLang.Proofs.Frames

The machine seen from the source. `Related` ties an activation to the frame that stands for it:
every variable has a slot of its own with the same content, and every parameter a handle that
yields its argument. One lemma per kind of instruction says that the frame stays related.
-/

namespace SlotLang

open Source (Activation Stop)

/-! ### Frames that grow -/

namespace Frame

/-- A frame later in the same call: registers have been added, and slots may have changed. -/
structure Extends (f f' : Frame) : Prop where
  args : f'.args = f.args
  registers : f.registers <+: f'.registers

theorem Extends.refl (f : Frame) : f.Extends f := ⟨rfl, List.prefix_refl _⟩

theorem Extends.trans {f g k : Frame} (h : f.Extends g) (h' : g.Extends k) : f.Extends k :=
  ⟨h'.args.trans h.args, h.registers.trans h'.registers⟩

theorem extends_advance (f : Frame) (v : Value) : f.Extends (f.advance v) :=
  ⟨rfl, List.prefix_append _ _⟩

/-- What a handle stands for is settled once and for all. -/
theorem Extends.eval {f f' : Frame} (h : f.Extends f') {handle : Handle} {v : Value}
    (hv : f.eval handle = .ok v) : f'.eval handle = .ok v := by
  cases handle with
  | const k => exact hv
  | arg i =>
      simp only [Frame.eval, h.args] at hv ⊢
      exact hv
  | inst i =>
      simp only [Frame.eval] at hv ⊢
      cases hi : f.registers[i]? with
      | none => rw [hi] at hv; cases hv
      | some w =>
          rw [hi] at hv
          rw [getElem?_of_isPrefix h.registers hi]
          exact hv
  | global g => exact hv
  | func id => exact hv

/-- The register that an instruction fills. -/
theorem eval_advance (f : Frame) (v : Value) :
    (f.advance v).eval (.inst f.registers.length) = .ok v := by
  simp [Frame.eval, advance]

theorem intOf_eq {f : Frame} {h : Handle} {v : Int64} (hv : f.eval h = .ok (.int v)) :
    f.intOf h = .ok v := by
  simp only [intOf, hv, bind, Except.bind]

theorem slotOf_eq {f : Frame} {h : Handle} {s : Nat} (hs : f.eval h = .ok (.slot s))
    (hlt : s < f.slots.length) : f.slotOf h = .ok s := by
  simp only [slotOf, hs, bind, Except.bind, if_pos hlt]

/-- The slot that an address stands for, as it is read. -/
theorem read_eq {f : Frame} {p : Handle} {s : Nat} {w : Option Int64}
    (hs : f.eval p = .ok (.slot s)) (hw : f.slots[s]? = some w) :
    f.read p = match w with
      | some v => .ok v
      | none => .error (.uninitialized f.registers.length) := by
  obtain ⟨hlt, -⟩ := List.getElem?_eq_some_iff.mp hw
  simp only [read, slotOf_eq hs hlt, bind, Except.bind, hw]
  cases w <;> rfl

/-- The slot that an address stands for, as it is written. -/
theorem write_eq {f : Frame} {p h : Handle} {s : Nat} {v : Int64}
    (hs : f.eval p = .ok (.slot s)) (hlt : s < f.slots.length) (hv : f.eval h = .ok (.int v)) :
    f.write p h = .ok { f with slots := f.slots.set s (some v) } := by
  simp only [write, slotOf_eq hs hlt, intOf_eq hv, bind, Except.bind, pure, Except.pure]

theorem compute_eq {f : Frame} {l r : Handle} {v w : Int64} (op : BinOp)
    (hl : f.eval l = .ok (.int v)) (hr : f.eval r = .ok (.int w)) :
    f.compute op l r = (op.apply v w).mapError Fault.arith := by
  simp only [compute, intOf_eq hl, intOf_eq hr, bind, Except.bind]

end Frame

/-! ### Arithmetic -/

/-- Integers of 64 bits wrap around as exact integers reduced to 64 bits do. -/
theorem ArithOp.apply_toBinOp (op : ArithOp) (l r : Int64) :
    op.toBinOp.apply l r = op.compute l r := by
  cases op with
  | add => simp [toBinOp, BinOp.apply, compute, Int64.ofInt_add]
  | sub => simp [toBinOp, BinOp.apply, compute, Int64.ofInt_sub]
  | mul => simp [toBinOp, BinOp.apply, compute, Int64.ofInt_mul]
  | div =>
      have h := Int64.ofInt_tdiv (Int64.minValue_le_toInt l) (Int64.toInt_le l)
        (Int64.minValue_le_toInt r) (Int64.toInt_le r)
      simp [toBinOp, BinOp.apply, compute, h]
  | rem =>
      have h := Int64.ofInt_tmod (Int64.minValue_le_toInt l) (Int64.toInt_le l)
        (Int64.minValue_le_toInt r) (Int64.toInt_le r)
      simp [toBinOp, BinOp.apply, compute, h]
  | bitOr => rfl
  | bitAnd => rfl

theorem Direction.apply_toBinOp (direction : Direction) (v : Int64) :
    direction.toBinOp.apply v 1 = .ok (direction.shift v) := by
  cases direction with
  | increment =>
      rw [shift, Int64.ofInt_add, Int64.ofInt_toInt]
      rfl
  | decrement =>
      rw [shift, Int64.ofInt_sub, Int64.ofInt_toInt]
      rfl

/-! ### Activations and frames -/

namespace Transcript

/-- The machine notes each instruction before it executes it. -/
def executing (t : Transcript) (function : String) (f : Frame) (instr : Instr) : Transcript :=
  { t with events := t.events.push (.executing function f.registers.length instr) }

/-- A text is printed. -/
def write (t : Transcript) (text : String) : Transcript :=
  { t with output := t.output ++ [text] }

end Transcript

/-- An activation and the frame that stands for it, in a function where names are bound as in `bs`
and after `n` instructions. What was printed before the call is `base`. -/
structure Related (function : String) (base : List String) (arity : Nat) (bs : Bindings) (n : Nat)
    (a : Activation) (f : Frame) (t : Transcript) : Prop where
  function : a.function = function
  output : t.output = base ++ a.output
  arity : a.args.length = arity
  args : f.args = a.args.map .int
  registers : f.registers.length = n
  storage : ∀ x p, bs.lookup x = some (.storage p) →
    ∃ s w, f.eval p = .ok (.slot s) ∧ f.slots[s]? = some w ∧ a.locals x = some w
  /-- Different variables have different slots. -/
  distinct : ∀ x y p q s, bs.lookup x = some (.storage p) → bs.lookup y = some (.storage q) →
    f.eval p = .ok (.slot s) → f.eval q = .ok (.slot s) → x = y
  argument : ∀ x h, bs.lookup x = some (.argument h) →
    a.locals x = none ∧ ∃ v, f.eval h = .ok (.int v) ∧ a.parameter? x = some v

/-- A parameter handle stands for the argument of its number. -/
theorem Frame.eval_arg {a : Activation} {f : Frame} (hargs : f.args = a.args.map .int) {index : Nat}
    (hi : index < a.args.length) :
    ∃ v, a.argument? index = some v ∧ f.eval (.arg (.ofNat index)) = .ok (.int v) := by
  have hlt : index % 2 ^ 32 < a.args.length := Nat.lt_of_le_of_lt (Nat.mod_le _ _) hi
  refine ⟨a.args[index % 2 ^ 32], List.getElem?_eq_getElem hlt, ?_⟩
  simp only [Frame.eval, hargs, UInt32.toNat_ofNat', List.getElem?_map,
    List.getElem?_eq_getElem hlt, Option.map_some]

namespace Related

variable {function : String} {base : List String} {arity : Nat} {bs : Bindings} {n : Nat}
  {a : Activation} {f : Frame} {t : Transcript}

/-- Nothing depends on events. -/
theorem executing (hr : Related function base arity bs n a f t) (g : Frame) (instr : Instr) :
    Related function base arity bs n a f (t.executing function g instr) :=
  ⟨hr.function, hr.output, hr.arity, hr.args, hr.registers, hr.storage, hr.distinct, hr.argument⟩

theorem write (hr : Related function base arity bs n a f t) (text : String) :
    Related function base arity bs n (a.write text) f (t.write text) := by
  refine ⟨hr.function, ?_, hr.arity, hr.args, hr.registers, hr.storage, hr.distinct, hr.argument⟩
  simp [Transcript.write, Activation.write, hr.output]

/-- The slot of a variable is there, so its handle means it and nothing else. -/
theorem eval_slot (hr : Related function base arity bs n a f t) {f' : Frame} (hf : f.Extends f')
    {x : String} {p : Handle} {s : Nat} (hx : bs.lookup x = some (.storage p))
    (hs : f'.eval p = .ok (.slot s)) : f.eval p = .ok (.slot s) := by
  obtain ⟨s', w, hs', -, -⟩ := hr.storage x p hx
  have heq := (hf.eval hs').symm.trans hs
  cases heq
  exact hs'

theorem advance (hr : Related function base arity bs n a f t) (v : Value) :
    Related function base arity bs (n + 1) a (f.advance v) t := by
  have hf := f.extends_advance v
  refine ⟨hr.function, hr.output, hr.arity, hr.args, ?_, ?_, ?_, ?_⟩
  · simp [Frame.advance, hr.registers]
  · intro x p hx
    obtain ⟨s, w, hs, hw, hl⟩ := hr.storage x p hx
    exact ⟨s, w, hf.eval hs, hw, hl⟩
  · intro x y p q s hx hy hp hq
    exact hr.distinct x y p q s hx hy (hr.eval_slot hf hx hp) (hr.eval_slot hf hy hq)
  · intro x h hx
    obtain ⟨hl, v, hv, hp⟩ := hr.argument x h hx
    exact ⟨hl, v, hf.eval hv, hp⟩

/-- A new variable gets a new slot, which holds nothing. -/
theorem allocate (hr : Related function base arity bs n a f t) (x : String) :
    Related function base arity ((x, .storage (.inst n)) :: bs) (n + 1) (a.assign x none)
      (f.allocate.advance (.slot f.slots.length)) t := by
  have hf : f.Extends (f.allocate.advance (.slot f.slots.length)) := ⟨rfl, List.prefix_append _ _⟩
  have hn : (f.allocate.advance (.slot f.slots.length)).eval (.inst n) =
      .ok (.slot f.slots.length) := by
    rw [← hr.registers]
    exact f.allocate.eval_advance _
  -- the slots of the old variables come before the new one
  have hold : ∀ y q s, bs.lookup y = some (.storage q) →
      (f.allocate.advance (.slot f.slots.length)).eval q = .ok (.slot s) → s < f.slots.length := by
    intro y q s hy hq
    obtain ⟨s', w, hs', hw, -⟩ := hr.storage y q hy
    have heq := (hr.eval_slot hf hy hq).symm.trans hs'
    cases heq
    exact (List.getElem?_eq_some_iff.mp hw).1
  refine ⟨hr.function, hr.output, hr.arity, hr.args, ?_, ?_, ?_, ?_⟩
  · simp [Frame.advance, Frame.allocate, hr.registers]
  · intro y p hy
    rcases Bindings.lookup_cons_eq_some_iff.mp hy with ⟨rfl, heq⟩ | ⟨hne, hy⟩
    · cases heq
      exact ⟨f.slots.length, none, hn, by simp [Frame.advance, Frame.allocate],
        by simp [Activation.assign]⟩
    · obtain ⟨s, w, hs, hw, hl⟩ := hr.storage y p hy
      refine ⟨s, w, hf.eval hs, getElem?_of_isPrefix (List.prefix_append _ _) hw, ?_⟩
      simp [Activation.assign, hne, hl]
  · intro y z p q s hy hz hp hq
    rcases Bindings.lookup_cons_eq_some_iff.mp hy with ⟨rfl, heq⟩ | ⟨-, hy'⟩
    · cases heq
      rcases Bindings.lookup_cons_eq_some_iff.mp hz with ⟨rfl, -⟩ | ⟨-, hz'⟩
      · rfl
      · have hlt := hold z q s hz' hq
        rw [hn] at hp
        cases hp
        exact absurd hlt (Nat.lt_irrefl _)
    · rcases Bindings.lookup_cons_eq_some_iff.mp hz with ⟨rfl, heq⟩ | ⟨-, hz'⟩
      · cases heq
        have hlt := hold y p s hy' hp
        rw [hn] at hq
        cases hq
        exact absurd hlt (Nat.lt_irrefl _)
      · exact hr.distinct y z p q s hy' hz' (hr.eval_slot hf hy' hp) (hr.eval_slot hf hz' hq)
  · intro y h hy
    rcases Bindings.lookup_cons_eq_some_iff.mp hy with ⟨rfl, heq⟩ | ⟨hne, hy⟩
    · cases heq
    · obtain ⟨hl, v, hv, hp⟩ := hr.argument y h hy
      exact ⟨by simp [Activation.assign, hne, hl], v, hf.eval hv, hp⟩

/-- A variable and its slot are written together. No other variable changes. -/
theorem assign (hr : Related function base arity bs n a f t) {x : String} {p : Handle} {s : Nat}
    (hx : bs.lookup x = some (.storage p)) (hs : f.eval p = .ok (.slot s)) (v : Int64) :
    Related function base arity bs n (a.assign x (some v))
      { f with slots := f.slots.set s (some v) } t := by
  have hf : ({ f with slots := f.slots.set s (some v) } : Frame).Extends f :=
    ⟨rfl, List.prefix_refl _⟩
  have hf' : f.Extends { f with slots := f.slots.set s (some v) } := ⟨rfl, List.prefix_refl _⟩
  refine ⟨hr.function, hr.output, hr.arity, hr.args, hr.registers, ?_, ?_, ?_⟩
  · intro y q hy
    obtain ⟨s', w, hs', hw, hl⟩ := hr.storage y q hy
    by_cases hyx : y = x
    · subst hyx
      rw [hx] at hy
      cases hy
      rw [hs] at hs'
      cases hs'
      have hlt := (List.getElem?_eq_some_iff.mp hw).1
      exact ⟨s, some v, hf'.eval hs, by simp [hlt], by simp [Activation.assign]⟩
    · -- here it matters that variables do not share slots
      have hne : s ≠ s' := by
        rintro rfl
        exact hyx (hr.distinct y x q p s hy hx hs' hs)
      refine ⟨s', w, hf'.eval hs', ?_, by simp [Activation.assign, hyx, hl]⟩
      rw [List.getElem?_set_ne hne]
      exact hw
  · intro y z q q' s' hy hz hq hq'
    exact hr.distinct y z q q' s' hy hz (hf.eval hq) (hf.eval hq')
  · intro y h hy
    obtain ⟨hl, w, hw, hp⟩ := hr.argument y h hy
    have hyx : y ≠ x := by
      rintro rfl
      rw [hx] at hy
      cases hy
    exact ⟨by simp [Activation.assign, hyx, hl], w, hf'.eval hw, hp⟩

end Related

end SlotLang
