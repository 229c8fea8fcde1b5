import SlotLang.Proofs.Safety

/-!
# SlotLang.Proofs.Slots

Who can change a slot. A frame is opened for each call and given up at its end, so no callee comes
near the slots of its caller. But a slot is known by its index only, and an index that is passed on
as an argument means a slot of the callee, if the callee has opened that many. So what is read
through a register of one's own was last stored through that register, or through a parameter that
carries the same index. Nothing else counts: no other register holds the same slot.
-/

namespace SlotLang

/-! ### Activations -/

/-- The values that the stores of an activation have written and the handles that they went through,
the latest store first. -/
abbrev StoreLog := List (Handle × Int64)

/-- How far an activation of a function with these arguments has come: the instructions that are
done, the frame that they have left, their stores, and the transcript. -/
inductive Activation (call : Nat → List Value → Exec Value) (function : String)
    (args : List Value) (t₀ : Transcript) : List Instr → Frame → StoreLog → Transcript → Prop
  | start : Activation call function args t₀ [] ⟨args, [], []⟩ [] t₀
  | store {done : List Instr} {f f' : Frame} {log : StoreLog} {t : Transcript} {p v : Handle}
      {n : Int64} : Activation call function args t₀ done f log t → f.intOf v = .ok n →
      f.write p v = .ok f' →
      Activation call function args t₀ (done ++ [.store p v]) (f'.advance .void) ((p, n) :: log)
        (t.executing function f (.store p v))
  | next {done : List Instr} {f f' : Frame} {log : StoreLog} {t : Transcript} {instr : Instr} :
      Activation call function args t₀ done f log t → (∀ p v, instr ≠ .store p v) →
      f.next? instr = some (.ok f') →
      Activation call function args t₀ (done ++ [instr]) f' log (t.executing function f instr)
  | call {done : List Instr} {f : Frame} {log : StoreLog} {t t' : Transcript} {callee : Nat}
      {hs : List Handle} {vs : List Value} {v : Value} :
      Activation call function args t₀ done f log t → f.evalAll hs = .ok vs →
      call callee vs (t.executing function f (.call callee hs)) = .ok v t' →
      Activation call function args t₀ (done ++ [.call callee hs]) (f.advance v) log t'

/-- An activation is what the machine does: it has the rest of the code left to run. -/
theorem Activation.execute_eq {call : Nat → List Value → Exec Value} {function : String}
    {args : List Value} {t₀ t : Transcript} {done : List Instr} {f : Frame} {log : StoreLog}
    (h : Activation call function args t₀ done f log t) (rest : List Instr) :
    Machine.execute call function (done ++ rest) ⟨args, [], []⟩ t₀ =
      Machine.execute call function rest f t := by
  induction h generalizing rest with
  | start => rfl
  | @store done f f' log t p v n _ _ hw ih =>
      have hn : f.next? (.store p v) = some (.ok (f'.advance .void)) := by
        rw [Frame.next?, hw]
        rfl
      rw [List.append_assoc, List.singleton_append, ih, execute_next hn]
  | next _ _ hn ih => rw [List.append_assoc, List.singleton_append, ih, execute_next hn]
  | call _ hvs hv ih =>
      rw [List.append_assoc, List.singleton_append, ih, execute_call _ _ _ hvs, hv]

/-- No run is missed: an activation goes on with the next instruction, or that instruction ends the
run, whatever code stands behind it. -/
theorem Activation.continues {call : Nat → List Value → Exec Value} {function : String}
    {args : List Value} {t₀ t : Transcript} {done : List Instr} {f : Frame} {log : StoreLog}
    (h : Activation call function args t₀ done f log t) (instr : Instr) :
    (∃ f' log' t', Activation call function args t₀ (done ++ [instr]) f' log' t') ∨
      ∃ r, ∀ rest, Machine.execute call function (instr :: rest) f t = r := by
  cases hn : f.next? instr with
  | some r =>
      cases r with
      | error fault => exact .inr ⟨_, fun rest => execute_next_error hn rest t⟩
      | ok f' =>
          by_cases hstore : ∃ p v, instr = .store p v
          · obtain ⟨p, v, rfl⟩ := hstore
            obtain ⟨written, hw, -⟩ := map_eq_ok (Option.some.inj hn)
            obtain ⟨s, -, hrest⟩ := bind_eq_ok hw
            obtain ⟨n, hv, -⟩ := bind_eq_ok hrest
            exact .inl ⟨_, _, _, h.store hv hw⟩
          · refine .inl ⟨_, _, _, h.next ?_ hn⟩
            intro p v heq
            exact hstore ⟨p, v, heq⟩
  | none =>
      cases instr with
      | alloca | load | store | binary => cases hn
      | call callee hs =>
          cases hvs : f.evalAll hs with
          | error fault => exact .inr ⟨_, fun rest => execute_call_error callee rest hvs t⟩
          | ok vs =>
              cases hv : call callee vs (t.executing function f (.call callee hs)) with
              | ok v t' => exact .inl ⟨_, _, _, h.call hvs hv⟩
              | error e t' =>
                  refine .inr ⟨.error e t', fun rest => ?_⟩
                  rw [execute_call callee hs rest hvs, hv]
      | ret value =>
          cases value with
          | none => exact .inr ⟨_, fun rest => execute_ret_none rest f t⟩
          | some v =>
              cases hv : f.eval v with
              | ok result => exact .inr ⟨_, fun rest => execute_ret rest hv t⟩
              | error fault => exact .inr ⟨_, fun rest => execute_ret_error rest hv t⟩

/-! ### Slots and the stores that reach them -/

/-- A handle through which one reaches the slot in a register: the register itself, or a parameter
that carries the same index. -/
def Frame.reaches (f : Frame) (a : Nat) : Handle → Bool
  | .inst b => b = a
  | .arg i => f.args[i.toNat]? = f.registers[a]?
  | _ => false

/-- What was last stored in the slot in a register. -/
def Frame.stored (f : Frame) (a : Nat) (log : StoreLog) : Option Int64 :=
  (log.find? fun entry => f.reaches a entry.1).map Prod.snd

/-- The instruction at an index opens a slot. -/
def Opens (code : List Instr) (a : Nat) : Prop :=
  ∃ name, code[a]? = some (.alloca name)

theorem Opens.lt {code : List Instr} {a : Nat} (h : Opens code a) : a < code.length := by
  obtain ⟨name, hname⟩ := h
  obtain ⟨hlt, -⟩ := List.getElem?_eq_some_iff.mp hname
  exact hlt

/-- A slot was opened before, or by the last instruction. -/
theorem opens_snoc {code : List Instr} {instr : Instr} {a : Nat} (h : Opens (code ++ [instr]) a) :
    Opens code a ∨ a = code.length ∧ ∃ name, instr = .alloca name := by
  have hlt := h.lt
  obtain ⟨name, hname⟩ := h
  rcases Nat.lt_or_ge a code.length with hold | hge
  · rw [List.getElem?_append_left hold] at hname
    exact .inl ⟨name, hname⟩
  · have ha : a = code.length := by simp at hlt; omega
    subst ha
    rw [List.getElem?_concat_length] at hname
    exact .inr ⟨rfl, name, Option.some.inj hname⟩

/-- The slots of a frame, after some instructions and with their stores. -/
structure Frame.Slots (done : List Instr) (f : Frame) (log : StoreLog) : Prop where
  length : f.registers.length = done.length
  /-- A slot that was opened holds what was last stored in it. -/
  holds : ∀ a, Opens done a →
    ∃ s, f.registers[a]? = some (.slot s) ∧ f.slots[s]? = some (f.stored a log)
  /-- No slot was opened twice. -/
  unique : ∀ a b s, Opens done a → Opens done b → f.registers[a]? = some (.slot s) →
    f.registers[b]? = some (.slot s) → a = b
  /-- Stores went to slots that were open at the time. -/
  opened : ∀ entry ∈ log, ∃ s, f.eval entry.1 = .ok (.slot s) ∧ s < f.slots.length

namespace Frame

variable {f : Frame} {done : List Instr} {log : StoreLog} {a : Nat}

theorem slotOf_eq_ok {h : Handle} {s : Nat} (he : f.slotOf h = .ok s) :
    f.eval h = .ok (.slot s) ∧ s < f.slots.length := by
  obtain ⟨v, hv, hs⟩ := bind_eq_ok he
  split at hs
  · split at hs
    · next hlt =>
      cases hs
      exact ⟨hv, hlt⟩
    · cases hs
  · cases hs

theorem eval_inst_eq_ok {v : Value} (h : f.eval (.inst a) = .ok v) : f.registers[a]? = some v := by
  rw [eval] at h
  split at h
  · next hv =>
    cases h
    exact hv
  · cases h

theorem eval_arg_eq_ok {i : UInt32} {v : Value} (h : f.eval (.arg i) = .ok v) :
    f.args[i.toNat]? = some v := by
  rw [eval] at h
  split at h
  · next hv =>
    cases h
    exact hv
  · cases h

theorem getElem?_advance (v : Value) (ha : a < f.registers.length) :
    (f.advance v).registers[a]? = f.registers[a]? :=
  List.getElem?_append_left ha

/-- Later registers do not change what was stored in earlier ones. -/
theorem stored_advance (v : Value) (ha : a < f.registers.length) :
    (f.advance v).stored a log = f.stored a log := by
  have hreach : (f.advance v).reaches a = f.reaches a := by
    funext p
    cases p with
    | arg i =>
        rw [reaches, reaches, getElem?_advance v ha]
        rfl
    | const | inst | global | func => rfl
  rw [stored, hreach]
  rfl

theorem stored_cons (f : Frame) (a : Nat) (p : Handle) (n : Int64) (log : StoreLog) :
    f.stored a ((p, n) :: log) = if f.reaches a p then some n else f.stored a log := by
  rw [stored, List.find?_cons]
  cases f.reaches a p <;> rfl

/-- Through handles for different slots one does not reach the same. -/
theorem reaches_eq_false {p : Handle} {s s' : Nat} (hp : f.eval p = .ok (.slot s))
    (ha : f.registers[a]? = some (.slot s')) (hne : s ≠ s') : f.reaches a p = false := by
  cases p with
  | inst b =>
      have hb := eval_inst_eq_ok hp
      refine decide_eq_false ?_
      intro heq
      rw [heq, ha] at hb
      cases hb
      exact hne rfl
  | arg i =>
      refine decide_eq_false ?_
      rw [eval_arg_eq_ok hp, ha]
      intro heq
      cases heq
      exact hne rfl
  | const | global | func => rfl

namespace Slots

/-- An instruction that opens no slot. -/
theorem advance (h : f.Slots done log) {instr : Instr} (hi : ∀ name, instr ≠ .alloca name)
    (v : Value) : (f.advance v).Slots (done ++ [instr]) log := by
  have hold : ∀ a, Opens (done ++ [instr]) a → Opens done a ∧ a < f.registers.length := by
    intro a ha
    rcases opens_snoc ha with ha | ⟨-, name, hname⟩
    · exact ⟨ha, by rw [h.length]; exact ha.lt⟩
    · exact absurd hname (hi name)
  refine ⟨by simp [Frame.advance, h.length], ?_, ?_, ?_⟩
  · intro a ha
    obtain ⟨ha, hlt⟩ := hold a ha
    obtain ⟨s, hs, hholds⟩ := h.holds a ha
    refine ⟨s, by rw [getElem?_advance v hlt, hs], ?_⟩
    rw [stored_advance v hlt]
    exact hholds
  · intro a b s ha hb hsa hsb
    obtain ⟨ha, hlta⟩ := hold a ha
    obtain ⟨hb, hltb⟩ := hold b hb
    rw [getElem?_advance v hlta] at hsa
    rw [getElem?_advance v hltb] at hsb
    exact h.unique a b s ha hb hsa hsb
  · intro entry hmem
    obtain ⟨s, hs, hlt⟩ := h.opened entry hmem
    exact ⟨s, (extends_advance f v).eval hs, hlt⟩

theorem lt_of_opens (h : f.Slots done log) (ha : Opens done a) {s : Nat}
    (hs : f.registers[a]? = some (.slot s)) : s < f.slots.length := by
  obtain ⟨s', hs', hslot⟩ := h.holds a ha
  rw [hs] at hs'
  cases hs'
  obtain ⟨hlt, -⟩ := List.getElem?_eq_some_iff.mp hslot
  exact hlt

/-- A fresh slot holds nothing: no store so far can have reached it. -/
theorem allocate (h : f.Slots done log) (name : String) :
    (f.allocate.advance (.slot f.slots.length)).Slots (done ++ [.alloca name]) log := by
  have hlen : f.allocate.registers.length = done.length := h.length
  have hnew : (f.allocate.advance (.slot f.slots.length)).registers[done.length]? =
      some (.slot f.slots.length) := by
    rw [← hlen]
    exact List.getElem?_concat_length
  have hkeep : ∀ a, Opens done a →
      (f.allocate.advance (.slot f.slots.length)).registers[a]? = f.registers[a]? := by
    intro a ha
    exact getElem?_advance _ (by rw [hlen]; exact ha.lt)
  refine ⟨by simp [Frame.advance, hlen], ?_, ?_, ?_⟩
  · intro a ha
    rcases opens_snoc ha with ha | ⟨rfl, -⟩
    · obtain ⟨s, hs, hslot⟩ := h.holds a ha
      refine ⟨s, (hkeep a ha).trans hs, ?_⟩
      rw [stored_advance _ (by rw [hlen]; exact ha.lt)]
      exact (List.getElem?_append_left (h.lt_of_opens ha hs)).trans hslot
    · refine ⟨f.slots.length, hnew, ?_⟩
      -- the index is new, so no parameter that carries it can have been stored through
      have hnone : (f.allocate.advance (.slot f.slots.length)).stored done.length log = none := by
        rw [stored, Option.map_eq_none_iff, List.find?_eq_none]
        intro entry hmem
        obtain ⟨s, hs, hlt⟩ := h.opened entry hmem
        rw [reaches_eq_false ((extends_advance f.allocate _).eval hs) hnew (Nat.ne_of_lt hlt)]
        exact Bool.false_ne_true
      rw [hnone]
      exact List.getElem?_concat_length
  · -- slots that were open before have smaller indices
    intro a b s ha hb hsa hsb
    rcases opens_snoc ha with ha | ⟨rfl, -⟩ <;> rcases opens_snoc hb with hb | ⟨rfl, -⟩
    · rw [hkeep a ha] at hsa
      rw [hkeep b hb] at hsb
      exact h.unique a b s ha hb hsa hsb
    · rw [hkeep a ha] at hsa
      rw [hnew] at hsb
      cases hsb
      exact absurd (h.lt_of_opens ha hsa) (Nat.lt_irrefl _)
    · rw [hkeep b hb] at hsb
      rw [hnew] at hsa
      cases hsa
      exact absurd (h.lt_of_opens hb hsb) (Nat.lt_irrefl _)
    · rfl
  · intro entry hmem
    obtain ⟨s, hs, hlt⟩ := h.opened entry hmem
    refine ⟨s, (extends_advance f.allocate _).eval hs, ?_⟩
    simp only [Frame.advance, Frame.allocate, List.length_append, List.length_singleton]
    omega

/-- A store changes the slot that its handle stands for, and the registers through which that slot
is read know of it. -/
theorem write (h : f.Slots done log) {p : Handle} {s : Nat} (n : Int64)
    (hp : f.eval p = .ok (.slot s)) (hlt : s < f.slots.length)
    (hown : ∀ b, p = .inst b → Opens done b) :
    ({ f with slots := f.slots.set s (some n) } : Frame).Slots done ((p, n) :: log) := by
  refine ⟨h.length, ?_, h.unique, ?_⟩
  · intro a ha
    obtain ⟨s', hs', hslot⟩ := h.holds a ha
    refine ⟨s', hs', ?_⟩
    have hstored : ({ f with slots := f.slots.set s (some n) } : Frame).stored a ((p, n) :: log) =
        if f.reaches a p then some n else f.stored a log := f.stored_cons a p n log
    rw [hstored]
    by_cases heq : s = s'
    · -- the slot is the one in register `a`, and only this register or a parameter can name it
      subst heq
      have hreach : f.reaches a p = true := by
        cases p with
        | inst b => exact decide_eq_true (h.unique b a s (hown b rfl) ha (eval_inst_eq_ok hp) hs')
        | arg i => exact decide_eq_true ((eval_arg_eq_ok hp).trans hs'.symm)
        | const | global | func => cases hp
      rw [hreach, if_pos rfl, List.getElem?_set_self hlt]
    · rw [reaches_eq_false hp hs' heq, if_neg Bool.false_ne_true, List.getElem?_set_ne heq]
      exact hslot
  · intro entry hmem
    rw [List.length_set]
    rcases List.mem_cons.mp hmem with rfl | hmem
    · exact ⟨s, hp, hlt⟩
    · exact h.opened entry hmem

end Slots

end Frame

/-! ### Runs -/

/-- Code that stores through registers only where they hold slots that it has opened. -/
def StoresOwn (code : List Instr) : Prop :=
  ∀ before b v after, code = before ++ .store (.inst b) v :: after → Opens before b

/-- No matter what callees do, the slots of an activation hold what it has last stored in them. -/
theorem Activation.slots {call : Nat → List Value → Exec Value} {function : String}
    {args : List Value} {t₀ t : Transcript} {done : List Instr} {f : Frame} {log : StoreLog}
    (h : Activation call function args t₀ done f log t) {rest : List Instr}
    (hown : StoresOwn (done ++ rest)) : f.Slots done log ∧ f.args = args := by
  induction h generalizing rest with
  | start =>
      refine ⟨⟨rfl, ?_, ?_, fun _ h => (nomatch h)⟩, rfl⟩
      · intro a ha
        exact absurd ha.lt (Nat.not_lt_zero a)
      · intro a b s ha
        exact absurd ha.lt (Nat.not_lt_zero a)
  | @store done f f' log t p v n _ hv hw ih =>
      rw [List.append_assoc, List.singleton_append] at hown
      obtain ⟨hslots, hargs⟩ := ih hown
      obtain ⟨s, hs, hw⟩ := bind_eq_ok hw
      obtain ⟨hp, hlt⟩ := Frame.slotOf_eq_ok hs
      rw [hv] at hw
      cases hw
      have hopens : ∀ b, p = .inst b → Opens done b := by
        intro b hb
        subst hb
        exact hown done b v rest rfl
      exact ⟨(hslots.write n hp hlt hopens).advance (by nofun) .void, hargs⟩
  | @next done f f' log t instr _ hne hn ih =>
      rw [List.append_assoc, List.singleton_append] at hown
      obtain ⟨hslots, hargs⟩ := ih hown
      cases instr with
      | alloca name =>
          cases hn
          exact ⟨hslots.allocate name, hargs⟩
      | load p =>
          obtain ⟨n, -, hf'⟩ := map_eq_ok (Option.some.inj hn)
          subst hf'
          exact ⟨hslots.advance (by nofun) _, hargs⟩
      | binary op l r =>
          obtain ⟨n, -, hf'⟩ := map_eq_ok (Option.some.inj hn)
          subst hf'
          exact ⟨hslots.advance (by nofun) _, hargs⟩
      | store p v => exact absurd rfl (hne p v)
      | call | ret => cases hn
  | call _ hvs hv ih =>
      rw [List.append_assoc, List.singleton_append] at hown
      obtain ⟨hslots, hargs⟩ := ih hown
      exact ⟨hslots.advance (by nofun) _, hargs⟩

/-- In a typed module only instructions that open a slot have a pointer for result. -/
theorem Instr.Typed.opens {m : Module} (hm : m.Typed) {result ty : Ty}
    {types : Handle → Option Ty} {instr : Instr} (ht : instr.Typed m result types ty)
    (hty : ty = .ptr) : ∃ name, instr = .alloca name := by
  cases ht with
  | alloca name => exact ⟨name, rfl⟩
  | call hg =>
      have hr := hm.result_returnable hg
      rw [hty] at hr
      cases hr
  | load | store | binary | ret | retNothing => cases hty

theorem Draft.Typed.opens {m : Module} (hm : m.Typed) {d : Draft} (hd : d.Typed m) {b : Nat}
    {line : Line} (hline : d.lines[b]? = some line) (hty : line.ty = .ptr) :
    ∃ name, line.instr = .alloca name := by
  obtain ⟨hlt, rfl⟩ := List.getElem?_eq_some_iff.mp hline
  have hsplit : d.lines = d.lines.take b ++ d.lines[b] :: d.lines.drop (b + 1) := by simp
  exact (hd _ _ _ hsplit).opens hm hty

/-- Typed code stores through its own slots, through parameters and nowhere else. -/
theorem Draft.Typed.storesOwn {m : Module} (hm : m.Typed) {d : Draft} (hd : d.Typed m)
    (heven : d.Even) : StoresOwn d.code := by
  intro before b v after hcode
  rw [heven.code_eq] at hcode
  obtain ⟨pre, post, hlines, hpre, hpost⟩ := List.map_eq_append_iff.mp hcode
  obtain ⟨line, post, rfl, hinstr, -⟩ := List.map_eq_cons_iff.mp hpost
  have ht := hd pre line post hlines
  rw [hinstr] at ht
  generalize line.ty = ty at ht
  cases ht with
  | store hp _ =>
      -- the register that the store goes through was filled by a line before it
      have hregister : (pre.map Line.ty)[b]? = some .ptr := hp
      rw [List.getElem?_map] at hregister
      obtain ⟨opener, hopener, hty⟩ := Option.map_eq_some_iff.mp hregister
      have hmem : d.lines[b]? = some opener := by
        rw [hlines]
        exact getElem?_of_isPrefix (List.prefix_append _ _) hopener
      obtain ⟨name, hname⟩ := hd.opens hm hmem hty
      refine ⟨name, ?_⟩
      rw [← hpre, List.getElem?_map, hopener, Option.map_some, hname]

/-! ### Loads -/

/-- Without a parameter that carries its index a slot is reached through its own register only. -/
theorem Frame.stored_of_private {f : Frame} {a : Nat}
    (h : ∀ i : Nat, f.args[i]? ≠ f.registers[a]?) (log : StoreLog) :
    f.stored a log = (log.find? fun entry => entry.1 = .inst a).map Prod.snd := by
  have hreach : ∀ p, f.reaches a p = decide (p = .inst a) := by
    intro p
    cases p with
    | inst b => simp [reaches]
    | arg i => simp [reaches, h i.toNat]
    | const | global | func => simp [reaches]
  simp only [stored, hreach]

/-- In a session with one module, a load through a register in which the function has opened a slot
itself yields what this activation has last stored through that register or through a parameter
that carries the index of the same slot, and it fails for want of a value exactly if there was no
such store. Stores through other registers and stores of callees do not count. If no argument
carries the index, then only stores through the register itself do. -/
theorem load_own_slot {settings : Settings} {name : String} {steps : List Step} {m : Module}
    (hm : ((Workbench.onModule settings name).after steps).modules = [m]) (config : Settings)
    {id : Nat} {g : Func} {body : List Instr} (hg : m.function? id = some g)
    (hbody : g.body? = some body) {room : Nat} {args : List Value}
    (hlen : args.length = g.params.length) {done rest : List Instr} {a : Nat}
    (hcode : body = done ++ .load (.inst a) :: rest) (ha : Opens done a)
    {t₀ t : Transcript} {f : Frame} {log : StoreLog}
    (hact : Activation ((Machine.ofSettings m config).invoke room) g.name args t₀ done f log t) :
    ((Machine.ofSettings m config).invoke (room + 1) id args t₀ =
      match f.stored a log with
      | some n => Machine.execute ((Machine.ofSettings m config).invoke room) g.name rest
          (f.advance (.int n)) (t.executing g.name f (.load (.inst a)))
      | none => .error ⟨g.name, .uninitialized done.length⟩
          (t.executing g.name f (.load (.inst a)))) ∧
    ((∀ i : Nat, args[i]? ≠ f.registers[a]?) →
      f.stored a log = (log.find? fun entry => entry.1 = .inst a).map Prod.snd) := by
  have htyped : m.Typed := Workbench.typed_of_session hm
  have hown : StoresOwn body := by
    have hown := (htyped.bodies id g hg).storesOwn htyped (htyped.even_ofFunc hg)
    simpa [Draft.ofFunc, Func.code, hbody] using hown
  rw [hcode] at hown
  obtain ⟨hslots, hargs⟩ := hact.slots hown
  -- a function with a body is not external
  have hext : g.isExternal = false := by
    rw [← Bool.not_eq_true]
    intro hext
    rw [(htyped.proper g (List.mem_of_getElem? hg)).external hext] at hbody
    cases hbody
  constructor
  · have hrun : (Machine.ofSettings m config).invoke (room + 1) id args t₀ =
        Machine.execute ((Machine.ofSettings m config).invoke room) g.name
          (.load (.inst a) :: rest) f t := by
      rw [Machine.invoke_succ hg hext, if_pos hlen, hbody]
      dsimp only
      rw [hcode]
      exact hact.execute_eq _
    obtain ⟨s, hs, hslot⟩ := hslots.holds a ha
    have heval : f.eval (.inst a) = .ok (.slot s) := by simp only [Frame.eval, hs]
    rw [hrun, execute_load]
    cases hstored : f.stored a log with
    | none =>
        rw [hstored] at hslot
        rw [Frame.read_eq heval hslot, ← hslots.length]
    | some n =>
        rw [hstored] at hslot
        rw [Frame.read_eq heval hslot]
  · intro hprivate
    rw [← hargs] at hprivate
    exact Frame.stored_of_private hprivate log

/-- A session that builds a function that opens a slot, stores 1 in it and 2 through its parameter,
and gives back what is then in the slot. It is called with the first slot of its caller. -/
def Step.intruder : List Step :=
  [.declareFunction "g" [⟨"p", .ptr⟩] .int, .newDraft 0, .emit (.alloca "x"),
    .emit (.store (.inst 0) (.const 1)), .emit (.store (.arg 0) (.const 2)),
    .emit (.load (.inst 0)), .emit (.ret (some (.inst 3))), .finish,
    .declareFunction "main" [] .int, .newDraft 1, .emit (.alloca "a"),
    .emit (.call 0 [.inst 0]), .emit (.ret (some (.inst 1))), .finish]

/-- The first function of that session. -/
def Func.intruder : Func :=
  (pending "g" [⟨"p", .ptr⟩] .int).define [⟨.alloca "x", .ptr⟩,
    ⟨.store (.inst 0) (.const 1), .void⟩, ⟨.store (.arg 0) (.const 2), .void⟩,
    ⟨.load (.inst 0), .int⟩, ⟨.ret (some (.inst 3)), .void⟩]

/-- The module of that session. -/
def Module.intruder : Module :=
  ⟨"test",
    [.intruder, (Func.pending "main" [] .int).define
      [⟨.alloca "a", .ptr⟩, ⟨.call 0 [.inst 0], .int⟩, ⟨.ret (some (.inst 1)), .void⟩]],
    [("main", 1), ("g", 0)], []⟩

/-- The function right before it loads, called with a slot of another frame. -/
theorem activation_intruder (call : Nat → List Value → Exec Value) (t₀ : Transcript) :
    ∃ t, Activation call "g" [.slot 0] t₀
      [.alloca "x", .store (.inst 0) (.const 1), .store (.arg 0) (.const 2)]
      ⟨[.slot 0], [.slot 0, .void, .void], [some 2]⟩ [(.arg 0, 2), (.inst 0, 1)] t := by
  have hopen : Activation call "g" [.slot 0] t₀ [.alloca "x"] ⟨[.slot 0], [.slot 0], [none]⟩ []
      (t₀.executing "g" ⟨[.slot 0], [], []⟩ (.alloca "x")) := .next .start (by nofun) rfl
  have hfirst := hopen.store (p := .inst 0) (v := .const 1) rfl rfl
  have hsecond := hfirst.store (p := .arg 0) (v := .const 2) rfl rfl
  exact ⟨_, hsecond⟩

theorem load_own_slot_intruder :
    ∃ t t', (Machine.ofSettings .intruder .default).invoke 255 0 [.slot 0] .empty =
      Machine.execute ((Machine.ofSettings .intruder .default).invoke 254) "g"
        [.ret (some (.inst 3))] ⟨[.slot 0], [.slot 0, .void, .void, .int 2], [some 2]⟩ t ∧
      (Machine.ofSettings .intruder .default).invoke 255 0 [.slot 0] .empty = .ok (.int 2) t' := by
  have hm : ((Workbench.onModule .default "test").after Step.intruder).modules = [.intruder] := by
    decide +kernel
  obtain ⟨t, hact⟩ := activation_intruder
    ((Machine.ofSettings .intruder .default).invoke 254) .empty
  have hg : Module.intruder.function? 0 = some .intruder := rfl
  have hload := load_own_slot hm .default hg rfl rfl (a := 0) rfl ⟨"x", rfl⟩ hact
  exact ⟨_, _, hload.1, hload.1⟩

/-- Slots are not private: the function reads 2 from a slot in which it has last stored 1 through
the register of the slot, because its parameter carries the index of a slot of its caller. -/
theorem load_not_private :
    ((Workbench.onModule .default "test").after Step.intruder).modules = [.intruder] ∧
      (∃ t, (Machine.ofSettings .intruder .default).call "main" [] .empty = .ok (some 2) t) ∧
      ∃ f log t, Activation ((Machine.ofSettings .intruder .default).invoke 254) "g" [.slot 0]
          .empty [.alloca "x", .store (.inst 0) (.const 1), .store (.arg 0) (.const 2)] f log t ∧
        (log.find? fun entry => entry.1 = .inst 0) = some (.inst 0, 1) ∧
        f.read (.inst 0) = .ok 2 := by
  refine ⟨by decide +kernel, ⟨_, rfl⟩, ?_⟩
  obtain ⟨t, hact⟩ := activation_intruder
    ((Machine.ofSettings .intruder .default).invoke 254) .empty
  exact ⟨_, _, t, hact, rfl, rfl⟩

end SlotLang
