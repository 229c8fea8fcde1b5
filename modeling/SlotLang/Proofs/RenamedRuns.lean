import Mathlib.Logic.Equiv.Basic
import SlotLang.Proofs.Closed
import SlotLang.Proofs.Execution
import SlotLang.Proofs.Walks

/-!
# SlotLang.Proofs.RenamedRuns

Renamed programs and what they do. The names in code are for readers: a machine notes them in its
events and does nothing else with them. So a module and the renamed module do the same in every call
(`call_rename`), be it the module of a program or any other, and renaming the variables of a program
makes no difference to what becomes of it (`lower_rename`).
-/

namespace SlotLang

/-! ### Runs that do the same -/

/-- Two steps of a run do the same: whatever was written before, they come to the same and print
the same. The events they note may be different. -/
def Exec.Same {α : Type} (x y : Exec α) : Prop :=
  ∀ t t', outcome (y t') = outcome (x t) ∧
    ∃ printed, (stateAfter (x t)).output = t.output ++ printed ∧
      (stateAfter (y t')).output = t'.output ++ printed

namespace Exec.Same

variable {α β : Type}

theorem pure (a : α) : Exec.Same (Pure.pure a : Exec α) (Pure.pure a) := by
  intro t t'
  exact ⟨rfl, [], (List.append_nil _).symm, (List.append_nil _).symm⟩

theorem throw (e : ExecError) : Exec.Same (MonadExcept.throw e : Exec α) (MonadExcept.throw e) := by
  intro t t'
  exact ⟨rfl, [], (List.append_nil _).symm, (List.append_nil _).symm⟩

theorem note (event event' : Event) : Exec.Same (Exec.note event) (Exec.note event') := by
  intro t t'
  exact ⟨rfl, [], (List.append_nil _).symm, (List.append_nil _).symm⟩

theorem write (text : String) : Exec.Same (Exec.write text) (Exec.write text) :=
  fun _ _ => ⟨rfl, [text], rfl, rfl⟩

theorem ofExcept (function : String) (x : Except Fault α) :
    Exec.Same (Exec.ofExcept function x) (Exec.ofExcept function x) := by
  cases x with
  | ok a => exact pure a
  | error fault => exact throw _

theorem bind {x y : Exec α} {f g : α → Exec β} (h : Exec.Same x y)
    (k : ∀ a, Exec.Same (f a) (g a)) : Exec.Same (x >>= f) (y >>= g) := by
  intro t t'
  obtain ⟨hsame, printed, hx, hy⟩ := h t t'
  rw [bind_apply, bind_apply]
  cases hxt : x t with
  | ok a t₁ =>
      cases hyt : y t' with
      | ok a' t₁' =>
          rw [hxt] at hsame hx
          rw [hyt] at hsame hy
          cases hsame
          obtain ⟨hsame₁, printed₁, hf, hg⟩ := k a t₁ t₁'
          have hx : t₁.output = t.output ++ printed := hx
          have hy : t₁'.output = t'.output ++ printed := hy
          refine ⟨hsame₁, printed ++ printed₁, ?_, ?_⟩
          · rw [hf, hx, List.append_assoc]
          · rw [hg, hy, List.append_assoc]
      | error e t₁' =>
          rw [hxt, hyt] at hsame
          cases hsame
  | error e t₁ =>
      cases hyt : y t' with
      | ok a' t₁' =>
          rw [hxt, hyt] at hsame
          cases hsame
      | error e' t₁' =>
          rw [hxt] at hsame hx
          rw [hyt] at hsame hy
          cases hsame
          exact ⟨rfl, printed, hx, hy⟩

end Exec.Same

/-! ### The machine -/

section

variable {r : String → String}

/-- A name in the code is noted and not looked at again. -/
theorem execute_rename {call call' : Nat → List Value → Exec Value}
    (hcall : ∀ id args, Exec.Same (call id args) (call' id args)) (function : String)
    (code : List Instr) (frame : Frame) :
    Exec.Same (Machine.execute call function code frame)
      (Machine.execute call' function (code.map (Instr.rename r)) frame) := by
  induction code generalizing frame with
  | nil => exact .throw _
  | cons instr rest ih =>
      rw [List.map_cons]
      cases instr with
      | alloca name => exact (Exec.Same.note _ _).bind fun _ => ih _
      | load ptr =>
          exact (Exec.Same.note _ _).bind fun _ => (Exec.Same.ofExcept _ _).bind fun _ => ih _
      | store ptr value =>
          exact (Exec.Same.note _ _).bind fun _ => (Exec.Same.ofExcept _ _).bind fun _ => ih _
      | binary op lhs rhs =>
          exact (Exec.Same.note _ _).bind fun _ => (Exec.Same.ofExcept _ _).bind fun _ => ih _
      | call callee args =>
          exact (Exec.Same.note _ _).bind fun _ => (Exec.Same.ofExcept _ _).bind fun values =>
            (hcall callee values).bind fun _ => ih _
      | ret value =>
          cases value with
          | some value => exact (Exec.Same.note _ _).bind fun _ => .ofExcept _ _
          | none => exact (Exec.Same.note _ _).bind fun _ => .pure _

theorem Module.function?_rename (m : Module) (id : Nat) :
    (m.rename r).function? id = (m.function? id).map (Func.rename r) :=
  List.getElem?_map

theorem Module.find?_rename (m : Module) (name : String) :
    (m.rename r).find? name = m.find? name := rfl

/-- Of its own functions a module keeps the number of parameters and, up to names, the code. -/
theorem Func.rename_of_not_external {f : Func} (hext : f.isExternal = false) :
    (f.rename r).params.length = f.params.length ∧
      (f.rename r).body? = f.body?.map (List.map (Instr.rename r)) := by
  unfold rename
  rw [hext]
  exact ⟨List.length_map _, rfl⟩

theorem Machine.callExternal_same {m m' : Module} (htexts : m'.texts = m.texts) (routine : String)
    (f : Func) (args : List Value) :
    Exec.Same ((Machine.mk m routine).callExternal f args)
      ((Machine.mk m' routine).callExternal f args) := by
  unfold callExternal
  rw [Print.run_congr htexts]
  split
  · exact (Exec.Same.ofExcept _ _).bind fun text => (Exec.Same.write text).bind fun _ => .pure _
  · exact .throw _

/-- Calls within a run do the same, since the frames that they open run code that does the same. -/
theorem Machine.invoke_rename (m : Module) (routine : String) : ∀ (room id : Nat)
    (args : List Value), Exec.Same ((Machine.mk m routine).invoke room id args)
      ((Machine.mk (m.rename r) routine).invoke room id args)
  | room, id, args => by
      intro t t'
      have hf' := m.function?_rename (r := r) id
      cases hf : m.function? id with
      | none =>
          rw [hf] at hf'
          rw [invoke_unknown hf', invoke_unknown hf]
          exact Exec.Same.throw _ t t'
      | some f =>
          rw [hf] at hf'
          cases hext : f.isExternal with
          | true =>
              -- the parameters of external functions keep their names
              have hsame : f.rename r = f := if_pos hext
              rw [Option.map_some, hsame] at hf'
              rw [invoke_external hf' hext, invoke_external hf hext]
              exact callExternal_same rfl routine f args t t'
          | false =>
              have hext' : (f.rename r).isExternal = false := by rw [Func.isExternal_rename, hext]
              obtain ⟨hparams, hbody⟩ := f.rename_of_not_external (r := r) hext
              cases room with
              | zero =>
                  rw [invoke_zero hf' hext', invoke_zero hf hext, Func.name_rename]
                  exact Exec.Same.throw _ t t'
              | succ room =>
                  rw [invoke_succ hf' hext', invoke_succ hf hext, hparams, hbody, Func.name_rename]
                  split
                  · cases f.body? with
                    | none => exact Exec.Same.throw _ t t'
                    | some body =>
                        exact execute_rename (invoke_rename m routine room) f.name _ _ t t'
                  · exact Exec.Same.throw _ t t'

/-- A call from outside does the same on a module and on the renamed module. -/
theorem Machine.call_rename (m : Module) (routine name : String) (args : List Int64) :
    Exec.Same ((Machine.mk m routine).call name args)
      ((Machine.mk (m.rename r) routine).call name args) := by
  unfold call
  rw [Module.find?_rename]
  cases m.find? name with
  | none => exact .throw _
  | some id =>
      refine (invoke_rename m routine maxFrames id _).bind ?_
      intro v
      cases v with
      | int v => exact .pure _
      | void => exact .pure _
      | _ => exact .throw _

/-! ### Programs -/

/-- What the checker knows, in terms of the new names. -/
def Outline.rename (r : String → String) (o : Outline) : Outline :=
  { o with names := renameKeys r o.names }

theorem Outline.rename_likeness (hr : Function.Injective r) :
    Likeness r False fun o o' => o' = o.rename r where
  result := fun h => by subst h; rfl
  arity := fun h => by subst h; rfl
  returned := fun h => by subst h; rfl
  role := fun h name => by subst h; exact lookup_renameKeys hr _ name
  functions := fun h => by subst h; exact List.Subset.refl _
  strict := fun h => .inr (by subst h; exact List.Subset.refl _)
  bound := fun h name role => by subst h; rfl
  left := fun h => by subst h; rfl
  declared := fun h name => by subst h; rfl
  entered := fun h result arity => by subst h; rfl
  exited := fun h hi => by subst h hi; rfl

/-- A program and the renamed program are both correct, or break the same rule with the same kind of
node. -/
theorem Program.check_rename (hr : Function.Injective r) (settings : Settings) (program : Program) :
    (program.check settings = .ok () ∧ check settings (Node.renameAll r program) = .ok ()) ∨
      ∃ v v', program.check settings = .error v ∧
        check settings (Node.renameAll r program) = .error v' ∧ v'.kind = v.kind ∧
        v'.node = v.node := by
  have h : SameEnd False (fun o o' => o' = o.rename r)
      ((program.main settings).check (outline settings))
      ((main settings (Node.renameAll r program)).check (outline settings)) :=
    (program.main settings).check_follows (Outline.rename_likeness hr) _ _ rfl
  unfold check
  generalize (program.main settings).check (outline settings) = x at h ⊢
  generalize (main settings (Node.renameAll r program)).check (outline settings) = y at h ⊢
  cases x with
  | ok ty o =>
      cases y with
      | ok ty' o' => exact .inl ⟨rfl, rfl⟩
      | error v' o' => exact h.elim
  | error v o =>
      cases y with
      | ok ty' o' => exact h.elim
      | error v' o' => exact .inr ⟨v, v', rfl, rfl, h.resolve_left id⟩

/-- Lowering respects a consistent renaming of variables and parameters. Either both the program and
the renamed program are accepted. Then the module of the latter is the renamed module, and each call
of a function does the same on both. Or both are refused, by the same rule and for the same kind of
node. -/
theorem lower_rename (hr : Function.Injective r) (settings : Settings) (program : Program) :
    (∃ m, (program.lower settings).1 = .ok m ∧
        (Program.lower settings (Node.renameAll r program)).1 = .ok (m.rename r) ∧
        ∀ (routine name : String) (args : List Int64),
          Exec.Same ((Machine.mk m routine).call name args)
            ((Machine.mk (m.rename r) routine).call name args)) ∨
      ∃ e e', (program.lower settings).1 = .error e ∧
        (Program.lower settings (Node.renameAll r program)).1 = .error e' ∧
        e'.cause.kind = e.cause.kind ∧ e'.node = e.node := by
  rcases Program.verdict settings program with ⟨m, hm, hk, ht⟩ | ⟨e, he, hk⟩
  · have hname : m.name = settings.entryFunction := Program.lower_name hm
    refine .inl ⟨m, hm, ?_, Machine.call_rename m⟩
    refine Program.lower_eq_of_translated ?_ (ht.rename hr) hname
    rcases Program.check_rename hr settings program with ⟨-, hk'⟩ | ⟨v, v', hv, -⟩
    · exact hk'
    · cases hk.symm.trans hv
  · rcases Program.check_rename hr settings program with ⟨hok, -⟩ | ⟨v, v', hv, hv', hsame⟩
    · cases hk.symm.trans hok
    · cases hk.symm.trans hv
      rcases Program.verdict settings (Node.renameAll r program) with
        ⟨m', -, hok, -⟩ | ⟨e', he', hk'⟩
      · cases hv'.symm.trans hok
      · cases hv'.symm.trans hk'
        exact .inr ⟨e, e', he, he', hsame⟩

end

/-- `fn f(x) { int y = x; y++; return x + y }`, in terms of two names. -/
def Program.summing (x y : String) : Program :=
  [.function .unknown "f" .int [⟨x, .int⟩]
    [.assign .unknown (.declare .unknown y) (.use .unknown x .value),
      .step .unknown y .post .increment,
      .ret .unknown (some (.binary .unknown .add (.use .unknown x .value)
        (.use .unknown y .value)))]]

/-- A parameter and a variable change names: each call still yields what it did. -/
theorem lower_rename_swap :
    Function.Injective (Equiv.swap "x" "y") ∧
      ∃ m, (Program.lower .default (.summing "x" "y")).1 = .ok m ∧
        (Program.lower .default (.summing "y" "x")).1 = .ok (m.rename (Equiv.swap "x" "y")) ∧
        ∀ (routine name : String) (args : List Int64),
          Exec.Same ((Machine.mk m routine).call name args)
            ((Machine.mk (m.rename (Equiv.swap "x" "y")) routine).call name args) := by
  have hr : Function.Injective (Equiv.swap "x" "y") := (Equiv.swap "x" "y").injective
  have hrenamed : Node.renameAll (Equiv.swap "x" "y") (Program.summing "x" "y") =
      Program.summing "y" "x" := by decide
  have hok : (Program.lower .default (.summing "x" "y")).1.toBool = true := by decide +kernel
  refine ⟨hr, ?_⟩
  rcases lower_rename hr .default (.summing "x" "y") with hboth | ⟨e, e', he, -⟩
  · rw [hrenamed] at hboth
    exact hboth
  · rw [he] at hok
    cases hok

end SlotLang
