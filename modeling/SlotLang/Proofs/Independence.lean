import SlotLang.Proofs.RenamedRuns

/-!
# SlotLang.Proofs.Independence

Calls from outside are independent of each other. All that a machine carries from one call to the
next is its transcript. A run appends to it and never looks at it, however deep its calls go and
wherever it fails: this is what it means that a run does the same as itself (`Exec.Same x x`), from
any two transcripts. So a sequence of calls is the calls made alone, one behind the other.
-/

namespace SlotLang

/-! ### A call and itself -/

theorem Instr.rename_id : Instr.rename id = id := by
  funext instr
  cases instr <;> rfl

theorem Func.rename_id : Func.rename id = id := by
  funext f
  have hbody : f.body?.map (List.map (Instr.rename id)) = f.body? := by
    rw [Instr.rename_id, List.map_id_fun, Option.map_id]
    rfl
  have hparams : f.params.map (Param.rename id) = f.params := List.map_id f.params
  rw [rename, hbody, hparams, ite_self]
  rfl

theorem Module.rename_id (m : Module) : m.rename id = m := by
  rw [rename, Func.rename_id, List.map_id]

namespace Machine

variable (machine : Machine)

/-- A call does the same whatever was written before it. -/
theorem call_same (name : String) (args : List Int64) :
    Exec.Same (machine.call name args) (machine.call name args) := by
  have h := call_rename (r := id) machine.module machine.printRoutine name args
  rw [Module.rename_id] at h
  exact h

/-! ### Sequences of calls -/

/-- What a call comes to on a machine that has done nothing before. -/
def alone (c : Call) : Run :=
  let run := machine.call c.function c.args .empty
  ⟨outcome run, (stateAfter run).output⟩

/-- Behind any transcript a call comes to what it comes to alone, and appends the texts that it
prints alone. -/
theorem call_alone (c : Call) (t : Transcript) :
    outcome (machine.call c.function c.args t) = (machine.alone c).result ∧
      (stateAfter (machine.call c.function c.args t)).output =
        t.output ++ (machine.alone c).output := by
  obtain ⟨hresult, printed, halone, hafter⟩ := machine.call_same c.function c.args .empty t
  refine ⟨hresult, ?_⟩
  have hprinted : (machine.alone c).output = printed := halone
  rw [hafter, hprinted]

theorem callAll_cons (c : Call) (rest : List Call) (t : Transcript) :
    machine.callAll (c :: rest) t =
      let run := machine.call c.function c.args t
      let later := machine.callAll rest (stateAfter run)
      (⟨outcome run, (stateAfter run).output.drop t.output.length⟩ :: later.1, later.2) := by
  rw [callAll]
  cases machine.call c.function c.args t <;> rfl

end Machine

/-- Calls do not depend on each other. Whatever the module and the settings are, and whatever was
printed before, each of a sequence of calls gives the result or the error that it gives on a fresh
machine, and the texts of the sequence are those that fresh machines print, in order. This includes
the texts that a call prints before it fails. -/
theorem callAll_eq_alone (m : Module) (settings : Settings) (calls : List Machine.Call)
    (t : Transcript) :
    let machine := Machine.ofSettings m settings
    (machine.callAll calls t).1 = calls.map machine.alone ∧
      (machine.callAll calls t).2.output =
        t.output ++ calls.flatMap fun c => (machine.alone c).output := by
  intro machine
  induction calls generalizing t with
  | nil => exact ⟨rfl, (List.append_nil _).symm⟩
  | cons c rest ih =>
      obtain ⟨hresult, houtput⟩ := machine.call_alone c t
      obtain ⟨hruns, hfinal⟩ := ih (stateAfter (machine.call c.function c.args t))
      rw [machine.callAll_cons]
      dsimp only
      constructor
      · rw [hruns, hresult, houtput, List.drop_left, List.map_cons]
      · rw [hfinal, houtput, List.flatMap_cons, List.append_assoc]

end SlotLang
