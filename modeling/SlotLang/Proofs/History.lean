import SlotLang.Proofs.Typing
import SlotLang.Workbench

/-!
# SlotLang.Proofs.History

What the steps of a session can make of a bench. `perform_moves` says it once, for all steps: a step
leaves modules and drafts alone, drops a draft, adds an empty module, or makes one request of the
module and the draft at hand. Where a bench has had only one module so far, its module is typed and
all its drafts fit, however many steps were made and whichever of them failed
(`Workbench.Sound.after`).
-/

namespace SlotLang

/-! ### One step -/

/-- How a step changes the module at hand and the drafts. -/
inductive Works (m : Module) (drafts : List (Option Draft)) :
    Module → List (Option Draft) → Prop
  | insert {f : Func} {id : Nat} {m' : Module} : f.Bare → m.insert f = .ok id m' →
      Works m drafts m' drafts
  | intern (text : String) : Works m drafts (m.intern text).2 drafts
  | start {id : Nat} {d : Draft} : Draft.start m id = .ok d →
      Works m drafts m (drafts ++ [some d])
  /-- Code is added by hand or by lowering. -/
  | edit {i : Nat} {m' : Module} {d d' : Draft} : drafts[i]? = some (some d) →
      Edits m d m' d' → Works m drafts m' (drafts.set i (some d'))
  | finish {i : Nat} {m' : Module} {d : Draft} : drafts[i]? = some (some d) →
      d.finish m = .ok () m' → Works m drafts m' (drafts.set i none)

/-- How a step changes the modules and the drafts of a bench. -/
inductive Workbench.Moves (w w' : Workbench) : Prop
  | stay : w'.modules = w.modules → w'.drafts = w.drafts → Moves w w'
  /-- A draft that is handed over is gone, even if no module takes it. -/
  | drop : w'.modules = w.modules → w'.drafts = w.drafts.set w.atDraft none → Moves w w'
  | newModule (name : String) : w'.modules = w.modules ++ [.empty name] →
      w'.drafts = w.drafts → Moves w w'
  | work {m m' : Module} : w.modules[w.atModule]? = some m → Works m w.drafts m' w'.drafts →
      w'.modules = w.modules.set w.atModule m' → Moves w w'

namespace Workbench

variable {w : Workbench} {α β : Type}

/-- A request is made of the module at hand, which is replaced by what comes back. -/
theorem request_apply (work : Module → EStateM.Result BuildError Module α) (w : Workbench) :
    request work w =
      match w.modules[w.atModule]? with
      | none => .error .noModule w
      | some m =>
        match work m with
        | .ok a m' => .ok a { w with modules := w.modules.set w.atModule m' }
        | .error e m' => .error (.build e) { w with modules := w.modules.set w.atModule m' } := by
  simp only [request, module, bind_apply, get_apply]
  cases w.modules[w.atModule]? with
  | none => rfl
  | some m =>
      simp only [pure_apply]
      cases work m <;> rfl

/-- To put the module at hand back in its place changes nothing. -/
theorem modules_set_self {m : Module} (h : w.modules[w.atModule]? = some m) :
    w.modules.set w.atModule m = w.modules := by
  obtain ⟨hlt, rfl⟩ := List.getElem?_eq_some_iff.mp h
  exact List.set_getElem_self hlt

namespace Moves

theorem of_module {k : Module → Bench α}
    (h : ∀ m, w.modules[w.atModule]? = some m → w.Moves (stateAfter (k m w))) :
    w.Moves (stateAfter ((module >>= k) w)) := by
  simp only [module, bind_apply, get_apply]
  cases hm : w.modules[w.atModule]? with
  | none => exact .stay rfl rfl
  | some m => exact h m hm

theorem of_draft {k : Draft → Bench α}
    (h : ∀ d, w.drafts[w.atDraft]? = some (some d) → w.Moves (stateAfter (k d w))) :
    w.Moves (stateAfter ((draft >>= k) w)) := by
  simp only [draft, draft?, bind_apply, get_apply]
  rcases hd : w.drafts[w.atDraft]? with _ | _ | d
  · exact .stay rfl rfl
  · exact .stay rfl rfl
  · exact h d hd

theorem of_built {result : Except BuildError α} {k : α → Bench β}
    (h : ∀ a, result = .ok a → w.Moves (stateAfter (k a w))) :
    w.Moves (stateAfter ((built result >>= k) w)) := by
  cases result with
  | error e => exact .stay rfl rfl
  | ok a => exact h a rfl

theorem of_inScopes {result : Except ScopeError α} {k : α → Bench β}
    (h : ∀ a, result = .ok a → w.Moves (stateAfter (k a w))) :
    w.Moves (stateAfter ((inScopes result >>= k) w)) := by
  cases result with
  | error e => exact .stay rfl rfl
  | ok a => exact h a rfl

theorem of_context {k : Context → Bench α}
    (h : ∀ m d, w.modules[w.atModule]? = some m → w.drafts[w.atDraft]? = some (some d) →
      w.Moves (stateAfter (k ⟨m, w.scopes, d, w.events⟩ w))) :
    w.Moves (stateAfter ((context >>= k) w)) := by
  have hk : (context >>= k) w =
      (module >>= fun m => draft >>= fun d => k ⟨m, w.scopes, d, w.events⟩) w := by
    simp only [context, bind_apply, get_apply]
    cases module w with
    | error e w' => rfl
    | ok m w' =>
        dsimp only
        cases draft w' <;> rfl
  rw [hk]
  exact of_module fun m hm => of_draft fun d hd => h m d hm hd

/-- A function without a body is added to the module at hand. If the module refuses it, the module
that comes back is the old one. -/
theorem of_declared {f : Func} (hf : f.Bare) :
    w.Moves (stateAfter (declared (fun m => m.insert f) w)) := by
  simp only [declared, map_apply, request_apply]
  cases hm : w.modules[w.atModule]? with
  | none => exact .stay rfl rfl
  | some m =>
      simp only
      cases hi : m.insert f with
      | ok id m' => exact .work hm (.insert hf hi) rfl
      | error e m' =>
          cases Module.eq_of_insert_error hi
          exact .stay (modules_set_self hm) rfl

/-- Module and draft come back as lowering has left them. -/
theorem of_restore {m : Module} {d : Draft} {c : Context} (hm : w.modules[w.atModule]? = some m)
    (hd : w.drafts[w.atDraft]? = some (some d)) (he : Edits m d c.module c.draft) {k : Bench α}
    (hk : ∀ w', stateAfter (k w') = w') : w.Moves (stateAfter ((restore c >>= fun _ => k) w)) := by
  have hrun : stateAfter ((restore c >>= fun _ => k) w) = stateAfter (restore c w) := hk _
  rw [hrun]
  exact .work hm (.edit hd he) rfl

theorem of_lowering {work : Lower α} (hwork : Lower.OnlyAppends work) {k : α → Bench β}
    (hk : ∀ a w', stateAfter (k a w') = w') :
    w.Moves (stateAfter ((lowering work >>= k) w)) := by
  have hstate : stateAfter ((lowering work >>= k) w) = stateAfter (lowering work w) := by
    rw [bind_apply]
    cases lowering work w with
    | error e w' => rfl
    | ok a w' => exact hk a w'
  rw [hstate]
  refine of_context fun m d hm hd => ?_
  have h := (hwork ⟨m, w.scopes, d, w.events⟩).edits
  cases hr : work ⟨m, w.scopes, d, w.events⟩ <;> rw [hr] at h <;>
    exact of_restore hm hd h fun _ => rfl

end Moves

/-- To look at the value of a node adds no more than lowering it. -/
theorem value?_onlyAppends (node : Node) : Lower.OnlyAppends node.value? := by
  have hmap : ∀ {x : Lower Handle}, Lower.OnlyAppends x → Lower.OnlyAppends (some <$> x) := by
    intro x hx
    exact hx.bind fun h => .pure (some h)
  cases node with
  | declare origin name => exact (Lower.OnlyAppends.storageOf _ name).bind fun _ => hmap (.emit _ _)
  | use origin name mode => exact hmap (.useOf _ name mode)
  | argument origin index => exact hmap (.argumentOf _ index)
  | _ => exact .pure none

/-- What any step does to the modules and the drafts. -/
theorem perform_moves (s : Step) (w : Workbench) : w.Moves (stateAfter (perform s w)) := by
  cases s with
  | newModule name => exact .newModule name rfl rfl
  | declarePrint => exact .of_declared (Func.bare_external ..)
  | declareFunction name params result => exact .of_declared (Func.bare_pending ..)
  | declareExternal name params variadic result => exact .of_declared (Func.bare_external ..)
  | newDraft func =>
      refine .of_module fun m hm => .of_built fun d hd => ?_
      exact .work hm (.start hd) (modules_set_self hm).symm
  | intern text => exact .of_module fun m hm => .work hm (.intern text) rfl
  | emit instr =>
      refine .of_context fun m d hm hd => ?_
      simp only [Context.emit]
      cases he : d.emit m instr with
      | error e d' =>
          -- the draft that comes back is the old one
          cases Draft.eq_of_emit_error he
          exact .of_restore hm hd (.refl m d) fun _ => rfl
      | ok h d' =>
          refine .of_restore hm hd (.emit he) fun _ => ?_
          split <;> rfl
  | finish =>
      refine .of_draft fun d hd => ?_
      -- the draft is gone before the module is looked for
      simp only [setDraft, bind_apply, modify_apply, request_apply]
      cases hm : w.modules[w.atModule]? with
      | none => exact .drop rfl rfl
      | some m =>
          simp only
          cases hf : d.finish m with
          | error e m' =>
              cases Module.eq_of_define_error hf
              exact .drop (modules_set_self hm) rfl
          | ok _ m' => exact .work hm (.finish hd hf) rfl
  | lower node => exact .of_lowering (lower_onlyAppends node) fun _ _ => rfl
  | valueOf node => exact .of_lowering (value?_onlyAppends node) fun _ _ => rfl
  | declare name binding => exact .of_inScopes fun _ _ => .stay rfl rfl
  | resolve name => exact .of_inScopes fun _ _ => .stay rfl rfl
  | declareWith name make =>
      simp only [perform, bind_apply, get_apply]
      let attempt : StateM Bool (Except String Binding) := do set true; return make
      cases (w.scopes.declareWith name attempt).run false with
      | mk outcome made => cases outcome <;> exact .stay rfl rfl
  | run settings calls => exact .of_module fun _ _ => .stay rfl rfl
  | findFunction _ | functionAt _ | functionNamed _ | functionNames | textAt _ | printModule =>
      exact .of_module fun _ _ => .stay rfl rfl
  | typeOf handle =>
      exact .of_draft fun _ _ => .of_module fun _ _ => .of_built fun _ _ => .stay rfl rfl
  | argument _ | draftCode => exact .of_draft fun _ _ => .stay rfl rfl
  | useModule _ | useDraft _ | enterFunction | enterScope | exitScope | exitFunction
  | isBound _ => exact .stay rfl rfl

theorem step_moves (w : Workbench) (s : Step) : w.Moves (w.step s).2 := by
  have h := perform_moves s w
  unfold step
  cases hr : perform s w <;> rw [hr] at h <;> exact h

/-! ### Sessions -/

/-- A bench like a fresh one, but with a module of any name. -/
def onModule (settings : Settings) (name : String) : Workbench :=
  { start settings with modules := [.empty name] }

/-- The bench behind some steps, whether or not they succeed. -/
def after (w : Workbench) : List Step → Workbench
  | [] => w
  | s :: steps => (w.step s).2.after steps

theorem Moves.length_le {w w' : Workbench} (h : w.Moves w') :
    w.modules.length ≤ w'.modules.length := by
  cases h with
  | stay hm | drop hm => exact Nat.le_of_eq (congrArg List.length hm.symm)
  | newModule name hm => simp [hm]
  | work _ _ hm => simp [hm]

/-- No step takes a module away. -/
theorem length_le_after : ∀ (steps : List Step) (w : Workbench),
    w.modules.length ≤ (w.after steps).modules.length
  | [], _ => Nat.le_refl _
  | s :: steps, w => Nat.le_trans (w.step_moves s).length_le (length_le_after steps _)

/-- A bench with one module only, which is typed, and to which all drafts fit. -/
def Sound (w : Workbench) : Prop :=
  ∃ m : Module, w.modules = [m] ∧ m.Typed ∧ ∀ d, some d ∈ w.drafts → d.Fits m

theorem sound_onModule (settings : Settings) (name : String) : (onModule settings name).Sound :=
  ⟨.empty name, rfl, .empty name, fun _ h => (nomatch h)⟩

/-- What a request makes of a typed module and of drafts that fit it. -/
theorem works_sound {m m' : Module} {drafts drafts' : List (Option Draft)}
    (h : Works m drafts m' drafts') (hm : m.Typed) (hd : ∀ d, some d ∈ drafts → d.Fits m) :
    m'.Typed ∧ ∀ d, some d ∈ drafts' → d.Fits m' := by
  cases h with
  | insert hf hi => exact ⟨hm.insert hf hi, fun d hmem => (hd d hmem).mono (.of_insert hi)⟩
  | intern text => exact ⟨hm.intern text, fun d hmem => (hd d hmem).mono (.of_intern m text)⟩
  | start hs =>
      refine ⟨hm, fun d hmem => ?_⟩
      rcases List.mem_append.mp hmem with hold | hnew
      · exact hd d hold
      · cases List.mem_singleton.mp hnew
        exact Draft.fits_of_start hs
  | edit hget he =>
      obtain ⟨hm', hfits⟩ := he.typed hm (hd _ (List.mem_of_getElem? hget))
      refine ⟨hm', fun d hmem => ?_⟩
      rcases List.mem_or_eq_of_mem_set hmem with hold | hnew
      · exact (hd d hold).mono (.of_edits he)
      · cases hnew
        exact hfits
  | finish hget hf =>
      refine ⟨hm.finish (hd _ (List.mem_of_getElem? hget)) hf, fun d hmem => ?_⟩
      rcases List.mem_or_eq_of_mem_set hmem with hold | hnew
      · exact (hd d hold).mono (.of_define hf)
      · cases hnew

/-- A step that adds no module keeps a bench sound. -/
theorem Sound.move {w w' : Workbench} (h : w.Sound) (hmove : w.Moves w')
    (hone : w'.modules.length ≤ 1) : w'.Sound := by
  obtain ⟨m, hw, hm, hd⟩ := h
  cases hmove with
  | stay hmods hdrafts => exact ⟨m, hmods.trans hw, hm, by rw [hdrafts]; exact hd⟩
  | drop hmods hdrafts =>
      refine ⟨m, hmods.trans hw, hm, fun d hmem => ?_⟩
      rw [hdrafts] at hmem
      rcases List.mem_or_eq_of_mem_set hmem with hold | hnew
      · exact hd d hold
      · cases hnew
  | newModule name hmods => simp [hmods, hw] at hone
  | work hget hwork hmods =>
      rw [hw] at hget hmods
      obtain ⟨hat, rfl⟩ : w.atModule = 0 ∧ m = _ := by
        obtain ⟨hlt, hget⟩ := List.getElem?_eq_some_iff.mp hget
        have hzero : w.atModule = 0 := by simpa using hlt
        simp only [hzero] at hget
        exact ⟨hzero, hget⟩
      rw [hat] at hmods
      obtain ⟨hm', hd'⟩ := works_sound hwork hm hd
      exact ⟨_, hmods, hm', hd'⟩

/-- A whole session that adds no module keeps a bench sound. -/
theorem Sound.after : ∀ {steps : List Step} {w : Workbench}, w.Sound →
    (w.after steps).modules.length ≤ 1 → (w.after steps).Sound
  | [], _, h, _ => h
  | s :: steps, w, h, hone => by
      have hstep : (w.step s).2.modules.length ≤ 1 := Nat.le_trans (length_le_after steps _) hone
      exact (h.move (w.step_moves s) hstep).after hone

/-- The module of a session with one module is typed. -/
theorem typed_of_session {settings : Settings} {name : String} {steps : List Step} {m : Module}
    (h : ((onModule settings name).after steps).modules = [m]) : m.Typed := by
  have hone : ((onModule settings name).after steps).modules.length ≤ 1 := by simp [h]
  obtain ⟨m', hm', htyped, -⟩ := (sound_onModule settings name).after hone
  rw [h] at hm'
  cases hm'
  exact htyped

end Workbench

end SlotLang
