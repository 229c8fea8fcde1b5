import SlotLang.Proofs.History

/-!
# SlotLang.Proofs.Tables

The tables of modules over whole sessions. Every step keeps the modules on a bench tidy, and what
has been written into their tables stays (`Module.Keeps`). A session may have any number of modules
on the bench, and drafts wander between them: a draft that was started from one module can be judged
against a second and be handed over to a third. The index it carries may then mean an external
function, a function that has its body, or nothing. None of this disturbs the tables of any module.

A body is taken as it comes, so that it has as many types as instructions is a matter of all drafts
on the bench: the invariant is `Workbench.Tidy`.
-/

namespace SlotLang

/-- The steps that request something of the module at hand, for good. -/
def Step.isRequest : Step → Bool
  | .declarePrint | .declareFunction .. | .declareExternal .. | .intern _ | .finish => true
  | _ => false

/-! ### What is kept -/

/-- What a module keeps for ever. Functions keep their index, their name and their types, and a body
once they have one; texts keep their index. -/
structure Module.Keeps (m m' : Module) : Prop where
  found : ∀ name id, m.find? name = some id → m'.find? name = some id
  functions : ∀ id f, m.function? id = some f → ∃ f', m'.function? id = some f' ∧ f.Becomes f'
  texts : ∀ id text, m.text? id = some text → m'.text? id = some text
  /-- To intern a text again yields its index and changes nothing. -/
  interned : ∀ id text, m.text? id = some text → m'.intern text = (id, m')

/-- A tidy module that grows into a tidy module keeps its tables. -/
theorem Module.Extends.keeps {m m' : Module} (h : m.Extends m') (hold : m.Indexed) (hm : m'.Tidy) :
    m.Keeps m' := by
  have htexts : ∀ id text, m.text? id = some text → m'.text? id = some text :=
    fun _ _ ht => getElem?_of_isPrefix h.texts ht
  refine ⟨?_, h.functions, htexts, fun id text ht => hm.intern_of_text? (htexts id text ht)⟩
  intro name id hid
  obtain ⟨f, hf, rfl⟩ := (hold.find?_eq_some_iff name id).mp hid
  obtain ⟨f', hf', hb⟩ := h.functions id f hf
  exact (hm.indexed.find?_eq_some_iff _ id).mpr ⟨f', hf', hb.name_eq⟩

/-! ### Sessions with any number of modules -/

namespace Works

variable {m m' : Module} {drafts drafts' : List (Option Draft)}

/-- A request keeps the module tidy and the drafts even. -/
theorem tidy (h : Works m drafts m' drafts') (hm : m.Tidy)
    (hd : ∀ d, some d ∈ drafts → d.Even) : m'.Tidy ∧ ∀ d, some d ∈ drafts' → d.Even := by
  cases h with
  | insert hf hi => exact ⟨hm.insert hf hi, hd⟩
  | intern text => exact ⟨hm.intern text, hd⟩
  | start hs =>
      refine ⟨hm, fun d hmem => ?_⟩
      rcases List.mem_append.mp hmem with hold | hnew
      · exact hd d hold
      · cases List.mem_singleton.mp hnew
        exact Draft.even_of_start hs
  | edit hget he =>
      refine ⟨he.tidy hm, fun d hmem => ?_⟩
      rcases List.mem_or_eq_of_mem_set hmem with hold | hnew
      · exact hd d hold
      · cases hnew
        exact he.even (hd _ (List.mem_of_getElem? hget))
  | finish hget hf =>
      refine ⟨hm.finish (hd _ (List.mem_of_getElem? hget)) hf, fun d hmem => ?_⟩
      rcases List.mem_or_eq_of_mem_set hmem with hold | hnew
      · exact hd d hold
      · cases hnew

theorem extends_module (h : Works m drafts m' drafts') : m.Extends m' := by
  cases h with
  | insert _ hi => exact .of_insert hi
  | intern text => exact .of_intern m text
  | start => exact .refl m
  | edit _ he => exact .of_edits he
  | finish _ hf => exact .of_define hf

end Works

namespace Workbench

variable {w w' : Workbench}

/-- All modules on the bench are tidy, and no draft has more or fewer types than instructions. -/
structure Tidy (w : Workbench) : Prop where
  modules : ∀ m ∈ w.modules, m.Tidy
  drafts : ∀ d, some d ∈ w.drafts → d.Even

theorem tidy_onModule (settings : Settings) (name : String) : (onModule settings name).Tidy := by
  refine ⟨fun m hm => ?_, fun _ h => (nomatch h)⟩
  rw [List.mem_singleton.mp hm]
  exact .empty name

/-- No step makes a bench untidy, whichever module and whichever draft it concerns. -/
theorem Tidy.move (hw : w.Tidy) (h : w.Moves w') : w'.Tidy := by
  cases h with
  | stay hmods hdrafts => exact ⟨by rw [hmods]; exact hw.modules, by rw [hdrafts]; exact hw.drafts⟩
  | drop hmods hdrafts =>
      refine ⟨by rw [hmods]; exact hw.modules, fun d hd => ?_⟩
      rw [hdrafts] at hd
      rcases List.mem_or_eq_of_mem_set hd with hold | hnew
      · exact hw.drafts d hold
      · cases hnew
  | newModule name hmods hdrafts =>
      refine ⟨fun m hm => ?_, by rw [hdrafts]; exact hw.drafts⟩
      rw [hmods] at hm
      rcases List.mem_append.mp hm with hm | hm
      · exact hw.modules m hm
      · rw [List.mem_singleton.mp hm]
        exact .empty name
  | work hget hwork hmods =>
      obtain ⟨htidy, heven⟩ := hwork.tidy (hw.modules _ (List.mem_of_getElem? hget)) hw.drafts
      refine ⟨fun m hm => ?_, heven⟩
      rw [hmods] at hm
      rcases List.mem_or_eq_of_mem_set hm with hm | rfl
      · exact hw.modules m hm
      · exact htidy

/-- A step extends the module at hand and leaves the others as they are. -/
theorem Moves.extends_module (h : w.Moves w') {i : Nat} {m : Module} (hi : w.modules[i]? = some m) :
    ∃ m', w'.modules[i]? = some m' ∧ m.Extends m' := by
  cases h with
  | stay hmods | drop hmods => exact ⟨m, hmods ▸ hi, .refl m⟩
  | newModule name hmods =>
      rw [hmods]
      exact ⟨m, getElem?_of_isPrefix (List.prefix_append _ _) hi, .refl m⟩
  | @work m₀ m₁ hget hwork hmods =>
      rw [hmods]
      by_cases hat : w.atModule = i
      · subst hat
        have hsame : m₀ = m := Option.some.inj (hget.symm.trans hi)
        subst hsame
        obtain ⟨hlt, -⟩ := List.getElem?_eq_some_iff.mp hi
        exact ⟨m₁, List.getElem?_set_self hlt, hwork.extends_module⟩
      · exact ⟨m, by rw [List.getElem?_set_ne hat]; exact hi, .refl m⟩

theorem Tidy.after : ∀ (steps : List Step) {w : Workbench}, w.Tidy → (w.after steps).Tidy
  | [], _, hw => hw
  | s :: steps, w, hw => Tidy.after steps (hw.move (w.step_moves s))

/-- Every module of every session is tidy. -/
theorem tidy_session (settings : Settings) (name : String) (steps : List Step) :
    ((onModule settings name).after steps).Tidy :=
  Tidy.after steps (tidy_onModule settings name)

theorem extends_after : ∀ (steps : List Step) {w : Workbench} {i : Nat} {m : Module},
    w.modules[i]? = some m → ∃ m', (w.after steps).modules[i]? = some m' ∧ m.Extends m'
  | [], _, _, m, hi => ⟨m, hi, .refl m⟩
  | s :: steps, w, _, _, hi => by
      obtain ⟨m₁, hi₁, hext₁⟩ := (w.step_moves s).extends_module hi
      obtain ⟨m₂, hi₂, hext₂⟩ := extends_after steps hi₁
      exact ⟨m₂, hi₂, hext₁.trans hext₂⟩

theorem after_append (steps later : List Step) (w : Workbench) :
    w.after (steps ++ later) = (w.after steps).after later := by
  induction steps generalizing w with
  | nil => rfl
  | cons s steps ih => exact ih _

/-! ### Requests that fail -/

/-- A request that leaves a module as it is when it fails leaves the bench as it is. -/
theorem request_error {α : Type} {work : Module → EStateM.Result BuildError Module α}
    (hwork : ∀ m e m', work m = .error e m' → m' = m) {e : StepError}
    (h : request work w = .error e w') : w' = w := by
  rw [request_apply] at h
  cases hm : w.modules[w.atModule]? with
  | none =>
      rw [hm] at h
      cases h
      rfl
  | some m =>
      rw [hm] at h
      simp only at h
      cases hr : work m with
      | ok a m' =>
          rw [hr] at h
          cases h
      | error e' m' =>
          -- the module was replaced by the one that came back, which is the old one
          cases hwork m e' m' hr
          rw [hr] at h
          cases h
          rw [modules_set_self hm]

theorem declared_error {f : Func} {e : StepError}
    (h : declared (fun m => m.insert f) w = .error e w') : w' = w := by
  rw [declared, map_apply] at h
  cases hr : request (fun m => m.insert f) w with
  | ok id w₁ =>
      rw [hr] at h
      cases h
  | error e' w₁ =>
      rw [hr] at h
      cases h
      exact request_error (fun _ _ _ => Module.eq_of_insert_error) hr

/-- A draft that the module refuses is gone, but the module is as before. -/
theorem finish_error {e : StepError} (h : perform .finish w = .error e w') :
    w'.modules = w.modules := by
  simp only [perform, draft, bind_apply, get_apply] at h
  cases hd : w.draft? with
  | none =>
      rw [hd] at h
      cases h
      rfl
  | some d =>
      rw [hd] at h
      simp only [setDraft, pure_apply, modify_apply] at h
      -- the request is made on the bench without the draft
      generalize hbench : ({ w with
        drafts := w.drafts.set w.atDraft none
        events := w.events.push (.sealing d.name d.code.length) } : Workbench) = bench at h
      cases hr : request d.finish bench with
      | ok _ w₁ =>
          rw [hr] at h
          cases h
      | error e' w₁ =>
          rw [hr] at h
          cases h
          rw [request_error (fun _ _ _ => Module.eq_of_define_error) hr, ← hbench]

/-- A request that fails leaves all modules as they are. -/
theorem perform_error {s : Step} (hs : s.isRequest = true) {e : StepError}
    (h : perform s w = .error e w') : w'.modules = w.modules := by
  cases s with
  | declarePrint =>
      simp only [perform, bind_apply, get_apply] at h
      exact congrArg Workbench.modules (declared_error h)
  | declareFunction name params result => exact congrArg Workbench.modules (declared_error h)
  | declareExternal name params variadic result =>
      exact congrArg Workbench.modules (declared_error h)
  | intern text =>
      simp only [perform, module, bind_apply, get_apply] at h
      cases hm : w.modules[w.atModule]? with
      | none =>
          rw [hm] at h
          cases h
          rfl
      | some m =>
          rw [hm] at h
          cases h
  | finish => exact finish_error h
  | _ => cases hs

theorem step_error {s : Step} {e : StepError} (h : w.step s = (.error e, w')) :
    perform s w = .error e w' := by
  unfold step at h
  split at h
  · cases h
  · next heq =>
    cases h
    exact heq

/-- The tables of every module on a bench are consistent, and whatever has been written into them
stays: neither later steps nor drafts that come from elsewhere change it. A request that fails
leaves them as they are. -/
theorem session_tables (settings : Settings) (name : String) (steps : List Step) {i : Nat}
    {m : Module} (hm : ((onModule settings name).after steps).modules[i]? = some m) :
    m.Consistent ∧
      (∀ later, ∃ m', ((onModule settings name).after (steps ++ later)).modules[i]? = some m' ∧
        m.Keeps m') ∧
      ∀ s e w', s.isRequest = true →
        ((onModule settings name).after steps).step s = (.error e, w') →
          w'.modules = ((onModule settings name).after steps).modules := by
  have htidy : m.Tidy := (tidy_session settings name steps).modules m (List.mem_of_getElem? hm)
  refine ⟨htidy.consistent, ?_, ?_⟩
  · intro later
    obtain ⟨m', hm', hext⟩ := extends_after later hm
    rw [← after_append] at hm'
    have htidy' := (tidy_session settings name _).modules m' (List.mem_of_getElem? hm')
    exact ⟨m', hm', hext.keeps htidy.indexed htidy'⟩
  · intro s e w' hs herror
    exact perform_error hs (step_error herror)

end Workbench

/-- A draft of `f`, the first function of one module, is handed over to another module, whose first
function is external. -/
def Step.stray : List Step :=
  [.declareFunction "f" [] .int, .newDraft 0, .newModule "other",
    .declareExternal "put" [⟨"p", .ptr⟩] false .void, .intern "text", .emit (.ret (some (.const 0)))]

/-- The module that does not take the draft. -/
def Module.stray : Module :=
  ⟨"other", [.external "put" [⟨"p", .ptr⟩] false .void], [("put", 0)], ["text"]⟩

open Workbench in
theorem session_tables_stray :
    ((onModule .default "m").after Step.stray).modules[1]? = some .stray ∧
      Module.stray.Consistent ∧
      ∃ e w', ((onModule .default "m").after Step.stray).step .finish = (.error e, w') ∧
        e = .build (.duplicateFunction "put") ∧
        w'.modules = ((onModule .default "m").after Step.stray).modules := by
  have hm : ((onModule .default "m").after Step.stray).modules[1]? = some .stray := by
    decide +kernel
  obtain ⟨hconsistent, -, hfails⟩ := session_tables .default "m" Step.stray hm
  have herror : ((onModule .default "m").after Step.stray).step .finish =
      (.error (.build (.duplicateFunction "put")),
        (((onModule .default "m").after Step.stray).step .finish).2) := Prod.ext rfl rfl
  exact ⟨hm, hconsistent, _, _, herror, rfl, hfails .finish _ _ rfl herror⟩

end SlotLang
