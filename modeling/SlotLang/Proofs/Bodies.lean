import SlotLang.Proofs.Drafts
import SlotLang.Proofs.Meaning

/-!
# SlotLang.Proofs.Bodies

What lowering writes into the body of any function of any module. Here the print routine may stand
anywhere, other functions and texts may be there already, and parameters may be addresses, so the
code is not the one that `Code` describes. But it still does what the tree means.

`Realizes` compares an evaluation with the code that one piece of lowering has added. It composes as
evaluations do (`Realizes.bind`), and what earlier code has left in its registers stays there
(`Realizes.frame`).
-/

namespace SlotLang

open Source (Eval)

/-- Two steps in a row succeed if the first does, and then the second. -/
theorem bind_apply_eq_ok {ε σ α β : Type} {x : EStateM ε σ α} {f : α → EStateM ε σ β} {s s₂ : σ}
    {b : β} (h : (x >>= f) s = .ok b s₂) : ∃ a s₁, x s = .ok a s₁ ∧ f a s₁ = .ok b s₂ := by
  rw [bind_apply] at h
  cases hx : x s with
  | error e s₁ =>
      rw [hx] at h
      cases h
  | ok a s₁ =>
      rw [hx] at h
      exact ⟨a, s₁, rfl, h⟩

/-! ### Contexts -/

/-- A context in which a function is being written. -/
structure Placed (settings : Settings) (c : Context) : Prop where
  /-- The innermost scope is that of the function at hand. -/
  scope : ∃ outer, c.scopes = ⟨c.bindings, true⟩ :: outer
  typed : ∀ x b, c.bindings.lookup x = some b → c.draft.typeOf? c.module b.handle = some b.ty
  result : c.draft.result.returnable = true
  even : c.draft.Even
  indexed : c.module.Indexed
  print : ∃ id, c.module.find? settings.printRoutine = some id ∧
    c.module.function? id = some settings.printFunc

namespace Placed

variable {settings : Settings} {c c' : Context} {x : String}

theorem note (hc : Placed settings c) (event : Event) : Placed settings (c.note event) :=
  ⟨hc.scope, hc.typed, hc.result, hc.even, hc.indexed, hc.print⟩

theorem resolve? (hc : Placed settings c) (x : String) :
    c.scopes.resolve? x = c.bindings.lookup x := by
  obtain ⟨outer, hs⟩ := hc.scope
  rw [hs, Scopes.resolve?_boundary]

/-- The print routine is found where it was. -/
theorem print_of_edits (hc : Placed settings c)
    (he : Edits c.module c.draft c'.module c'.draft) :
    ∃ id, c'.module.find? settings.printRoutine = some id ∧
      c'.module.function? id = some settings.printFunc := by
  obtain ⟨id, -, hid⟩ := hc.print
  have hid' := getElem?_of_isPrefix he.functions hid
  exact ⟨id, ((he.indexed hc.indexed).find?_eq_some_iff _ id).mpr ⟨_, hid', rfl⟩, hid'⟩

/-- A handle keeps its type. -/
theorem typeOf?_of_edits (he : Edits c.module c.draft c'.module c'.draft) {h : Handle} {ty : Ty}
    (hty : c.draft.typeOf? c.module h = some ty) : c'.draft.typeOf? c'.module h = some ty := by
  obtain ⟨lines, hlines⟩ := he.draft
  rw [hlines]
  exact Draft.typeOf?_mono he.functions he.texts hty

theorem result_of_edits (hc : Placed settings c)
    (he : Edits c.module c.draft c'.module c'.draft) : c'.draft.result.returnable = true := by
  obtain ⟨lines, hlines⟩ := he.draft
  rw [hlines]
  exact hc.result

/-- A context stays in place as long as no name is bound. -/
theorem of_edits (hc : Placed settings c) (he : Edits c.module c.draft c'.module c'.draft)
    (hs : c'.scopes = c.scopes) : Placed settings c' := by
  have hb := Context.bindings_congr hs
  refine ⟨by rw [hs, hb]; exact hc.scope, ?_, hc.result_of_edits he, he.even hc.even,
    he.indexed hc.indexed, hc.print_of_edits he⟩
  intro x b hx
  rw [hb] at hx
  exact typeOf?_of_edits he (hc.typed x b hx)

end Placed

/-! ### Steps that succeed -/

namespace Lower

variable {settings : Settings} {c c' : Context} {node : Node}

theorem OnlyAppends.of_ok {α : Type} {x : Lower α} (hx : OnlyAppends x) {v : α}
    (h : x c = .ok v c') : Appends c c' := by
  have ha := hx c
  rw [h] at ha
  exact ha

theorem OnlyAppends.edits_of_ok {α : Type} {x : Lower α} (hx : OnlyAppends x) {v : α}
    (h : x c = .ok v c') : Edits c.module c.draft c'.module c'.draft :=
  (hx.of_ok h).edits

/-- An instruction that is taken has operands of the right types. -/
theorem emit_eq_ok {instr : Instr} {h : Handle} (he : emit node instr c = .ok h c') :
    ∃ ty, instr.Typed c.module c.draft.result (c.draft.typeOf? c.module) ty ∧
      h = .inst c.draft.code.length ∧ Emits c ⟨instr, ty⟩ c' := by
  rw [emit_apply] at he
  cases hd : c.draft.emit c.module instr with
  | error e d =>
      rw [hd] at he
      cases he
  | ok r d =>
      obtain ⟨ty, hty, hopen, hh, hdraft⟩ := Draft.emit_eq_ok_iff.mp hd
      rw [hd] at he
      cases he
      exact ⟨ty, Draft.resultType_eq_ok hty, hh, hdraft, rfl, rfl, hopen⟩

theorem placed_of_emits (hc : Placed settings c) {instr : Instr} {h : Handle}
    (he : emit node instr c = .ok h c') : Placed settings c' := by
  obtain ⟨ty, -, -, hemits⟩ := emit_eq_ok he
  exact hc.of_edits ((OnlyAppends.emit node instr).edits_of_ok he) hemits.scopes

theorem resolve_eq_ok (hc : Placed settings c) {x : String} {b : Binding}
    (h : resolve node x c = .ok b c') : c' = c ∧ c.bindings.lookup x = some b := by
  rw [resolve_apply, hc.resolve?] at h
  cases hx : c.bindings.lookup x with
  | none =>
      rw [hx] at h
      cases h
  | some b' =>
      rw [hx] at h
      cases h
      exact ⟨rfl, rfl⟩

theorem storageOf_eq_ok (hc : Placed settings c) {x : String} {p : Handle}
    (h : storageOf node x c = .ok p c') : c' = c ∧ c.bindings.lookup x = some (.storage p) := by
  obtain ⟨b, c₁, hb, hp⟩ := bind_apply_eq_ok h
  obtain ⟨rfl, hx⟩ := resolve_eq_ok hc hb
  cases b with
  | storage q =>
      cases hp
      exact ⟨rfl, hx⟩
  | argument q => cases hp

/-- A declaration that succeeds opens a slot and binds a name that was free. -/
theorem declaration_eq_ok (hc : Placed settings c) {x : String} {p : Handle}
    (h : declaration node x c = .ok p c') :
    Placed settings c' ∧ p = .inst c.draft.code.length ∧ c.bindings.lookup x = none ∧
      c'.draft = c.draft.append [⟨.alloca x, .ptr⟩] ∧
      c'.bindings = (x, .storage p) :: c.bindings := by
  have hedits := (OnlyAppends.declaration node x).edits_of_ok h
  obtain ⟨outer, hs⟩ := hc.scope
  rw [declaration_apply] at h
  split at h
  · cases h
  · cases he : emit node (.alloca x) c with
    | error e c₁ =>
        rw [he] at h
        cases h
    | ok q c₁ =>
        obtain ⟨ty, hty, rfl, hemits⟩ := emit_eq_ok he
        cases hty
        rw [he, hs] at h
        cases hd : Scopes.declare (⟨c.bindings, true⟩ :: outer) x
            (.storage (.inst c.draft.code.length)) with
        | error e =>
            simp only [hd] at h
            cases h
        | ok scopes =>
            simp only [hd] at h
            cases h
            obtain ⟨hfree, rfl⟩ := Scopes.declare_cons_eq_ok_iff.mp hd
            refine ⟨⟨⟨outer, rfl⟩, ?_, hc.result_of_edits hedits, hedits.even hc.even,
              hedits.indexed hc.indexed, hc.print_of_edits hedits⟩, rfl, hfree, hemits.draft, rfl⟩
            intro y b hy
            rcases Bindings.lookup_cons_eq_some_iff.mp hy with ⟨rfl, rfl⟩ | ⟨-, hy'⟩
            · exact hemits.typeOf?_inst hc.even
            · exact Placed.typeOf?_of_edits hedits (hc.typed y b hy')

/-- An assignment finds or opens the slot that it writes to. -/
theorem targetOf_eq_ok (hc : Placed settings c) {target : Node} {p : Handle}
    (h : targetOf node target c = .ok p c') :
    Placed settings c' ∧ ∃ ts, c'.draft = c.draft.append ts ∧
      Target c.bindings c.draft.code.length target ts p c'.bindings := by
  cases target with
  | use origin x mode =>
      obtain ⟨rfl, hx⟩ := storageOf_eq_ok hc h
      exact ⟨hc, [], (Draft.append_nil _).symm, .use hx⟩
  | declare origin x =>
      obtain ⟨hc', rfl, hfree, hdraft, hb⟩ := declaration_eq_ok (hc.note _) h
      exact ⟨hc', _, hdraft, hb ▸ .declare hfree⟩
  | _ => cases h

/-- A call of the print routine is given integers and addresses only. -/
theorem emit_print_eq_ok {id : Nat} {args : List Handle} {h : Handle}
    (hid : c.module.function? id = some settings.printFunc)
    (he : emit node (.call id args) c = .ok h c') :
    h = .inst c.draft.code.length ∧ Emits c ⟨.call id args, .int⟩ c' ∧
      ∀ v ∈ args, c'.draft.typeOf? c'.module v = some .int ∨
        c'.draft.typeOf? c'.module v = some .ptr := by
  have hedits := (OnlyAppends.emit node _).edits_of_ok he
  obtain ⟨ty, hty, rfl, hemits⟩ := emit_eq_ok he
  cases hty with
  | call hf _ hargs =>
      obtain rfl := Option.some.inj (hid.symm.trans hf)
      refine ⟨rfl, hemits, ?_⟩
      intro v hv
      have hparams : ∀ p ∈ settings.printFunc.params, p.ty.passable = true := by
        unfold Settings.printFunc
        cases settings.printFormat <;> simp [Ty.passable]
      rcases hargs.passable hparams v hv with hint | hptr
      · exact .inl (Placed.typeOf?_of_edits hedits hint)
      · exact .inr (Placed.typeOf?_of_edits hedits hptr)

/-- A print that succeeds has found the print routine and given it the format. -/
theorem printCall_eq_ok (hc : Placed settings c) {v h : Handle}
    (hl : printCall settings node v c = .ok h c') :
    ∃ id text, c'.module.function? id = some settings.printFunc ∧
      (∀ format, settings.printFormat = some format → c'.module.text? text = some format) ∧
      (c'.draft.typeOf? c'.module v = some .int ∨ c'.draft.typeOf? c'.module v = some .ptr) ∧
      h = .inst c.draft.code.length ∧ c'.scopes = c.scopes ∧
      c'.draft = c.draft.append [⟨.call id (settings.formatArgsAt text ++ [v]), .int⟩] := by
  obtain ⟨id, hfind, hid⟩ := hc.print
  simp only [printCall, bind_apply, get_apply, hfind] at hl
  cases hf : settings.printFormat with
  | none =>
      simp only [hf] at hl
      obtain ⟨rfl, he, htypes⟩ := emit_print_eq_ok hid hl
      refine ⟨id, 0, by rw [he.module]; exact hid, ?_, htypes v (by simp), rfl, he.scopes, ?_⟩
      · intro _ hformat
        cases hformat
      · rw [Settings.formatArgsAt, hf]
        exact he.draft
  | some format =>
      simp only [hf, bind_apply, modifyGet_apply] at hl
      have hid' : (c.module.intern format).2.function? id = some settings.printFunc := by
        rw [Module.function?, Module.functions_intern]
        exact hid
      obtain ⟨rfl, he, htypes⟩ := emit_print_eq_ok hid' hl
      refine ⟨id, (c.module.intern format).1, by rw [he.module]; exact hid', ?_,
        htypes v (by simp), rfl, he.scopes, ?_⟩
      · intro format' hformat
        cases hformat
        rw [he.module]
        exact Module.text?_intern c.module format
      · rw [Settings.formatArgsAt, hf]
        exact he.draft

end Lower

/-- A function that is lowered adds nothing to the function around it. -/
theorem function_eq_ok {settings : Settings} {c c' : Context} {origin : Origin} {name : String}
    {result : SourceType} {params : List Parameter} {body : List Node} {h : Handle}
    (hl : (Node.function origin name result params body).lower settings c = .ok h c') :
    c'.draft = c.draft ∧ c'.scopes = c.scopes ∧ c'.draft.typeOf? c'.module h = some .fn ∧
      ∃ id, h = .func id := by
  have hinside := inside_stays (.function origin name result params body) result params
    (@lowerAll_onlyAppends settings body)
  rw [Node.lower, Lower.enter_bind] at hl
  obtain ⟨draft, c₁, hopen, hl₁⟩ := bind_apply_eq_ok hl
  obtain ⟨finished, c₂, hin, hl₂⟩ := bind_apply_eq_ok hl₁
  obtain ⟨_, c₃, hfinish, hl₃⟩ := bind_apply_eq_ok hl₂
  cases hl₃
  obtain ⟨hd₁, hs₁⟩ : c₁.draft = c.draft ∧ c₁.scopes = c.scopes := by
    rw [Lower.openFunction_apply] at hopen
    split at hopen
    · cases hopen
    · split at hopen <;> cases hopen
      exact ⟨rfl, rfl⟩
  obtain ⟨inner, -, hok | ⟨e, he⟩⟩ := Lower.inFunction_cases draft hinside c₁
  · rw [hok] at hin
    cases hin
    rw [Lower.finish_apply] at hfinish
    dsimp only at hfinish
    split at hfinish
    case h_1 => cases hfinish
    case h_2 m hm =>
      cases hfinish
      obtain ⟨g, hg, -⟩ := Module.define_eq_ok_iff.mp hm
      obtain ⟨g', hg', -⟩ := (Module.Extends.of_define hm).functions _ _ hg
      refine ⟨hd₁, hs₁, ?_, _, rfl⟩
      show Option.map _ (m.function? inner.draft.func) = some Ty.fn
      rw [hg']
      rfl
  · rw [he] at hin
    cases hin

/-! ### Code that realizes an evaluation -/

/-- Calls are made on a machine whose module has grown from this one. -/
def Module.Hosts (settings : Settings) (m : Module) (call : Nat → List Value → Exec Value) : Prop :=
  ∃ m' room, m.Extends m' ∧ call = (Machine.ofSettings m' settings).invoke room

theorem Module.Hosts.of_edits {settings : Settings} {m m' : Module} {d d' : Draft}
    {call : Nat → List Value → Exec Value} (h : m'.Hosts settings call) (he : Edits m d m' d') :
    m.Hosts settings call := by
  obtain ⟨m₁, room, hm, hcall⟩ := h
  exact ⟨m₁, room, (Module.Extends.of_edits he).trans hm, hcall⟩

/-- What was added between `c` and `c'` does what the evaluation means, from every frame with `pre`.
If the evaluation comes through, `post` holds of its value and of the frame that the code leaves. -/
def Realizes (settings : Settings) (c c' : Context) (pre : Frame → Prop) {α : Type} (e : Eval α)
    (post : α → Frame → Prop) : Prop :=
  ∀ lines, c'.draft = c.draft.append lines →
    ∀ {call : Nat → List Value → Exec Value} {function : String} {base : List String}
      {a : Source.Activation} {f : Frame} {t : Transcript} (rest : List Instr),
      c'.module.Hosts settings call →
      Related function base c.draft.params.length c.bindings c.draft.code.length a f t → pre f →
      Runs call function base rest
        (fun v a' f' t' =>
          Related function base c.draft.params.length c'.bindings c'.draft.code.length a' f' t' ∧
          f.Extends f' ∧ post v f')
        (e a) (Machine.execute call function (lines.map Line.instr ++ rest) f t)

/-- What was added to a draft is known by the draft. -/
theorem Draft.append_inj {d : Draft} {ls rs : List Line} (h : d.append ls = d.append rs) :
    ls = rs := by
  have hcode := List.append_cancel_left (congrArg Draft.code h)
  have htypes := List.append_cancel_left (congrArg Draft.types h)
  have hlines : d.withLines ls = d.withLines rs := by rw [withLines, withLines, hcode, htypes]
  rw [← d.lines_withLines ls, hlines, lines_withLines]

namespace Realizes

variable {settings : Settings} {c c₁ c₂ : Context} {pre : Frame → Prop} {α β : Type} {e : Eval α}
  {P : α → Frame → Prop}

/-- There is only one piece of code to look at. -/
theorem of_lines {lines : List Line} (hlines : c₁.draft = c.draft.append lines)
    (h : ∀ {call : Nat → List Value → Exec Value} {function : String} {base : List String}
      {a : Source.Activation} {f : Frame} {t : Transcript} (rest : List Instr),
      c₁.module.Hosts settings call →
      Related function base c.draft.params.length c.bindings c.draft.code.length a f t → pre f →
      Runs call function base rest
        (fun v a' f' t' =>
          Related function base c.draft.params.length c₁.bindings
            (c.draft.code.length + lines.length) a' f' t' ∧
          f.Extends f' ∧ P v f')
        (e a) (Machine.execute call function (lines.map Line.instr ++ rest) f t)) :
    Realizes settings c c₁ pre e P := by
  intro lines' hlines' call function base a f t rest hcall hr hpre
  obtain rfl := Draft.append_inj (hlines.symm.trans hlines')
  rw [hlines, Draft.code_append, List.length_append, List.length_map]
  exact h rest hcall hr hpre

/-- Code that realizes an evaluation, and then code that realizes the next one. -/
theorem bind {g : α → Eval β} {Q : β → Frame → Prop}
    (h₁ : Edits c.module c.draft c₁.module c₁.draft)
    (h₂ : Edits c₁.module c₁.draft c₂.module c₂.draft) (hx : Realizes settings c c₁ pre e P)
    (hg : ∀ v, Realizes settings c₁ c₂ (P v) (g v) Q) :
    Realizes settings c c₂ pre (e >>= g) Q := by
  obtain ⟨ls, hls⟩ := h₁.draft
  obtain ⟨rs, hrs⟩ := h₂.draft
  have hparams : c₁.draft.params = c.draft.params := by
    rw [hls]
    rfl
  intro lines hlines call function base a f t rest hcall hr hpre
  obtain rfl : ls ++ rs = lines := by
    rw [hrs, hls, Draft.append_append] at hlines
    exact Draft.append_inj hlines
  rw [List.map_append, List.append_assoc]
  refine Runs.bind (hx ls hls _ (hcall.of_edits h₂) hr hpre) ?_
  intro v a₁ f₁ t₁ ⟨hr₁, hf₁, hv⟩
  rw [← hparams] at hr₁ ⊢
  refine (hg v rs hrs rest hcall hr₁ hv).mono ?_
  intro u a₂ f₂ t₂ ⟨hr₂, hf₂, hu⟩
  exact ⟨hr₂, hf₁.trans hf₂, hu⟩

/-- What holds of registers keeps holding. -/
theorem frame {R : Frame → Prop} (h : Realizes settings c c₁ (fun _ => True) e P)
    (hR : ∀ {f f'}, f.Extends f' → R f → R f') :
    Realizes settings c c₁ R e (fun v f => P v f ∧ R f) := by
  intro lines hlines call function base a f t rest hcall hr hf
  refine (h lines hlines rest hcall hr trivial).mono ?_
  intro v a' f' t' ⟨hr', hf', hv⟩
  exact ⟨hr', hf', hv, hR hf' hf⟩

end Realizes

/-! ### Nodes without children -/

/-- The handle stands for the value of a node. A handle of type `ptr` may stand for an integer, too:
a parameter of that type receives one if the function is called from outside. -/
inductive Stands (f : Frame) (h : Handle) : Source.Value → Ty → Prop
  | int {v : Int64} {ty : Ty} : f.eval h = .ok (.int v) → Stands f h (.int v) ty
  | address {s : Nat} : f.eval h = .ok (.slot s) → Stands f h .address .ptr
  | function {id : Nat} : f.eval h = .ok (.func id) → Stands f h .function .fn

namespace Stands

variable {f f' : Frame} {h : Handle} {v : Source.Value} {ty : Ty}

theorem of_holds (hv : Holds f h v ty) : Stands f h v ty := by
  cases hv with
  | int he => exact .int he
  | address he => exact .address he
  | function he => exact .function he

theorem mono (hf : f.Extends f') (hv : Stands f h v ty) : Stands f' h v ty := by
  cases hv with
  | int he => exact .int (hf.eval he)
  | address he => exact .address (hf.eval he)
  | function he => exact .function (hf.eval he)

theorem exists_int (hv : Stands f h v .int) : ∃ k, v = .int k ∧ f.eval h = .ok (.int k) := by
  cases hv with
  | int he => exact ⟨_, rfl, he⟩

end Stands

/-- Between `c` and `c'` an evaluation was realized, and its value is in `h`. -/
structure Realized (settings : Settings) (c c' : Context) (e : Eval Source.Value) (h : Handle) :
    Prop where
  placed : Placed settings c'
  value : ∃ ty, c'.draft.typeOf? c'.module h = some ty ∧
    Realizes settings c c' (fun _ => True) e (fun v f => Stands f h v ty)

section

variable {settings : Settings} {c c' : Context} {h : Handle}

/-- Nothing depends on events. -/
theorem Realized.of_note {event : Event} {e : Eval Source.Value}
    (hr : Realized settings (c.note event) c' e h) : Realized settings c c' e h :=
  ⟨hr.placed, hr.value⟩

/-- A value that needs no code. -/
theorem Realized.of_value (hc : Placed settings c) {ty : Ty} {e : Eval Source.Value}
    (hty : c.draft.typeOf? c.module h = some ty)
    (he : ∀ {function base a f t}, Related function base c.draft.params.length c.bindings
        c.draft.code.length a f t → ∃ v, e a = .ok v a ∧ Stands f h v ty) :
    Realized settings c c e h := by
  refine ⟨hc, ty, hty, .of_lines (Draft.append_nil _).symm ?_⟩
  intro call function base a f t rest _ hr _
  obtain ⟨v, hv, hstands⟩ := he hr
  rw [hv]
  exact ⟨f, t, rfl, hr, .refl f, hstands⟩

theorem declaration_realized {node : Node} {x : String} (hc : Placed settings c)
    (hl : Lower.declaration node x c = .ok h c') :
    Realized settings c c' (do Eval.declare x; return .address) h := by
  obtain ⟨hc', rfl, -, hdraft, hb⟩ := Lower.declaration_eq_ok hc hl
  have hx : c'.bindings.lookup x = some (.storage (.inst c.draft.code.length)) := by
    rw [hb]
    exact List.lookup_cons_self
  refine ⟨hc', .ptr, hc'.typed x _ hx, .of_lines hdraft ?_⟩
  intro call function base a f t rest _ hr _
  refine Runs.bind (declare_runs hr x rest) ?_
  intro _ a₁ f₁ t₁ ⟨hr₁, hf₁⟩
  obtain ⟨s, w, hs, -, -⟩ := hr₁.storage x _ List.lookup_cons_self
  exact ⟨f₁, t₁, rfl, hb ▸ hr₁, hf₁, .address hs⟩

/-- A variable is read by one load. -/
theorem load_realized {node : Node} {x : String} {p : Handle} (hc : Placed settings c)
    (hx : c.bindings.lookup x = some (.storage p))
    (hl : Lower.emit node (.load p) c = .ok h c') :
    Realized settings c c' (do return .int (← Eval.load x)) h := by
  have hc' := Lower.placed_of_emits hc hl
  obtain ⟨ty, hty, rfl, he⟩ := Lower.emit_eq_ok hl
  cases hty
  refine ⟨hc', .int, he.typeOf?_inst hc.even, .of_lines he.draft ?_⟩
  intro call function base a f t rest _ hr _
  rw [he.bindings]
  refine Runs.bind (load_runs hr hx rest) ?_
  intro v a₁ f₁ t₁ ⟨hr₁, hf₁, hv⟩
  exact ⟨f₁, t₁, rfl, hr₁, hf₁, .int hv⟩

theorem useOf_realized {node : Node} {x : String} {mode : UseMode} (hc : Placed settings c)
    (hl : Lower.useOf node x mode c = .ok h c') :
    Realized settings c c' (Eval.use x mode) h := by
  cases mode with
  | address =>
      obtain ⟨rfl, hx⟩ := Lower.storageOf_eq_ok hc hl
      refine .of_value hc (hc.typed x _ hx) ?_
      intro function base a f t hr
      obtain ⟨s, w, hs, -, -⟩ := hr.storage x h hx
      exact ⟨.address, rfl, .address hs⟩
  | value =>
      obtain ⟨b, c₁, hb, hl⟩ := bind_apply_eq_ok hl
      obtain ⟨rfl, hx⟩ := Lower.resolve_eq_ok hc hb
      cases b with
      | argument p =>
          cases hl
          refine .of_value hc (hc.typed x _ hx) ?_
          intro function base a f t hr
          obtain ⟨hlocal, v, hv, hparam⟩ := hr.argument x _ hx
          refine ⟨.int v, ?_, .int hv⟩
          simp only [Eval.use, hlocal, hparam]
      | storage p =>
          have hload := load_realized hc hx hl
          obtain ⟨ty, hty, hreal⟩ := hload.value
          refine ⟨hload.placed, ty, hty, ?_⟩
          intro lines hlines call function base a f t rest hcall hr _
          obtain ⟨s, w, -, -, hlocal⟩ := hr.storage x p hx
          have huse : Eval.use x .value a =
              (do return Source.Value.int (← Eval.load x) : Eval Source.Value) a := by
            simp only [Eval.use, hlocal]
            rfl
          rw [huse]
          exact hreal lines hlines rest hcall hr trivial

theorem argumentOf_realized {node : Node} {index : Nat} (hc : Placed settings c)
    (hl : Lower.argumentOf node index c = .ok h c') :
    Realized settings c c' (Eval.argument index) h := by
  rw [Lower.argumentOf_apply] at hl
  split at hl
  case isFalse => cases hl
  case isTrue hi =>
    cases hl
    -- the number of the argument may be too large for its handle, which then means another one
    have hlt : (UInt32.ofNat index).toNat < c.draft.params.length := by
      rw [UInt32.toNat_ofNat']
      exact Nat.lt_of_le_of_lt (Nat.mod_le _ _) hi
    refine .of_value hc (List.getElem?_eq_getElem hlt) ?_
    intro function base a f t hr
    rw [← hr.arity] at hi
    obtain ⟨v, harg, hv⟩ := Frame.eval_arg hr.args hi
    refine ⟨.int v, ?_, .int hv⟩
    simp only [Eval.argument, harg]

/-- A step reads, computes and writes. -/
theorem stepOf_realized {node : Node} {x : String} {order : StepOrder} {direction : Direction}
    (hc : Placed settings c) (hl : Lower.stepOf node x order direction c = .ok h c') :
    Realized settings c c' (Eval.step x order direction) h := by
  obtain ⟨p, c₀, hp, hl₀⟩ := bind_apply_eq_ok hl
  obtain ⟨rfl, hx⟩ := Lower.storageOf_eq_ok hc hp
  obtain ⟨current, c₁, hload, hl₁⟩ := bind_apply_eq_ok hl₀
  obtain ⟨updated, c₂, hbinary, hl₂⟩ := bind_apply_eq_ok hl₁
  obtain ⟨_, c₃, hstore, hl₃⟩ := bind_apply_eq_ok hl₂
  have hc₁ := Lower.placed_of_emits hc hload
  have hc₃ := Lower.placed_of_emits (Lower.placed_of_emits hc₁ hbinary) hstore
  have hedits₂ := (Lower.OnlyAppends.emit node _).edits_of_ok hbinary
  have hedits₃ := (Lower.OnlyAppends.emit node _).edits_of_ok hstore
  obtain ⟨_, hty₁, rfl, he₁⟩ := Lower.emit_eq_ok hload
  obtain ⟨_, hty₂, rfl, he₂⟩ := Lower.emit_eq_ok hbinary
  obtain ⟨_, hty₃, rfl, he₃⟩ := Lower.emit_eq_ok hstore
  cases hty₁
  cases hty₂
  cases hty₃
  obtain ⟨rfl, rfl⟩ : h = order.select (.inst c₀.draft.code.length)
      (.inst c₁.draft.code.length) ∧ c' = c₃ := by
    cases order <;> cases hl₃ <;> exact ⟨rfl, rfl⟩
  have hdraft := he₃.draft
  rw [he₁.length, he₂.draft, he₁.draft, Draft.append_append, Draft.append_append] at hdraft
  refine ⟨hc₃, .int, ?_, .of_lines hdraft ?_⟩
  · cases order with
    | pre => exact Placed.typeOf?_of_edits hedits₃ (he₂.typeOf?_inst hc₁.even)
    | post => exact Placed.typeOf?_of_edits (hedits₂.trans hedits₃) (he₁.typeOf?_inst hc.even)
  · intro call function base a f t rest _ hr _
    rw [he₃.bindings, he₂.bindings, he₁.bindings, he₁.length]
    refine (step_runs hr hx order direction rest).mono ?_
    intro v a₁ f₁ t₁ ⟨hr₁, hf₁, hv⟩
    exact ⟨hr₁, hf₁, .of_holds hv⟩

theorem function_realized {origin : Origin} {name : String} {result : SourceType}
    {params : List Parameter} {body : List Node} (hc : Placed settings c)
    (hl : (Node.function origin name result params body).lower settings c = .ok h c') :
    Realized settings c c' (pure .function) h := by
  have hedits := (lower_onlyAppends _).edits_of_ok hl
  obtain ⟨hdraft, hs, hty, id, rfl⟩ := function_eq_ok hl
  refine ⟨hc.of_edits hedits hs, .fn, hty, .of_lines (hdraft.trans (Draft.append_nil _).symm) ?_⟩
  intro call function base a f t rest _ hr _
  rw [Context.bindings_congr hs]
  exact ⟨f, t, rfl, hr, .refl f, .function rfl⟩

/-! ### Nodes with children -/

variable {c₁ c₂ : Context} {node : Node} {e : Eval Source.Value}

theorem combine_realized {e' : Eval Source.Value} {op : ArithOp} {l r : Handle}
    (hx : Realized settings c c₁ e l) (h₁ : Edits c.module c.draft c₁.module c₁.draft)
    (hy : Realized settings c₁ c₂ e' r) (h₂ : Edits c₁.module c₁.draft c₂.module c₂.draft)
    (hl : Lower.emit node (.binary op.toBinOp l r) c₂ = .ok h c') :
    Realized settings c c' (do let v ← e; let w ← e'; Eval.combine op v w) h := by
  have h₃ := (Lower.OnlyAppends.emit node _).edits_of_ok hl
  have hc' := Lower.placed_of_emits hy.placed hl
  obtain ⟨tl, htl, hleft⟩ := hx.value
  obtain ⟨tr, htr, hright⟩ := hy.value
  obtain ⟨_, hty, rfl, he⟩ := Lower.emit_eq_ok hl
  cases hty with
  | binary hint hint' =>
      obtain rfl := Option.some.inj ((Placed.typeOf?_of_edits h₂ htl).symm.trans hint)
      obtain rfl := Option.some.inj (htr.symm.trans hint')
      refine ⟨hc', .int, he.typeOf?_inst hy.placed.even, ?_⟩
      refine hleft.bind h₁ (h₂.trans h₃) fun v => ?_
      -- the right operand may have written variables, but the left value is in a register
      refine (hright.frame Stands.mono).bind h₂ h₃ fun w => .of_lines he.draft ?_
      intro call function base a f t rest _ hr ⟨hw, hv⟩
      obtain ⟨i, rfl, hi⟩ := hv.exists_int
      obtain ⟨j, rfl, hj⟩ := hw.exists_int
      rw [he.bindings]
      refine (combine_runs hr op hi hj rest).mono ?_
      intro u a' f' t' ⟨hr', hf', hu⟩
      exact ⟨hr', hf', .of_holds hu⟩

theorem assign_realized {target : Node} {v slot done : Handle}
    (hx : Realized settings c c₁ e v) (h₁ : Edits c.module c.draft c₁.module c₁.draft)
    (ht : Lower.targetOf node target c₁ = .ok slot c₂)
    (hl : Lower.emit node (.store slot v) c₂ = .ok done c') :
    Realized settings c c' (do let w ← Eval.intOf (← e); Eval.assign target w; return .int w)
      v := by
  have h₂ := (Lower.OnlyAppends.targetOf node target).edits_of_ok ht
  have h₃ := (Lower.OnlyAppends.emit node _).edits_of_ok hl
  obtain ⟨tv, htv, hvalue⟩ := hx.value
  obtain ⟨hc₂, ts, hts, htarget⟩ := Lower.targetOf_eq_ok hx.placed ht
  have hc' := Lower.placed_of_emits hc₂ hl
  obtain ⟨_, hty, rfl, he⟩ := Lower.emit_eq_ok hl
  cases hty with
  | store _ hint =>
      obtain rfl := Option.some.inj ((Placed.typeOf?_of_edits h₂ htv).symm.trans hint)
      have hdraft := he.draft
      rw [hts, Draft.append_append] at hdraft
      refine ⟨hc', .int, Placed.typeOf?_of_edits h₃ hint, ?_⟩
      refine hvalue.bind h₁ (h₂.trans h₃) fun w => .of_lines hdraft ?_
      intro call function base a f t rest _ hr hw
      obtain ⟨k, rfl, hk⟩ := hw.exists_int
      rw [he.bindings, List.map_append, List.append_assoc]
      show Runs _ _ _ _ _ ((Eval.assign target k >>= fun _ => pure (Source.Value.int k)) a) _
      refine Runs.bind (assign_runs htarget hr hk rest) ?_
      intro _ a' f' t' ⟨hr', hf'⟩
      exact ⟨f', t', rfl, by rw [List.length_append]; exact hr', hf', .int (hf'.eval hk)⟩

/-- The print routine answers as the settings say, wherever it stands. -/
theorem Module.Hosts.answer {m : Module} {call : Nat → List Value → Exec Value}
    (hcall : m.Hosts settings call) {id text : Nat}
    (hid : m.function? id = some settings.printFunc)
    (htext : ∀ format, settings.printFormat = some format → m.text? text = some format)
    {f : Frame} {ty : Ty} {v : Source.Value} (hv : Stands f h v ty) (hty : ty ≠ .fn) :
    ∃ values, f.evalAll (settings.formatArgsAt text ++ [h]) = .ok values ∧
      ∀ t, settings.answer? t v = some (call id values t) := by
  obtain ⟨m', room, hm, rfl⟩ := hcall
  obtain ⟨g, hg, hb⟩ := hm.functions _ _ hid
  -- the routine has no body and never gets one
  obtain rfl : g = settings.printFunc := by
    cases hb with
    | same => rfl
    | defined _ _ hext => cases hext
  have htext' : ∀ format, settings.printFormat = some format → m'.text? text = some format :=
    fun format hf => getElem?_of_isPrefix hm.texts (htext format hf)
  cases hv with
  | @int k _ he =>
      refine ⟨_, Frame.evalAll_printAt settings text he, fun t => ?_⟩
      rw [Machine.invoke_print hg, Print.run_int htext', Settings.answer?]
      cases settings.printed k <;> rfl
  | address he =>
      refine ⟨_, Frame.evalAll_printAt settings text he, fun t => ?_⟩
      rw [Machine.invoke_print hg, Print.run_slot htext']
      rfl
  | function => exact absurd rfl hty

theorem print_realized {v : Handle} (hx : Realized settings c c₁ e v)
    (h₁ : Edits c.module c.draft c₁.module c₁.draft)
    (hl : Lower.printCall settings node v c₁ = .ok h c') :
    Realized settings c c' (do let w ← e; Eval.print settings w) h := by
  have h₂ := (Lower.OnlyAppends.printCall settings node v).edits_of_ok hl
  obtain ⟨tv, htv, hvalue⟩ := hx.value
  obtain ⟨id, text, hid, htext, hv, rfl, hs, hdraft⟩ := Lower.printCall_eq_ok hx.placed hl
  have hfn : tv ≠ .fn := by
    rw [Placed.typeOf?_of_edits h₂ htv] at hv
    rintro rfl
    simp at hv
  refine ⟨hx.placed.of_edits h₂ hs, .int, ?_, ?_⟩
  · rw [hdraft, ← hx.placed.even]
    simp [Draft.typeOf?]
  · refine hvalue.bind h₁ h₂ fun w => .of_lines hdraft ?_
    intro call function base a f t rest hcall hr hw
    obtain ⟨values, hvalues, hanswer⟩ := hcall.answer hid htext hw hfn
    rw [Context.bindings_congr hs]
    refine (print_call_runs hr hvalues hanswer rest).mono ?_
    rintro u a' f' t' ⟨hr', hf', hu⟩
    exact ⟨hr', hf', .of_holds hu⟩

theorem returnValue_realized {v : Handle} (hx : Realized settings c c₁ e v)
    (h₁ : Edits c.module c.draft c₁.module c₁.draft)
    (hl : Lower.emit node (.ret (some v)) c₁ = .ok h c') :
    Realized settings c c' (do let w ← Eval.intOf (← e); throw (.returned (some w))) h := by
  have h₂ := (Lower.OnlyAppends.emit node _).edits_of_ok hl
  have hc' := Lower.placed_of_emits hx.placed hl
  obtain ⟨tv, htv, hvalue⟩ := hx.value
  obtain ⟨_, hty, rfl, he⟩ := Lower.emit_eq_ok hl
  cases hty with
  | ret hne hres =>
      -- functions yield integers or nothing
      obtain rfl : tv = .int := by
        have heq := Option.some.inj (htv.symm.trans hres)
        rcases Ty.returnable_iff.mp hx.placed.result with hint | hvoid
        · exact heq.trans hint
        · exact absurd hvoid hne
      refine ⟨hc', .void, he.typeOf?_inst hx.placed.even, ?_⟩
      refine hvalue.bind h₁ h₂ fun w => .of_lines he.draft ?_
      intro call function base a f t rest _ hr hw
      obtain ⟨k, rfl, hk⟩ := hw.exists_int
      exact ⟨_, execute_ret rest hk t, hr.output⟩

theorem returnNothing_realized (hc : Placed settings c)
    (hl : Lower.emit node (.ret none) c = .ok h c') :
    Realized settings c c' (throw (.returned none)) h := by
  have hc' := Lower.placed_of_emits hc hl
  obtain ⟨_, hty, rfl, he⟩ := Lower.emit_eq_ok hl
  cases hty
  refine ⟨hc', .void, he.typeOf?_inst hc.even, .of_lines he.draft ?_⟩
  intro call function base a f t rest _ hr _
  exact ⟨_, rfl, hr.output⟩

/-- The code of a node does what the node means, whatever function it is lowered into. -/
theorem lower_realized : ∀ (node : Node) {c c' : Context} {h : Handle}, Placed settings c →
    node.lower settings c = .ok h c' → Realized settings c c' (node.eval settings) h
  | .binary origin op left right, c, c', h, hc, hl => by
      rw [Node.lower, Lower.enter_bind] at hl
      obtain ⟨l, c₁, hleft, hl₁⟩ := bind_apply_eq_ok hl
      obtain ⟨r, c₂, hright, hl₂⟩ := bind_apply_eq_ok hl₁
      have hx := lower_realized left (hc.note _) hleft
      have hy := lower_realized right hx.placed hright
      rw [Node.eval]
      exact (combine_realized hx ((lower_onlyAppends left).edits_of_ok hleft) hy
        ((lower_onlyAppends right).edits_of_ok hright) hl₂).of_note
  | .assign origin target value, c, c', h, hc, hl => by
      rw [Node.lower, Lower.enter_bind] at hl
      obtain ⟨v, c₁, hvalue, hl₁⟩ := bind_apply_eq_ok hl
      obtain ⟨slot, c₂, htarget, hl₂⟩ := bind_apply_eq_ok hl₁
      obtain ⟨done, c₃, hstore, hl₃⟩ := bind_apply_eq_ok hl₂
      cases hl₃
      have hx := lower_realized value (hc.note _) hvalue
      rw [Node.eval]
      exact (assign_realized hx ((lower_onlyAppends value).edits_of_ok hvalue) htarget
        hstore).of_note
  | .declare origin x, c, c', h, hc, hl => by
      rw [Node.lower, Lower.enter_bind] at hl
      rw [Node.eval]
      exact (declaration_realized (hc.note _) hl).of_note
  | .use origin x mode, c, c', h, hc, hl => by
      rw [Node.lower, Lower.enter_bind] at hl
      rw [Node.eval]
      exact (useOf_realized (hc.note _) hl).of_note
  | .step origin x order direction, c, c', h, hc, hl => by
      rw [Node.lower, Lower.enter_bind] at hl
      rw [Node.eval]
      exact (stepOf_realized (hc.note _) hl).of_note
  | .int origin v, c, c', h, hc, hl => by
      rw [Node.lower, Lower.enter_bind] at hl
      cases hl
      rw [Node.eval]
      exact (Realized.of_value (hc.note _) rfl fun _ => ⟨.int v, rfl, .int rfl⟩).of_note
  | .function origin name result params body, c, c', h, hc, hl => by
      rw [Node.eval]
      exact function_realized hc hl
  | .argument origin index, c, c', h, hc, hl => by
      rw [Node.lower, Lower.enter_bind] at hl
      rw [Node.eval]
      exact (argumentOf_realized (hc.note _) hl).of_note
  | .print origin [arg], c, c', h, hc, hl => by
      rw [Node.lower, Lower.enter_bind] at hl
      obtain ⟨v, c₁, harg, hl₁⟩ := bind_apply_eq_ok hl
      have hx := lower_realized arg (hc.note _) harg
      rw [Node.eval]
      exact (print_realized hx ((lower_onlyAppends arg).edits_of_ok harg) hl₁).of_note
  | .print origin [], c, c', h, hc, hl => by cases hl
  | .print origin (_ :: _ :: _), c, c', h, hc, hl => by cases hl
  | .ret origin (some value), c, c', h, hc, hl => by
      rw [Node.lower, Lower.enter_bind] at hl
      obtain ⟨v, c₁, hvalue, hl₁⟩ := bind_apply_eq_ok hl
      have hx := lower_realized value (hc.note _) hvalue
      rw [Node.eval]
      exact (returnValue_realized hx ((lower_onlyAppends value).edits_of_ok hvalue) hl₁).of_note
  | .ret origin none, c, c', h, hc, hl => by
      rw [Node.lower, Lower.enter_bind] at hl
      rw [Node.eval]
      exact (returnNothing_realized (hc.note _) hl).of_note

end

end SlotLang
