import SlotLang.Proofs.Closed
import SlotLang.Proofs.Translation

/-!
# SlotLang.Proofs.Positions

Places in the source have no part in lowering. They are copied into errors and are read nowhere
else. This is a property of two runs again: two programs that differ only in their places are
lowered side by side (`Alike`), and when they fail, both are blamed on the node at the same address
(`Counterparts`), each with the place that this node has in its own program.
-/

namespace SlotLang

namespace Node

/-! ### Trees without places -/

mutual

/-- A tree without its places. -/
def erase : Node → Node
  | binary _ op left right => binary .unknown op left.erase right.erase
  | assign _ target value => assign .unknown target.erase value.erase
  | declare _ name => declare .unknown name
  | use _ name mode => use .unknown name mode
  | step _ name order direction => step .unknown name order direction
  | int _ value => int .unknown value
  | function _ name result params body => function .unknown name result params (eraseAll body)
  | argument _ index => argument .unknown index
  | print _ args => print .unknown (eraseAll args)
  | ret _ (some value) => ret .unknown (some value.erase)
  | ret _ none => ret .unknown none

/-- Trees without their places. -/
def eraseAll : List Node → List Node
  | [] => []
  | node :: rest => node.erase :: eraseAll rest

end

@[simp] theorem kind_erase (node : Node) : node.erase.kind = node.kind := by
  cases node with
  | ret _ value => cases value <;> rfl
  | _ => rfl

@[simp] theorem identifier?_erase (node : Node) : node.erase.identifier? = node.identifier? := by
  cases node with
  | ret _ value => cases value <;> rfl
  | _ => rfl

theorem eraseAll_eq_map (nodes : List Node) : eraseAll nodes = nodes.map erase := by
  induction nodes with
  | nil => rfl
  | cons node rest ih => rw [eraseAll, ih, List.map_cons]

/-- The text of a node shows no places. -/
@[simp] theorem text_erase : ∀ node : Node, node.erase.text = node.text
  | .binary _ _ left right => by rw [erase, text, text, text_erase left, text_erase right]
  | .assign _ target value => by rw [erase, text, text, text_erase target, text_erase value]
  | .ret _ (some value) => by rw [erase, text, text, text_erase value]
  | .print _ args => by rw [erase, text, text, eraseAll_eq_map, List.length_map]
  | .use _ _ .value | .use _ _ .address | .step _ _ .pre _ | .step _ _ .post _ | .declare ..
  | .int .. | .function .. | .argument .. | .ret _ none => rfl

theorem kind_eq_of_erase_eq {node node' : Node} (h : node'.erase = node.erase) :
    node'.kind = node.kind := by
  rw [← node'.kind_erase, h, kind_erase]

/-- What a node is that differs from a given one only in places. -/
theorem exists_of_erase_eq {node node' : Node} (h : node'.erase = node.erase) :
    match node with
    | binary _ op left right => ∃ o left' right', node' = binary o op left' right' ∧
        left'.erase = left.erase ∧ right'.erase = right.erase
    | assign _ target value => ∃ o target' value', node' = assign o target' value' ∧
        target'.erase = target.erase ∧ value'.erase = value.erase
    | declare _ name => ∃ o, node' = declare o name
    | use _ name mode => ∃ o, node' = use o name mode
    | step _ name order direction => ∃ o, node' = step o name order direction
    | int _ value => ∃ o, node' = int o value
    | function _ name result params body => ∃ o body', node' = function o name result params body' ∧
        body'.map erase = body.map erase
    | argument _ index => ∃ o, node' = argument o index
    | print _ args => ∃ o args', node' = print o args' ∧ args'.map erase = args.map erase
    | ret _ (some value) => ∃ o value', node' = ret o (some value') ∧ value'.erase = value.erase
    | ret _ none => ∃ o, node' = ret o none := by
  -- the kinds leave one constructor for the other node, but a return may or may not have a value
  have hkind := kind_eq_of_erase_eq h
  cases node with
  | ret _ value =>
      obtain ⟨o, value', rfl⟩ : ∃ o value', node' = ret o value' := by
        cases node' <;> cases hkind
        exact ⟨_, _, rfl⟩
      cases value with
      | none =>
          cases value' with
          | none => exact ⟨o, rfl⟩
          | some value' => cases h
      | some value =>
          cases value' with
          | none => cases h
          | some value' => exact ⟨o, value', rfl, by simpa [erase] using h⟩
  | _ =>
      cases node' <;> cases hkind
      simpa [erase, eraseAll_eq_map, and_assoc] using h

/-! ### Addresses -/

/-- The nodes right below a node, in order. -/
def children : Node → List Node
  | binary _ _ left right => [left, right]
  | assign _ target value => [target, value]
  | function _ _ _ _ body => body
  | print _ args => args
  | ret _ (some value) => [value]
  | declare .. | use .. | step .. | int .. | argument .. | ret _ none => []

/-- The node at an address, which tells the number of the child to go to, level by level. -/
def descendant? : List Nat → Node → Option Node
  | [], node => some node
  | i :: address, node => node.children[i]?.bind (descendant? address)

theorem descendant?_concat (address : List Nat) (i : Nat) (node : Node) :
    node.descendant? (address ++ [i]) = (node.descendant? address).bind (·.children[i]?) := by
  induction address generalizing node with
  | nil => cases h : node.children[i]? <;> simp [descendant?, h]
  | cons j address ih => cases h : node.children[j]? <;> simp [descendant?, h, ih]

end Node

/-- Two nodes stand at the same address of two trees. -/
def Counterparts (root root' node node' : Node) : Prop :=
  ∃ address, root.descendant? address = some node ∧ root'.descendant? address = some node'

theorem Counterparts.child {root root' node node' : Node} (h : Counterparts root root' node node')
    (i : Nat) {below below' : Node} (hi : node.children[i]? = some below)
    (hi' : node'.children[i]? = some below') : Counterparts root root' below below' := by
  obtain ⟨address, ha, ha'⟩ := h
  refine ⟨address ++ [i], ?_, ?_⟩
  · rw [Node.descendant?_concat, ha]
    exact hi
  · rw [Node.descendant?_concat, ha']
    exact hi'

/-! ### Errors -/

/-- An error is blamed on a node: it has the place of the node, and it names the kind of the node,
or that of an argument if the node is a function. -/
structure LoweringError.Blames (e : LoweringError) (node : Node) : Prop where
  origin : e.origin = node.origin
  kind : e.node = node.kind ∨ e.node = .argument ∧ node.kind = .function

/-- Two errors say the same, and they are blamed on nodes at the same address of two trees. -/
structure Corresponds (root root' : Node) (e e' : LoweringError) : Prop where
  cause : e'.cause = e.cause
  node : e'.node = e.node
  name : e'.name = e.name
  blames : ∃ node node', Counterparts root root' node node' ∧ e.Blames node ∧ e'.Blames node'

section

variable {root root' node node' : Node}

/-- Whatever two nodes at the same address are blamed for, the errors correspond. -/
theorem Counterparts.blamed (h : Counterparts root root' node node')
    (he : node'.erase = node.erase) : Blamed (Corresponds root root') node node' := by
  have hkind := Node.kind_eq_of_erase_eq he
  have hname : node'.identifier? = node.identifier? := by
    rw [← node'.identifier?_erase, he, Node.identifier?_erase]
  refine ⟨fun cause => ⟨rfl, hkind, hname, ?_⟩, fun name cause => ⟨rfl, hkind, rfl, ?_⟩⟩
  · exact ⟨node, node', h, ⟨rfl, .inl rfl⟩, rfl, .inl rfl⟩
  · exact ⟨node, node', h, ⟨rfl, .inl rfl⟩, rfl, .inl rfl⟩

/-- The arguments that stand for the parameters of a function have the place of the function. -/
theorem Counterparts.blamed_argument {origin origin' : Origin} {name : String}
    {result : SourceType} {params : List Parameter} {body body' : List Node}
    (h : Counterparts root root' (.function origin name result params body)
      (.function origin' name result params body')) (i : Nat) :
    Blamed (Corresponds root root') (.argument origin i) (.argument origin' i) := by
  refine ⟨fun cause => ⟨rfl, rfl, rfl, ?_⟩, fun name cause => ⟨rfl, rfl, rfl, ?_⟩⟩
  · exact ⟨_, _, h, ⟨rfl, .inr ⟨rfl, rfl⟩⟩, rfl, .inr ⟨rfl, rfl⟩⟩
  · exact ⟨_, _, h, ⟨rfl, .inr ⟨rfl, rfl⟩⟩, rfl, .inr ⟨rfl, rfl⟩⟩

end

/-- How a report ends: with the position, if that is known. -/
def Origin.mention (origin : Origin) : String :=
  match origin.position with
  | some position => s!" (at {position.text})"
  | none => ""

theorem LoweringReport.text_eq (r : LoweringReport) :
    r.text = { r with origin := .unknown }.text ++ r.origin.mention := by
  cases h : r.origin.position with
  | none => simp [text, Origin.mention, Origin.unknown, h]
  | some position =>
      simp only [text, Origin.mention, Origin.unknown, h]
      exact congrArg (· ++ _) String.append_empty.symm

/-- But for the places, the reports are the same. -/
theorem Corresponds.unplaced {root root' : Node} {e e' : LoweringError}
    (h : Corresponds root root' e e') :
    { e'.report with origin := .unknown } = { e.report with origin := .unknown } := by
  rw [LoweringError.report, LoweringError.report, h.cause, h.node, h.name]

/-! ### Lowering -/

theorem Lower.targetOf_of_kind {target : Node} (node : Node) (hu : target.kind ≠ .use)
    (hd : target.kind ≠ .declare) : Lower.targetOf node target =
      throw (.blame node (.notAssignable target.kind target.text)) := by
  cases target with
  | use => exact absurd rfl hu
  | declare => exact absurd rfl hd
  | _ => rfl

section

variable {root root' : Node} {settings : Settings}

/-- What stands on the left of an assignment is blamed itself, or the assignment is. -/
theorem Counterparts.targetOf {node node' target target' : Node}
    (h : Counterparts root root' target target') (he : target'.erase = target.erase)
    (hE : Blamed (Corresponds root root') node node') :
    Alike (Corresponds root root') (Lower.targetOf node target) (Lower.targetOf node' target') := by
  have hT := h.blamed he
  have hkind := Node.kind_eq_of_erase_eq he
  have htext : target'.text = target.text := by rw [← target'.text_erase, he, Node.text_erase]
  cases target with
  | use _ name mode =>
      obtain ⟨o, rfl⟩ := Node.exists_of_erase_eq he
      exact .storageOf hT name
  | declare _ name =>
      obtain ⟨o, rfl⟩ := Node.exists_of_erase_eq he
      exact (Alike.enter _ _).bind fun _ => .declaration hT name
  | _ =>
      -- the message shows the target, but no place in it
      have hu : target'.kind ≠ .use := by rw [hkind]; simp [Node.kind]
      have hd : target'.kind ≠ .declare := by rw [hkind]; simp [Node.kind]
      rw [Lower.targetOf_of_kind node (hkind ▸ hu) (hkind ▸ hd),
        Lower.targetOf_of_kind node' hu hd, hkind, htext]
      exact .throw (hE.own _)

mutual

/-- Nodes that differ only in places are lowered alike. The induction is on the first of the trees,
and it carries along that the nodes at hand have the same address. -/
theorem Counterparts.lower : ∀ {node node' : Node}, Counterparts root root' node node' →
    node'.erase = node.erase →
    Alike (Corresponds root root') (node.lower settings) (node'.lower settings)
  | .binary .., _, h, he => by
      have hE := h.blamed he
      obtain ⟨_, _, _, rfl, hl, hr⟩ := Node.exists_of_erase_eq he
      exact .binary hE ((h.child 0 rfl rfl).lower hl) ((h.child 1 rfl rfl).lower hr)
  | .assign .., _, h, he => by
      have hE := h.blamed he
      obtain ⟨_, _, _, rfl, ht, hv⟩ := Node.exists_of_erase_eq he
      exact .assign hE ((h.child 1 rfl rfl).lower hv) ((h.child 0 rfl rfl).targetOf ht hE)
  | .declare _ name, _, h, he => by
      have hE := h.blamed he
      obtain ⟨_, rfl⟩ := Node.exists_of_erase_eq he
      rw [Node.lower, Node.lower]
      exact (Alike.enter _ _).bind fun _ => .declaration hE name
  | .use _ name mode, _, h, he => by
      have hE := h.blamed he
      obtain ⟨_, rfl⟩ := Node.exists_of_erase_eq he
      rw [Node.lower, Node.lower]
      exact (Alike.enter _ _).bind fun _ => .useOf hE name mode
  | .step _ name order direction, _, h, he => by
      have hE := h.blamed he
      obtain ⟨_, rfl⟩ := Node.exists_of_erase_eq he
      rw [Node.lower, Node.lower]
      exact (Alike.enter _ _).bind fun _ => .stepOf hE name order direction
  | .int _ value, _, h, he => by
      obtain ⟨_, rfl⟩ := Node.exists_of_erase_eq he
      rw [Node.lower, Node.lower]
      exact (Alike.enter _ _).bind fun _ => .pure _
  | .function .., _, h, he => by
      have hE := h.blamed he
      obtain ⟨_, _, rfl, hb⟩ := Node.exists_of_erase_eq he
      exact .function hE h.blamed_argument (lowerAll_counterparts (fun i _ _ => h.child i) hb)
  | .argument _ index, _, h, he => by
      have hE := h.blamed he
      obtain ⟨_, rfl⟩ := Node.exists_of_erase_eq he
      rw [Node.lower, Node.lower]
      exact (Alike.enter _ _).bind fun _ => .argumentOf hE index
  | .print _ [_], _, h, he => by
      have hE := h.blamed he
      obtain ⟨_, _, rfl, hargs⟩ := Node.exists_of_erase_eq he
      obtain ⟨_, _, rfl, ha, hnil⟩ := List.map_eq_cons_iff.mp hargs
      obtain rfl := List.map_eq_nil_iff.mp hnil
      exact .print hE ((h.child 0 rfl rfl).lower ha)
  | .print _ [], _, h, he => by
      have hE := h.blamed he
      obtain ⟨_, _, rfl, hargs⟩ := Node.exists_of_erase_eq he
      obtain rfl := List.map_eq_nil_iff.mp hargs
      exact (Alike.enter _ _).bind fun _ => .throw (hE.own _)
  | .print _ (_ :: _ :: _), _, h, he => by
      have hE := h.blamed he
      obtain ⟨_, _, rfl, hargs⟩ := Node.exists_of_erase_eq he
      obtain ⟨_, _, rfl, -, hargs'⟩ := List.map_eq_cons_iff.mp hargs
      obtain ⟨_, _, rfl, -, -⟩ := List.map_eq_cons_iff.mp hargs'
      have hlength := congrArg List.length hargs
      rw [List.length_map, List.length_map] at hlength
      refine (Alike.enter _ _).bind fun _ => .throw ?_
      rw [hlength]
      exact hE.own _
  | .ret _ (some _), _, h, he => by
      have hE := h.blamed he
      obtain ⟨_, _, rfl, hv⟩ := Node.exists_of_erase_eq he
      exact .returnValue hE ((h.child 0 rfl rfl).lower hv)
  | .ret _ none, _, h, he => by
      have hE := h.blamed he
      obtain ⟨_, rfl⟩ := Node.exists_of_erase_eq he
      rw [Node.lower, Node.lower]
      exact (Alike.enter _ _).bind fun _ => .emit hE _

theorem lowerAll_counterparts : ∀ {nodes nodes' : List Node},
    (∀ (i : Nat) (node node' : Node), nodes[i]? = some node → nodes'[i]? = some node' →
      Counterparts root root' node node') →
    nodes'.map Node.erase = nodes.map Node.erase →
    Alike (Corresponds root root') (Node.lowerAll settings nodes) (Node.lowerAll settings nodes')
  | [], _, _, he => by
      obtain rfl := List.map_eq_nil_iff.mp he
      exact .pure ()
  | _ :: _, _, h, he => by
      obtain ⟨_, _, rfl, hnode, hrest⟩ := List.map_eq_cons_iff.mp he
      rw [Node.lowerAll, Node.lowerAll]
      exact ((h 0 _ _ rfl rfl).lower hnode).bind fun _ =>
        lowerAll_counterparts (fun i => h (i + 1)) hrest

end

end

/-! ### Programs -/

namespace Program

variable {program program' : Program}

theorem counterparts_main (settings : Settings) (program program' : Program) :
    Counterparts (program.main settings) (program'.main settings) (program.main settings)
      (program'.main settings) :=
  ⟨[], rfl, rfl⟩

/-- The entry function is blamed as if the statements were in it. -/
theorem blamed_entryNode (h : Node.eraseAll program' = Node.eraseAll program)
    (settings : Settings) :
    Blamed (Corresponds (program.main settings) (program'.main settings)) (entryNode settings)
      (entryNode settings) := by
  have hmain : (program'.main settings).erase = (program.main settings).erase := by
    rw [main, main, Node.erase, Node.erase, h]
  have hE := (counterparts_main settings program program').blamed hmain
  exact ⟨fun cause => hE.own cause, fun name cause => hE.named name cause⟩

theorem inside_alike (h : Node.eraseAll program' = Node.eraseAll program) (settings : Settings) :
    Alike (Corresponds (program.main settings) (program'.main settings))
      (Lower.inside settings (entryNode settings) .int [] program)
      (Lower.inside settings (entryNode settings) .int [] program') := by
  have hstatements : program'.map Node.erase = program.map Node.erase := by
    rw [← Node.eraseAll_eq_map, h, Node.eraseAll_eq_map]
  have hmain := counterparts_main settings program program'
  refine (Alike.pure ()).bind fun _ => ?_
  refine (lowerAll_counterparts (fun i _ _ => hmain.child i) hstatements).bind fun _ => ?_
  exact .implicitReturn (blamed_entryNode h settings) .int

/-- Programs that differ only in places come to the same module, or to errors that correspond. -/
theorem lower_counterparts (h : Node.eraseAll program' = Node.eraseAll program)
    (settings : Settings) :
    (∃ m, (program.lower settings).1 = .ok m ∧ (program'.lower settings).1 = .ok m) ∨
      ∃ e e', (program.lower settings).1 = .error e ∧ (program'.lower settings).1 = .error e' ∧
        Corresponds (program.main settings) (program'.main settings) e e' := by
  have hE := blamed_entryNode h settings
  rw [lower_fst, lower_fst, start_eq]
  rcases (openFunction_sideBySide hE settings.entryFunction .int []
      (rfl : (around settings).module = _)).cases with
    ⟨draft, c, _, hopen, -, -⟩ | ⟨e, e', c, c', hopen, hopen', he, -⟩
  · -- both programs begin in the same context, for no statement has been read yet
    have ht : Twins c.scopes c.scopes (c.enter draft) (c.enter draft) := ⟨rfl, rfl, [], rfl, rfl⟩
    simp only [hopen]
    rw [body_eq, body_eq]
    rcases (inside_alike h settings _ _ _ _ (ht.note _ _)).cases with
      ⟨_, inner, inner', hx, hy, hi⟩ | ⟨e, e', inner, inner', hx, hy, he, -⟩
    · rw [hx, hy]
      simp only [hi.draft]
      rcases (finish_sideBySide hE inner.draft hi.module).cases with
        ⟨_, d, d', hf, hf', hr⟩ | ⟨e, e', d, d', hf, hf', he, -⟩
      · rw [hf, hf']
        exact .inl ⟨d.module, rfl, congrArg _ hr.module⟩
      · rw [hf, hf']
        exact .inr ⟨e, e', rfl, rfl, he⟩
    · rw [hx, hy]
      exact .inr ⟨e, e', rfl, rfl, he⟩
  · obtain rfl : e' = e := by
      rw [hopen] at hopen'
      cases hopen'
      rfl
    simp only [hopen]
    exact .inr ⟨e', e', rfl, rfl, he⟩

end Program

/-- Places have no part in lowering. Two programs that are the same without their places have the
same module, or neither has one. Then the errors are of the same kind, they name the same node and
the same name, and their texts are the same but for the place at the end. And each of them has the
place of the node it blames: the two nodes stand at the same address, below the entry function. -/
theorem lower_ignores_positions {program program' : Program}
    (h : Node.eraseAll program' = Node.eraseAll program) (settings : Settings) :
    (∃ m, (program.lower settings).1 = .ok m ∧ (program'.lower settings).1 = .ok m) ∨
      ∃ e e', (program.lower settings).1 = .error e ∧ (program'.lower settings).1 = .error e' ∧
        e'.report.kind = e.report.kind ∧ e'.report.node = e.report.node ∧
        e'.report.name = e.report.name ∧
        (∃ stem, e.report.text = stem ++ e.origin.mention ∧
          e'.report.text = stem ++ e'.origin.mention) ∧
        ∃ address node node', (program.main settings).descendant? address = some node ∧
          (program'.main settings).descendant? address = some node' ∧
          e.Blames node ∧ e'.Blames node' := by
  rcases Program.lower_counterparts h settings with hok | ⟨e, e', he, he', hc⟩
  · exact .inl hok
  · obtain ⟨node, node', ⟨address, ha, ha'⟩, hb, hb'⟩ := hc.blames
    refine .inr ⟨e, e', he, he', congrArg LoweringCause.kind hc.cause, hc.node, hc.name, ?_, ?_⟩
    · exact ⟨_, e.report.text_eq, by rw [e'.report.text_eq, hc.unplaced]; rfl⟩
    · exact ⟨address, node, node', ha, ha', hb, hb'⟩

/-- `fn f() { int y = 1 + x }`, where nothing is called `x`, with a place for each node. -/
def Program.unbound (place : Nat → Origin) : Program :=
  [.function (place 1) "f" .int [] [.assign (place 2) (.declare (place 3) "y")
    (.binary (place 4) .add (.int (place 5) 1) (.use (place 6) "x" .value))]]

/-- Without places and with them the text of the error is the same, and the place that is added to
it is the one of `x`. -/
theorem lower_ignores_positions_unbound :
    Node.eraseAll (Program.unbound fun i => ⟨some ⟨"main", 1, i⟩, none⟩) =
      Node.eraseAll (Program.unbound fun _ => .unknown) ∧
    ∃ e e', (Program.lower .default (.unbound fun _ => .unknown)).1 = .error e ∧
      (Program.lower .default (.unbound fun i => ⟨some ⟨"main", 1, i⟩, none⟩)).1 = .error e' ∧
      e'.report.text = e.report.text ++ " (at main:1:6)" := by
  have hplaces : Node.eraseAll (Program.unbound fun i => ⟨some ⟨"main", 1, i⟩, none⟩) =
      Node.eraseAll (Program.unbound fun _ => .unknown) := rfl
  have hfail : (Program.lower .default (.unbound fun _ => .unknown)).1.mapError
      LoweringError.origin = .error .unknown := rfl
  have hfail' : (Program.lower .default (.unbound fun i => ⟨some ⟨"main", 1, i⟩, none⟩)).1.mapError
      LoweringError.origin = .error ⟨some ⟨"main", 1, 6⟩, none⟩ := rfl
  rcases lower_ignores_positions hplaces .default with
    ⟨m, hok, -⟩ | ⟨e, e', he, he', -, -, -, ⟨stem, ht, ht'⟩, -⟩
  · rw [hok] at hfail
    cases hfail
  · rw [he] at hfail
    rw [he'] at hfail'
    have ho : e.origin = .unknown := Except.error.inj hfail
    have ho' : e'.origin = ⟨some ⟨"main", 1, 6⟩, none⟩ := Except.error.inj hfail'
    refine ⟨hplaces, e, e', he, he', ?_⟩
    rw [ht, ht', ho, ho']
    exact congrArg (· ++ _) String.append_empty.symm

end SlotLang
