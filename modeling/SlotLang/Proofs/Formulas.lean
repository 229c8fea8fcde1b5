import Mathlib.Data.Int.ModEq
import SlotLang.Proofs.Execution
import SlotLang.Proofs.Meaning
import SlotLang.Proofs.Unique

/-!
# SlotLang.Proofs.Formulas

Sums, differences and products. Code computes them in 64 bits and drops what does not fit at every
instruction. That is as good as computing with integers of any size and reducing the result once, at
the end: reduction (`Int64.ofInt`) commutes with the three operators, so it commutes with every
`Formula` that is built from them.
-/

namespace SlotLang

/-! ### Formulas and their exact values -/

/-- The exact result of an operator, if it is one of the three that formulas are built with. -/
def ArithOp.unbounded? : ArithOp → Int → Int → Option Int
  | add, x, y => some (x + y)
  | sub, x, y => some (x - y)
  | mul, x, y => some (x * y)
  | div, _, _ | rem, _, _ | bitOr, _, _ | bitAnd, _, _ => none

namespace Node

/-- A node that is built from sums, differences and products over literals, values of the named
parameters and arguments by number. -/
inductive Formula (params : List String) : Node → Prop
  | int {origin : Origin} {v : Int64} : Formula params (.int origin v)
  | use {origin : Origin} {name : String} :
      name ∈ params → Formula params (.use origin name .value)
  | argument {origin : Origin} {index : Nat} : Formula params (.argument origin index)
  | binary {origin : Origin} {op : ArithOp} {left right : Node} :
      op = .add ∨ op = .sub ∨ op = .mul → Formula params left → Formula params right →
      Formula params (.binary origin op left right)

/-- The value of a formula over the integers, given those that the parameters stand for. -/
def unbounded? (params : List String) (args : List Int) : Node → Option Int
  | int _ v => some v.toInt
  | use _ name .value => (params.idxOf? name).bind (args[·]?)
  | argument _ index => args[index]?
  | binary _ op left right => do
    op.unbounded? (← left.unbounded? params args) (← right.unbounded? params args)
  | _ => none

end Node

/-! ### Reduction -/

/-- The integers that a 64-bit integer stands for are those that are reduced to it. -/
theorem toInt_modEq_iff {x : Int} {w : Int64} : w.toInt ≡ x [ZMOD 2 ^ 64] ↔ w = .ofInt x := by
  have hlow : -2 ^ 63 ≤ w.toInt := w.le_toInt
  have hhigh : w.toInt < 2 ^ 63 := w.toInt_lt
  have hpos : 0 < 2 ^ 64 := by decide
  rw [Int.modEq_comm, Int.modEq_iff_dvd, eq_comm, Int64.ofInt_eq_iff_bmod_eq_toInt,
    Int.bmod_eq_iff hpos]
  omega

/-- An operator on reduced integers yields the reduced result. -/
theorem ArithOp.compute_ofInt {op : ArithOp} {x y z : Int} (h : op.unbounded? x y = some z) :
    op.compute (.ofInt x) (.ofInt y) = .ok (.ofInt z) := by
  cases op with
  | add =>
      cases h
      simp only [compute, Int64.ofInt_add, Int64.ofInt_toInt]
  | sub =>
      cases h
      simp only [compute, Int64.ofInt_sub, Int64.ofInt_toInt]
  | mul =>
      cases h
      simp only [compute, Int64.ofInt_mul, Int64.ofInt_toInt]
  | div | rem | bitOr | bitAnd => cases h

/-! ### Evaluation -/

section

variable {settings : Settings} {params : List String} {args : List Int64}

theorem Node.Formula.hasPrint_eq {e : Node} (he : e.Formula params) : e.hasPrint = false := by
  induction he with
  | binary _ _ _ ihl ihr => rw [hasPrint, ihl, ihr]; rfl
  | int | use | argument => rfl

/-- A formula that has code has an exact value, and it evaluates to that value, reduced. Nothing
else happens. -/
theorem Node.Formula.eval_eq {e : Node} (he : e.Formula params) {arity : Nat} {result : SourceType}
    {bs bs' : Bindings} {n : Nat} {lines : List Line} {h : Handle} {ty : Ty}
    (hc : Code settings arity result bs n e lines h ty bs') (hparams : params.length = args.length)
    (harity : arity = args.length) (hcount : args.length ≤ 2 ^ 32) (function : String) :
    ∃ x, e.unbounded? params (args.map Int64.toInt) = some x ∧
      e.eval settings (.start function params args) =
        .ok (.int (.ofInt x)) (.start function params args) := by
  have hargument : ∀ i (hi : i < args.length),
      (Source.Activation.start function params args).argument? i = some args[i] := by
    intro i hi
    rw [Source.Activation.argument?_eq hcount hi]
    exact List.getElem?_eq_getElem hi
  induction he generalizing bs bs' n lines h ty with
  | @int origin v =>
      refine ⟨v.toInt, rfl, ?_⟩
      rw [Int64.ofInt_toInt]
      rfl
  | @use origin name hmem =>
      obtain ⟨i, hi⟩ := Option.isSome_iff_exists.mp (List.isSome_idxOf?.mpr hmem)
      have hlt : i < args.length := hparams ▸ (List.idxOf?_eq_some_iff.mp hi).1
      refine ⟨args[i].toInt, by simp [Node.unbounded?, hi, hlt], ?_⟩
      have hvalue : (Source.Activation.start function params args).parameter? name =
          some args[i] := by
        change (params.idxOf? name).bind _ = _
        rw [hi]
        exact hargument i hlt
      have hlocal : (Source.Activation.start function params args).locals name = none := rfl
      rw [Int64.ofInt_toInt, Node.eval]
      simp only [Source.Eval.use, hlocal, hvalue]
  | @argument origin index =>
      cases hc with
      | argument hlt =>
          rw [harity] at hlt
          refine ⟨args[index].toInt, by simp [Node.unbounded?, hlt], ?_⟩
          rw [Int64.ofInt_toInt, Node.eval, Source.Eval.argument, hargument index hlt]
  | @binary origin op left right hop _ _ ihl ihr =>
      cases hc with
      | binary hl hr =>
          obtain ⟨x, hx, hleft⟩ := ihl hl
          obtain ⟨y, hy, hright⟩ := ihr hr
          obtain ⟨z, hz⟩ : ∃ z, op.unbounded? x y = some z := by
            rcases hop with rfl | rfl | rfl <;> exact ⟨_, rfl⟩
          refine ⟨z, by rw [Node.unbounded?, hx, hy]; exact hz, ?_⟩
          rw [Node.eval, bind_apply, hleft]
          simp only [bind_apply, hright, Source.Eval.combine, Source.Eval.intOf,
            pure_apply, ArithOp.compute_ofInt hz]

end

/-! ### Calls -/

/-- The functions of a program are those of its module, under the same names. -/
theorem Program.find?_of_mem {settings : Settings} {program : Program} {m : Module} {node : Node}
    (h : (program.lower settings).1 = .ok m) (hmem : node ∈ (program.main settings).functions) :
    ∃ id f, m.find? f.name = some id ∧ m.function? id = some f ∧ Compiled settings node f := by
  obtain ⟨fs, hfs, hcompiled⟩ := (translated h).functions
  obtain ⟨i, hi⟩ := List.mem_iff_getElem?.mp hmem
  obtain ⟨hlt, rfl⟩ := List.getElem?_eq_some_iff.mp hi
  have hlt' : i < fs.length := hcompiled.length_eq ▸ hlt
  have hf : m.function? (i + 1) = some fs[i] := by
    rw [Module.function?, hfs]
    exact List.getElem?_eq_getElem hlt'
  exact ⟨i + 1, fs[i], ((translated h).indexed.find?_eq_some_iff _ _).mpr ⟨_, hf, rfl⟩, hf,
    hcompiled.get hlt hlt'⟩

/-- The meaning of a function that returns a formula. -/
theorem Node.Formula.callWith_eq {settings : Settings} {origin origin' : Origin} {name : String}
    {params : List Parameter} {e : Node} {f : Func} (he : e.Formula (params.map Parameter.name))
    (hc : Compiled settings (.function origin name .int params [.ret origin' (some e)]) f)
    (hcount : params.length ≤ 2 ^ 32) {args : List Int64} (hargs : args.length = params.length) :
    ∃ x, e.unbounded? (params.map Parameter.name) (args.map Int64.toInt) = some x ∧
      (Node.function origin name .int params [.ret origin' (some e)]).callWith settings args =
        (.ok (some (.ofInt x)), []) := by
  obtain ⟨-, lines, bs, hcode, -⟩ := hc
  cases hcode with
  | cons hreturn _ _ =>
      cases hreturn with
      | returnValue hvalue _ =>
          obtain ⟨x, hx, heval⟩ := he.eval_eq hvalue (by rw [List.length_map, hargs]) hargs.symm
            (hargs ▸ hcount) name
          refine ⟨x, hx, ?_⟩
          simp only [callWith, if_pos hargs, evalAll, eval, bind_apply, heval, Source.Eval.intOf,
            pure_apply]
          rfl

/-- Compiled sums, differences and products are exact up to multiples of `2 ^ 64`. A function that
returns a formula over its parameters can be called with any arguments that are as many as these:
the call succeeds, prints nothing, and returns the one 64-bit integer that is congruent to the value
of the formula over the integers. It does not matter where in the program the function stands or
under which name the machine prints. -/
theorem formula_exact {settings : Settings} {program : Program} {m : Module}
    (h : (program.lower settings).1 = .ok m) {origin origin' : Origin} {name : String}
    {params : List Parameter} {e : Node}
    (hmem : .function origin name .int params [.ret origin' (some e)] ∈ Node.functionsAll program)
    (hcount : params.length ≤ 2 ^ 32) (he : e.Formula (params.map Parameter.name))
    {args : List Int64} (hargs : args.length = params.length) (routine : String) (t : Transcript) :
    ∃ (x : Int) (v : Int64) (t' : Transcript),
      e.unbounded? (params.map Parameter.name) (args.map Int64.toInt) = some x ∧
        (Machine.mk m routine).call name args t = .ok (some v) t' ∧ t'.output = t.output ∧
        ∀ w : Int64, w.toInt ≡ x [ZMOD 2 ^ 64] ↔ w = v := by
  obtain ⟨id, f, hid, hf, hc⟩ := Program.find?_of_mem h (List.mem_cons_of_mem _ hmem)
  obtain ⟨x, hx, hmeaning⟩ := he.callWith_eq hc hcount hargs
  have hquiet : Node.hasPrintAll [.ret origin' (some e)] = false := by
    rw [Node.hasPrintAll, Node.hasPrint, he.hasPrint_eq]
    rfl
  have hanswers : Answers t.output _ ((Machine.mk m routine).invoke (255 + 1) id _ t) :=
    hc.invoke_answers hf hargs (fun hprint => nomatch hquiet.symm.trans hprint) t
  rw [hmeaning] at hanswers
  obtain ⟨t', hinvoke, houtput⟩ := hanswers
  refine ⟨x, .ofInt x, t', hx, ?_, by rw [houtput, List.append_nil], fun w => toInt_modEq_iff⟩
  obtain rfl : name = f.name := Option.some.inj (Compiled.identifier? hc)
  rw [Machine.call_found hid, maxFrames, hinvoke]
  rfl

/-- `fn f(x, y) { return x * y - arg#1 * 3 }`. -/
def Program.products : Program :=
  [.function .unknown "f" .int [⟨"x", .int⟩, ⟨"y", .int⟩]
    [.ret .unknown (some (.binary .unknown .sub
      (.binary .unknown .mul (.use .unknown "x" .value) (.use .unknown "y" .value))
      (.binary .unknown .mul (.argument .unknown 1) (.int .unknown 3))))]]

/-- The product of `2 ^ 62` and `8` is a multiple of `2 ^ 64`, so nothing is left of it. -/
theorem formula_exact_overflow :
    ∃ m, (Program.lower .default .products).1 = .ok m ∧
      ∃ t', (Machine.mk m "printf").call "f" [4611686018427387904, 8] .empty =
        .ok (some (-24)) t' ∧ t'.output = [] := by
  have hok : (Program.lower .default .products).1.toBool = true := by decide +kernel
  cases hm : (Program.lower .default .products).1 with
  | error e => rw [hm] at hok; cases hok
  | ok m =>
      have hargs : [(4611686018427387904 : Int64), 8].length = 2 := rfl
      obtain ⟨x, v, t', hx, hcall, houtput, hunique⟩ := formula_exact hm (List.mem_cons_self ..)
        (by decide) (.binary (by decide) (.binary (by decide) (.use (by decide)) (.use (by decide)))
          (.binary (by decide) .argument .int)) hargs "printf" .empty
      have hv : -24 = v := (hunique (-24)).mp (Option.some.inj hx ▸ by decide)
      exact ⟨m, rfl, t', hv ▸ hcall, houtput⟩

end SlotLang
