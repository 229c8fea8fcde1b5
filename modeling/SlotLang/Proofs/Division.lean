import SlotLang.Machine.Value

/-!
# SlotLang.Proofs.Division

Division and remainder belong together on all 64-bit integers. There is one pair of operands whose
quotient does not fit into 64 bits, and it needs no exception in the law that joins the two: the
product wraps around just as the quotient does.
-/

namespace SlotLang

/-! ### Quotients -/

/-- A quotient is the integer quotient toward zero, reduced to 64 bits. -/
theorem div_eq_ofInt_tdiv (l r : Int64) : l / r = Int64.ofInt (l.toInt.tdiv r.toInt) := by
  rw [← Int64.toInt_inj, Int64.toInt_div, Int64.toInt_ofInt, Int64.size]

/-- The only quotient that is too large is that of the least integer by minus one. -/
theorem toInt_div_of_fits {l r : Int64} (h : ¬ (l = Int64.minValue ∧ r = -1)) :
    (l / r).toInt = l.toInt.tdiv r.toInt := by
  by_cases hl : l = Int64.minValue
  · exact Int64.toInt_div_of_ne_right l r fun hr => h ⟨hl, hr⟩
  · exact Int64.toInt_div_of_ne_left l r hl

/-! ### Remainders -/

/-- The remainder fits, so the law of the integers holds for what is reduced from it. -/
theorem div_mul_add_mod (l r : Int64) : l / r * r + l % r = l := by
  have hmod : l % r = Int64.ofInt (l.toInt.tmod r.toInt) := by
    rw [← Int64.toInt_mod, Int64.ofInt_toInt]
  calc l / r * r + l % r
      = Int64.ofInt (l.toInt.tdiv r.toInt) * Int64.ofInt r.toInt +
          Int64.ofInt (l.toInt.tmod r.toInt) := by
        rw [div_eq_ofInt_tdiv, hmod, Int64.ofInt_toInt]
    _ = Int64.ofInt (l.toInt.tdiv r.toInt * r.toInt + l.toInt.tmod r.toInt) := by
        rw [Int64.ofInt_add, Int64.ofInt_mul]
    _ = l := by rw [Int.tdiv_mul_add_tmod, Int64.ofInt_toInt]

theorem natAbs_mod_lt (l : Int64) {r : Int64} (hr : r ≠ 0) :
    (l % r).toInt.natAbs < r.toInt.natAbs := by
  have hpos : 0 < r.toInt.natAbs := by
    rw [Int.natAbs_pos]
    intro h
    exact hr (Int64.toInt_inj.mp h)
  rw [Int64.toInt_mod, Int.natAbs_tmod]
  exact Nat.mod_lt _ hpos

theorem mod_eq_zero_or_sign_eq (l r : Int64) :
    l % r = 0 ∨ (l % r).toInt.sign = l.toInt.sign := by
  have hsign := Int.sign_tmod l.toInt r.toInt
  rw [← Int64.toInt_mod] at hsign
  split at hsign
  · exact .inl (Int64.toInt_inj.mp (Int.sign_eq_zero_iff_zero.mp hsign))
  · exact .inr hsign

/-! ### The operations of the machine -/

/-- What quotient and remainder are to each other and to their operands. -/
structure BinOp.QuotRem (l r q m : Int64) : Prop where
  /-- Multiplying and adding leads back to the dividend. -/
  rebuilt : ∃ product, mul.apply q r = .ok product ∧ add.apply product m = .ok l
  smaller : m.toInt.natAbs < r.toInt.natAbs
  sign : m = 0 ∨ m.toInt.sign = l.toInt.sign
  quotient : q = Int64.ofInt (l.toInt.tdiv r.toInt)
  /-- The quotient is exact, with one exception. -/
  exact : if l = Int64.minValue ∧ r = -1 then q = Int64.minValue ∧ m = 0
    else q.toInt = l.toInt.tdiv r.toInt

theorem BinOp.quotRem_div_mod (l : Int64) {r : Int64} (hr : r ≠ 0) :
    QuotRem l r (l / r) (l % r) := by
  refine ⟨⟨l / r * r, rfl, ?_⟩, natAbs_mod_lt l hr, mod_eq_zero_or_sign_eq l r,
    div_eq_ofInt_tdiv l r, ?_⟩
  · rw [apply, div_mul_add_mod]
  · split
    · next h =>
      obtain ⟨rfl, rfl⟩ := h
      decide
    · next h => exact toInt_div_of_fits h

/-- Division and remainder fail for the divisor zero and for no other; all other divisors yield a
quotient and a remainder that belong together. -/
theorem BinOp.division_law (l r : Int64) :
    (r = 0 ∧ sdiv.apply l r = .error .divisionByZero ∧ srem.apply l r = .error .remainderByZero) ∨
      (r ≠ 0 ∧ ∃ q m, sdiv.apply l r = .ok q ∧ srem.apply l r = .ok m ∧ QuotRem l r q m) := by
  by_cases hr : r = 0
  · exact .inl ⟨hr, if_pos hr, if_pos hr⟩
  · exact .inr ⟨hr, l / r, l % r, if_neg hr, if_neg hr, quotRem_div_mod l hr⟩

end SlotLang
