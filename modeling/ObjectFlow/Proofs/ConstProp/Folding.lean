import Mathlib.Algebra.Order.Floor.Semiring
import Mathlib.Data.Int.Bitwise
import Mathlib.Data.Int.ModEq
import Mathlib.Data.Rat.Floor
import ObjectFlow.ConstProp.Faults
import ObjectFlow.Proofs.ConstProp.Soundness

/-!
# Folding of constants

What evaluation makes of two words is said of the whole numbers that the words stand for (`Exact`):
sums, differences, products and shifts to the left are taken modulo `2 ^ 64` (`Wraps`), quotients
are truncated (`Divides`), shifts to the right rounded down. Evaluation tests for the divisor zero
before it divides, and takes the amount of a shift modulo 64 before it shifts, so no operation is
ever refused (`evalOp?_eq`).
-/

namespace ObjectFlow

/-! ## Words and whole numbers -/

/-- The number of the word is what `n` is modulo `2 ^ 64`, in the signed range. -/
structure Wraps (c : Int64) (n : ℤ) : Prop where
  modEq : c.toInt ≡ n [ZMOD 2 ^ 64]
  le : -2 ^ 63 ≤ c.toInt
  lt : c.toInt < 2 ^ 63

theorem wraps_of_modEq {c : Int64} {n : ℤ} (h : c.toInt ≡ n [ZMOD 2 ^ 64]) : Wraps c n :=
  ⟨h, c.le_toInt, c.toInt_lt⟩

theorem wraps_of_toInt_eq {c : Int64} {n : ℤ} (h : c.toInt = n.bmod (2 ^ 64)) : Wraps c n := by
  refine wraps_of_modEq ?_
  rw [h]
  exact Int.bmod_emod

/-- With and without a sign, a word stands for the same number modulo `2 ^ 64`. -/
theorem toInt_modEq_toNat (c : Int64) : c.toInt ≡ c.toBitVec.toNat [ZMOD 2 ^ 64] := by
  show c.toBitVec.toInt ≡ _ [ZMOD 2 ^ 64]
  rw [BitVec.toInt_eq_toNat_bmod]
  exact Int.bmod_emod

/-- The bits of a word are those of its number, which has the bit of the sign for ever after. -/
theorem testBit_toInt {w : ℕ} (x : BitVec w) (i : ℕ) :
    x.toInt.testBit i = if i < w then x.getLsbD i else x.msb := by
  have hlt := x.isLt
  cases hm : x.msb with
  | false =>
    rw [BitVec.toInt_eq_toNat_of_msb hm]
    show x.toNat.testBit i = _
    split
    · rfl
    · exact BitVec.getLsbD_of_ge x i (by omega)
  | true =>
    have hneg : x.toInt = .negSucc (2 ^ w - (x.toNat + 1)) := by
      rw [BitVec.toInt_eq_msb_cond, if_pos hm, Int.negSucc_eq, Int.ofNat_sub hlt]
      push_cast
      omega
    rw [hneg]
    show (!(2 ^ w - (x.toNat + 1)).testBit i) = _
    rw [Nat.testBit_two_pow_sub_succ hlt]
    split <;> simp_all [BitVec.getLsbD]

/-! ## Division -/

/-- `q` and `r` are quotient and remainder of `a` by `b`: the quotient is truncated, unless it is
too large for a word. -/
structure Divides (a b q r : Int64) : Prop where
  modEq : a.toInt ≡ q.toInt * b.toInt + r.toInt [ZMOD 2 ^ 64]
  abs_lt : |r.toInt| < |b.toInt|
  sign : r = 0 ∨ r.toInt.sign = a.toInt.sign
  truncated : ¬ (a = Int64.minValue ∧ b = -1) → q.toInt = a.toInt.tdiv b.toInt
  overflow : a = Int64.minValue → b = -1 → q = Int64.minValue ∧ r = 0

theorem divides_div_mod (a : Int64) {b : Int64} (hb : b ≠ 0) : Divides a b (a / b) (a % b) where
  modEq := by
    have hq : (a / b).toInt ≡ a.toInt.tdiv b.toInt [ZMOD 2 ^ 64] := by
      rw [Int64.toInt_div]
      exact Int.bmod_emod
    calc a.toInt = a.toInt.tdiv b.toInt * b.toInt + a.toInt.tmod b.toInt :=
          (Int.tdiv_mul_add_tmod _ _).symm
      _ ≡ (a / b).toInt * b.toInt + (a % b).toInt [ZMOD 2 ^ 64] := by
          rw [Int64.toInt_mod]
          exact (hq.symm.mul_right _).add_right _
  abs_lt := by
    have hb0 : b.toInt ≠ 0 := fun h => hb (Int64.toInt_inj.1 h)
    rw [Int64.toInt_mod, Int.abs_eq_natAbs, Int.abs_eq_natAbs, Int.natAbs_tmod]
    exact_mod_cast Nat.mod_lt _ (Int.natAbs_pos.2 hb0)
  sign := by
    have hsign := Int.sign_tmod a.toInt b.toInt
    rw [← Int64.toInt_mod] at hsign
    split at hsign
    · exact .inl (Int64.toInt_inj.1 (Int.sign_eq_zero_iff_zero.1 hsign))
    · exact .inr hsign
  truncated h := by
    by_cases ha : a = Int64.minValue
    · exact Int64.toInt_div_of_ne_right _ _ fun hb => h ⟨ha, hb⟩
    · exact Int64.toInt_div_of_ne_left _ _ ha
  overflow := by
    rintro rfl rfl
    decide

/-! ## Shifts -/

/-- The amount of a shift by a word. -/
def shiftAmount (b : Int64) : ℕ := (b.toInt % 64).toNat

theorem shiftAmount_lt (b : Int64) : shiftAmount b < 64 := by
  unfold shiftAmount
  omega

/-- The last six bits of a word are the amount of a shift. -/
theorem toNat_and_63 (b : Int64) : (b &&& 63).toBitVec.toNat = shiftAmount b := by
  have hmod : b.toInt % 64 = (b.toBitVec.toNat : ℤ) % 64 := by
    have h := toInt_modEq_toNat b
    unfold Int.ModEq at h
    omega
  rw [shiftAmount, hmod, Int64.toBitVec_and, BitVec.toNat_and]
  exact Nat.and_two_pow_sub_one_eq_mod _ 6

theorem toNat_smod_64 (b : Int64) : ((b &&& 63).toBitVec.smod 64).toNat = shiftAmount b := by
  have hb := toNat_and_63 b
  have hlt := shiftAmount_lt b
  have hmsb : (b &&& 63).toBitVec.msb = false := by
    rw [BitVec.msb_eq_decide, hb]
    exact decide_eq_false (by omega)
  rw [BitVec.smod_eq, hmsb]
  show ((b &&& 63).toBitVec.umod 64).toNat = _
  rw [BitVec.umod_eq, BitVec.toNat_umod, hb]
  exact Nat.mod_eq_of_lt hlt

theorem wraps_left (a b : Int64) :
    Wraps (ShiftOp.left.eval a b) (a.toInt * 2 ^ shiftAmount b) := by
  refine wraps_of_modEq ((toInt_modEq_toNat _).trans ?_)
  rw [ShiftOp.eval, Int64.toBitVec_shiftLeft, BitVec.shiftLeft_eq', toNat_smod_64,
    BitVec.toNat_shiftLeft, Nat.shiftLeft_eq]
  push_cast
  exact (Int.mod_modEq _ _).trans ((toInt_modEq_toNat a).symm.mul_right _)

theorem floor_div_two_pow (n : ℤ) (k : ℕ) : ⌊(n : ℚ) / 2 ^ k⌋ = n / 2 ^ k := by
  have h := Rat.floor_intCast_div_natCast n (2 ^ k)
  push_cast at h
  exact h

theorem toInt_right (a b : Int64) :
    (ShiftOp.right.eval a b).toInt = ⌊(a.toInt : ℚ) / 2 ^ shiftAmount b⌋ := by
  rw [floor_div_two_pow]
  show (a >>> (b &&& 63)).toBitVec.toInt = _
  rw [Int64.toBitVec_shiftRight, BitVec.sshiftRight', toNat_smod_64, BitVec.toInt_sshiftRight,
    Int.shiftRight_eq_div_pow]
  push_cast
  rfl

theorem wraps_rightZero (a b : Int64) :
    Wraps (ShiftOp.rightZero.eval a b) ⌊((a.toInt % 2 ^ 64 : ℤ) : ℚ) / 2 ^ shiftAmount b⌋ := by
  have hb : (b &&& 63).toUInt64.toNat = shiftAmount b := toNat_and_63 b
  have ha : a.toInt % 2 ^ 64 = a.toUInt64.toNat := by
    have hlt := a.toUInt64.toNat_lt
    rw [toInt_modEq_toNat a]
    show (a.toUInt64.toNat : ℤ) % _ = _
    omega
  refine wraps_of_modEq ((toInt_modEq_toNat _).trans ?_)
  rw [floor_div_two_pow, ha, ShiftOp.eval, UInt64.toBitVec_toInt64]
  show ((a.toUInt64 >>> (b &&& 63).toUInt64).toNat : ℤ) ≡ _ [ZMOD _]
  rw [UInt64.toNat_shiftRight, hb, Nat.mod_eq_of_lt (shiftAmount_lt b), Nat.shiftRight_eq_div_pow]
  push_cast
  rfl

/-! ## Bits and comparisons -/

def BitwiseOp.onBits : BitwiseOp → Bool → Bool → Bool
  | or, x, y => x || y
  | and, x, y => x && y
  | xor, x, y => x ^^ y

theorem testBit_bitwise (op : BitwiseOp) (a b : Int64) (i : ℕ) :
    (op.eval a b).toInt.testBit i = op.onBits (a.toInt.testBit i) (b.toInt.testBit i) := by
  simp only [← Int64.toInt_toBitVec, testBit_toInt]
  cases op <;> split <;> simp [BitwiseOp.eval, BitwiseOp.onBits]

def CompareOp.Relates : CompareOp → ℤ → ℤ → Prop
  | eq, x, y => x = y
  | ne, x, y => x ≠ y
  | lt, x, y => x < y
  | gt, x, y => x > y
  | le, x, y => x ≤ y
  | ge, x, y => x ≥ y

theorem holds_iff (op : CompareOp) (a b : Int64) :
    op.holds a b = true ↔ op.Relates a.toInt b.toInt := by
  cases op <;> simp [CompareOp.holds, CompareOp.Relates, Int64.lt_iff_toInt_lt,
    Int64.le_iff_toInt_le, Int64.toInt_inj]

/-! ## Folding -/

namespace ConstProp

/-- The values of operations on two words, in terms of the whole numbers `a` and `b` that these
stand for. -/
structure Exact (value : BinaryOp → Value) (a b : Int64) : Prop where
  add : ∃ c, value (.arithmetic .add) = .constant c ∧ Wraps c (a.toInt + b.toInt)
  sub : ∃ c, value (.arithmetic .sub) = .constant c ∧ Wraps c (a.toInt - b.toInt)
  mul : ∃ c, value (.arithmetic .mul) = .constant c ∧ Wraps c (a.toInt * b.toInt)
  divide : b ≠ 0 → ∃ q r, value (.arithmetic .div) = .constant q ∧
    value (.arithmetic .rem) = .constant r ∧ Divides a b q r
  left : ∃ c, value (.shift .left) = .constant c ∧ Wraps c (a.toInt * 2 ^ shiftAmount b)
  right : ∃ c, value (.shift .right) = .constant c ∧ c.toInt = ⌊(a.toInt : ℚ) / 2 ^ shiftAmount b⌋
  rightZero : ∃ c, value (.shift .rightZero) = .constant c ∧
    Wraps c ⌊((a.toInt % 2 ^ 64 : ℤ) : ℚ) / 2 ^ shiftAmount b⌋
  bitwise (op : BitwiseOp) : ∃ c, value (.bitwise op) = .constant c ∧
    ∀ i, c.toInt.testBit i = op.onBits (a.toInt.testBit i) (b.toInt.testBit i)
  compare (op : CompareOp) : ∃ c, value (.compare op) = .constant c ∧
    (op.Relates a.toInt b.toInt → c = 1) ∧ (¬ op.Relates a.toInt b.toInt → c = 0)

theorem exact_eval {value : BinaryOp → Value} {a b : Int64}
    (h : ∀ op, ¬ (op.divides ∧ b = 0) → value op = .constant (op.eval a b)) : Exact value a b where
  add := ⟨_, h _ (by simp [BinaryOp.divides]), wraps_of_toInt_eq (Int64.toInt_add a b)⟩
  sub := ⟨_, h _ (by simp [BinaryOp.divides]), wraps_of_toInt_eq (Int64.toInt_sub a b)⟩
  mul := ⟨_, h _ (by simp [BinaryOp.divides]), wraps_of_toInt_eq (Int64.toInt_mul a b)⟩
  divide hb := ⟨_, _, h _ fun hz => hb hz.2, h _ fun hz => hb hz.2, divides_div_mod a hb⟩
  left := ⟨_, h _ (by simp [BinaryOp.divides]), wraps_left a b⟩
  right := ⟨_, h _ (by simp [BinaryOp.divides]), toInt_right a b⟩
  rightZero := ⟨_, h _ (by simp [BinaryOp.divides]), wraps_rightZero a b⟩
  bitwise op := ⟨_, h _ (by simp [BinaryOp.divides]), testBit_bitwise op a b⟩
  compare op := by
    refine ⟨_, h _ (by simp [BinaryOp.divides]), fun hr => ?_, fun hr => ?_⟩
    · exact if_pos ((holds_iff op a b).2 hr)
    · exact if_neg fun hh => hr ((holds_iff op a b).1 hh)

/-- The machine refuses a division by zero only: the amounts of shifts are small. -/
theorem native?_eq_some {op : BinaryOp} {a b : Int64} (h : ¬ (op.divides ∧ b = 0)) :
    op.native? a b = some (op.eval a b) := by
  cases op with
  | arithmetic op =>
    cases op with
    | div => exact if_neg fun hb => h ⟨rfl, hb⟩
    | rem => exact if_neg fun hb => h ⟨rfl, hb⟩
    | _ => rfl
  | shift op =>
    cases op with
    | rightZero =>
      have hlt : (b &&& 63).toUInt64 < 64 := by
        rw [UInt64.lt_iff_toNat_lt]
        exact (toNat_and_63 b).trans_lt (shiftAmount_lt b)
      exact if_pos hlt
    | _ => rfl
  | compare op => rfl
  | bitwise op => rfl

/-- Evaluation never asks for what the machine refuses. -/
theorem evalOp?_eq (op : BinaryOp) (x y : Value) : evalOp? op x y = some (evalOp op x y) := by
  unfold evalOp? evalOp
  split
  · rfl
  · rename_i hz
    cases x with
    | constant a =>
      cases y with
      | constant b =>
        have hb : ¬ (op.divides ∧ b = 0) := fun h => hz ⟨h.1, congrArg Value.constant h.2⟩
        exact congrArg (Option.map Value.constant) (native?_eq_some hb)
      | _ => rfl
    | _ => cases y <;> rfl

theorem evalOp_constant (op : BinaryOp) (a b : Int64) : evalOp op (.constant a) (.constant b) =
    if op.divides ∧ b = 0 then .undef else .constant (op.eval a b) := by
  simp only [evalOp, Value.constant.injEq]

theorem divides_iff {op : BinaryOp} :
    op.divides = true ↔ op = .arithmetic .div ∨ op = .arithmetic .rem := by
  unfold BinaryOp.divides
  split <;> simp_all

/-- Operations on two variables that hold constants are never refused. Division by zero gives no
value, and everything else the constant that the whole numbers have for result. -/
theorem folding_exact {holdsInt : VarId → Bool} {f : Fact} {v w : VarId} {a b : Int64}
    (hv : holdsInt v) (hw : holdsInt w) (ha : f.get v = .constant a) (hb : f.get w = .constant b) :
    (∀ op, evalBinary? holdsInt f ⟨op, v, w⟩ = some (evalBinary holdsInt f ⟨op, v, w⟩)) ∧
    (∀ op, evalBinary holdsInt f ⟨op, v, w⟩ = .undef ↔
      (op = .arithmetic .div ∨ op = .arithmetic .rem) ∧ b = 0) ∧
    (∀ op, ¬ ((op = .arithmetic .div ∨ op = .arithmetic .rem) ∧ b = 0) →
      ∃ c, evalBinary holdsInt f ⟨op, v, w⟩ = .constant c) ∧
    Exact (fun op => evalBinary holdsInt f ⟨op, v, w⟩) a b := by
  have heval : ∀ op, evalBinary holdsInt f ⟨op, v, w⟩ =
      if op.divides ∧ b = 0 then .undef else .constant (op.eval a b) := fun op => by
    rw [evalBinary, evalVar_of_holdsInt hv, evalVar_of_holdsInt hw, ha, hb, evalOp_constant]
  simp only [← divides_iff]
  refine ⟨fun op => evalOp?_eq op _ _, fun op => ?_, fun op hop => ?_,
    exact_eval fun op hop => ?_⟩
  · rw [heval]
    split <;> simp_all
  · exact ⟨_, (heval op).trans (if_neg hop)⟩
  · exact (heval op).trans (if_neg hop)

/-- The least number and minus one. -/
def leastAndMinusOne : Fact :=
  ((∅ : Fact).set ⟨0⟩ (.constant Int64.minValue)).set ⟨1⟩ (.constant (-1))

/-- The least number by minus one wraps around to itself, and nothing remains. -/
theorem folding_exact_least :
    leastAndMinusOne.get ⟨0⟩ = .constant Int64.minValue ∧
    leastAndMinusOne.get ⟨1⟩ = .constant (-1) ∧
    Exact (fun op => evalBinary (fun _ => true) leastAndMinusOne ⟨op, ⟨0⟩, ⟨1⟩⟩)
      Int64.minValue (-1) ∧
    evalBinary? (fun _ => true) leastAndMinusOne ⟨.arithmetic .div, ⟨0⟩, ⟨1⟩⟩ =
      some (.constant Int64.minValue) ∧
    evalBinary? (fun _ => true) leastAndMinusOne ⟨.arithmetic .rem, ⟨0⟩, ⟨1⟩⟩ =
      some (.constant 0) := by
  have hleast : leastAndMinusOne.get ⟨0⟩ = .constant Int64.minValue := by decide +kernel
  have hone : leastAndMinusOne.get ⟨1⟩ = .constant (-1) := by decide +kernel
  obtain ⟨hnative, -, -, hexact⟩ :=
    @folding_exact (fun _ => true) leastAndMinusOne ⟨0⟩ ⟨1⟩ _ _ rfl rfl hleast hone
  obtain ⟨q, r, hq, hr, hdiv⟩ := hexact.divide (by decide)
  obtain ⟨rfl, rfl⟩ := hdiv.overflow rfl rfl
  exact ⟨hleast, hone, hexact, (hnative _).trans (congrArg some hq),
    (hnative _).trans (congrArg some hr)⟩

end ConstProp

end ObjectFlow
