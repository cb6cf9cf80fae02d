import Mathlib.Data.Int.ModEq
import Bytecode.Proofs.Streams

/-!
The operations on two integers, as the machine carries them out.

`BinaryOp.Leaves` and `BinaryOp.Refuses` say what every machine does that is about
to apply an operation to two given integers, whatever lies below them and whatever
its streams are. Both come down to `BinaryOp.apply`. The results are then described
by the integers that the words stand for: sums, differences and products up to a
multiple of `2 ^ 64`, quotients rounded towards zero, remainders with the sign of
the left operand.
-/

namespace Bytecode

/-! ## Operations on the stack -/

/-- A machine that is about to apply an operation to two integers, the left one
below the right one, with other values below them. -/
structure Machine.Applies (m : Machine) (op : BinaryOp) (below : List Value)
    (a b : Int64) : Prop where
  attempted : m.attempted? = some (.binary op)
  operands : m.stack.values = below ++ [.int a, .int b]

namespace BinaryOp

/-- The operation puts a result in the place of its two operands. -/
def Leaves (op : BinaryOp) (a b result : Int64) : Prop :=
  ∀ (m : Machine) (below : List Value) (console : Console), m.Applies op below a b →
    (m.step console).result = .ok .running ∧
      (m.step console).machine.stack.values = below ++ [.int result] ∧
      (m.step console).console = console

/-- The operation fails and leaves everything as it was. -/
def Refuses (op : BinaryOp) (a b : Int64) (trap : Trap) : Prop :=
  ∀ (m : Machine) (below : List Value) (console : Console), m.Applies op below a b →
    (m.step console).result = .error (m.fault trap (some (.binary op))) ∧
      (m.step console).machine = m ∧
      (m.step console).console = console

end BinaryOp

namespace Machine

variable {m : Machine} {op : BinaryOp} {below : List Value} {a b : Int64}

theorem Applies.stack_eq (applies : m.Applies op below a b) :
    m.stack = .int b :: .int a :: below.reverse := by
  have operands := congrArg List.reverse applies.operands
  unfold Stack.values at operands
  rw [List.reverse_reverse, List.reverse_append] at operands
  exact operands

/-- A step applies the operation to the two integers. -/
theorem Applies.step_eq (applies : m.Applies op below a b) (console : Console) :
    m.step console = m.settle (.binary op)
      (match op.apply a b with
      | .ok result => .done (.int result :: below.reverse) console
      | .error trap => .failed trap m.stack console) := by
  rw [step_attempted applies.attempted]
  congr 1
  unfold Instruction.demand Demand.meet BinaryOp.combine
  rw [applies.stack_eq]
  dsimp only [Value.int?]
  cases op.apply a b <;> rfl

/-- Two integers on the stack of a machine that has nothing else to do. -/
def applying (op : BinaryOp) (a b : Int64) : Machine :=
  ⟨⟨[], [.binary op]⟩, [.int b, .int a], 0, 0, false⟩

theorem applies_applying (op : BinaryOp) (a b : Int64) :
    (applying op a b).Applies op [] a b :=
  ⟨rfl, rfl⟩

end Machine

namespace BinaryOp

variable {op : BinaryOp} {a b : Int64}

theorem leaves_iff {result : Int64} :
    op.Leaves a b result ↔ op.apply a b = .ok result := by
  constructor
  · intro leaves
    have applies := Machine.applies_applying op a b
    obtain ⟨goesOn, stack, -⟩ :=
      leaves _ _ (.fresh (.ofBytes []) .unlimited) applies
    rw [applies.step_eq] at goesOn stack
    cases applied : op.apply a b with
    | error trap =>
      rw [applied] at goesOn
      cases goesOn
    | ok other =>
      rw [applied] at stack
      cases stack
      rfl
  · intro applied m below console applies
    rw [applies.step_eq, applied]
    refine ⟨rfl, ?_, rfl⟩
    change (Value.int result :: below.reverse).reverse = _
    rw [List.reverse_cons, List.reverse_reverse]

theorem refuses_of_apply {trap : Trap} (failed : op.apply a b = .error trap) :
    op.Refuses a b trap := by
  intro m below console applies
  rw [applies.step_eq, failed]
  exact ⟨rfl, rfl, rfl⟩

/-! ## Sums, differences and products -/

/-- The operation leaves the one word that an integer comes to when multiples of
`2 ^ 64` do not count. -/
def Wraps (op : BinaryOp) (a b : Int64) (exact : Int) : Prop :=
  ∃ result, op.Leaves a b result ∧
    ∀ w : Int64, w.toInt ≡ exact [ZMOD 2 ^ 64] ↔ w = result

/-- Words stand for integers of which no two are congruent. -/
theorem eq_of_modEq {v w : Int64} (same : v.toInt ≡ w.toInt [ZMOD 2 ^ 64]) : v = w := by
  have := v.le_toInt
  have := v.toInt_lt
  have := w.le_toInt
  have := w.toInt_lt
  have multiple := same.dvd
  rw [← Int64.toInt_inj]
  omega

theorem modEq_of_toInt_eq {w : Int64} {exact : Int}
    (wrapped : w.toInt = exact.bmod (2 ^ 64)) : w.toInt ≡ exact [ZMOD 2 ^ 64] := by
  rw [wrapped]
  exact Int.bmod_emod

theorem wraps_of_apply {w : Int64} {exact : Int} (applied : op.apply a b = .ok w)
    (wrapped : w.toInt = exact.bmod (2 ^ 64)) : op.Wraps a b exact := by
  refine ⟨w, leaves_iff.2 applied, fun v => ⟨fun congruent => ?_, ?_⟩⟩
  · exact eq_of_modEq (congruent.trans (modEq_of_toInt_eq wrapped).symm)
  · rintro rfl
    exact modEq_of_toInt_eq wrapped

/-! ## Quotients and remainders -/

theorem toInt_ne_zero (nonzero : b ≠ 0) : b.toInt ≠ 0 := by
  intro zero
  exact nonzero (Int64.toInt_inj.1 zero)

/-- Only one quotient is not a word. -/
theorem toInt_quotient (inRange : ¬ (a.toInt = -2 ^ 63 ∧ b.toInt = -1)) :
    (a / b).toInt = a.toInt.tdiv b.toInt := by
  by_cases least : a.toInt = -2 ^ 63
  · apply Int64.toInt_div_of_ne_right
    rintro rfl
    exact inRange ⟨least, rfl⟩
  · apply Int64.toInt_div_of_ne_left
    rintro rfl
    exact least rfl

theorem natAbs_remainder_lt (nonzero : b ≠ 0) :
    (a % b).toInt.natAbs < b.toInt.natAbs := by
  rw [Int64.toInt_mod, Int.natAbs_tmod]
  exact Nat.mod_lt _ (Int.natAbs_pos.2 (toInt_ne_zero nonzero))

theorem sign_remainder (a b : Int64) :
    (a % b).toInt = 0 ∨ (a % b).toInt.sign = a.toInt.sign := by
  have sign := Int.sign_tmod a.toInt b.toInt
  rw [Int64.toInt_mod]
  split at sign
  · exact .inl (Int.sign_eq_zero_iff_zero.1 sign)
  · exact .inr sign

/-- The quotient that is not a word is wrapped, and so it too is the exact one up to a
multiple of `2 ^ 64`. -/
theorem quotient_remainder (a b : Int64) :
    (a / b).toInt * b.toInt + (a % b).toInt ≡ a.toInt [ZMOD 2 ^ 64] := by
  calc
    (a / b).toInt * b.toInt + (a % b).toInt
        ≡ a.toInt.tdiv b.toInt * b.toInt + (a % b).toInt [ZMOD 2 ^ 64] :=
      ((modEq_of_toInt_eq (Int64.toInt_div a b)).mul_right _).add_right _
    _ = a.toInt := by rw [Int64.toInt_mod, Int.tdiv_mul_add_tmod]

/-! ## Comparisons -/

/-- The operation tells whether something holds. -/
def Tells (op : BinaryOp) (a b : Int64) (holds : Prop) : Prop :=
  (holds → op.Leaves a b 1) ∧ (¬ holds → op.Leaves a b 0)

theorem tells_of_apply {holds : Prop} [Decidable holds]
    (applied : op.apply a b = .ok (truth (decide holds))) : op.Tells a b holds := by
  constructor
  · intro yes
    rw [decide_eq_true yes] at applied
    exact leaves_iff.2 applied
  · intro no
    rw [decide_eq_false no] at applied
    exact leaves_iff.2 applied

theorem Tells.leaves_one_iff {holds : Prop} (tells : op.Tells a b holds) :
    op.Leaves a b 1 ↔ holds := by
  constructor
  · intro one
    by_contra no
    have zero := leaves_iff.1 (tells.2 no)
    rw [leaves_iff.1 one] at zero
    cases zero
  · exact tells.1

theorem lt_tells (a b : Int64) : lt.Tells a b (a.toInt < b.toInt) := by
  apply tells_of_apply
  simp only [apply, Int64.lt_iff_toInt_lt]

theorem le_tells (a b : Int64) : le.Tells a b (a.toInt ≤ b.toInt) := by
  apply tells_of_apply
  simp only [apply, Int64.le_iff_toInt_le]

theorem gt_tells (a b : Int64) : gt.Tells a b (b.toInt < a.toInt) := by
  apply tells_of_apply
  simp only [apply, Int64.lt_iff_toInt_lt]

theorem ge_tells (a b : Int64) : ge.Tells a b (b.toInt ≤ a.toInt) := by
  apply tells_of_apply
  simp only [apply, Int64.le_iff_toInt_le]

/-! ## All operations -/

/-- What a division by anything but zero leaves as quotient and remainder. -/
structure Divided (a b q r : Int64) : Prop where
  truncated : ¬ (a.toInt = -2 ^ 63 ∧ b.toInt = -1) → q.toInt = a.toInt.tdiv b.toInt
  /-- The quotient `2 ^ 63` is not a word. -/
  wrapped : a.toInt = -2 ^ 63 → b.toInt = -1 → q.toInt = -2 ^ 63
  small : r.toInt.natAbs < b.toInt.natAbs
  signed : r.toInt = 0 ∨ r.toInt.sign = a.toInt.sign
  whole : q.toInt * b.toInt + r.toInt ≡ a.toInt [ZMOD 2 ^ 64]

theorem divided (nonzero : b ≠ 0) : Divided a b (a / b) (a % b) where
  truncated := toInt_quotient
  wrapped := by
    intro least negative
    rw [Int64.toInt_div, least, negative]
    decide
  small := natAbs_remainder_lt nonzero
  signed := sign_remainder a b
  whole := quotient_remainder a b

/-- What becomes of two integers on the stack, the left one below the right one, for
each of the nine operations. -/
theorem leaves_exact (a b : Int64) :
    add.Wraps a b (a.toInt + b.toInt) ∧
    sub.Wraps a b (a.toInt - b.toInt) ∧
    mul.Wraps a b (a.toInt * b.toInt) ∧
    (b ≠ 0 → ∃ q r, div.Leaves a b q ∧ mod.Leaves a b r ∧ Divided a b q r) ∧
    (b = 0 → div.Refuses a b .divisionByZero ∧ mod.Refuses a b .divisionByZero) ∧
    gt.Tells a b (b.toInt < a.toInt) ∧
    lt.Tells a b (a.toInt < b.toInt) ∧
    ge.Tells a b (b.toInt ≤ a.toInt) ∧
    le.Tells a b (a.toInt ≤ b.toInt) ∧
    Xor (lt.Leaves a b 1) (ge.Leaves a b 1) ∧
    Xor (gt.Leaves a b 1) (le.Leaves a b 1) := by
  refine ⟨wraps_of_apply rfl (Int64.toInt_add a b),
    wraps_of_apply rfl (Int64.toInt_sub a b),
    wraps_of_apply rfl (Int64.toInt_mul a b), fun nonzero => ?_, fun zero => ?_,
    gt_tells a b, lt_tells a b, ge_tells a b, le_tells a b, ?_, ?_⟩
  · exact ⟨a / b, a % b, leaves_iff.2 (if_neg nonzero), leaves_iff.2 (if_neg nonzero),
      divided nonzero⟩
  · exact ⟨refuses_of_apply (if_pos zero), refuses_of_apply (if_pos zero)⟩
  · rw [(lt_tells a b).leaves_one_iff, (ge_tells a b).leaves_one_iff, xor_iff_not_iff]
    omega
  · rw [(gt_tells a b).leaves_one_iff, (le_tells a b).leaves_one_iff, xor_iff_not_iff]
    omega

/-- The one quotient that is wrapped, and its remainder. -/
theorem leaves_exact_least :
    let a := Int64.minValue
    let b : Int64 := -1
    b ≠ 0 ∧ ∃ q r, div.Leaves a b q ∧ mod.Leaves a b r ∧ q.toInt = -2 ^ 63 ∧
      r.toInt = 0 := by
  intro a b
  have nonzero : b ≠ 0 := by decide
  obtain ⟨-, -, -, divides, -⟩ := leaves_exact a b
  obtain ⟨q, r, quotient, remainder, divided⟩ := divides nonzero
  have small : r.toInt.natAbs < 1 := divided.small
  exact ⟨nonzero, q, r, quotient, remainder, divided.wrapped rfl rfl, by omega⟩

end BinaryOp

end Bytecode
