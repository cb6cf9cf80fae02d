import Bytecode.Proofs.PoolGrammar

/-!
JSON integers are read by the grammar.

The reader takes digits as long as the number stays within 64 bits and goes on
to a real when a digit does not fit, or when a fraction or an exponent follows.
`unsigned_natural` reads every natural number that fits and is followed by
neither, `natural_of_unsigned` says that no other text gives an integer, and the
reader never takes a real for an integer (`GivesReal`).
-/

namespace Bytecode

open PoolGrammar

namespace Json

namespace NumberLiteral

/-! ## Digits -/

theorem digit?_eq_some_iff {b : UInt8} {d : Nat} :
    digit? b = some d ↔ IsDigit b ∧ d = b.toNat - 0x30 := by
  unfold digit? IsDigit
  split
  · next digit =>
    rw [Option.some.injEq]
    exact ⟨fun same => ⟨digit, same.symm⟩, fun same => same.2.symm⟩
  · next notDigit =>
    constructor
    · intro impossible
      cases impossible
    · intro digit
      exact absurd digit.1 notDigit

theorem isDigit_iff {b : UInt8} : isDigit b = true ↔ IsDigit b := by
  unfold isDigit
  rw [Option.isSome_iff_exists]
  constructor
  · intro value
    obtain ⟨d, found⟩ := value
    exact (digit?_eq_some_iff.1 found).1
  · intro digit
    exact ⟨_, digit?_eq_some_iff.2 ⟨digit, rfl⟩⟩

theorem le_decimalFrom (start : Nat) (digits : Bytes) :
    start ≤ decimalFrom start digits := by
  induction digits generalizing start with
  | nil => exact Nat.le_refl start
  | cons b digits ih =>
    calc start ≤ start * 10 + (b.toNat - 0x30) := by omega
      _ ≤ decimalFrom (start * 10 + (b.toNat - 0x30)) digits := ih _

/-- The reader of digits takes some of them and gives what they denote. -/
theorem absorb_sound (limit start : Nat) (text : Bytes) :
    ∃ digits, text = digits ++ (absorb limit start text).rest ∧
      (∀ b ∈ digits, IsDigit b) ∧
        (absorb limit start text).value = decimalFrom start digits := by
  fun_induction absorb limit start text with
  | case1 start => exact ⟨[], rfl, by simp, rfl⟩
  | case2 start b rest notDigit => exact ⟨[], rfl, by simp, rfl⟩
  | case3 start b rest d found fits more ih =>
    obtain ⟨digits, textEq, all, value⟩ := ih
    obtain ⟨digit, rfl⟩ := digit?_eq_some_iff.1 found
    refine ⟨b :: digits, congrArg (b :: ·) textEq, ?_, value⟩
    exact List.forall_mem_cons.2 ⟨digit, all⟩
  | case4 start b rest d found tooLarge => exact ⟨[], rfl, by simp, rfl⟩

/-- Digits that fit are all taken, if no other digit follows them. -/
theorem absorb_digits {limit start : Nat} {digits rest : Bytes}
    (all : ∀ b ∈ digits, IsDigit b) (fits : decimalFrom start digits ≤ limit)
    (stops : ∀ b ∈ rest.head?, ¬ IsDigit b) :
    absorb limit start (digits ++ rest) =
      ⟨decimalFrom start digits, digits.length, rest⟩ := by
  induction digits generalizing start with
  | nil =>
    cases rest with
    | nil => rfl
    | cons b rest =>
      have notDigit : digit? b = none := by
        rw [Option.eq_none_iff_forall_ne_some]
        intro d found
        exact stops b rfl (digit?_eq_some_iff.1 found).1
      simp only [List.nil_append, absorb, notDigit]
      rfl
  | cons b digits ih =>
    obtain ⟨digit, others⟩ := List.forall_mem_cons.1 all
    have found := digit?_eq_some_iff.2 ⟨digit, rfl⟩
    have step : start * 10 + (b.toNat - 0x30) ≤ limit :=
      Nat.le_trans (le_decimalFrom _ digits) fits
    simp only [List.cons_append, absorb, found, if_pos step, ih others fits]
    rfl

/-! ## Reals are not integers -/

/-- A reader that gives reals only. -/
def GivesReal (parsed : Parsed Number) : Prop :=
  ∀ number rest, parsed = .ok (number, rest) → ∃ x, number = .real x

theorem givesReal_error (fault : Fault) : GivesReal (.error fault) := by
  intro number rest impossible
  cases impossible

theorem givesReal_signed (negative : Bool) (x : Float) (text : Bytes) :
    GivesReal (.ok (signed negative x, text)) := by
  intro number rest same
  cases same
  exact ⟨_, rfl⟩

theorem givesReal_real (negative : Bool) (significand : Nat) (exponent : Int)
    (text : Bytes) : GivesReal (real negative significand exponent text) := by
  unfold real
  dsimp only
  split
  · exact givesReal_signed _ _ _
  · split
    · exact givesReal_signed _ _ _
    · exact givesReal_error _

theorem givesReal_withExponent (negative : Bool) (significand : Nat)
    (exponent : Int) (text : Bytes) :
    GivesReal (withExponent negative significand exponent text) := by
  unfold withExponent exponentDigits
  split
  · exact givesReal_error _
  · split
    · exact givesReal_error _
    · dsimp only
      split
      · split
        · exact givesReal_error _
        · exact givesReal_signed _ _ _
      · split
        · exact givesReal_real _ _ _ _
        · exact givesReal_real _ _ _ _

theorem givesReal_finish (negative : Bool) (significand : Nat)
    (exponent : Int) (text : Bytes) :
    GivesReal (finish negative significand exponent text) := by
  unfold finish
  split
  · exact givesReal_withExponent _ _ _ _
  · exact givesReal_real _ _ _ _

theorem givesReal_fromWhole (negative : Bool) (significand : Nat)
    (exponent : Int) (text : Bytes) :
    GivesReal (fromWhole negative significand exponent text) := by
  unfold fromWhole
  split
  · exact givesReal_finish _ _ _ _
  · split
    · unfold withFraction
      split
      · exact givesReal_error _
      · split
        · exact givesReal_error _
        · exact givesReal_finish _ _ _ _
    · exact givesReal_finish _ _ _ _

theorem not_givesReal_integer {i : Int} {rest : Bytes} :
    ¬ GivesReal (.ok (.integer i, rest)) := by
  intro real
  obtain ⟨x, impossible⟩ := real _ _ rfl
  cases impossible

/-! ## Integers -/

theorem whole_negative {n : Nat} (nonzero : n ≠ 0)
    (fits : n ≤ 0x8000000000000000) : whole true n = .integer (-n) := by
  have condition : (decide (0 < n) && decide (n ≤ 0x8000000000000000)) = true := by
    rw [Bool.and_eq_true, decide_eq_true_eq, decide_eq_true_eq]
    exact ⟨Nat.pos_of_ne_zero nonzero, fits⟩
  unfold whole
  simp only [Bool.not_true, Bool.false_eq_true, if_false, condition, if_true]
  rfl

theorem integer_of_whole {negative : Bool} {n : Nat} {i : Int}
    (integer : whole negative n = .integer i) :
    (negative = false ∧ i = n) ∨ (negative = true ∧ n ≠ 0 ∧ i = -n) := by
  unfold whole at integer
  cases negative with
  | false =>
    cases integer
    exact Or.inl ⟨rfl, rfl⟩
  | true =>
    simp only [Bool.not_true, Bool.false_eq_true, if_false] at integer
    split at integer
    · next condition =>
      rw [Bool.and_eq_true, decide_eq_true_eq] at condition
      cases integer
      exact Or.inr ⟨rfl, Nat.ne_of_gt condition.1, rfl⟩
    · cases integer

/-- A text that cannot go on a number: it starts with neither a digit nor a
fraction nor an exponent. -/
def Delimited (rest : Bytes) : Prop :=
  ∀ b ∈ rest.head?, ¬ IsDigit b ∧ b ≠ Bytes.ascii '.' ∧
    b ≠ Bytes.ascii 'e' ∧ b ≠ Bytes.ascii 'E'

theorem Delimited.stops {rest : Bytes} (delimited : Delimited rest) :
    rest.head?.any isDigit = false := by
  cases rest with
  | nil => rfl
  | cons b rest =>
    change isDigit b = false
    rw [Bool.eq_false_iff, Ne, isDigit_iff]
    exact (delimited b rfl).1

theorem Delimited.notReal {rest : Bytes} (delimited : Delimited rest) :
    startsReal rest = false := by
  cases rest with
  | nil => rfl
  | cons b rest =>
    obtain ⟨-, notPoint, notSmall, notLarge⟩ := delimited b rfl
    simp only [startsReal, startsExponent, notPoint, notSmall, notLarge,
      decide_false, Bool.or_false]

theorem isDigit_of_natural {digits : Bytes} {n : Nat}
    (natural : Natural digits n) :
    (∀ b ∈ digits, IsDigit b) ∧ n = decimalFrom 0 digits := by
  cases natural with
  | zero =>
    refine ⟨?_, rfl⟩
    intro b member
    rw [List.mem_singleton.1 member]
    decide
  | positive first _ all =>
    exact ⟨List.forall_mem_cons.2 ⟨first, all⟩, rfl⟩

/-- A natural number that fits in 64 bits is read whole. -/
theorem unsigned_natural {negative : Bool} {digits rest : Bytes} {n : Nat}
    (natural : Natural digits n) (fits : n ≤ significandLimit)
    (delimited : Delimited rest) :
    unsigned negative (digits ++ rest) = .ok (whole negative n, rest) := by
  obtain ⟨all, rfl⟩ := isDigit_of_natural natural
  have taken := absorb_digits all fits fun b here => (delimited b here).1
  have noLeadingZero : ∀ first others, digits = first :: others →
      (decide (first = Bytes.ascii '0') &&
        (others ++ rest).head?.any isDigit) = false := by
    intro first others digitsEq
    subst digitsEq
    generalize decimalFrom 0 (first :: others) = n at natural
    cases natural with
    | zero => exact delimited.stops
    | positive _ notZero _ => simp only [notZero, decide_false, Bool.false_and]
  cases digits with
  | nil => cases natural
  | cons first others =>
    have firstDigit := isDigit_iff.2 (all first List.mem_cons_self)
    rw [List.cons_append] at taken ⊢
    simp only [unsigned, firstDigit, noLeadingZero first others rfl, taken,
      delimited.stops, delimited.notReal, Bool.not_true, Bool.false_eq_true,
      if_false]

/-- Digits that begin at a digit and do not follow a leading zero are a natural
number. -/
theorem natural_of_digits {first : UInt8} {others digits rest : Bytes}
    (start : IsDigit first) (textEq : first :: others = digits ++ rest)
    (taken : digits ≠ []) (all : ∀ b ∈ digits, IsDigit b)
    (noLeadingZero : first = Bytes.ascii '0' →
      others.head?.any isDigit = false) :
    Natural digits (decimalFrom 0 digits) := by
  cases digits with
  | nil => exact absurd rfl taken
  | cons b digits =>
    obtain ⟨rfl, rfl⟩ := List.cons.inj textEq
    obtain ⟨-, more⟩ := List.forall_mem_cons.1 all
    by_cases zero : first = Bytes.ascii '0'
    · cases digits with
      | nil =>
        subst zero
        exact .zero
      | cons second digits =>
        have digit := isDigit_iff.2 (more second List.mem_cons_self)
        have notDigit : isDigit second = false := noLeadingZero zero
        rw [notDigit] at digit
        cases digit
    · exact .positive start zero more

theorem absorb_ne_nil {first : UInt8} {others digits : Bytes}
    (start : IsDigit first)
    (textEq : first :: others =
      digits ++ (absorb significandLimit 0 (first :: others)).rest) :
    digits ≠ [] := by
  intro none
  subst none
  have found := digit?_eq_some_iff.2 ⟨start, rfl⟩
  have small : 0 * 10 + (first.toNat - 0x30) ≤ significandLimit := by
    have bound := start.2
    unfold significandLimit
    omega
  simp only [absorb, found, if_pos small, List.nil_append] at textEq
  obtain ⟨more, restEq, -, -⟩ :=
    absorb_sound significandLimit (0 * 10 + (first.toNat - 0x30)) others
  have lengths := congrArg List.length textEq
  have shorter := congrArg List.length restEq
  rw [List.length_cons] at lengths
  rw [List.length_append] at shorter
  omega

/-- What is read as an integer is a natural number of the grammar, after the
sign. -/
theorem natural_of_unsigned {negative : Bool} {text rest : Bytes} {i : Int}
    (ok : unsigned negative text = .ok (.integer i, rest)) :
    ∃ digits n, text = digits ++ rest ∧ Natural digits n ∧
      whole negative n = .integer i := by
  unfold unsigned at ok
  split at ok
  · cases ok
  · next first others =>
    split at ok
    · cases ok
    next start =>
    split at ok
    · cases ok
    next noLeadingZero =>
    dsimp only at ok
    split at ok
    · exact absurd (ok ▸ givesReal_fromWhole _ _ _ _) not_givesReal_integer
    split at ok
    · exact absurd (ok ▸ givesReal_fromWhole _ _ _ _) not_givesReal_integer
    rw [Bool.not_eq_true', Bool.not_eq_false, isDigit_iff] at start
    obtain ⟨digits, textEq, all, value⟩ :=
      absorb_sound significandLimit 0 (first :: others)
    obtain ⟨same, restEq⟩ := Prod.mk.inj (Except.ok.inj ok)
    refine ⟨digits, _, restEq ▸ textEq, natural_of_digits start textEq
      (absorb_ne_nil start textEq) all ?_, value ▸ same⟩
    intro zero
    rw [zero] at noLeadingZero
    simpa using noLeadingZero

/-! ## Integers with their sign -/

theorem integer_of_read {text rest : Bytes} {i : Int}
    (ok : read text = .ok (.integer i, rest)) :
    ∃ literal, text = literal ++ rest ∧ Integer literal i := by
  unfold read at ok
  split at ok
  · cases ok
  · next first others =>
    split at ok
    · next minus =>
      obtain ⟨digits, n, textEq, natural, integer⟩ := natural_of_unsigned ok
      rcases integer_of_whole integer with ⟨⟨⟩, -⟩ | ⟨-, nonzero, rfl⟩
      rw [minus, textEq]
      exact ⟨_ :: digits, rfl, .negative natural nonzero⟩
    · obtain ⟨digits, n, textEq, natural, integer⟩ := natural_of_unsigned ok
      rcases integer_of_whole integer with ⟨-, rfl⟩ | ⟨⟨⟩, -⟩
      exact ⟨digits, textEq, .natural natural⟩

/-- An integer that fits in 64 bits is read back with its sign. -/
theorem read_integer {literal rest : Bytes} {i : Int}
    (integer : Integer literal i) (low : -0x8000000000000000 ≤ i)
    (high : i ≤ 0xFFFFFFFFFFFFFFFF) (delimited : Delimited rest) :
    read (literal ++ rest) = .ok (.integer i, rest) := by
  cases integer with
  | @natural _ n natural =>
    have fits : n ≤ significandLimit := by
      unfold significandLimit
      omega
    cases literal with
    | nil => cases natural
    | cons first others =>
      have notMinus : first ≠ Bytes.ascii '-' := by
        intro minus
        subst minus
        have digit := (isDigit_of_natural natural).1 _ List.mem_cons_self
        exact absurd digit.1 (by decide)
      rw [List.cons_append]
      simp only [read, notMinus, if_false]
      exact unsigned_natural natural fits delimited
  | @negative digits n natural nonzero =>
    have fits : n ≤ significandLimit := by
      unfold significandLimit
      omega
    rw [List.cons_append]
    simp only [read, if_true]
    rw [unsigned_natural natural fits delimited,
      whole_negative nonzero (by omega)]

end NumberLiteral

end Json

end Bytecode
