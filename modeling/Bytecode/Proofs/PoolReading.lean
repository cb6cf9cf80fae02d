import Bytecode.Disassembly
import Bytecode.Proofs.JsonNumbers
import Bytecode.Proofs.JsonStrings

/-!
A constant pool is read exactly by its grammar.

The reader takes any JSON list and refuses afterwards what is not a constant, so
the JSON values that stand for constants (`Disassembly.constantJson`) are the
link: `ofElements_eq_ok_iff` says that a list of values is accepted when it is
the list of the values of some constants, and `complete_eq_ok_iff` that the
texts of such lists are the pool texts. The two loops over the elements are
followed element by element; what may stand between an element and the closing
bracket (`Others`) is what is left to read after each round.
-/

namespace Bytecode

open PoolGrammar Disassembly

/-! ## Constants and JSON values -/

namespace ConstantPool

theorem ofElement_eq_ok_iff {index : Nat} {v : Json.Value} {c : Constant} :
    ofElement index v = .ok c ↔ v = constantJson c := by
  constructor
  · intro ok
    unfold ofElement at ok
    split at ok
    · cases ok
      rfl
    · split at ok
      · next i w found =>
        cases ok
        rw [← Numeral.word?_eq_some_iff.1 found]
        rfl
      · cases ok
    · cases ok
    · cases ok
  · intro same
    subst same
    cases c with
    | int w =>
      simp only [constantJson, ofElement, Numeral.word?_eq_some_iff.2 rfl]
    | str s => rfl

theorem ofElements_eq_ok_iff {index : Nat} {vs : List Json.Value}
    {pool : ConstantPool} :
    ofElements index vs = .ok pool ↔ vs = pool.map constantJson := by
  induction vs generalizing index pool with
  | nil =>
    constructor
    · intro ok
      cases ok
      rfl
    · intro same
      rw [List.map_eq_nil_iff.1 same.symm]
      rfl
  | cons v vs ih =>
    constructor
    · intro ok
      unfold ofElements at ok
      split at ok
      · cases ok
      next c element =>
      split at ok
      · cases ok
      next rest elements =>
      cases ok
      rw [ofElement_eq_ok_iff.1 element, ih.1 elements]
      rfl
    · intro same
      rcases List.map_eq_cons_iff.1 same.symm with ⟨c, rest, rfl, value, values⟩
      simp only [ofElements, ofElement_eq_ok_iff.2 value.symm,
        ih.2 values.symm]

end ConstantPool

namespace Json

/-! ## White space -/

theorem isSpace_iff {b : UInt8} :
    isSpace b = true ↔ b = 0x20 ∨ b = 0x09 ∨ b = 0x0A ∨ b = 0x0D := by
  simp only [isSpace, Bool.or_eq_true, decide_eq_true_eq, or_assoc]

theorem skipSpace_append {before : Bytes} (space : Space before) (rest : Bytes) :
    skipSpace (before ++ rest) = skipSpace rest :=
  List.dropWhile_append_of_pos fun b member => isSpace_iff.2 (space b member)

theorem skipSpace_cons {b : UInt8} (visible : isSpace b = false)
    (rest : Bytes) : skipSpace (b :: rest) = b :: rest :=
  List.dropWhile_cons_of_neg (by rw [visible]; exact Bool.false_ne_true)

theorem skipSpace_past {before : Bytes} {b : UInt8} (space : Space before)
    (visible : isSpace b = false) (rest : Bytes) :
    skipSpace (before ++ b :: rest) = b :: rest := by
  rw [skipSpace_append space, skipSpace_cons visible]

theorem space_append {before after : Bytes} (space : Space before)
    (space' : Space after) : Space (before ++ after) := by
  intro b member
  exact (List.mem_append.1 member).elim (space b) (space' b)

theorem exists_space (text : Bytes) :
    ∃ before, Space before ∧ text = before ++ skipSpace text := by
  refine ⟨text.takeWhile isSpace, ?_, List.takeWhile_append_dropWhile.symm⟩
  intro b member
  exact isSpace_iff.1 (List.all_eq_true.1 List.all_takeWhile b member)

/-! ## Elements -/

theorem meaning_of_word {meaning v : Value} {letters : List Char}
    {text rest : Bytes} (ok : word meaning letters text = .ok (v, rest)) :
    v = meaning := by
  induction letters generalizing text with
  | nil =>
    cases ok
    rfl
  | cons letter letters ih =>
    cases text with
    | nil => cases ok
    | cons b text =>
      unfold word at ok
      split at ok
      · exact ih ok
      · cases ok

theorem constantJson_ne_word (c : Constant) :
    constantJson c ≠ .null ∧ ∀ b, constantJson c ≠ .boolean b := by
  cases c with
  | int w => exact ⟨Value.noConfusion, fun _ => Value.noConfusion⟩
  | str s => exact ⟨Value.noConfusion, fun _ => Value.noConfusion⟩

theorem element_of_scalar {b : UInt8} {rest after : Bytes} {c : Constant}
    (ok : scalar b rest = .ok (constantJson c, after)) :
    ∃ text, b :: rest = text ++ after ∧ Element text c := by
  unfold scalar at ok
  split at ok
  · exact absurd (meaning_of_word ok) (constantJson_ne_word c).1
  split at ok
  · exact absurd (meaning_of_word ok) ((constantJson_ne_word c).2 true)
  split at ok
  · exact absurd (meaning_of_word ok) ((constantJson_ne_word c).2 false)
  split at ok
  · next quote =>
    rcases Parsed.map_eq_ok.1 ok with ⟨s, string, value⟩
    rcases StringLiteral.read_eq_ok_iff.1 string with ⟨body, cs, rfl, letters, rfl⟩
    cases c with
    | int w => cases value
    | str s =>
      cases value
      refine ⟨_ :: body ++ [_], ?_, .string letters⟩
      rw [quote, List.append_assoc]
      rfl
  split at ok
  · rcases Parsed.map_eq_ok.1 ok with ⟨number, read, value⟩
    cases c with
    | str s => cases value
    | int w =>
      cases value
      rcases NumberLiteral.integer_of_read read with ⟨text, textEq, integer⟩
      exact ⟨text, textEq, .integer integer rfl⟩
  · cases ok

theorem constantJson_ne_nested (c : Constant) :
    (∀ items, constantJson c ≠ .array items) ∧
      ∀ members, constantJson c ≠ .object members := by
  cases c with
  | int w => exact ⟨fun _ => Value.noConfusion, fun _ => Value.noConfusion⟩
  | str s => exact ⟨fun _ => Value.noConfusion, fun _ => Value.noConfusion⟩

/-- A value that stands for a constant was written as an element. A list or an
object, however deep, stands for none. -/
theorem element_of_value {rounds depth : Nat} {text after : Bytes}
    {c : Constant} (ok : value rounds depth text = .ok (constantJson c, after)) :
    ∃ before element, text = before ++ (element ++ after) ∧ Space before ∧
      Element element c := by
  rcases exists_space text with ⟨before, space, textEq⟩
  unfold value at ok
  split at ok
  · cases ok
  next b rest skipped =>
  split at ok
  · split at ok
    · cases ok
    · rcases Parsed.map_eq_ok.1 ok with ⟨vs, -, array⟩
      exact absurd array.symm ((constantJson_ne_nested c).1 vs)
  split at ok
  · split at ok
    · cases ok
    · rcases Parsed.map_eq_ok.1 ok with ⟨ms, -, object⟩
      exact absurd object.symm ((constantJson_ne_nested c).2 _)
  rcases element_of_scalar ok with ⟨element, restEq, derived⟩
  rw [skipped, restEq] at textEq
  exact ⟨before, element, textEq, space, derived⟩

/-- The bytes that an integer can begin with. -/
def BeginsInteger (b : UInt8) : Prop :=
  b = Bytes.ascii '-' ∨ IsDigit b

/-- The bytes that an element can begin with. -/
def BeginsElement (b : UInt8) : Prop :=
  b = Bytes.ascii '"' ∨ BeginsInteger b

theorem BeginsInteger.ne {b other : UInt8} (begins : BeginsInteger b)
    (notMinus : other ≠ Bytes.ascii '-')
    (notDigit : other.toNat < 0x30 ∨ 0x39 < other.toNat) : b ≠ other := by
  intro same
  subst same
  rcases begins with minus | digit
  · exact notMinus minus
  · have low := digit.1
    have high := digit.2
    omega

theorem BeginsElement.ne {b other : UInt8} (begins : BeginsElement b)
    (notQuote : other ≠ Bytes.ascii '"') (notMinus : other ≠ Bytes.ascii '-')
    (notDigit : other.toNat < 0x30 ∨ 0x39 < other.toNat) : b ≠ other := by
  rcases begins with quote | integer
  · rw [quote]
    exact notQuote.symm
  · exact integer.ne notMinus notDigit

theorem BeginsElement.visible {b : UInt8} (begins : BeginsElement b) :
    isSpace b = false := by
  rw [Bool.eq_false_iff, Ne, isSpace_iff]
  intro space
  rcases space with space | space | space | space
  · exact begins.ne (by decide) (by decide) (by decide) space
  · exact begins.ne (by decide) (by decide) (by decide) space
  · exact begins.ne (by decide) (by decide) (by decide) space
  · exact begins.ne (by decide) (by decide) (by decide) space

theorem begins_of_integer {text : Bytes} {i : Int} (integer : Integer text i) :
    ∃ b rest, text = b :: rest ∧ BeginsInteger b := by
  cases integer with
  | negative natural _ => exact ⟨_, _, rfl, Or.inl rfl⟩
  | natural natural =>
    cases text with
    | nil => cases natural
    | cons b rest =>
      have digits := (NumberLiteral.isDigit_of_natural natural).1
      exact ⟨b, rest, rfl, Or.inr (digits b List.mem_cons_self)⟩

theorem scalar_integer {b : UInt8} (begins : BeginsInteger b) (rest : Bytes) :
    scalar b rest = (NumberLiteral.read (b :: rest)).map .number := by
  have notNull : b ≠ Bytes.ascii 'n' := begins.ne (by decide) (by decide)
  have notTrue : b ≠ Bytes.ascii 't' := begins.ne (by decide) (by decide)
  have notFalse : b ≠ Bytes.ascii 'f' := begins.ne (by decide) (by decide)
  have notString : b ≠ StringLiteral.quote :=
    begins.ne (by decide) (by decide)
  have number :
      (decide (b = Bytes.ascii '-') || NumberLiteral.isDigit b) = true := by
    rcases begins with minus | digit
    · rw [minus]
      rfl
    · rw [NumberLiteral.isDigit_iff.2 digit, Bool.or_true]
  unfold scalar
  rw [if_neg notNull, if_neg notTrue, if_neg notFalse, if_neg notString,
    if_pos number]

theorem scalar_element {text after : Bytes} {c : Constant}
    (element : Element text c)
    (delimited : NumberLiteral.Delimited after) :
    ∃ b rest, text = b :: rest ∧ BeginsElement b ∧
      scalar b (rest ++ after) = .ok (constantJson c, after) := by
  cases element with
  | @string body cs letters =>
    refine ⟨_, _, rfl, Or.inl rfl, ?_⟩
    change (StringLiteral.read _).map Value.string = _
    rw [Parsed.map_eq_ok]
    refine ⟨_, StringLiteral.read_eq_ok_iff.2 ⟨body, cs, ?_, letters, rfl⟩, rfl⟩
    exact List.append_assoc body [_] after
  | @integer _ i w integer value =>
    subst value
    have low := w.le_toInt
    have high := w.toInt_lt
    have read :=
      NumberLiteral.read_integer integer (by omega) (by omega) delimited
    rcases begins_of_integer integer with ⟨b, rest, rfl, begins⟩
    refine ⟨b, rest, rfl, Or.inr begins, ?_⟩
    rw [scalar_integer begins, Parsed.map_eq_ok]
    exact ⟨_, read, rfl⟩

/-- An element is read as the value of the constant that it denotes. -/
theorem value_element {text after : Bytes} {c : Constant} (rounds depth : Nat)
    (element : Element text c) (delimited : NumberLiteral.Delimited after) :
    ∃ b rest, text = b :: rest ∧ BeginsElement b ∧
      value rounds depth (text ++ after) = .ok (constantJson c, after) := by
  rcases scalar_element element delimited with ⟨b, rest, rfl, begins, ok⟩
  refine ⟨b, rest, rfl, begins, ?_⟩
  have notList : b ≠ Bytes.ascii '[' :=
    begins.ne (by decide) (by decide) (by decide)
  have notObject : b ≠ Bytes.ascii '\x7b' :=
    begins.ne (by decide) (by decide) (by decide)
  unfold value
  rw [List.cons_append, skipSpace_cons begins.visible]
  dsimp only
  rw [if_neg notList, if_neg notObject, ok]

/-! ## The elements of a list -/

/-- What may stand between an element and the closing bracket. -/
inductive Others : Bytes → ConstantPool → Prop
  | none {text : Bytes} : Space text → Others text []
  | more {before text : Bytes} {pool : ConstantPool} :
    Space before → Elements text pool →
    Others (before ++ Bytes.ascii ',' :: text) pool

theorem elements_cons {before text others : Bytes} {c : Constant}
    {pool : ConstantPool} (space : Space before) (element : Element text c)
    (behind : Others others pool) :
    Elements (before ++ (text ++ others)) (c :: pool) := by
  cases behind with
  | none after =>
    rw [← List.append_assoc]
    exact .last space element after
  | more after elements =>
    rw [← List.append_assoc, ← List.append_assoc]
    exact .more space element after elements

theorem exists_of_elements {inside : Bytes} {pool : ConstantPool}
    (elements : Elements inside pool) :
    ∃ before text others c rest, inside = before ++ (text ++ others) ∧
      pool = c :: rest ∧ Space before ∧ Element text c ∧ Others others rest := by
  cases elements with
  | last space element after =>
    exact ⟨_, _, _, _, _, List.append_assoc _ _ _, rfl, space, element,
      .none after⟩
  | more space element after elements =>
    refine ⟨_, _, _, _, _, ?_, rfl, space, element, .more after elements⟩
    rw [List.append_assoc, List.append_assoc]

theorem delimited_past {before rest : Bytes} {b : UInt8} (space : Space before)
    (separator : b = Bytes.ascii ',' ∨ b = Bytes.ascii ']') :
    NumberLiteral.Delimited (before ++ b :: rest) := by
  intro head first
  cases before with
  | nil =>
    cases first
    rcases separator with rfl | rfl
    · decide
    · decide
  | cons s before =>
    cases first
    rcases space head List.mem_cons_self with rfl | rfl | rfl | rfl
    · decide
    · decide
    · decide
    · decide

theorem Others.delimited {others : Bytes} {pool : ConstantPool}
    (behind : Others others pool) (after : Bytes) :
    NumberLiteral.Delimited (others ++ Bytes.ascii ']' :: after) := by
  cases behind with
  | none space => exact delimited_past space (Or.inr rfl)
  | more space _ =>
    rw [List.append_assoc]
    exact delimited_past space (Or.inl rfl)

theorem moreItems_close (item : Bytes → Parsed Value) {before : Bytes}
    (rounds : Nat) (space : Space before) (after : Bytes) :
    moreItems item (rounds + 1) (before ++ Bytes.ascii ']' :: after) =
      .ok ([], after) := by
  unfold moreItems
  rw [skipSpace_past space (by decide)]
  exact if_pos rfl

theorem moreItems_comma (item : Bytes → Parsed Value) {before before' : Bytes}
    {b : UInt8} (rounds : Nat) (space : Space before) (space' : Space before')
    (begins : BeginsElement b) (rest : Bytes) :
    moreItems item (rounds + 1)
        (before ++ Bytes.ascii ',' :: (before' ++ b :: rest)) =
      (item (b :: rest)).andThen fun v rest =>
        (moreItems item rounds rest).map (v :: ·) := by
  have notClosing : b ≠ Bytes.ascii ']' :=
    begins.ne (by decide) (by decide) (by decide)
  rw [moreItems, skipSpace_past space (by decide)]
  dsimp only
  rw [if_neg (by decide), if_pos rfl, skipSpace_past space' begins.visible]
  exact if_neg notClosing

/-- The other elements are read one by one, as long as the rounds last. -/
theorem moreItems_others {rounds depth left : Nat} {others after : Bytes}
    {pool : ConstantPool} (behind : Others others pool)
    (enough : pool.length < left) :
    moreItems (value rounds depth) left (others ++ Bytes.ascii ']' :: after) =
      .ok (pool.map constantJson, after) := by
  induction pool generalizing left others with
  | nil =>
    cases left with
    | zero => cases enough
    | succ left =>
      cases behind with
      | none space => exact moreItems_close _ left space after
      | more _ elements => cases elements
  | cons c pool ih =>
    cases left with
    | zero => cases enough
    | succ left =>
      cases behind with
      | @more before inside _ space elements =>
        rcases exists_of_elements elements with
          ⟨before', text, others', c', pool', rfl, same, space', element, behind⟩
        cases same
        rcases value_element rounds depth element (behind.delimited after) with
          ⟨b, rest, rfl, begins, ok⟩
        have step := moreItems_comma (value rounds depth) left space space'
          begins (rest ++ (others' ++ Bytes.ascii ']' :: after))
        simp only [List.append_assoc, List.cons_append] at step ok ⊢
        rw [step, ok]
        change (moreItems _ left _).map _ = _
        rw [ih behind (Nat.lt_of_succ_lt_succ enough)]
        rfl

/-- When the next item and those after it stand for constants, the item was
written as an element. -/
theorem element_of_item {rounds depth left : Nat} {text after : Bytes}
    {pool : ConstantPool}
    (ok : ((value rounds depth text).andThen fun v rest =>
        (moreItems (value rounds depth) left rest).map (v :: ·)) =
      .ok (pool.map constantJson, after)) :
    ∃ before element behind c others,
      text = before ++ (element ++ behind) ∧ pool = c :: others ∧
        Space before ∧ Element element c ∧
          moreItems (value rounds depth) left behind =
            .ok (others.map constantJson, after) := by
  rcases Parsed.andThen_eq_ok.1 ok with ⟨v, behind, item, ok⟩
  rcases Parsed.map_eq_ok.1 ok with ⟨vs, more, values⟩
  rcases List.map_eq_cons_iff.1 values.symm with ⟨c, others, rfl, first, rfl⟩
  rw [← first] at item
  rcases element_of_value item with ⟨before, element, textEq, space, derived⟩
  exact ⟨before, element, behind, c, others, textEq, rfl, space, derived, more⟩

/-- What is read after an element is what may stand there, up to the closing
bracket. -/
theorem others_of_moreItems {rounds depth left : Nat} {text after : Bytes}
    {pool : ConstantPool}
    (ok : moreItems (value rounds depth) left text =
      .ok (pool.map constantJson, after)) :
    ∃ others, text = others ++ Bytes.ascii ']' :: after ∧ Others others pool := by
  induction left generalizing text pool with
  | zero => cases ok
  | succ left ih =>
    rcases exists_space text with ⟨before, space, textEq⟩
    unfold moreItems at ok
    split at ok
    · cases ok
    next b rest skipped =>
    rw [skipped] at textEq
    split at ok
    · next closing =>
      rcases Prod.mk.inj (Except.ok.inj ok) with ⟨none, rfl⟩
      rw [List.map_eq_nil_iff.1 none.symm]
      exact ⟨before, closing ▸ textEq, .none space⟩
    split at ok
    · next comma =>
      rcases exists_space rest with ⟨before', space', restEq⟩
      split at ok
      · cases ok
      next c rest' skipped' =>
      rw [skipped'] at restEq
      split at ok
      · cases ok
      rcases element_of_item ok with
        ⟨before'', text', behind, constant, pool', itemEq, rfl, space'', element, more⟩
      rcases ih more with ⟨others, rfl, behindOthers⟩
      refine ⟨before ++ Bytes.ascii ',' ::
        ((before' ++ before'') ++ (text' ++ others)), ?_, .more space
          (elements_cons (space_append space' space'') element behindOthers)⟩
      rw [textEq, comma, restEq, itemEq]
      simp only [List.append_assoc, List.cons_append]
    · cases ok

theorem inside_of_items {rounds depth left : Nat} {text after : Bytes}
    {pool : ConstantPool}
    (ok : items (value rounds depth) left text =
      .ok (pool.map constantJson, after)) :
    ∃ inside, text = inside ++ Bytes.ascii ']' :: after ∧ Inside inside pool := by
  rcases exists_space text with ⟨before, space, textEq⟩
  unfold items at ok
  split at ok
  · cases ok
  next b rest skipped =>
  rw [skipped] at textEq
  split at ok
  · next closing =>
    rcases Prod.mk.inj (Except.ok.inj ok) with ⟨none, rfl⟩
    rw [List.map_eq_nil_iff.1 none.symm]
    exact ⟨before, closing ▸ textEq, .empty space⟩
  · rcases element_of_item ok with
      ⟨before', text', behind, constant, pool', itemEq, rfl, space', element, more⟩
    rcases others_of_moreItems more with ⟨others, rfl, behindOthers⟩
    refine ⟨(before ++ before') ++ (text' ++ others), ?_, .elements
      (elements_cons (space_append space space') element behindOthers)⟩
    rw [textEq, itemEq]
    simp only [List.append_assoc]

theorem items_inside {rounds depth left : Nat} {inside after : Bytes}
    {pool : ConstantPool} (derived : Inside inside pool)
    (enough : pool.length ≤ left) :
    items (value rounds depth) left (inside ++ Bytes.ascii ']' :: after) =
      .ok (pool.map constantJson, after) := by
  cases derived with
  | empty space =>
    unfold items
    rw [skipSpace_past space (by decide)]
    exact if_pos rfl
  | elements elements =>
    rcases exists_of_elements elements with
      ⟨before, text, others, c, pool, rfl, rfl, space, element, behind⟩
    rcases value_element rounds depth element (behind.delimited after) with
      ⟨b, rest, rfl, begins, ok⟩
    have notClosing : b ≠ Bytes.ascii ']' :=
      begins.ne (by decide) (by decide) (by decide)
    simp only [List.append_assoc, List.cons_append] at ok ⊢
    unfold items
    rw [skipSpace_past space begins.visible]
    dsimp only
    rw [if_neg notClosing, ok]
    change (moreItems _ left _).map _ = _
    rw [moreItems_others behind enough]
    rfl

/-! ## The whole text -/

theorem length_le_of_elements {inside : Bytes} {pool : ConstantPool}
    (elements : Elements inside pool) : pool.length ≤ inside.length := by
  have oneByte : ∀ {text : Bytes} {c : Constant}, Element text c →
      1 ≤ text.length := by
    intro text c element
    have delimited : NumberLiteral.Delimited [] := nofun
    rcases scalar_element element delimited with ⟨b, rest, rfl, -, -⟩
    exact Nat.le_add_left 1 rest.length
  induction elements with
  | last _ element _ =>
    have here := oneByte element
    simp only [List.length_append, List.length_singleton]
    omega
  | more _ element _ _ ih =>
    simp only [List.length_append, List.length_cons]
    omega

theorem outermost_eq_ok_iff {text after : Bytes} {pool : ConstantPool} :
    outermost text = .ok (pool.map constantJson, after) ↔
      ∃ before inside,
        text = before ++ Bytes.ascii '[' :: (inside ++ Bytes.ascii ']' :: after) ∧
          Space before ∧ Inside inside pool := by
  constructor
  · intro ok
    rcases exists_space text with ⟨before, space, textEq⟩
    unfold outermost at ok
    split at ok
    · cases ok
    next b rest skipped =>
    rw [skipped] at textEq
    split at ok
    · next opening =>
      rcases inside_of_items ok with ⟨inside, rfl, derived⟩
      exact ⟨before, inside, opening ▸ textEq, space, derived⟩
    split at ok
    · cases ok
    · rcases Parsed.andThen_eq_ok.1 ok with ⟨v, after', -, impossible⟩
      cases impossible
  · intro list
    rcases list with ⟨before, inside, textEq, space, derived⟩
    have enough : pool.length ≤ text.length := by
      have lengths := congrArg List.length textEq
      simp only [List.length_append, List.length_cons] at lengths
      cases derived with
      | empty _ => exact Nat.zero_le _
      | elements elements =>
        have short := length_le_of_elements elements
        omega
    unfold outermost
    generalize text.length = rounds at enough
    rw [textEq, skipSpace_past space (by decide)]
    dsimp only
    rw [if_pos rfl]
    exact items_inside derived enough

theorem complete_eq_ok_iff {text rest : Bytes} {pool : ConstantPool} :
    complete text = .ok (pool.map constantJson, rest) ↔
      PoolText text pool ∧ rest = [] := by
  constructor
  · intro ok
    rcases Parsed.andThen_eq_ok.1 ok with ⟨vs, after, list, ok⟩
    rcases exists_space after with ⟨space, isSpace, afterEq⟩
    split at ok
    · next skipped =>
      rcases Prod.mk.inj (Except.ok.inj ok) with ⟨rfl, rfl⟩
      rcases outermost_eq_ok_iff.1 list with
        ⟨before, inside, rfl, spaceBefore, derived⟩
      rw [skipped, List.append_nil] at afterEq
      exact ⟨.list spaceBefore derived (afterEq ▸ isSpace), rfl⟩
    · cases ok
  · intro whole
    rcases whole with ⟨⟨spaceBefore, derived, spaceAfter⟩, rfl⟩
    refine Parsed.andThen_eq_ok.2
      ⟨_, _, outermost_eq_ok_iff.2 ⟨_, _, rfl, spaceBefore, derived⟩, ?_⟩
    have skipped := skipSpace_append spaceAfter []
    rw [List.append_nil] at skipped
    rw [skipped]
    rfl

end Json

namespace ConstantPool

theorem ofText_eq_ok_iff {text : Bytes} {pool : ConstantPool} :
    ofText text = .ok pool ↔ PoolText text pool := by
  unfold ofText Json.document
  constructor
  · intro ok
    cases whole : Json.complete text with
    | error fault =>
      rw [whole] at ok
      cases ok
    | ok parsed =>
      rcases parsed with ⟨vs, rest⟩
      rw [whole] at ok
      rw [ofElements_eq_ok_iff.1 ok] at whole
      exact (Json.complete_eq_ok_iff.1 whole).1
  · intro derived
    rw [Json.complete_eq_ok_iff.2 ⟨derived, rfl⟩]
    exact ofElements_eq_ok_iff.2 rfl

/-- The pool text is what stands before the first null byte, and reading stops
after that byte, whether the text can be read or not. -/
theorem read_terminated {source : Source} {text rest : Bytes}
    (bytesEq : source.bytes = text ++ 0x00 :: rest) (absent : 0x00 ∉ text) :
    read source =
      (match ofText text with
        | .ok pool => .ok pool
        | .error e => .error (.malformedPool e),
        { source with bytes := rest }) := by
  have cut : Bytes.cut? terminator source.bytes = some (text, rest) :=
    Bytes.cut?_eq_some_iff.2 ⟨bytesEq, absent⟩
  unfold read Source.takeUntil
  rw [cut]
  dsimp only
  cases ofText text with
  | ok pool => rfl
  | error e => rfl

theorem read_unterminated {source : Source} (absent : 0x00 ∉ source.bytes) :
    read source = (.error (shortage source.ending), source.drained) := by
  have uncut : Bytes.cut? terminator source.bytes = none :=
    Bytes.cut?_eq_none_iff.2 absent
  unfold read Source.takeUntil
  rw [uncut]

/-- A pool is read from a source exactly when the bytes before the first null
byte are a text of the pool, and then nothing is read after that null byte. -/
theorem read_iff_poolText (source after : Source) (pool : ConstantPool) :
    read source = (.ok pool, after) ↔
      ∃ text rest, source.bytes = text ++ 0x00 :: rest ∧ 0x00 ∉ text ∧
        PoolText text pool ∧ after = { source with bytes := rest } := by
  constructor
  · intro ok
    by_cases null : 0x00 ∈ source.bytes
    · rcases List.eq_append_cons_of_mem null with ⟨text, rest, bytesEq, absent⟩
      rw [read_terminated bytesEq absent] at ok
      rcases Prod.mk.inj ok with ⟨result, afterEq⟩
      refine ⟨text, rest, bytesEq, absent, ?_, afterEq.symm⟩
      rw [← ofText_eq_ok_iff]
      cases parsed : ofText text with
      | ok found =>
        rw [parsed] at result
        cases result
        rfl
      | error e =>
        rw [parsed] at result
        cases result
    · rw [read_unterminated null] at ok
      cases (Prod.mk.inj ok).1
  · intro derivation
    rcases derivation with ⟨text, rest, bytesEq, absent, derived, rfl⟩
    rw [read_terminated bytesEq absent, ofText_eq_ok_iff.2 derived]

end ConstantPool

end Bytecode
