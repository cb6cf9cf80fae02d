import Bytecode.Proofs.PoolForm
import Bytecode.Proofs.PoolReading

/-!
The text that a constant pool is written as.

What is written is a text of the pool in the grammar: numerals have no leading
zeros, and each character of a text constant is a letter that denotes it. It is
made of visible ASCII characters only, so the null byte after it is the first
one (`write_form`). Both facts together give the round trip of a pool, whatever
follows it.
-/

namespace Bytecode

open PoolGrammar

/-! ## Numerals -/

namespace Numeral

theorem natural_digit : ∀ n < 10, Natural [Bytes.ascii n.digitChar] n := by
  intro n small
  by_cases zero : n = 0
  · subst zero
    exact .zero
  · have digit : ∀ n < 10, n ≠ 0 →
        IsDigit (Bytes.ascii n.digitChar) ∧
          Bytes.ascii n.digitChar ≠ Bytes.ascii '0' ∧
            decimalFrom 0 [Bytes.ascii n.digitChar] = n := by
      decide
    rcases digit n small zero with ⟨isDigit, notZero, value⟩
    have derived := Natural.positive isDigit notZero (List.forall_mem_nil _)
    rw [value] at derived
    exact derived

/-- Another digit may follow a natural number other than zero. -/
theorem natural_concat {digits : Bytes} {n d : Nat} (number : Natural digits n)
    (nonzero : n ≠ 0) (small : d < 10) :
    Natural (digits ++ [Bytes.ascii d.digitChar]) (n * 10 + d) := by
  cases number with
  | zero => exact absurd rfl nonzero
  | @positive first rest isDigit notZero others =>
    have last : ∀ d < 10, IsDigit (Bytes.ascii d.digitChar) ∧
        (Bytes.ascii d.digitChar).toNat - 0x30 = d := by
      decide
    rcases last d small with ⟨lastDigit, value⟩
    have digits : ∀ b ∈ rest ++ [Bytes.ascii d.digitChar], IsDigit b := by
      intro b member
      rcases List.mem_append.1 member with member | member
      · exact others b member
      · rw [List.mem_singleton.1 member]
        exact lastDigit
    have derived := Natural.positive isDigit notZero digits
    unfold decimalFrom at derived ⊢
    rw [← List.cons_append, List.foldl_append, List.foldl_cons,
      List.foldl_nil, value] at derived
    exact derived

/-- The last digit follows the numeral of the rest of the number, so the digits
come in the order of the recursion. -/
theorem natural_written (n : Nat) : Natural ((natural n).map Bytes.ascii) n := by
  induction n using Nat.strongRecOn with
  | ind n ih =>
    unfold natural
    by_cases small : n < 10
    · rw [Nat.toDigits_of_lt_base small]
      exact natural_digit n small
    · have shorter : n / 10 < n := by omega
      have nonzero : n / 10 ≠ 0 := by omega
      have split : n / 10 * 10 + n % 10 = n := by omega
      have derived :=
        natural_concat (ih (n / 10) shorter) nonzero (Nat.mod_lt n (by decide))
      rw [split] at derived
      rw [Nat.toDigits_of_base_le (by decide) (Nat.le_of_not_lt small),
        List.map_append]
      exact derived

theorem integer_written (i : Int) : Integer ((integer i).map Bytes.ascii) i := by
  have derived := natural_written i.natAbs
  unfold integer
  by_cases negative : i < 0
  · have value : -(i.natAbs : Int) = i := by omega
    rw [if_pos negative, ← value, Int.natAbs_neg, Int.natAbs_natCast]
    exact .negative derived (by omega)
  · have value : (i.natAbs : Int) = i := by omega
    rw [if_neg negative]
    have natural := Integer.natural derived
    rw [value] at natural
    exact natural

end Numeral

/-! ## Letters -/

namespace ConstantPool

theorem hexDigit_digitChar (n : Nat) :
    HexDigit (Bytes.ascii (n % 16).digitChar) (n % 16) :=
  ⟨Nat.mod_lt n (by decide), .inl rfl⟩

/-- The four digits of a 16-bit number denote it. -/
theorem unitText_hexUnit {n : Nat} (small : n < 0x10000) :
    ∃ digits, HexUnit digits n ∧
      (Json.unitText n).map Bytes.ascii =
        Bytes.ascii '\\' :: Bytes.ascii 'u' :: digits := by
  have value : n / 0x1000 % 16 * 0x1000 + n / 0x100 % 16 * 0x100 +
      n / 0x10 % 16 * 0x10 + n % 16 = n := by
    omega
  refine ⟨_, ?_, rfl⟩
  have unit := HexUnit.digits (hexDigit_digitChar (n / 0x1000))
    (hexDigit_digitChar (n / 0x100)) (hexDigit_digitChar (n / 0x10))
    (hexDigit_digitChar n)
  rw [value] at unit
  exact unit

theorem units_escape (c : Char) :
    Escape (((units c).flatMap Json.unitText).map Bytes.ascii) c := by
  have range := Utf8.toNat_lt c
  unfold units
  by_cases small : c.toNat < 0x10000
  · rw [if_pos small]
    rcases unitText_hexUnit small with ⟨digits, unit, text⟩
    rw [List.flatMap_singleton, text]
    exact .unit unit rfl
  · rw [if_neg small]
    rcases unitText_hexUnit
      (n := 0xD800 + (c.toNat - 0x10000) / 0x400) (by omega) with
      ⟨first, high, firstText⟩
    rcases unitText_hexUnit
      (n := 0xDC00 + (c.toNat - 0x10000) % 0x400) (by omega) with
      ⟨second, low, secondText⟩
    rw [List.flatMap_cons, List.flatMap_singleton, List.map_append, firstText,
      secondText]
    exact .pair high (by omega) (by omega) low (by omega) (by omega) (by omega)

theorem charText_letter (c : Char) :
    Letter ((charText c).map Bytes.ascii) c := by
  unfold charText
  split
  iterate 7 exact .escape (.short (by decide))
  next quote backslash _ _ _ _ _ =>
    by_cases visible : 0x20 ≤ c.toNat ∧ c.toNat ≤ 0x7E
    · have single : [Bytes.ascii c] = String.utf8EncodeChar c := by
        rw [← Utf8.encodeChar_eq_utf8EncodeChar, Utf8.encodeChar_one (by omega)]
        rfl
      rw [if_pos visible, List.map_singleton, single]
      exact .plain visible.1 quote backslash
    · rw [if_neg visible]
      exact .escape (units_escape c)

theorem charText_letters (cs : List Char) :
    Letters ((cs.flatMap charText).map Bytes.ascii) cs := by
  induction cs with
  | nil => exact .nil
  | cons c cs ih =>
    rw [List.flatMap_cons, List.map_append]
    exact .cons (charText_letter c) ih

/-! ## Elements -/

theorem elementText_element (c : Constant) :
    Element ((elementText c).map Bytes.ascii) c := by
  cases c with
  | int i => exact .integer (Numeral.integer_written i.toInt) rfl
  | str s =>
    have element := Element.string (charText_letters s.toList)
    rw [String.ofList_toList] at element
    unfold elementText
    rw [List.map_append, List.map_cons]
    exact element

theorem moreText_elements {before : Bytes} (space : Space before)
    (c : Constant) (rest : ConstantPool) :
    Elements (before ++ (elementText c ++ moreText rest).map Bytes.ascii)
      (c :: rest) := by
  induction rest generalizing before c with
  | nil =>
    have last :=
      Elements.last space (elementText_element c) (List.forall_mem_nil _)
    rw [List.append_nil] at last
    unfold moreText
    rw [List.append_nil]
    exact last
  | cons d rest ih =>
    have blank : Space [Bytes.ascii ' '] := by
      intro b member
      rw [List.mem_singleton.1 member]
      exact .inl rfl
    have more := Elements.more space (elementText_element c)
      (List.forall_mem_nil _) (ih blank d)
    rw [List.append_nil, List.append_assoc] at more
    unfold moreText
    rw [List.map_append, List.cons_append, List.cons_append]
    exact more

/-- What is written is a text of the pool. -/
theorem text_poolText (pool : ConstantPool) :
    PoolText (pool.text.map Bytes.ascii) pool := by
  have none : Space [] := List.forall_mem_nil _
  cases pool with
  | nil => exact .list none (.empty none) none
  | cons c rest =>
    have list := PoolText.list none (.elements (moreText_elements none c rest)) none
    unfold text
    rw [List.map_append, List.cons_append, List.map_cons]
    exact list

/-! ## Visible characters -/

/-- The ASCII characters that can be seen, and the space. -/
def IsVisible (c : Char) : Prop :=
  0x20 ≤ c.toNat ∧ c.toNat ≤ 0x7E

instance (c : Char) : Decidable (IsVisible c) :=
  inferInstanceAs (Decidable (_ ∧ _))

theorem natural_visible (n : Nat) : ∀ c ∈ Numeral.natural n, IsVisible c := by
  intro c member
  have digit := Nat.isDigit_of_mem_toDigits (by decide) (by decide) member
  rw [Char.isDigit_iff_toNat] at digit
  unfold IsVisible
  change 48 ≤ c.toNat ∧ c.toNat ≤ 57 at digit
  omega

theorem word_visible (i : Int64) : ∀ c ∈ Numeral.word i, IsVisible c := by
  unfold Numeral.word Numeral.integer
  split
  · intro c member
    rcases List.mem_cons.1 member with rfl | member
    · decide
    · exact natural_visible _ c member
  · exact natural_visible _

theorem unitText_visible (n : Nat) : ∀ c ∈ Json.unitText n, IsVisible c := by
  have digit : ∀ n < 16, IsVisible n.digitChar := by decide
  have small : ∀ n, n % 16 < 16 := fun n => Nat.mod_lt n (by decide)
  unfold Json.unitText
  simp only [List.forall_mem_cons]
  exact ⟨by decide, by decide, digit _ (small _), digit _ (small _),
    digit _ (small _), digit _ (small _), List.forall_mem_nil _⟩

theorem charText_visible (c : Char) : ∀ x ∈ charText c, IsVisible x := by
  have pair : ∀ letter, IsVisible letter → ∀ x ∈ ['\\', letter], IsVisible x := by
    intro letter visible
    simp only [List.forall_mem_cons]
    exact ⟨by decide, visible, List.forall_mem_nil _⟩
  unfold charText
  split
  iterate 7 exact pair _ (by decide)
  split
  · next visible =>
    intro x member
    rw [List.mem_singleton.1 member]
    exact visible
  · intro x member
    rcases List.mem_flatMap.1 member with ⟨unit, -, member⟩
    exact unitText_visible unit x member

theorem elementText_visible (c : Constant) :
    ∀ x ∈ elementText c, IsVisible x := by
  cases c with
  | int i => exact word_visible i
  | str s =>
    unfold elementText
    simp only [List.forall_mem_append, List.forall_mem_cons, List.mem_flatMap]
    refine ⟨⟨by decide, ?_⟩, by decide, List.forall_mem_nil _⟩
    intro x member
    rcases member with ⟨c, -, member⟩
    exact charText_visible c x member

theorem moreText_visible (pool : ConstantPool) :
    ∀ x ∈ moreText pool, IsVisible x := by
  induction pool with
  | nil => exact List.forall_mem_nil _
  | cons c rest ih =>
    unfold moreText
    simp only [List.forall_mem_append, List.forall_mem_cons]
    exact ⟨⟨by decide, by decide, elementText_visible c⟩, ih⟩

/-- Nothing that has to be escaped stands in the text of a pool. -/
theorem text_visible (pool : ConstantPool) : ∀ x ∈ pool.text, IsVisible x := by
  cases pool with
  | nil =>
    unfold text
    simp only [List.forall_mem_cons]
    exact ⟨by decide, by decide, List.forall_mem_nil _⟩
  | cons c rest =>
    unfold text
    simp only [List.forall_mem_append, List.forall_mem_cons]
    exact ⟨⟨⟨by decide, elementText_visible c⟩, moreText_visible rest⟩,
      by decide, List.forall_mem_nil _⟩

theorem text_bytes (pool : ConstantPool) :
    ∀ b ∈ pool.text.map Bytes.ascii, 0x20 ≤ b.toNat ∧ b.toNat ≤ 0x7E := by
  intro b member
  rcases List.mem_map.1 member with ⟨c, inText, rfl⟩
  have visible := text_visible pool c inText
  unfold IsVisible at visible
  unfold Bytes.ascii
  rw [Utf8.toNat_byte (by omega)]
  exact visible

theorem terminator_not_mem_text (pool : ConstantPool) :
    0x00 ∉ pool.text.map Bytes.ascii := by
  intro member
  have printable := (text_bytes pool 0x00 member).1
  change 0x20 ≤ 0 at printable
  omega

/-! ## The round trip -/

/-- A pool that was written is read back, up to its null byte and no further. -/
theorem read_encode (pool : ConstantPool) (rest : Bytes) (ending : Ending) :
    read ⟨pool.encode ++ rest, ending⟩ = (.ok pool, ⟨rest, ending⟩) := by
  have bytesEq : pool.encode ++ rest =
      pool.text.map Bytes.ascii ++ 0x00 :: rest := by
    rw [encode_eq, List.append_assoc, List.singleton_append]
  rw [read_terminated bytesEq (terminator_not_mem_text pool),
    ofText_eq_ok_iff.2 (text_poolText pool)]

/-! ## The bytes that are written -/

/-- A pool is written in its form, whatever the sink: the list of its elements, joined
by a comma and a space, and one null byte. The list is printable ASCII, so that is the
only null byte, and it is a text of the pool. -/
theorem write_form (pool : ConstantPool) :
    pool.text = '[' :: [',', ' '].intercalate (pool.map elementText) ++ [']'] ∧
      (∀ sink : Sink,
        pool.write sink = sink.write (pool.text.map Bytes.ascii ++ [0x00])) ∧
      (∀ b ∈ pool.text.map Bytes.ascii, 0x20 ≤ b.toNat ∧ b.toNat ≤ 0x7E) ∧
      (pool.text.map Bytes.ascii ++ [0x00]).count 0x00 = 1 ∧
      PoolText (pool.text.map Bytes.ascii) pool := by
  refine ⟨text_eq_intercalate pool, ?_, text_bytes pool, ?_, text_poolText pool⟩
  · intro sink
    unfold write
    rw [Sink.writeAll_eq_write, ← encode_eq]
    rfl
  · rw [List.count_append, List.count_eq_zero.2 (terminator_not_mem_text pool),
      List.count_singleton_self]

-- Escapes of both kinds side by side, at both ends and around a plain character.
example :
    encode [.int (-7), .str "\"\x7f😀~é\n"] =
      "[-7, \"\\\"\\u007f\\ud83d\\ude00~\\u00e9\\n\"]".toList.map Bytes.ascii ++
        [0x00] := by
  decide

end ConstantPool

end Bytecode
