import Bytecode.Proofs.PoolGrammar
import Bytecode.Proofs.Utf8Roundtrip

/-!
JSON strings are read by the grammar.

`StringLiteral.scan` works on bytes and leaves UTF-8 for later, while the
grammar has characters. `Scanned` stands between the two: raw bytes one by one
and whole escapes. `scan_eq_ok_iff` ties it to the scanner. An escape never
gives a tail byte in front, so a character above ASCII that shows up in the
bytes was written raw as a whole (`letters_of_scanned`), and
`StringLiteral.read_eq_ok_iff` follows.
-/

namespace Bytecode

open PoolGrammar

namespace Json

namespace StringLiteral

/-! ## Hexadecimal digits -/

theorem ascii_digitChar : ∀ n < 10,
    Bytes.ascii n.digitChar = UInt8.ofNat (0x30 + n) := by
  decide

theorem ascii_digitChar_letter : ∀ n < 6,
    Bytes.ascii (10 + n).digitChar = UInt8.ofNat (0x61 + n) ∧
      Bytes.ascii (10 + n).digitChar.toUpper = UInt8.ofNat (0x41 + n) := by
  decide

theorem hexDigit?_digitChar : ∀ n < 16,
    hexDigit? (Bytes.ascii n.digitChar) = some n ∧
      hexDigit? (Bytes.ascii n.digitChar.toUpper) = some n := by
  decide

theorem hexDigit?_eq_some_iff {b : UInt8} {n : Nat} :
    hexDigit? b = some n ↔ HexDigit b n := by
  constructor
  · intro found
    simp only [hexDigit?] at found
    split at found
    · have value := Option.some.inj found
      have small : n < 10 := by omega
      refine ⟨by omega, Or.inl ?_⟩
      rw [ascii_digitChar n small]
      exact (Utf8.ofNat_eq_of_toNat (by omega)).symm
    split at found
    · have value := Option.some.inj found
      obtain ⟨m, rfl⟩ : ∃ m, n = 10 + m := ⟨n - 10, by omega⟩
      have small : m < 6 := by omega
      refine ⟨by omega, Or.inr ?_⟩
      rw [(ascii_digitChar_letter m small).2]
      exact (Utf8.ofNat_eq_of_toNat (by omega)).symm
    split at found
    · have value := Option.some.inj found
      obtain ⟨m, rfl⟩ : ∃ m, n = 10 + m := ⟨n - 10, by omega⟩
      have small : m < 6 := by omega
      refine ⟨by omega, Or.inl ?_⟩
      rw [(ascii_digitChar_letter m small).1]
      exact (Utf8.ofNat_eq_of_toNat (by omega)).symm
    · cases found
  · intro digit
    obtain ⟨small, lower | upper⟩ := digit
    · rw [lower]
      exact (hexDigit?_digitChar n small).1
    · rw [upper]
      exact (hexDigit?_digitChar n small).2

theorem unit?_eq_some_iff {a b c d : UInt8} {n : Nat} :
    unit? a b c d = some n ↔ HexUnit [a, b, c, d] n := by
  constructor
  · intro found
    obtain ⟨w, first, found⟩ := Option.bind_eq_some_iff.1 found
    obtain ⟨x, second, found⟩ := Option.bind_eq_some_iff.1 found
    obtain ⟨y, third, found⟩ := Option.bind_eq_some_iff.1 found
    obtain ⟨z, fourth, found⟩ := Option.bind_eq_some_iff.1 found
    rw [← Option.some.inj found]
    exact .digits (hexDigit?_eq_some_iff.1 first)
      (hexDigit?_eq_some_iff.1 second) (hexDigit?_eq_some_iff.1 third)
      (hexDigit?_eq_some_iff.1 fourth)
  · intro unit
    obtain ⟨first, second, third, fourth⟩ := unit
    simp only [unit?, hexDigit?_eq_some_iff.2 first,
      hexDigit?_eq_some_iff.2 second, hexDigit?_eq_some_iff.2 third,
      hexDigit?_eq_some_iff.2 fourth]
    rfl

theorem hexUnit_lt {digits : Bytes} {n : Nat} (unit : HexUnit digits n) :
    n < 0x10000 := by
  rcases unit with ⟨⟨first, -⟩, ⟨second, -⟩, ⟨third, -⟩, ⟨fourth, -⟩⟩
  omega

/-! ## Short escapes -/

theorem short?_of_mem : ∀ e ∈ shortEscapes,
    Bytes.ascii e.1 ≠ Bytes.ascii 'u' ∧
      short? (Bytes.ascii e.1) = some (UInt8.ofNat e.2.toNat) ∧
        e.2.toNat < 0x80 := by
  decide

theorem mem_of_short? {letter byte : UInt8} (found : short? letter = some byte) :
    ∃ e ∈ shortEscapes, letter = Bytes.ascii e.1 ∧
      byte = UInt8.ofNat e.2.toNat := by
  unfold short? at found
  split at found
  · next same => exact ⟨('"', '"'), by decide, same, (Option.some.inj found).symm⟩
  split at found
  · next same => exact ⟨('\\', '\\'), by decide, same, (Option.some.inj found).symm⟩
  split at found
  · next same => exact ⟨('/', '/'), by decide, same, (Option.some.inj found).symm⟩
  split at found
  · next same => exact ⟨('b', '\x08'), by decide, same, (Option.some.inj found).symm⟩
  split at found
  · next same => exact ⟨('f', '\x0c'), by decide, same, (Option.some.inj found).symm⟩
  split at found
  · next same => exact ⟨('n', '\n'), by decide, same, (Option.some.inj found).symm⟩
  split at found
  · next same => exact ⟨('r', '\r'), by decide, same, (Option.some.inj found).symm⟩
  split at found
  · next same => exact ⟨('t', '\t'), by decide, same, (Option.some.inj found).symm⟩
  · cases found

/-! ## One step of the scanner -/

section Steps

variable {b letter byte : UInt8} {rest : Bytes}

theorem scan_quote : scan (quote :: rest) = .ok ([], rest) := by
  rw [scan.eq_def]
  exact if_pos rfl

theorem scan_raw (notQuote : b ≠ quote) (notBackslash : b ≠ backslash)
    (visible : 0x20 ≤ b.toNat) : scan (b :: rest) = push [b] (scan rest) := by
  rw [scan.eq_def]
  simp only [notQuote, notBackslash, Nat.not_lt.2 visible, if_false]

theorem scan_short (notUnit : letter ≠ Bytes.ascii 'u')
    (found : short? letter = some byte) :
    scan (backslash :: letter :: rest) = push [byte] (scan rest) := by
  have notQuote : backslash ≠ quote := by decide
  rw [scan.eq_def]
  simp only [notQuote, notUnit, found, if_true, if_false]

theorem scan_unit {a b c d : UInt8} {n : Nat} (found : unit? a b c d = some n)
    (notLow : isLow n = false) (notHigh : isHigh n = false) :
    scan (backslash :: Bytes.ascii 'u' :: a :: b :: c :: d :: rest) =
      push (Utf8.encodeChar (Char.ofNat n)) (scan rest) := by
  have notQuote : backslash ≠ quote := by decide
  rw [scan.eq_def]
  simp only [notQuote, found, notLow, notHigh, if_true, if_false,
    Bool.false_eq_true]

theorem scan_pair {a b c d e f g h : UInt8} {high low : Nat}
    (first : unit? a b c d = some high) (firstNotLow : isLow high = false)
    (isHigh : isHigh high = true) (second : unit? e f g h = some low)
    (isLow : isLow low = true) :
    scan (backslash :: Bytes.ascii 'u' :: a :: b :: c :: d ::
        backslash :: Bytes.ascii 'u' :: e :: f :: g :: h :: rest) =
      push (Utf8.encodeChar (pairChar high low)) (scan rest) := by
  have notQuote : backslash ≠ quote := by decide
  rw [scan.eq_def]
  simp only [notQuote, first, firstNotLow, isHigh, second, isLow, if_true,
    if_false, Bool.false_eq_true]

end Steps

theorem isHigh_iff {n : Nat} : isHigh n = true ↔ 0xD800 ≤ n ∧ n < 0xDC00 := by
  simp only [isHigh, Bool.and_eq_true, decide_eq_true_eq]

theorem isLow_iff {n : Nat} : isLow n = true ↔ 0xDC00 ≤ n ∧ n < 0xE000 := by
  simp only [isLow, Bool.and_eq_true, decide_eq_true_eq]

/-- An escape is read as the bytes of the character that it denotes. -/
theorem scan_escape {text : Bytes} {c : Char} (escape : Escape text c)
    (rest : Bytes) :
    scan (text ++ rest) = push (Utf8.encodeChar c) (scan rest) := by
  have valid := Utf8.toNat_valid c
  cases escape with
  | short member =>
    obtain ⟨notUnit, found, small⟩ := short?_of_mem _ member
    rw [Utf8.encodeChar_one small]
    exact scan_short notUnit found
  | unit unit number =>
    subst number
    have notLow : isLow c.toNat = false := by
      rw [Bool.eq_false_iff, Ne, isLow_iff]
      omega
    have notHigh : isHigh c.toNat = false := by
      rw [Bool.eq_false_iff, Ne, isHigh_iff]
      omega
    have character : Char.ofNat c.toNat = c := Char.ofNat_toNat c
    generalize c.toNat = n at *
    rcases unit with ⟨a, b, d, e⟩
    rw [← character]
    exact scan_unit (unit?_eq_some_iff.2 (.digits a b d e)) notLow notHigh
  | @pair _ _ high low _ first above below second above' below' number =>
    have character : pairChar high low = c := by
      rw [pairChar, ← number, Char.ofNat_toNat]
    have notLow : isLow high = false := by
      rw [Bool.eq_false_iff, Ne, isLow_iff]
      omega
    rw [← character]
    rcases first with ⟨a, b, d, e⟩
    rcases second with ⟨a', b', d', e'⟩
    exact scan_pair (unit?_eq_some_iff.2 (.digits a b d e)) notLow
      (isHigh_iff.2 ⟨above, below⟩)
      (unit?_eq_some_iff.2 (.digits a' b' d' e')) (isLow_iff.2 ⟨above', below'⟩)

/-! ## The scanner on a whole string -/

/-- The bytes that stand for themselves inside a string. -/
def IsRaw (b : UInt8) : Prop :=
  b ≠ quote ∧ b ≠ backslash ∧ 0x20 ≤ b.toNat

/-- The inside of a string as the scanner sees it: raw bytes one by one and
escapes, with the bytes that they stand for. -/
inductive Scanned : Bytes → Bytes → Prop
  | nil : Scanned [] []
  | raw {b : UInt8} {text bytes : Bytes} :
    IsRaw b → Scanned text bytes → Scanned (b :: text) (b :: bytes)
  | escape {item text bytes : Bytes} {c : Char} :
    Escape item c → Scanned text bytes →
    Scanned (item ++ text) (Utf8.encodeChar c ++ bytes)

theorem scan_of_scanned {text bytes : Bytes} (scanned : Scanned text bytes)
    (rest : Bytes) : scan (text ++ quote :: rest) = .ok (bytes, rest) := by
  induction scanned with
  | nil => exact scan_quote
  | raw isRaw _ ih =>
    rw [List.cons_append, scan_raw isRaw.1 isRaw.2.1 isRaw.2.2, ih]
    rfl
  | escape escape _ ih =>
    rw [List.append_assoc, scan_escape escape, ih]
    rfl

theorem push_eq_ok {start bytes rest : Bytes} {read : Parsed Bytes}
    (ok : push start read = .ok (bytes, rest)) :
    ∃ more, read = .ok (more, rest) ∧ bytes = start ++ more := by
  obtain ⟨more, parsed, same⟩ := Parsed.map_eq_ok.1 ok
  exact ⟨more, parsed, same.symm⟩

/-- What the scanner accepts is the inside of a string and its closing quote.
The error branches of the scanner give nothing, which leaves the closing quote
and one case for each way of writing a character. -/
theorem scanned_of_scan {text bytes rest : Bytes}
    (ok : scan text = .ok (bytes, rest)) :
    ∃ body, text = body ++ quote :: rest ∧ Scanned body bytes := by
  fun_induction scan text generalizing bytes with
  | case2 after =>
    cases ok
    exact ⟨[], rfl, .nil⟩
  | case9 a b c d high first notLow isHigh e f g h after low second isLow _ ih =>
    obtain ⟨more, scanned, bytesEq⟩ := push_eq_ok ok
    obtain ⟨body, rfl, inside⟩ := ih scanned
    have highRange := isHigh_iff.1 isHigh
    have lowRange := isLow_iff.1 isLow
    have number : (pairChar high low).toNat =
        0x10000 + (high - 0xD800) * 0x400 + (low - 0xDC00) :=
      Utf8.toNat_ofNat (Or.inr (by omega))
    have escape := Escape.pair (unit?_eq_some_iff.1 first) highRange.1
      highRange.2 (unit?_eq_some_iff.1 second) lowRange.1 lowRange.2 number
    rw [bytesEq]
    exact ⟨_, rfl, .escape escape inside⟩
  | case14 a b c d after n found notLow notHigh _ ih =>
    obtain ⟨more, scanned, rfl⟩ := push_eq_ok ok
    obtain ⟨body, rfl, inside⟩ := ih scanned
    have unit := unit?_eq_some_iff.1 found
    have small := hexUnit_lt unit
    rw [isLow_iff] at notLow
    rw [isHigh_iff] at notHigh
    have valid : n.isValidChar := by
      unfold Nat.isValidChar
      omega
    exact ⟨_, rfl, .escape (.unit unit (Utf8.toNat_ofNat valid)) inside⟩
  | case16 letter after notUnit byte found _ ih =>
    obtain ⟨more, scanned, rfl⟩ := push_eq_ok ok
    obtain ⟨body, rfl, inside⟩ := ih scanned
    obtain ⟨e, member, rfl, rfl⟩ := mem_of_short? found
    rw [← Utf8.encodeChar_one (short?_of_mem e member).2.2]
    exact ⟨_, rfl, .escape (.short member) inside⟩
  | case19 b after notQuote notBackslash visible ih =>
    obtain ⟨more, scanned, rfl⟩ := push_eq_ok ok
    obtain ⟨body, rfl, inside⟩ := ih scanned
    exact ⟨_, rfl, .raw ⟨notQuote, notBackslash, Nat.not_lt.1 visible⟩ inside⟩
  | _ => cases ok

/-! ## Characters -/

theorem scanned_append {raw text bytes : Bytes} (isRaw : ∀ b ∈ raw, IsRaw b)
    (scanned : Scanned text bytes) : Scanned (raw ++ text) (raw ++ bytes) := by
  induction raw with
  | nil => exact scanned
  | cons b raw ih =>
    exact .raw (isRaw b List.mem_cons_self)
      (ih fun b' member => isRaw b' (List.mem_cons_of_mem b member))

theorem isRaw_of_high {b : UInt8} (high : 0x80 ≤ b.toNat) : IsRaw b := by
  refine ⟨?_, ?_, by omega⟩
  · intro isQuote
    rw [isQuote] at high
    exact absurd high (by decide)
  · intro isBackslash
    rw [isBackslash] at high
    exact absurd high (by decide)

theorem ofNat_toNat_ne {c d : Char} (different : c ≠ d) (small : c.toNat < 0x80)
    (small' : d.toNat < 0x80) :
    UInt8.ofNat c.toNat ≠ UInt8.ofNat d.toNat := by
  intro same
  apply different
  have numbers := congrArg UInt8.toNat same
  rw [Utf8.toNat_byte (by omega), Utf8.toNat_byte (by omega)] at numbers
  exact Char.toNat_inj.1 numbers

/-- The bytes of a character that may stand in a string as it is. -/
theorem isRaw_of_plain {c : Char} (visible : 0x20 ≤ c.toNat)
    (notQuote : c ≠ '"') (notBackslash : c ≠ '\\') :
    ∀ b ∈ Utf8.encodeChar c, IsRaw b := by
  rcases Utf8.encodeChar_shape c with
    ⟨small, one⟩ | ⟨-, first, tails, more, high, inside⟩
  · rw [one]
    intro b member
    rw [List.mem_singleton.1 member]
    refine ⟨ofNat_toNat_ne notQuote small (by decide),
      ofNat_toNat_ne notBackslash small (by decide), ?_⟩
    rw [Utf8.toNat_byte (by omega)]
    exact visible
  · rw [more]
    intro b member
    rcases List.mem_cons.1 member with rfl | member
    · exact isRaw_of_high (by omega)
    · exact isRaw_of_high (inside b member).1

theorem scanned_of_letters {text : Bytes} {cs : List Char}
    (letters : Letters text cs) : Scanned text (Utf8.encodeChars cs) := by
  induction letters with
  | nil => exact .nil
  | cons letter _ ih =>
    cases letter with
    | plain visible notQuote notBackslash =>
      rw [← Utf8.encodeChar_eq_utf8EncodeChar]
      exact scanned_append (isRaw_of_plain visible notQuote notBackslash) ih
    | escape escape => exact .escape escape ih

/-- Tail bytes come from raw bytes, since no escape gives one in front. -/
theorem scanned_tails {tails text bytes : Bytes}
    (inside : ∀ b ∈ tails, Utf8.IsTail b)
    (scanned : Scanned text (tails ++ bytes)) :
    ∃ rest, text = tails ++ rest ∧ Scanned rest bytes := by
  induction tails generalizing text with
  | nil => exact ⟨text, rfl, scanned⟩
  | cons b tails ih =>
    generalize whole : b :: tails ++ bytes = all at scanned
    cases scanned with
    | nil => cases whole
    | raw isRaw scanned =>
      cases whole
      obtain ⟨rest, rfl, behind⟩ :=
        ih (fun b' member => inside b' (List.mem_cons_of_mem b member)) scanned
      exact ⟨rest, rfl, behind⟩
    | @escape _ _ _ c escape scanned =>
      -- An escape gives whole characters, and none of them starts with a tail.
      obtain ⟨first, others, bytesEq, notTail⟩ := Utf8.exists_first c
      rw [bytesEq] at whole
      have same : b = first := (List.cons.inj whole).1
      exact absurd (same ▸ inside b List.mem_cons_self) notTail

/-- The first character that the bytes stand for was written by the first
letter of the text. -/
theorem letter_of_scanned {text bytes : Bytes} {c : Char}
    (scanned : Scanned text (Utf8.encodeChar c ++ bytes)) :
    ∃ item rest, text = item ++ rest ∧ Letter item c ∧ Scanned rest bytes := by
  generalize whole : Utf8.encodeChar c ++ bytes = all at scanned
  cases scanned with
  | nil =>
    obtain ⟨first, others, bytesEq, -⟩ := Utf8.exists_first c
    rw [bytesEq] at whole
    cases whole
  | escape escape scanned =>
    obtain ⟨rfl, rfl⟩ := Utf8.encodeChar_append_inj whole
    exact ⟨_, _, rfl, .escape escape, scanned⟩
  | @raw b text _ isRaw scanned =>
    rcases Utf8.encodeChar_shape c with
      ⟨small, one⟩ | ⟨large, first, tails, more, -, inside⟩
    · rw [one] at whole
      cases whole
      refine ⟨[UInt8.ofNat c.toNat], text, rfl, ?_, scanned⟩
      rw [← one, Utf8.encodeChar_eq_utf8EncodeChar]
      obtain ⟨notQuote, notBackslash, visible⟩ := isRaw
      rw [Utf8.toNat_byte (by omega)] at visible
      refine .plain visible ?_ ?_
      · intro isQuote
        rw [isQuote] at notQuote
        exact notQuote rfl
      · intro isBackslash
        rw [isBackslash] at notBackslash
        exact notBackslash rfl
    · rw [more] at whole
      obtain ⟨rfl, rfl⟩ := List.cons.inj whole
      obtain ⟨rest, rfl, behind⟩ := scanned_tails inside scanned
      refine ⟨first :: tails, rest, rfl, ?_, behind⟩
      rw [← more, Utf8.encodeChar_eq_utf8EncodeChar]
      refine .plain (by omega) ?_ ?_
      · intro isQuote
        rw [isQuote] at large
        exact absurd large (by decide)
      · intro isBackslash
        rw [isBackslash] at large
        exact absurd large (by decide)

theorem letters_of_scanned {text : Bytes} {cs : List Char}
    (scanned : Scanned text (Utf8.encodeChars cs)) : Letters text cs := by
  induction cs generalizing text with
  | nil =>
    generalize none : Utf8.encodeChars [] = bytes at scanned
    cases scanned with
    | nil => exact .nil
    | raw => cases none
    | @escape _ _ _ c =>
      obtain ⟨first, others, bytesEq, -⟩ := Utf8.exists_first c
      rw [bytesEq] at none
      cases none
  | cons c cs ih =>
    obtain ⟨item, rest, rfl, letter, scanned⟩ := letter_of_scanned scanned
    exact .cons letter (ih scanned)

/-- A string is read exactly by the grammar: up to its closing quote, as the
text that its letters denote. -/
theorem read_eq_ok_iff {text rest : Bytes} {s : String} :
    read text = .ok (s, rest) ↔
      ∃ body cs, text = body ++ quote :: rest ∧ Letters body cs ∧
        s = String.ofList cs := by
  unfold read
  rw [Parsed.andThen_eq_ok]
  constructor
  · intro parts
    obtain ⟨bytes, after, scanned, decoded⟩ := parts
    obtain ⟨body, rfl, inside⟩ := scanned_of_scan scanned
    split at decoded
    · next cs whole =>
      cases decoded
      rw [Utf8.split_eq_nil_iff.1 whole] at inside
      exact ⟨body, cs, rfl, letters_of_scanned inside, rfl⟩
    · cases decoded
  · intro literal
    obtain ⟨body, cs, rfl, letters, rfl⟩ := literal
    refine ⟨_, rest, scan_of_scanned (scanned_of_letters letters) rest, ?_⟩
    rw [Utf8.split_eq_nil_iff.2 rfl]

end StringLiteral

end Json

end Bytecode
