import Bytecode.ConstantPool
import Bytecode.Proofs.Utf8Roundtrip

/-!
The form in which a constant pool is written, character by character.

`charText` is what stands for one character of a text constant, and `text` is the
list of the elements. A pool is not written that way: a text is cut at the escapes
that JSON demands, and the stretches between them are gone through once more, with
places in their UTF-8 bytes that say what is still to be written. All of it together
comes to the form (`encode_eq`): whatever is cut, nothing is lost, repeated or left
as it is that has to be escaped.
-/

namespace Bytecode

namespace ConstantPool

/-! ## The form -/

/-- One character of a text constant. -/
def charText : Char → List Char
  | '"' => ['\\', '"']
  | '\\' => ['\\', '\\']
  | '\x08' => ['\\', 'b']
  | '\t' => ['\\', 't']
  | '\n' => ['\\', 'n']
  | '\x0c' => ['\\', 'f']
  | '\r' => ['\\', 'r']
  | c =>
    if 0x20 ≤ c.toNat ∧ c.toNat ≤ 0x7E then [c]
    else (units c).flatMap Json.unitText

/-- One element. -/
def elementText : Constant → List Char
  | .int i => Numeral.word i
  | .str s => '"' :: s.toList.flatMap charText ++ ['"']

/-- The elements after the first, each after a comma and a space. -/
def moreText : ConstantPool → List Char
  | [] => []
  | c :: rest => ',' :: ' ' :: elementText c ++ moreText rest

/-- The list of the elements. -/
def text : ConstantPool → List Char
  | [] => ['[', ']']
  | c :: rest => '[' :: elementText c ++ moreText rest ++ [']']

theorem intercalate_elementText (c : Constant) (rest : ConstantPool) :
    [',', ' '].intercalate ((c :: rest).map elementText) =
      elementText c ++ moreText rest := by
  induction rest generalizing c with
  | nil => simp [List.intercalate, moreText]
  | cons d rest ih =>
    rw [List.map_cons, List.map_cons, List.intercalate_cons_cons, ← List.map_cons, ih,
      List.append_assoc]
    rfl

/-- The elements are joined by a comma and a space. -/
theorem text_eq_intercalate (pool : ConstantPool) :
    pool.text = '[' :: [',', ' '].intercalate (pool.map elementText) ++ [']'] := by
  cases pool with
  | nil => rfl
  | cons c rest =>
    rw [intercalate_elementText]
    rfl

/-! ## Stretches -/

/-- One character of a stretch. -/
def plainText (c : Char) : List Char :=
  if isPlain c then [c] else (units c).flatMap Json.unitText

/-- A character is written by the escape that JSON demands, and otherwise as a
stretch writes it. -/
theorem charText_eq (c : Char) :
    charText c = (Json.escape? c).getD (plainText c) := by
  unfold charText
  split
  -- The escapes of two characters.
  iterate 7 rfl
  next quote backslash backspace tab newline feed carriage =>
    have escape : Json.escape? c =
        if c.toNat < 0x20 then some (Json.unitText c.toNat) else none := by
      unfold Json.escape? Json.controlLetter?
      simp only [if_neg quote, if_neg backslash, if_neg backspace, if_neg tab,
        if_neg newline, if_neg feed, if_neg carriage]
    rw [escape]
    by_cases control : c.toNat < 0x20
    · have unit : units c = [c.toNat] := if_pos (Nat.lt_trans control (by decide))
      rw [if_pos control, if_neg (by omega), unit, List.flatMap_singleton]
      rfl
    · rw [if_neg control]
      simp only [plainText, isPlain, Bool.and_eq_true, decide_eq_true_eq,
        Option.getD_none]

theorem encodeChars_plain {cs : List Char} (plain : ∀ c ∈ cs, isPlain c) :
    Utf8.encodeChars cs = cs.map Bytes.ascii := by
  induction cs with
  | nil => rfl
  | cons c cs ih =>
    obtain ⟨first, others⟩ := List.forall_mem_cons.1 plain
    have small : c.toNat ≤ 0x7E := of_decide_eq_true (Bool.and_eq_true_iff.1 first).2
    change Utf8.encodeChar c ++ Utf8.encodeChars cs = _
    rw [ih others, Utf8.encodeChar_one (by omega)]
    rfl

/-- The places in the bytes of a stretch between which its loop stands: the bytes of
`done` have been written, those of `held` wait to be, and `rest` is still to come. -/
structure Between (bytes : Bytes) (start place : Nat) (done held rest : List Char) :
    Prop where
  whole : bytes =
    Utf8.encodeChars done ++ (Utf8.encodeChars held ++ Utf8.encodeChars rest)
  started : start = (Utf8.encodeChars done).length
  placed : place = start + (Utf8.encodeChars held).length
  plain : ∀ c ∈ held, isPlain c

namespace Between

variable {bytes : Bytes} {start place : Nat} {done held rest : List Char} {c : Char}

theorem drop_start (between : Between bytes start place done held rest) :
    bytes.drop start = held.map Bytes.ascii ++ Utf8.encodeChars rest := by
  rw [between.whole, between.started, List.drop_left, encodeChars_plain between.plain]

theorem take_held (between : Between bytes start place done held rest) :
    (bytes.drop start).take (place - start) = held.map Bytes.ascii := by
  have length : place - start = (held.map Bytes.ascii).length := by
    rw [between.placed, encodeChars_plain between.plain]
    omega
  rw [between.drop_start, length, List.take_left]

/-- A plain character waits behind those that do. -/
theorem wait (between : Between bytes start place done held (c :: rest))
    (plain : isPlain c) :
    Between bytes start (place + (Utf8.encodeChar c).length) done (held ++ [c]) rest where
  whole := by
    rw [between.whole]
    simp [Utf8.encodeChars]
  started := between.started
  placed := by
    rw [between.placed]
    simp [Utf8.encodeChars, Nat.add_assoc]
  plain := by
    intro d member
    rcases List.mem_append.1 member with member | member
    · exact between.plain d member
    · rw [List.mem_singleton.1 member]
      exact plain

/-- An escaped character is passed over, with all before it. -/
theorem pass (between : Between bytes start place done held (c :: rest)) :
    Between bytes (place + (Utf8.encodeChar c).length)
      (place + (Utf8.encodeChar c).length) (done ++ held ++ [c]) [] rest where
  whole := by
    rw [between.whole]
    simp [Utf8.encodeChars]
  started := by
    rw [between.placed, between.started]
    simp [Utf8.encodeChars, Nat.add_assoc]
  placed := rfl
  plain := List.forall_mem_nil _

end Between

/-- From any place of its loop, a stretch writes what waits and then each character
that is still to come. -/
theorem flatten_stretchFrom {bytes : Bytes} {start place : Nat}
    {done held rest : List Char} (between : Between bytes start place done held rest) :
    (stretchFrom bytes start place rest).flatten =
      (held ++ rest.flatMap plainText).map Bytes.ascii := by
  -- The bytes stay as they are and only the places in them move, so the characters
  -- that they stand between are carried along.
  induction rest generalizing start place done held with
  | nil =>
    unfold stretchFrom
    rw [List.flatten_singleton, between.drop_start, List.flatMap_nil, List.append_nil]
    exact List.append_nil _
  | cons c rest ih =>
    unfold stretchFrom
    dsimp only
    by_cases plain : isPlain c
    · have here : plainText c = [c] := if_pos plain
      rw [if_pos plain, ih (between.wait plain), List.flatMap_cons, here,
        List.append_assoc]
    · have here : plainText c = (units c).flatMap Json.unitText := if_neg plain
      have escaped :
          ((units c).map fun unit => (Json.unitText unit).map Bytes.ascii).flatten =
            ((units c).flatMap Json.unitText).map Bytes.ascii := by
        rw [List.map_flatMap, List.flatMap_def]
      rw [if_neg plain, List.flatten_append, List.flatten_cons, escaped, ih between.pass,
        between.take_held, List.flatMap_cons, here, List.nil_append, List.map_append,
        List.map_append, List.append_assoc]

theorem flatten_stretch (cs : List Char) :
    (partPieces (.stretch cs)).flatten = (cs.flatMap plainText).map Bytes.ascii := by
  have between : Between (Utf8.encodeChars cs) 0 0 [] [] cs :=
    ⟨rfl, rfl, rfl, List.forall_mem_nil _⟩
  exact flatten_stretchFrom between

/-! ## Parts -/

/-- Characters without an escape are written as a stretch writes them. -/
theorem flatMap_plainText {cs : List Char} (unescaped : ∀ c ∈ cs, Json.escape? c = none) :
    cs.flatMap plainText = cs.flatMap charText := by
  induction cs with
  | nil => rfl
  | cons c cs ih =>
    obtain ⟨first, others⟩ := List.forall_mem_cons.1 unescaped
    rw [List.flatMap_cons, List.flatMap_cons, ih others, charText_eq, first,
      Option.getD_none]

theorem flatten_heldPart {held : List Char}
    (unescaped : ∀ c ∈ held, Json.escape? c = none) :
    ((Json.heldPart held).flatMap partPieces).flatten =
      (held.reverse.flatMap charText).map Bytes.ascii := by
  unfold Json.heldPart
  split
  · next none =>
    rw [none]
    rfl
  · have reversed : ∀ c ∈ held.reverse, Json.escape? c = none := by
      intro c member
      exact unescaped c (List.mem_reverse.1 member)
    rw [List.flatMap_singleton, flatten_stretch, flatMap_plainText reversed]

/-- Cutting a text changes nothing: the characters that are held back come before
those that follow. -/
theorem flatten_partsFrom {held : List Char}
    (unescaped : ∀ c ∈ held, Json.escape? c = none) (cs : List Char) :
    ((Json.partsFrom held cs).flatMap partPieces).flatten =
      ((held.reverse ++ cs).flatMap charText).map Bytes.ascii := by
  induction cs generalizing held with
  | nil =>
    rw [List.append_nil]
    exact flatten_heldPart unescaped
  | cons c cs ih =>
    unfold Json.partsFrom
    cases escape : Json.escape? c with
    | none =>
      have more : ∀ d ∈ c :: held, Json.escape? d = none :=
        List.forall_mem_cons.2 ⟨escape, unescaped⟩
      dsimp only
      rw [ih more, List.reverse_cons, List.append_assoc, List.singleton_append]
    | some text =>
      have here : charText c = text := by
        rw [charText_eq, escape, Option.getD_some]
      have escaped : (partPieces (.escape text)).flatten = text.map Bytes.ascii :=
        List.flatten_singleton
      have afterwards := ih (List.forall_mem_nil _)
      rw [List.reverse_nil, List.nil_append] at afterwards
      dsimp only
      rw [List.flatMap_append, List.flatten_append, flatten_heldPart unescaped,
        List.flatMap_cons, List.flatten_append, escaped, afterwards, List.flatMap_append,
        List.flatMap_cons, here, List.map_append, List.map_append]

/-! ## Pools -/

theorem flatten_elementPieces (c : Constant) :
    (elementPieces c).flatten = (elementText c).map Bytes.ascii := by
  cases c with
  | int i => exact List.flatten_singleton
  | str s =>
    have inside := flatten_partsFrom (List.forall_mem_nil _) s.toList
    unfold elementPieces elementText Json.parts
    rw [List.flatten_append, List.flatten_cons, inside, List.map_append, List.map_cons]
    rfl

theorem flatten_morePieces (pool : ConstantPool) :
    (elementsPieces false pool).flatten = (moreText pool).map Bytes.ascii := by
  induction pool with
  | nil => rfl
  | cons c rest ih =>
    unfold elementsPieces moreText
    rw [List.flatten_append, List.flatten_append, flatten_elementPieces, ih,
      List.map_append, List.map_cons, List.map_cons]
    rfl

/-- The bytes of a pool are those of its form, and a null byte. -/
theorem encode_eq (pool : ConstantPool) :
    pool.encode = pool.text.map Bytes.ascii ++ [0x00] := by
  unfold encode pieces
  cases pool with
  | nil => rfl
  | cons c rest =>
    unfold elementsPieces text
    rw [List.flatten_append, List.flatten_cons, List.flatten_append,
      List.flatten_append, flatten_elementPieces, flatten_morePieces, List.map_append,
      List.map_append, List.map_cons]
    simp [terminator]

end ConstantPool

end Bytecode
