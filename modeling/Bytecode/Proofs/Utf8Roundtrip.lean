import Bytecode.Text.Utf8

/-!
UTF-8 in both directions.

`split_encodeChar` reads one written character back, whatever follows it, and
`eq_append_of_split` recovers the bytes from what was read. Together they say
that `split` leaves nothing over exactly on the bytes of a text
(`split_eq_nil_iff`). The form of a written character (`encodeChar_shape`) is
kept apart: the first byte of a character never looks like one of its later
bytes, so a character cannot begin inside another one.
-/

namespace Bytecode

namespace Utf8

/-! ## Characters and their numbers -/

theorem toNat_ofNat {n : Nat} (valid : n.isValidChar) :
    (Char.ofNat n).toNat = n := by
  rw [Char.ofNat, dif_pos valid]
  rfl

/-- The number of a character is no surrogate. -/
theorem toNat_valid (c : Char) :
    c.toNat < 0xD800 ∨ (0xDFFF < c.toNat ∧ c.toNat < 0x110000) :=
  c.valid

theorem toNat_lt (c : Char) : c.toNat < 0x110000 := by
  have valid := toNat_valid c
  omega

/-! ## The four forms -/

section Forms

variable {c : Char}

theorem encodeChar_one (small : c.toNat < 0x80) :
    encodeChar c = [UInt8.ofNat c.toNat] :=
  if_pos small

theorem encodeChar_two (low : 0x80 ≤ c.toNat) (high : c.toNat < 0x800) :
    encodeChar c =
      [UInt8.ofNat (0xC0 + c.toNat / 0x40),
        UInt8.ofNat (0x80 + c.toNat % 0x40)] := by
  simp only [encodeChar, Nat.not_lt.2 low, high, if_true, if_false]

theorem encodeChar_three (low : 0x800 ≤ c.toNat) (high : c.toNat < 0x10000) :
    encodeChar c =
      [UInt8.ofNat (0xE0 + c.toNat / 0x1000),
        UInt8.ofNat (0x80 + c.toNat / 0x40 % 0x40),
        UInt8.ofNat (0x80 + c.toNat % 0x40)] := by
  have notOne : ¬ c.toNat < 0x80 := by omega
  simp only [encodeChar, notOne, Nat.not_lt.2 low, high, if_true, if_false]

theorem encodeChar_four (low : 0x10000 ≤ c.toNat) :
    encodeChar c =
      [UInt8.ofNat (0xF0 + c.toNat / 0x40000),
        UInt8.ofNat (0x80 + c.toNat / 0x1000 % 0x40),
        UInt8.ofNat (0x80 + c.toNat / 0x40 % 0x40),
        UInt8.ofNat (0x80 + c.toNat % 0x40)] := by
  have notOne : ¬ c.toNat < 0x80 := by omega
  have notTwo : ¬ c.toNat < 0x800 := by omega
  simp only [encodeChar, notOne, notTwo, Nat.not_lt.2 low, if_false]

end Forms

/-- Every character has one of the four forms. -/
theorem four_forms (c : Char) :
    c.toNat < 0x80 ∨ (0x80 ≤ c.toNat ∧ c.toNat < 0x800) ∨
      (0x800 ≤ c.toNat ∧ c.toNat < 0x10000) ∨ 0x10000 ≤ c.toNat := by
  omega

/-- The bytes of a character are those that the library's strings hold. -/
theorem encodeChar_eq_utf8EncodeChar (c : Char) :
    encodeChar c = String.utf8EncodeChar c := by
  have bound : c.val.toNat < 0x110000 := toNat_lt c
  have number : c.toNat = c.val.toNat := rfl
  unfold String.utf8EncodeChar
  rcases four_forms c with one | two | three | four
  · rw [encodeChar_one one, if_pos (by omega), number]
  · rw [encodeChar_two two.1 two.2, if_neg (by omega), if_pos (by omega), number]
    have high : 0xC0 + c.val.toNat / 0x40 = c.val.toNat / 64 % 32 + 192 := by
      omega
    have low : 0x80 + c.val.toNat % 0x40 = c.val.toNat % 64 + 128 := by omega
    rw [high, low]
  · rw [encodeChar_three three.1 three.2, if_neg (by omega), if_neg (by omega),
      if_pos (by omega), number]
    have high : 0xE0 + c.val.toNat / 0x1000 = c.val.toNat / 4096 % 16 + 224 := by
      omega
    rw [high, Nat.add_comm 0x80, Nat.add_comm 0x80]
  · rw [encodeChar_four four, if_neg (by omega), if_neg (by omega),
      if_neg (by omega), number]
    have high :
        0xF0 + c.val.toNat / 0x40000 = c.val.toNat / 262144 % 8 + 240 := by
      omega
    rw [high, Nat.add_comm 0x80, Nat.add_comm 0x80, Nat.add_comm 0x80]

/-! ## Reading a written character back -/

theorem toNat_byte {n : Nat} (small : n < 0x100) : (UInt8.ofNat n).toNat = n :=
  UInt8.toNat_ofNat_of_lt' small

section Steps

variable {a b c d : UInt8} {rest : Bytes} {x : Char}

theorem split_one (small : a.toNat < 0x80) :
    split (a :: rest) = push (Char.ofNat a.toNat) (split rest) := by
  rw [split.eq_def]
  exact if_pos small

theorem split_two (large : 0x80 ≤ a.toNat) (second : two? a b = some x) :
    split (a :: b :: rest) = push x (split rest) := by
  rw [split.eq_def]
  simp only [Nat.not_lt.2 large, second, if_false]

theorem split_three (large : 0x80 ≤ a.toNat) (notTwo : two? a b = none)
    (third : three? a b c = some x) :
    split (a :: b :: c :: rest) = push x (split rest) := by
  rw [split.eq_def]
  simp only [Nat.not_lt.2 large, notTwo, third, if_false]

theorem split_four (large : 0x80 ≤ a.toNat) (notTwo : two? a b = none)
    (notThree : three? a b c = none) (fourth : four? a b c d = some x) :
    split (a :: b :: c :: d :: rest) = push x (split rest) := by
  rw [split.eq_def]
  simp only [Nat.not_lt.2 large, notTwo, notThree, fourth, if_false]

end Steps

theorem tail?_byte {n : Nat} (small : n < 0x40) :
    tail? (UInt8.ofNat (0x80 + n)) = some n := by
  unfold tail?
  rw [toNat_byte (by omega), if_pos (by omega), Nat.add_sub_cancel_left]

theorem scalar?_toNat {low high : Nat} {c : Char} (above : low ≤ c.toNat)
    (below : c.toNat < high) : scalar? low high c.toNat = some c := by
  unfold scalar?
  rw [if_pos ⟨above, below, c.valid⟩, Char.ofNat_toNat]

theorem two?_encoded {c : Char} (low : 0x80 ≤ c.toNat) (high : c.toNat < 0x800) :
    two? (UInt8.ofNat (0xC0 + c.toNat / 0x40))
      (UInt8.ofNat (0x80 + c.toNat % 0x40)) = some c := by
  have number : (0xC0 + c.toNat / 0x40 - 0xC0) * 0x40 + c.toNat % 0x40 =
      c.toNat := by omega
  unfold two?
  rw [toNat_byte (by omega), if_pos (by omega)]
  refine Option.bind_eq_some_iff.2 ⟨_, tail?_byte (by omega), ?_⟩
  rw [number, scalar?_toNat low high]

theorem three?_encoded {c : Char} (low : 0x800 ≤ c.toNat)
    (high : c.toNat < 0x10000) :
    three? (UInt8.ofNat (0xE0 + c.toNat / 0x1000))
      (UInt8.ofNat (0x80 + c.toNat / 0x40 % 0x40))
      (UInt8.ofNat (0x80 + c.toNat % 0x40)) = some c := by
  have number : (0xE0 + c.toNat / 0x1000 - 0xE0) * 0x1000 +
      c.toNat / 0x40 % 0x40 * 0x40 + c.toNat % 0x40 = c.toNat := by omega
  unfold three?
  rw [toNat_byte (by omega), if_pos (by omega)]
  refine Option.bind_eq_some_iff.2 ⟨_, tail?_byte (by omega), ?_⟩
  refine Option.bind_eq_some_iff.2 ⟨_, tail?_byte (by omega), ?_⟩
  rw [number, scalar?_toNat low high]

theorem four?_encoded {c : Char} (low : 0x10000 ≤ c.toNat) :
    four? (UInt8.ofNat (0xF0 + c.toNat / 0x40000))
      (UInt8.ofNat (0x80 + c.toNat / 0x1000 % 0x40))
      (UInt8.ofNat (0x80 + c.toNat / 0x40 % 0x40))
      (UInt8.ofNat (0x80 + c.toNat % 0x40)) = some c := by
  have high := toNat_lt c
  have number : (0xF0 + c.toNat / 0x40000 - 0xF0) * 0x40000 +
      c.toNat / 0x1000 % 0x40 * 0x1000 + c.toNat / 0x40 % 0x40 * 0x40 +
      c.toNat % 0x40 = c.toNat := by omega
  unfold four?
  rw [toNat_byte (by omega), if_pos (by omega)]
  refine Option.bind_eq_some_iff.2 ⟨_, tail?_byte (by omega), ?_⟩
  refine Option.bind_eq_some_iff.2 ⟨_, tail?_byte (by omega), ?_⟩
  refine Option.bind_eq_some_iff.2 ⟨_, tail?_byte (by omega), ?_⟩
  rw [number, scalar?_toNat low high]

theorem two?_of_high {a : UInt8} (high : 0xE0 ≤ a.toNat) (b : UInt8) :
    two? a b = none :=
  if_neg (by omega)

theorem three?_of_high {a : UInt8} (high : 0xF0 ≤ a.toNat) (b c : UInt8) :
    three? a b c = none :=
  if_neg (by omega)

/-- A written character is read back, and what follows it is read as if it
stood alone. -/
theorem split_encodeChar (c : Char) (rest : Bytes) :
    split (encodeChar c ++ rest) = push c (split rest) := by
  rcases four_forms c with one | ⟨low, high⟩ | ⟨low, high⟩ | low
  · have byte : (UInt8.ofNat c.toNat).toNat = c.toNat := toNat_byte (by omega)
    rw [encodeChar_one one]
    change split (_ :: rest) = _
    rw [split_one (by omega), byte, Char.ofNat_toNat]
  · have byte : (UInt8.ofNat (0xC0 + c.toNat / 0x40)).toNat =
        0xC0 + c.toNat / 0x40 := toNat_byte (by omega)
    rw [encodeChar_two low high]
    exact split_two (by omega) (two?_encoded low high)
  · have byte : (UInt8.ofNat (0xE0 + c.toNat / 0x1000)).toNat =
        0xE0 + c.toNat / 0x1000 := toNat_byte (by omega)
    rw [encodeChar_three low high]
    exact split_three (by omega) (two?_of_high (by omega) _)
      (three?_encoded low high)
  · have high := toNat_lt c
    have byte : (UInt8.ofNat (0xF0 + c.toNat / 0x40000)).toNat =
        0xF0 + c.toNat / 0x40000 := toNat_byte (by omega)
    rw [encodeChar_four low]
    exact split_four (by omega) (two?_of_high (by omega) _)
      (three?_of_high (by omega) _ _) (four?_encoded low)

/-- A written text is read back as far as it goes. -/
theorem split_encodeChars (cs : List Char) (rest : Bytes) :
    split (encodeChars cs ++ rest) = (cs ++ (split rest).1, (split rest).2) := by
  induction cs with
  | nil => rfl
  | cons c cs ih =>
    change split ((encodeChar c ++ encodeChars cs) ++ rest) = _
    rw [List.append_assoc, split_encodeChar, ih]
    rfl

/-! ## Writing what was read -/

theorem ofNat_eq_of_toNat {b : UInt8} {n : Nat} (number : b.toNat = n) :
    UInt8.ofNat n = b := by
  rw [← number, UInt8.ofNat_toNat]

theorem toNat_of_tail? {b : UInt8} {n : Nat} (found : tail? b = some n) :
    b.toNat = 0x80 + n ∧ n < 0x40 := by
  unfold tail? at found
  split at found
  · have value := Option.some.inj found
    omega
  · cases found

theorem toNat_of_scalar? {low high n : Nat} {c : Char}
    (found : scalar? low high n = some c) :
    low ≤ n ∧ n < high ∧ c.toNat = n := by
  unfold scalar? at found
  split at found
  · next range =>
    rw [← Option.some.inj found]
    exact ⟨range.1, range.2.1, toNat_ofNat range.2.2⟩
  · cases found

theorem encodeChar_of_two? {a b : UInt8} {c : Char} (found : two? a b = some c) :
    encodeChar c = [a, b] := by
  unfold two? at found
  split at found
  · obtain ⟨x, second, found⟩ := Option.bind_eq_some_iff.1 found
    have secondByte := toNat_of_tail? second
    have scalar := toNat_of_scalar? found
    rw [encodeChar_two (by omega) (by omega),
      ofNat_eq_of_toNat (b := a) (by omega),
      ofNat_eq_of_toNat (b := b) (by omega)]
  · cases found

theorem encodeChar_of_three? {a b c : UInt8} {x : Char}
    (found : three? a b c = some x) : encodeChar x = [a, b, c] := by
  unfold three? at found
  split at found
  · obtain ⟨m, second, found⟩ := Option.bind_eq_some_iff.1 found
    obtain ⟨n, third, found⟩ := Option.bind_eq_some_iff.1 found
    have secondByte := toNat_of_tail? second
    have thirdByte := toNat_of_tail? third
    have scalar := toNat_of_scalar? found
    rw [encodeChar_three (by omega) (by omega),
      ofNat_eq_of_toNat (b := a) (by omega),
      ofNat_eq_of_toNat (b := b) (by omega),
      ofNat_eq_of_toNat (b := c) (by omega)]
  · cases found

theorem encodeChar_of_four? {a b c d : UInt8} {x : Char}
    (found : four? a b c d = some x) : encodeChar x = [a, b, c, d] := by
  unfold four? at found
  split at found
  · obtain ⟨l, second, found⟩ := Option.bind_eq_some_iff.1 found
    obtain ⟨m, third, found⟩ := Option.bind_eq_some_iff.1 found
    obtain ⟨n, fourth, found⟩ := Option.bind_eq_some_iff.1 found
    have secondByte := toNat_of_tail? second
    have thirdByte := toNat_of_tail? third
    have fourthByte := toNat_of_tail? fourth
    have scalar := toNat_of_scalar? found
    rw [encodeChar_four (by omega),
      ofNat_eq_of_toNat (b := a) (by omega),
      ofNat_eq_of_toNat (b := b) (by omega),
      ofNat_eq_of_toNat (b := c) (by omega),
      ofNat_eq_of_toNat (b := d) (by omega)]
  · cases found

theorem encodeChars_push (c : Char) (read : List Char × Bytes) :
    encodeChars (push c read).1 ++ (push c read).2 =
      encodeChar c ++ (encodeChars read.1 ++ read.2) :=
  List.append_assoc _ _ _

/-- Nothing is lost: the bytes are those of the characters read, followed by
the bytes left over. -/
theorem eq_append_of_split (bytes : Bytes) :
    bytes = encodeChars (split bytes).1 ++ (split bytes).2 := by
  fun_induction split bytes with
  | case1 => rfl
  | case2 a rest small ih =>
    have number : (Char.ofNat a.toNat).toNat = a.toNat :=
      toNat_ofNat (Or.inl (by omega))
    rw [encodeChars_push, ← ih, encodeChar_one (by omega), number,
      UInt8.ofNat_toNat]
    rfl
  | case3 => rfl
  | case4 a large b rest x found ih =>
    rw [encodeChars_push, ← ih, encodeChar_of_two? found]
    rfl
  | case5 => rfl
  | case6 a large b notTwo c rest x found ih =>
    rw [encodeChars_push, ← ih, encodeChar_of_three? found]
    rfl
  | case7 => rfl
  | case8 a large b notTwo c notThree d rest x found ih =>
    rw [encodeChars_push, ← ih, encodeChar_of_four? found]
    rfl
  | case9 => rfl

/-- Nothing is left over exactly on the bytes of a text. -/
theorem split_eq_nil_iff {bytes : Bytes} {cs : List Char} :
    split bytes = (cs, []) ↔ bytes = encodeChars cs := by
  constructor
  · intro whole
    have bytesEq := eq_append_of_split bytes
    rw [whole, List.append_nil] at bytesEq
    exact bytesEq
  · intro bytesEq
    subst bytesEq
    have read := split_encodeChars cs []
    rw [List.append_nil] at read
    rw [read]
    change (cs ++ [], []) = (cs, [])
    rw [List.append_nil]

/-- A text starts with one character in one way only. -/
theorem encodeChar_append_inj {c d : Char} {left right : Bytes}
    (same : encodeChar c ++ left = encodeChar d ++ right) :
    c = d ∧ left = right := by
  have read := congrArg split same
  rw [split_encodeChar, split_encodeChar] at read
  have first : c = d := (List.cons.inj (congrArg Prod.fst read)).1
  subst first
  exact ⟨rfl, List.append_cancel_left same⟩

/-! ## The bytes of one character -/

/-- The bytes that stand inside a character, after its first byte. -/
def IsTail (b : UInt8) : Prop :=
  0x80 ≤ b.toNat ∧ b.toNat < 0xC0

theorem isTail_byte {n : Nat} (small : n < 0x40) :
    IsTail (UInt8.ofNat (0x80 + n)) := by
  unfold IsTail
  rw [toNat_byte (by omega)]
  omega

/-- A character is either its own number as one byte, or a first byte above
ASCII followed by tail bytes. -/
theorem encodeChar_shape (c : Char) :
    (c.toNat < 0x80 ∧ encodeChar c = [UInt8.ofNat c.toNat]) ∨
      (0x80 ≤ c.toNat ∧ ∃ first tails, encodeChar c = first :: tails ∧
        0xC0 ≤ first.toNat ∧ ∀ b ∈ tails, IsTail b) := by
  have bound := toNat_lt c
  rcases four_forms c with one | ⟨low, high⟩ | ⟨low, high⟩ | low
  · exact Or.inl ⟨one, encodeChar_one one⟩
  · refine Or.inr ⟨low, _, _, encodeChar_two low high, ?_, ?_⟩
    · rw [toNat_byte (by omega)]
      omega
    · simp only [List.forall_mem_singleton]
      exact isTail_byte (by omega)
  · refine Or.inr ⟨by omega, _, _, encodeChar_three low high, ?_, ?_⟩
    · rw [toNat_byte (by omega)]
      omega
    · simp only [List.forall_mem_cons]
      exact ⟨isTail_byte (by omega), isTail_byte (by omega),
        List.forall_mem_nil _⟩
  · refine Or.inr ⟨by omega, _, _, encodeChar_four low, ?_, ?_⟩
    · rw [toNat_byte (by omega)]
      omega
    · simp only [List.forall_mem_cons]
      exact ⟨isTail_byte (by omega), isTail_byte (by omega),
        isTail_byte (by omega), List.forall_mem_nil _⟩

/-- No character begins with a tail byte. -/
theorem exists_first (c : Char) :
    ∃ first tails, encodeChar c = first :: tails ∧ ¬ IsTail first := by
  rcases encodeChar_shape c with ⟨small, one⟩ | ⟨-, first, tails, more, high, -⟩
  · refine ⟨_, _, one, ?_⟩
    intro tail
    have low := tail.1
    rw [toNat_byte (by omega)] at low
    omega
  · refine ⟨first, tails, more, ?_⟩
    intro tail
    have below := tail.2
    omega

end Utf8

end Bytecode
