import Bytecode.Json.Printer
import Bytecode.Proofs.IntegerLines

/-!
JSON texts on indented lines, and the values that they show.

Different values have different texts (`Integral.pretty_inj`). What is written for a
value does not always end where another text could not go on: digits may follow
digits. So the texts are compared together with what follows them, which in a layout
is a comma, a new line or nothing (`Breaks`), and equal texts come from equal values
followed by equal texts (`TellsApart`). Strings carry their own end, since a quote
inside of one is escaped and no escape begins another; lists and objects have theirs
on a line of its own.

Nothing is said of real numbers, and values with any in them are left out.
-/

namespace Bytecode

namespace Json

/-! ## What follows a value -/

/-- The characters of a numeral. -/
def inNumeral (c : Char) : Bool :=
  c.isDigit || c = '-'

/-- A text that does not go on with a numeral. -/
def Breaks (text : List Char) : Prop :=
  ∀ c ∈ text.head?, inNumeral c = false

/-- What is written for two things, with texts after it, is the same only if the
things and the texts are. -/
def TellsApart {α : Type} (write : α → List Char) (x y : α) : Prop :=
  ∀ {rest rest' : List Char}, Breaks rest → Breaks rest' →
    write x ++ rest = write y ++ rest' → x = y ∧ rest = rest'

theorem breaks_nil : Breaks [] :=
  nofun

theorem breaks_cons {c : Char} (other : inNumeral c = false) (text : List Char) :
    Breaks (c :: text) := by
  rintro _ ⟨⟩
  exact other

/-! ## Numerals -/

theorem inNumeral_integer (i : Int) : ∀ c ∈ Numeral.integer i, inNumeral c := by
  have digits : ∀ c ∈ Numeral.natural i.natAbs, inNumeral c := by
    intro c member
    have digit := Nat.isDigit_of_mem_toDigits (by decide) (by decide) member
    exact Bool.or_eq_true_iff.2 (.inl digit)
  unfold Numeral.integer
  split
  · exact List.forall_mem_cons.2 ⟨by decide, digits⟩
  · exact digits

theorem takeWhile_integer (i : Int) {rest : List Char} (breaks : Breaks rest) :
    (Numeral.integer i ++ rest).takeWhile inNumeral = Numeral.integer i := by
  rw [List.takeWhile_append_of_pos (inNumeral_integer i)]
  cases rest with
  | nil => exact List.append_nil _
  | cons c rest =>
    have other : ¬ inNumeral c = true := Bool.eq_false_iff.1 (breaks c rfl)
    rw [List.takeWhile_cons_of_neg other, List.append_nil]

theorem tellsApart_integer (i j : Int) : TellsApart Numeral.integer i j := by
  intro rest rest' breaks breaks' same
  have numerals : Numeral.integer i = Numeral.integer j := by
    rw [← takeWhile_integer i breaks, same, takeWhile_integer j breaks']
  have read := Numeral.integer?_eq_some_iff.2 (Numeral.signed_integer i)
  rw [numerals, Numeral.integer?_eq_some_iff.2 (Numeral.signed_integer j)] at read
  rw [numerals] at same
  exact ⟨(Option.some.inj read).symm, List.append_cancel_left same⟩

/-! ## Strings -/

/-- The characters that must be escaped. -/
def escapedChars : List Char :=
  '"' :: '\\' :: (List.range 0x20).map Char.ofNat

theorem mem_escapedChars {c : Char} {text : List Char}
    (escapes : escape? c = some text) : c ∈ escapedChars := by
  have control : c.toNat < 0x20 → c ∈ escapedChars := by
    intro small
    have member := List.mem_map_of_mem (f := Char.ofNat) (List.mem_range.2 small)
    rw [Char.ofNat_toNat] at member
    exact List.mem_cons_of_mem _ (List.mem_cons_of_mem _ member)
  by_cases quote : c = '"'
  · rw [quote]
    decide
  by_cases backslash : c = '\\'
  · rw [backslash]
    decide
  by_cases small : c.toNat < 0x20
  · exact control small
  · -- The letters are those of characters below the space.
    have letters : controlLetter? c = none := by
      have other : ∀ d : Char, d.toNat < 0x20 → c ≠ d := by
        rintro d below rfl
        exact small below
      unfold controlLetter?
      rw [if_neg (other _ (by decide)), if_neg (other _ (by decide)),
        if_neg (other _ (by decide)), if_neg (other _ (by decide)),
        if_neg (other _ (by decide))]
    unfold escape? at escapes
    rw [if_neg quote, if_neg backslash, letters] at escapes
    dsimp only at escapes
    rw [if_neg small] at escapes
    cases escapes

theorem charText_cases (c : Char) :
    (c ∉ escapedChars ∧ charText c = [c]) ∨
      c ∈ escapedChars ∧ ∃ text, charText c = '\\' :: text := by
  have checked : (escapedChars.all fun c => (charText c).head? = some '\\') = true := by
    decide +kernel
  have escaped : ∀ c ∈ escapedChars, (charText c).head? = some '\\' := fun c member =>
    of_decide_eq_true (List.all_eq_true.1 checked c member)
  cases escapes : escape? c with
  | some text =>
    have member := mem_escapedChars escapes
    obtain ⟨text, begins⟩ := List.head?_eq_some_iff.1 (escaped c member)
    exact .inr ⟨member, text, begins⟩
  | none =>
    have plain : charText c = [c] := by
      unfold charText
      rw [escapes]
      rfl
    refine .inl ⟨fun member => ?_, plain⟩
    have begins := escaped c member
    rw [plain] at begins
    obtain rfl : c = '\\' := Option.some.inj begins
    cases escapes

/-- What is written for a character does not begin what is written for another. -/
theorem eq_of_charText_begins {c d : Char} (begins : charText c <+: charText d) :
    c = d := by
  have checked : (escapedChars.all fun c => escapedChars.all fun d =>
      charText c <+: charText d → c = d) = true := by
    decide +kernel
  have escapes : ∀ c ∈ escapedChars, ∀ d ∈ escapedChars,
      charText c <+: charText d → c = d := fun c member d member' =>
    of_decide_eq_true
      (List.all_eq_true.1 (List.all_eq_true.1 checked c member) d member')
  rcases charText_cases c with ⟨plain, text⟩ | ⟨escaped, rest, text⟩
  · rcases charText_cases d with ⟨plain', text'⟩ | ⟨escaped', rest', text'⟩
    · rw [text, text', List.cons_prefix_cons] at begins
      exact begins.1
    · rw [text, text', List.cons_prefix_cons] at begins
      rw [begins.1] at plain
      exact absurd (by decide) plain
  · rcases charText_cases d with ⟨plain', text'⟩ | ⟨escaped', -⟩
    · rw [text, text', List.cons_prefix_cons] at begins
      rw [← begins.1] at plain'
      exact absurd (by decide) plain'
    · exact escapes c escaped d escaped' begins

theorem charText_append_inj {c d : Char} {rest rest' : List Char}
    (same : charText c ++ rest = charText d ++ rest') : c = d ∧ rest = rest' := by
  have first : charText c <+: charText d ++ rest' := ⟨rest, same⟩
  have equal : c = d := by
    rcases List.prefix_or_prefix_of_prefix first (List.prefix_append _ _) with
      begins | begins
    · exact eq_of_charText_begins begins
    · exact (eq_of_charText_begins begins).symm
  rw [equal] at same
  exact ⟨equal, List.append_cancel_left same⟩

/-- No character is written like the end of a string. -/
theorem charText_append_ne_quote (c : Char) (rest rest' : List Char) :
    charText c ++ rest ≠ '"' :: rest' := by
  rcases charText_cases c with ⟨plain, text⟩ | ⟨-, after, text⟩
  · rw [text]
    intro same
    rw [(List.cons.inj same).1] at plain
    exact plain (by decide)
  · rw [text]
    nofun

theorem letters_append_inj {cs ds rest rest' : List Char}
    (same : cs.flatMap charText ++ '"' :: rest = ds.flatMap charText ++ '"' :: rest') :
    cs = ds ∧ rest = rest' := by
  induction cs generalizing ds with
  | nil =>
    cases ds with
    | nil => exact ⟨rfl, (List.cons.inj same).2⟩
    | cons d ds =>
      rw [List.flatMap_cons, List.append_assoc] at same
      exact absurd same.symm (charText_append_ne_quote d _ _)
  | cons c cs ih =>
    rw [List.flatMap_cons, List.append_assoc] at same
    cases ds with
    | nil => exact absurd same (charText_append_ne_quote c _ _)
    | cons d ds =>
      rw [List.flatMap_cons, List.append_assoc] at same
      obtain ⟨rfl, others⟩ := charText_append_inj same
      obtain ⟨rfl, after⟩ := ih others
      exact ⟨rfl, after⟩

theorem stringText_append_inj {s t : String} {rest rest' : List Char}
    (same : stringText s ++ rest = stringText t ++ rest') : s = t ∧ rest = rest' := by
  unfold stringText at same
  simp only [List.cons_append, List.append_assoc, List.nil_append] at same
  obtain ⟨letters, after⟩ := letters_append_inj (List.cons.inj same).2
  exact ⟨String.toList_inj.1 letters, after⟩

/-! ## Lists and objects -/

/-- What lists and objects have in common: things between brackets, each on a line
of its own and all but the last with a comma after it. -/
def enclosed {α : Type} (opening closing : Char) (level : Nat)
    (write : α → List Char) : List α → List Char
  | [] => [opening, closing]
  | x :: rest =>
    opening :: newLine (level + 1) ++ write x ++
      rest.flatMap (fun y => ',' :: newLine (level + 1) ++ write y) ++
        newLine level ++ [closing]

theorem layoutMoreItems_eq (level : Nat) (items : List Value) :
    layoutMoreItems level items =
      items.flatMap fun v => ',' :: newLine level ++ v.layout level := by
  induction items with
  | nil => rfl
  | cons v items ih => rw [layoutMoreItems, ih, List.flatMap_cons]

theorem layoutMoreMembers_eq (level : Nat) (members : List (String × Value)) :
    layoutMoreMembers level members =
      members.flatMap fun m => ',' :: newLine level ++ layoutMember level m := by
  induction members with
  | nil => rfl
  | cons m members ih => rw [layoutMoreMembers, ih, List.flatMap_cons]

theorem layout_array (level : Nat) (items : List Value) :
    (Value.array items).layout level =
      enclosed '[' ']' level (Value.layout (level + 1)) items := by
  cases items with
  | nil => rfl
  | cons v rest => rw [Value.layout, layoutMoreItems_eq, enclosed]

theorem layout_object (level : Nat) (members : List (String × Value)) :
    (Value.object members).layout level =
      enclosed '\x7b' '\x7d' level (layoutMember (level + 1)) members := by
  cases members with
  | nil => rfl
  | cons m rest => rw [Value.layout, layoutMoreMembers_eq, enclosed]

section

variable {α : Type} {write : α → List Char} {xs ys : List α}

/-- Whatever lines follow one in a list, they begin with a comma or a new line. -/
theorem breaks_lines (level : Nat) (xs : List α) (rest : List Char) :
    Breaks (xs.flatMap (fun x => ',' :: newLine level ++ write x) ++ '\n' :: rest) := by
  cases xs with
  | nil => exact breaks_cons (by decide) _
  | cons x xs => exact breaks_cons (by decide) _

theorem lines_append_inj {level : Nat} {rest rest' : List Char}
    (apart : ∀ x ∈ xs, ∀ y ∈ ys, TellsApart write x y)
    (same : xs.flatMap (fun x => ',' :: newLine level ++ write x) ++ '\n' :: rest =
      ys.flatMap (fun y => ',' :: newLine level ++ write y) ++ '\n' :: rest') :
    xs = ys ∧ rest = rest' := by
  induction xs generalizing ys with
  | nil =>
    cases ys with
    | nil => exact ⟨rfl, (List.cons.inj same).2⟩
    | cons y ys => cases same
  | cons x xs ih =>
    cases ys with
    | nil => cases same
    | cons y ys =>
      simp only [List.flatMap_cons, List.cons_append, List.append_assoc] at same
      have lines := List.append_cancel_left (List.cons.inj same).2
      obtain ⟨rfl, others⟩ := apart x List.mem_cons_self y List.mem_cons_self
        (breaks_lines level xs rest) (breaks_lines level ys rest') lines
      have apart : ∀ x ∈ xs, ∀ y ∈ ys, TellsApart write x y := fun x member y member' =>
        apart x (List.mem_cons_of_mem _ member) y (List.mem_cons_of_mem _ member')
      obtain ⟨rfl, after⟩ := ih apart others
      exact ⟨rfl, after⟩

/-- Things that are told apart are told apart in a list. -/
theorem enclosed_append_inj {opening closing : Char} {level : Nat}
    {rest rest' : List Char} (other : closing ≠ '\n')
    (apart : ∀ x ∈ xs, ∀ y ∈ ys, TellsApart write x y)
    (same : enclosed opening closing level write xs ++ rest =
      enclosed opening closing level write ys ++ rest') :
    xs = ys ∧ rest = rest' := by
  cases xs with
  | nil =>
    cases ys with
    | nil => exact ⟨rfl, List.append_cancel_left same⟩
    | cons y ys => exact absurd (List.cons.inj (List.cons.inj same).2).1 other
  | cons x xs =>
    cases ys with
    | nil => exact absurd (List.cons.inj (List.cons.inj same).2).1.symm other
    | cons y ys =>
      simp only [enclosed, newLine, List.cons_append, List.append_assoc] at same
      have lines := List.append_cancel_left (List.cons.inj (List.cons.inj same).2).2
      obtain ⟨rfl, others⟩ := apart x List.mem_cons_self y List.mem_cons_self
        (breaks_lines (level + 1) xs _) (breaks_lines (level + 1) ys _) lines
      have apart : ∀ x ∈ xs, ∀ y ∈ ys, TellsApart write x y := fun x member y member' =>
        apart x (List.mem_cons_of_mem _ member) y (List.mem_cons_of_mem _ member')
      obtain ⟨rfl, after⟩ := lines_append_inj apart others
      exact ⟨rfl, (List.cons.inj (List.append_cancel_left after)).2⟩

end

/-! ## Values -/

/-- The kinds of values. -/
inductive Kind where
  | null
  | boolean
  | number
  | string
  | array
  | object
deriving DecidableEq

/-- The kind of a value. -/
def Value.kind : Value → Kind
  | .null => .null
  | .boolean _ => .boolean
  | .number _ => .number
  | .string _ => .string
  | .array _ => .array
  | .object _ => .object

/-- The kind of the values whose text begins with a character. -/
def Kind.ofFirst (c : Char) : Kind :=
  if c = 'n' then .null
  else if c = 't' ∨ c = 'f' then .boolean
  else if c = '"' then .string
  else if c = '[' then .array
  else if c = '\x7b' then .object
  else .number

/-- A value without real numbers in it. -/
inductive Value.Integral : Value → Prop
  | null : Integral .null
  | boolean (b : Bool) : Integral (.boolean b)
  | integer (i : Int) : Integral (.number (.integer i))
  | string (s : String) : Integral (.string s)
  | array {items : List Value} :
    (∀ v ∈ items, Integral v) → Integral (.array items)
  | object {members : List (String × Value)} :
    (∀ m ∈ members, Integral m.2) → Integral (.object members)

namespace Value

variable {v w : Value}

theorem ofFirst_of_inNumeral {c : Char} (numeral : inNumeral c) :
    Kind.ofFirst c = .number := by
  have other : ∀ d, inNumeral d = false → c ≠ d := by
    rintro d breaks rfl
    rw [numeral] at breaks
    cases breaks
  unfold Kind.ofFirst
  rw [if_neg (other _ (by decide)),
    if_neg (not_or.2 ⟨other _ (by decide), other _ (by decide)⟩),
    if_neg (other _ (by decide)), if_neg (other _ (by decide)),
    if_neg (other _ (by decide))]

/-- The kind of a value shows in the first character of its text. -/
theorem Integral.exists_first (integral : v.Integral) (level : Nat) :
    ∃ c text, v.layout level = c :: text ∧ Kind.ofFirst c = v.kind := by
  cases integral with
  | null => exact ⟨_, _, rfl, rfl⟩
  | boolean b =>
    cases b with
    | true => exact ⟨_, _, rfl, rfl⟩
    | false => exact ⟨_, _, rfl, rfl⟩
  | integer i =>
    have inside := inNumeral_integer i
    have some := (Numeral.signed_integer i).ne_nil
    change ∃ c text, Numeral.integer i = c :: text ∧ _
    cases numeral : Numeral.integer i with
    | nil => exact absurd numeral some
    | cons c text =>
      rw [numeral] at inside
      exact ⟨c, text, rfl, ofFirst_of_inNumeral (inside c List.mem_cons_self)⟩
  | string s => exact ⟨_, _, rfl, rfl⟩
  | @array items _ =>
    cases items with
    | nil => exact ⟨_, _, rfl, rfl⟩
    | cons item items => exact ⟨_, _, rfl, rfl⟩
  | @object members _ =>
    cases members with
    | nil => exact ⟨_, _, rfl, rfl⟩
    | cons member members => exact ⟨_, _, rfl, rfl⟩

theorem Integral.kind_eq (integral : v.Integral) (integral' : w.Integral) {level : Nat}
    {rest rest' : List Char} (same : v.layout level ++ rest = w.layout level ++ rest') :
    v.kind = w.kind := by
  obtain ⟨c, text, begins, kind⟩ := integral.exists_first level
  obtain ⟨d, text', begins', kind'⟩ := integral'.exists_first level
  rw [begins, begins'] at same
  rw [← kind, ← kind', (List.cons.inj same).1]

theorem tellsApart_member {level : Nat} {m m' : String × Value}
    (apart : TellsApart (layout level) m.2 m'.2) :
    TellsApart (layoutMember level) m m' := by
  intro rest rest' breaks breaks' same
  rcases m with ⟨key, v⟩
  rcases m' with ⟨key', v'⟩
  rw [layoutMember, layoutMember, List.append_assoc, List.append_assoc] at same
  obtain ⟨rfl, values⟩ := stringText_append_inj same
  obtain ⟨equal, after⟩ :=
    apart breaks breaks' (List.cons.inj (List.cons.inj values).2).2
  obtain rfl : v = v' := equal
  exact ⟨rfl, after⟩

/-- Values without real numbers are told apart by their texts. -/
theorem Integral.tellsApart (integral : v.Integral) (integral' : w.Integral)
    (level : Nat) : TellsApart (layout level) v w := by
  -- The first characters leave only values of one kind to be compared.
  induction integral generalizing w level with
  | null =>
    intro rest rest' _ _ same
    have kinds := Integral.null.kind_eq integral' same
    cases integral' with
    | null => exact ⟨rfl, List.append_cancel_left same⟩
    | _ => cases kinds
  | boolean b =>
    intro rest rest' _ _ same
    have kinds := (Integral.boolean b).kind_eq integral' same
    cases integral' with
    | boolean b' =>
      cases b <;> cases b'
      case false.false | true.true => exact ⟨rfl, List.append_cancel_left same⟩
      case false.true | true.false => cases (List.cons.inj same).1
    | _ => cases kinds
  | integer i =>
    intro rest rest' breaks breaks' same
    have kinds := (Integral.integer i).kind_eq integral' same
    cases integral' with
    | integer j =>
      obtain ⟨rfl, after⟩ := tellsApart_integer i j breaks breaks' same
      exact ⟨rfl, after⟩
    | _ => cases kinds
  | string s =>
    intro rest rest' _ _ same
    have kinds := (Integral.string s).kind_eq integral' same
    cases integral' with
    | string t =>
      obtain ⟨rfl, after⟩ := stringText_append_inj same
      exact ⟨rfl, after⟩
    | _ => cases kinds
  | @array items inside ih =>
    intro rest rest' _ _ same
    have kinds := (Integral.array inside).kind_eq integral' same
    cases integral' with
    | @array items' inside' =>
      rw [layout_array, layout_array] at same
      obtain ⟨rfl, after⟩ := enclosed_append_inj (by decide)
        (fun v member w member' => ih v member (inside' w member') (level + 1)) same
      exact ⟨rfl, after⟩
    | _ => cases kinds
  | @object members inside ih =>
    intro rest rest' _ _ same
    have kinds := (Integral.object inside).kind_eq integral' same
    cases integral' with
    | @object members' inside' =>
      rw [layout_object, layout_object] at same
      obtain ⟨rfl, after⟩ := enclosed_append_inj (by decide)
        (fun m member m' member' => tellsApart_member
          (ih m member (inside' m' member') (level + 1))) same
      exact ⟨rfl, after⟩
    | _ => cases kinds

/-- Values without real numbers and with the same text on indented lines are the
same. -/
theorem Integral.pretty_inj (integral : v.Integral) (integral' : w.Integral)
    (same : v.pretty = w.pretty) : v = w := by
  have texts : v.layout 0 ++ [] = w.layout 0 ++ [] := by
    rw [List.append_nil, List.append_nil]
    exact String.ofList_inj.1 same
  exact (integral.tellsApart integral' 0 breaks_nil breaks_nil texts).1

end Value

end Json

end Bytecode
