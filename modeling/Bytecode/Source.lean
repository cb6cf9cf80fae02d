import Bytecode.Bytes

/-!
Streams that bytes are read from.

A source holds the bytes that are still to come and how it ends: it is closed, or
the first attempt to read past the last byte fails, or it seems to be closed and
goes on for whoever asks again. A reader that needs more bytes than there are has
used up all of them.
-/

namespace Bytecode

/-- What happens after the last byte of a source. -/
inductive Ending where
  /-- There is nothing more. -/
  | closed
  /-- Reading fails, for the reason given. -/
  | failing (reason : String)
  /-- There is nothing more for now; after that come these bytes, up to another
  end. -/
  | paused (more : Bytes) (ending : Ending)
deriving DecidableEq

/-- A stream of bytes to read. -/
structure Source where
  bytes : Bytes
  ending : Ending
deriving DecidableEq

/-- The bytes before the first occurrence of a byte, and those after it. -/
def Bytes.cut? (stop : UInt8) : Bytes → Option (Bytes × Bytes)
  | [] => none
  | b :: rest =>
    if b = stop then some ([], rest)
    else
      match Bytes.cut? stop rest with
      | some (before, after) => some (b :: before, after)
      | none => none

theorem Bytes.cut?_eq_some_iff {stop : UInt8} {bytes before after : Bytes} :
    Bytes.cut? stop bytes = some (before, after) ↔
      bytes = before ++ stop :: after ∧ stop ∉ before := by
  induction bytes generalizing before with
  | nil =>
    constructor
    · intro found
      cases found
    · intro split
      cases before with
      | nil => cases split.1
      | cons b before => cases split.1
  | cons b bytes ih =>
    unfold Bytes.cut?
    by_cases stops : b = stop
    · subst stops
      rw [if_pos rfl]
      constructor
      · intro found
        cases found
        exact ⟨rfl, List.not_mem_nil⟩
      · intro split
        cases before with
        | nil =>
          cases split.1
          rfl
        | cons c before =>
          cases split.1
          exact absurd List.mem_cons_self split.2
    · rw [if_neg stops]
      constructor
      · intro found
        split at found
        · next first rest cut =>
          cases found
          rcases ih.1 cut with ⟨rfl, absent⟩
          refine ⟨rfl, fun member => ?_⟩
          rcases List.mem_cons.1 member with same | member
          · exact stops same.symm
          · exact absent member
        · cases found
      · intro split
        cases before with
        | nil =>
          cases split.1
          exact absurd rfl stops
        | cons c before =>
          cases split.1
          have absent : stop ∉ before :=
            fun member => split.2 (List.mem_cons_of_mem b member)
          rw [ih.2 ⟨rfl, absent⟩]

theorem Bytes.cut?_eq_none_iff {stop : UInt8} {bytes : Bytes} :
    Bytes.cut? stop bytes = none ↔ stop ∉ bytes := by
  rw [Option.eq_none_iff_forall_ne_some]
  constructor
  · intro none member
    rcases List.eq_append_cons_of_mem member with ⟨before, after, split⟩
    exact none (before, after) (Bytes.cut?_eq_some_iff.2 split)
  · intro absent parts found
    rcases parts with ⟨before, after⟩
    have split := (Bytes.cut?_eq_some_iff.1 found).1
    apply absent
    rw [split]
    exact List.mem_append_right before List.mem_cons_self

namespace Source

/-- The source of some bytes that ends after them. -/
def ofBytes (bytes : Bytes) : Source :=
  ⟨bytes, .closed⟩

/-- The source with more bytes to come before its end. -/
def feed (more : Bytes) (source : Source) : Source :=
  { source with bytes := source.bytes ++ more }

/-- The source once a reader has come to its end. -/
def drained (source : Source) : Source :=
  match source.ending with
  | .paused more ending => ⟨more, ending⟩
  | ending => ⟨[], ending⟩

/-- Reads a number of bytes. -/
def take (n : Nat) (source : Source) : Except Ending Bytes × Source :=
  let taken := source.bytes.take n
  if taken.length = n then
    (.ok taken, { source with bytes := source.bytes.drop n })
  else (.error source.ending, source.drained)

/-- Reads up to a byte and passes over it. -/
def takeUntil (stop : UInt8) (source : Source) :
    Except Ending Bytes × Source :=
  match Bytes.cut? stop source.bytes with
  | some (before, after) => (.ok before, { source with bytes := after })
  | none => (.error source.ending, source.drained)

/-- The byte that ends a line. -/
def lineEnd : UInt8 :=
  0x0A

/-- Reads a line with its line end. The last line before the end may lack one; a
failing source fails before it could give such a line. -/
def takeLine (source : Source) : Except Ending Bytes × Source :=
  match Bytes.cut? lineEnd source.bytes with
  | some (before, after) =>
    (.ok (before ++ [lineEnd]), { source with bytes := after })
  | none =>
    match source.ending, source.bytes with
    | .failing reason, _ => (.error (.failing reason), source.drained)
    | ending, [] => (.error ending, source.drained)
    | _, b :: rest => (.ok (b :: rest), source.drained)

end Source

end Bytecode
