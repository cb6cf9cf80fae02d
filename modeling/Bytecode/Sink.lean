import Bytecode.Bytes

/-!
Streams that bytes are written to.

A sink may have room for a limited number of bytes, and each of its flushes may
succeed or fail, whatever the others come to. What a sink accepts before it fails
stays written, so a write can be cut anywhere.
-/

namespace Bytecode

/-- How much more a sink takes, and the reason it gives after that. -/
structure Limit where
  left : Nat
  reason : String
deriving DecidableEq

/-- The limit of a sink that stops accepting bytes and gives no reason. -/
def Limit.silent (left : Nat) : Limit :=
  ⟨left, "failed to write whole buffer"⟩

/-- What flushes come to. -/
structure Flushes where
  /-- For each of the next ones, the reason that it fails for, if it fails. -/
  next : List (Option String)
  /-- The reason that all later ones fail for, if they fail. -/
  later : Option String
deriving DecidableEq

namespace Flushes

/-- Flushes that all succeed. -/
def steady : Flushes :=
  ⟨[], none⟩

/-- Flushes that succeed as often as a limit allows, and fail from then on. -/
def upTo : Option Limit → Flushes
  | none => steady
  | some limit => ⟨List.replicate limit.left none, some limit.reason⟩

/-- What the first of the flushes comes to, and the others. -/
def first (flushes : Flushes) : Option String × Flushes :=
  match flushes.next with
  | [] => (flushes.later, flushes)
  | failure :: next => (failure, { flushes with next := next })

end Flushes

/-- A limit stands for the flushes that it allows. -/
instance : Coe (Option Limit) Flushes :=
  ⟨Flushes.upTo⟩

/-- A stream of bytes to write. -/
structure Sink where
  room : Option Limit
  flushes : Flushes
deriving DecidableEq

/-- The outcome of writing: the bytes accepted, whether that was all, and the
sink afterwards. -/
structure Written where
  accepted : Bytes
  result : Except String Unit
  sink : Sink

namespace Sink

/-- A sink without limits. -/
def unlimited : Sink :=
  ⟨none, .steady⟩

/-- Writes bytes, as far as there is room. -/
def write (sink : Sink) (bytes : Bytes) : Written :=
  match sink.room with
  | none => ⟨bytes, .ok (), sink⟩
  | some limit =>
    if bytes.length ≤ limit.left then
      let room := { limit with left := limit.left - bytes.length }
      ⟨bytes, .ok (), { sink with room := some room }⟩
    else
      ⟨bytes.take limit.left, .error limit.reason,
        { sink with room := some { limit with left := 0 } }⟩

/-- Writes pieces one after the other, up to the first that is cut. -/
def writeAll (sink : Sink) : List Bytes → Written
  | [] => ⟨[], .ok (), sink⟩
  | piece :: rest =>
    let first := sink.write piece
    match first.result with
    | .error reason => ⟨first.accepted, .error reason, first.sink⟩
    | .ok () =>
      let others := first.sink.writeAll rest
      { others with accepted := first.accepted ++ others.accepted }

/-- It makes no difference in which pieces bytes are written. -/
theorem writeAll_eq_write (sink : Sink) (pieces : List Bytes) :
    sink.writeAll pieces = sink.write pieces.flatten := by
  induction pieces generalizing sink with
  | nil =>
    rcases sink with ⟨_ | limit, flushes⟩
    · rfl
    · rfl
  | cons piece pieces ih =>
    rcases sink with ⟨_ | limit, flushes⟩
    · unfold writeAll write
      dsimp only
      rw [ih]
      rfl
    unfold writeAll write
    dsimp only
    rw [List.flatten_cons, List.length_append]
    by_cases fits : piece.length ≤ limit.left
    · rw [if_pos fits]
      dsimp only
      rw [ih]
      unfold write
      dsimp only
      by_cases all : pieces.flatten.length ≤ limit.left - piece.length
      · have allFit : piece.length + pieces.flatten.length ≤ limit.left := by omega
        rw [if_pos all, if_pos allFit, Nat.sub_sub]
      · have tooMany : ¬ piece.length + pieces.flatten.length ≤ limit.left := by omega
        rw [if_neg all, if_neg tooMany, List.take_append,
          List.take_of_length_le fits]
    · have tooMany : ¬ piece.length + pieces.flatten.length ≤ limit.left := by omega
      rw [if_neg fits, if_neg tooMany, List.take_append_of_le_length (by omega)]

/-- Flushes. -/
def flush (sink : Sink) : Except String Unit × Sink :=
  let (failure, others) := sink.flushes.first
  match failure with
  | none => (.ok (), { sink with flushes := others })
  | some reason => (.error reason, { sink with flushes := others })

end Sink

end Bytecode
