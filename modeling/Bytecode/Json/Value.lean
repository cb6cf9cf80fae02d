/-!
JSON values.

A number is an integer or a real: the two are told apart by how they are
spelled, and only the first can become a constant. The members of an object
stand in ascending order of their keys, each key once.
-/

namespace Bytecode

namespace Json

/-- A JSON number. -/
inductive Number where
  | integer (i : Int)
  | real (x : Float)

/-- A JSON value. -/
inductive Value where
  | null
  | boolean (b : Bool)
  | number (n : Number)
  | string (s : String)
  | array (items : List Value)
  | object (members : List (String × Value))

/-- Whether one key stands before another: the first difference decides, by the
number of the character, and a key stands before its own extensions. -/
def precedes : List Char → List Char → Bool
  | _, [] => false
  | [], _ :: _ => true
  | a :: as, b :: bs =>
    if a.toNat < b.toNat then true
    else if a = b then precedes as bs
    else false

/-- Puts a member in its place among ordered members, instead of one with the
same key. -/
def insertMember (key : String) (value : Value) :
    List (String × Value) → List (String × Value)
  | [] => [(key, value)]
  | (k, v) :: rest =>
    if key = k then (key, value) :: rest
    else if precedes key.toList k.toList then (key, value) :: (k, v) :: rest
    else (k, v) :: insertMember key value rest

/-- The object with the given members; of two with the same key the last
counts. -/
def Value.ofMembers (members : List (String × Value)) : Value :=
  .object (members.foldl (fun sorted m => insertMember m.1 m.2 sorted) [])

end Json

end Bytecode
