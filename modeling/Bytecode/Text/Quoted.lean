import Bytecode.Text.Printable
import Bytecode.Text.Combining
import Bytecode.Text.Ignorable

/-!
Quoted texts for messages: a text between double quotes in which every
character can be told apart.

A quote, a backslash, NUL, tab, line feed and carriage return have short
escapes. Any other character that is not printable, leaves no trace on a page or
is a mark on the one before it is written by its number.
-/

namespace Bytecode

namespace Quoted

/-- Whether a reader sees the character, and sees it apart from the one before
it. -/
def isDistinct (c : Char) : Bool :=
  isPrintable c && !isIgnorable c && !isCombining c

/-- One character inside the quotes. -/
def charText (c : Char) : List Char :=
  if c = '\x00' then ['\\', '0']
  else if c = '\t' then ['\\', 't']
  else if c = '\n' then ['\\', 'n']
  else if c = '\r' then ['\\', 'r']
  else if c = '"' then ['\\', '"']
  else if c = '\\' then ['\\', '\\']
  else if isDistinct c then [c]
  else ['\\', 'u', '\x7b'] ++ Nat.toDigits 16 c.toNat ++ ['\x7d']

/-- A text between double quotes. -/
def text (s : String) : String :=
  String.ofList ('"' :: s.toList.flatMap charText ++ ['"'])

end Quoted

end Bytecode
