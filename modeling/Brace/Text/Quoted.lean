/-
# Quoted texts

A text shown inside a message stands in double quotes.  Quotes and backslashes are escaped, line
breaks, tabs and null characters have letters, and characters without a shape of their own are
shown by number.
-/
import Brace.Text.Unprintable

namespace Brace.Text

/-- The digits of a number in base sixteen, small letters, no leading zeros. -/
def hexDigits (n : Nat) : List Char := Nat.toDigits 16 n

/-- How one character is shown between double quotes. -/
def showChar (c : Char) : List Char :=
  if c = '\n' then ['\\', 'n']
  else if c = '\r' then ['\\', 'r']
  else if c = '\t' then ['\\', 't']
  else if c = Char.ofNat 0 then ['\\', '0']
  else if c = '"' ∨ c = '\\' then ['\\', c]
  else if isUnprintable c then '\\' :: 'u' :: '\x7b' :: (hexDigits c.toNat ++ ['\x7d'])
  else [c]

/-- A text in double quotes. -/
def quoted (s : String) : String :=
  String.ofList ('"' :: (s.toList.flatMap showChar ++ ['"']))

end Brace.Text
