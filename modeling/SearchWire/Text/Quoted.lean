import SearchWire.Text.Hidden
import SearchWire.Binary64.Decimal

/-!
# Quoted texts inside messages

`quoteForMessage` shows a string between double quotes so that its contents can
be told apart: the quote, the backslash and the common controls have an escape
of one letter, and every other hidden character is shown by its code point.
-/

namespace SearchWire

/-- A character as it stands between the quotes of a message. -/
def showChar (c : Char) : List Char :=
  if c = '"' then ['\\', '"']
  else if c = '\\' then ['\\', '\\']
  else if c = '\n' then ['\\', 'n']
  else if c = '\r' then ['\\', 'r']
  else if c = '\t' then ['\\', 't']
  else if c.toNat = 0 then ['\\', '0']
  else if isHidden c then '\\' :: 'u' :: '{' :: Nat.toDigits 16 c.toNat ++ ['}']
  else [c]

/-- A string between double quotes, every character shown. -/
def quoteForMessage (text : String) : String :=
  String.ofList ('"' :: text.toList.flatMap showChar ++ ['"'])

end SearchWire
