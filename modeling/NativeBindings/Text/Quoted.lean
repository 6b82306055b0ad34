import NativeBindings.Text.Shown

namespace NativeBindings

/-! # Quoted texts

A quoted text stands between double quotes on one line.  Quotes, backslashes and
the usual controls have short escapes; every other character that does not show
is written by its code point.
-/

def codePoint (c : Char) : List Char := Nat.toDigits 16 c.toNat

/-- One character as it stands between the quotes. -/
def quotedChar (c : Char) : List Char :=
  if c = '\x00' then ['\\', '0']
  else if c = '\t' then ['\\', 't']
  else if c = '\n' then ['\\', 'n']
  else if c = '\r' then ['\\', 'r']
  else if c = '"' then ['\\', '"']
  else if c = '\\' then ['\\', '\\']
  else if isShown c then [c]
  else ['\\', 'u', '{'] ++ codePoint c ++ ['}']

def quoted (text : String) : String :=
  String.ofList (['"'] ++ text.toList.flatMap quotedChar ++ ['"'])

end NativeBindings
