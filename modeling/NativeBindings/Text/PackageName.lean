import NativeBindings.Text.Symbol

namespace NativeBindings

/-! # Package names made from library names

A library's name is lower-cased; every run of characters that no package holds
becomes an underscore; empty segments between dots are dropped.
-/

def fallbackPackage : String := "interop"

/-- The lower-case form of a character, as far as it shows in a package.  Beside
the ASCII capitals only the Kelvin sign and the dotted capital I have ASCII
letters in their lower-case forms; what other characters become is outside
ASCII and ends in an underscore like the character itself. -/
def lowerCase (c : Char) : List Char :=
  if c = '\u212a' then ['k']
  else if c = '\u0130' then ['i', '\u0307']
  else [c.toLower]

/-- What a package is made of: small letters, digits, underscores, and dots
between segments. -/
def isPackageChar (c : Char) : Bool :=
  c.isLower || c.isDigit || c == '_' || c == '.'

def pieces (separator : Char) : List Char → List (List Char)
  | [] => [[]]
  | c :: rest =>
      if c = separator then [] :: pieces separator rest
      else match pieces separator rest with
        | [] => [[c]]
        | first :: others => (c :: first) :: others

def packageOfLibrary (library : String) : String :=
  let text := squash isPackageChar false (library.toList.flatMap lowerCase)
  match (pieces '.' text).filter (fun segment => !segment.isEmpty) with
  | [] => fallbackPackage
  | segments => String.ofList (List.intercalate ['.'] segments)

end NativeBindings
