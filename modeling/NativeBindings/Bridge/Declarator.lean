namespace NativeBindings

/-! # Declarations in native code

The spelling of a type stands before the name it is given to, except where the type
is a pointer to a function: there the name goes behind the star in parentheses.
-/

/-- Puts a name behind the first star that stands alone in parentheses. -/
def insertName (name : List Char) : List Char → Option (List Char)
  | '(' :: '*' :: ')' :: rest => some ('(' :: '*' :: name ++ ')' :: rest)
  | c :: rest => (insertName name rest).map (c :: ·)
  | [] => none

def declare (spelling name : String) : String :=
  match insertName name.toList spelling.toList with
  | some declaration => String.ofList declaration
  | none => spelling ++ " " ++ name

/-- The line that makes a function known to the linker under a symbol. -/
def bindSymbol (symbol function : String) : String :=
  "const void* " ++ symbol ++ " __asm(\"" ++ symbol ++ "\") = (const void*) &" ++ function ++ ";"

end NativeBindings
