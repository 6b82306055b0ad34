namespace NativeBindings.Json

/-! # JSON values

An object is the list of its fields in the order in which they are written.
-/

/-- A number is an integer when it is written without point and exponent and
fits 64 bits, signed or unsigned; every other number is a double. -/
inductive Number where
  | integer (value : Int)
  | float (value : Float)

inductive Value where
  | null
  | bool (value : Bool)
  | number (value : Number)
  | string (value : String)
  | array (items : List Value)
  | object (fields : List (String × Value))

namespace Value

instance : Inhabited Value := ⟨.null⟩

def int (value : Int) : Value := .number (.integer value)

def nat (value : Nat) : Value := .int value

def optional {α : Type} (encode : α → Value) : Option α → Value
  | none => .null
  | some value => encode value

def strings (texts : List String) : Value := .array (texts.map .string)

def texts (entries : List (String × String)) : Value :=
  .object (entries.map fun entry => (entry.1, .string entry.2))

end Value

end NativeBindings.Json
