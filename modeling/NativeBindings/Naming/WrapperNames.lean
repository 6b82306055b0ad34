import NativeBindings.Text.Symbol

namespace NativeBindings

/-! # Names for generated native code

Every name holds a number that is used once, so no two names of a run are alike.
-/

/-- The package whose symbol-safe form stands in every name, and the next number. -/
structure WrapperNames where
  package : String
  next : Nat := 1

namespace WrapperNames

def ofPackage (package : String) : WrapperNames := { package := symbolName package }

/-- A name for native code in some role for something called `base`. -/
def name (names : WrapperNames) (role base : String) : String :=
  role ++ "_" ++ names.package ++ toString names.next ++ "_" ++ symbolName base

def advance (names : WrapperNames) : WrapperNames := { names with next := names.next + 1 }

end WrapperNames

end NativeBindings
