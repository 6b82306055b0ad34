import NativeBindings.Mapping.Represent
import NativeBindings.Stub.BridgeTable
import NativeBindings.Target.Constant

namespace NativeBindings

/-! # Values that need no native code

A constant is embedded in the generated code if the type below all names is a
primitive of the target, and a pointer to constant characters is taken as a
string.
-/

/-- The kind of string that a pointer to constant characters stands for. -/
def QualType.stringKind? (type : QualType) : Option StringKind :=
  match type.shape with
  | .pointer ⟨_, true, .char 1 _⟩ => some .narrow
  | .pointer ⟨_, true, .char 2 _⟩ => some .wide
  | _ => none

namespace Index

def integralConstant? (index : Index) (platform : Platform) (value : Int64)
    (type : QualType) : Option Constant :=
  match index.underlying? type with
  | some (.integer size signed) | some (.char size signed) =>
      if size ∈ [1, 2, 4, 8] then some (.integer value size (platform.signOf signed)) else none
  | _ => none

def floatingConstant? (index : Index) (value : Float) (type : QualType) : Option Constant :=
  match index.underlying? type with
  | some (.float size) => if size ∈ [4, 8] then some (.floating value size) else none
  | _ => none

end Index

end NativeBindings
