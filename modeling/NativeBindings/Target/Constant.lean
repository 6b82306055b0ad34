import NativeBindings.Decimal.Literal
import NativeBindings.Text.Quoted

namespace NativeBindings

/-! # Literals of the target language -/

inductive Constant where
  | integer (value : Int64) (size : UInt32) (signed : Bool)
  | floating (value : Float) (size : UInt32)
  | string (value : String)
  deriving Inhabited

/-- The literal.  An unsigned integer is the value's two's complement in 64 bits,
marked with a `u`; a single precision number is marked with an `f`. -/
def Constant.text : Constant → String
  | .integer value _ signed =>
      if signed then toString value.toInt else toString value.toUInt64.toNat ++ "u"
  | .floating value size =>
      if size = 4 then Decimal.literal value ++ "f" else Decimal.literal value
  | .string value => quoted value

end NativeBindings
