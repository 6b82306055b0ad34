import Mathlib
import NativeBindings.Mapping.Literal

namespace NativeBindings

/-! # Integer literals

A literal is read back as a number that agrees with the constant's value in as many bits
as the native type has.  It is a number of the target's type, too, unless that type has a
sign where the native one has none: small numbers are then written as they are, and the
upper half of them does not fit.
-/

/-- The number that an integer literal is read as, and whether a `u` behind it marks it as
unsigned. -/
def readInteger? (text : String) : Option (Int × Bool) :=
  if text.toList.getLast? = some 'u' then
    (String.ofList text.toList.dropLast).toInt?.map (·, true)
  else text.toInt?.map (·, false)

private theorem not_mem_toDigits (n : Nat) : 'u' ∉ Nat.toDigits 10 n := fun member =>
  Bool.false_ne_true (Nat.isDigit_of_mem_toDigits (c := 'u') (by decide) (by decide) member)

theorem readInteger?_toString (number : Int) :
    readInteger? (toString number) = some (number, false) := by
  have plain : (toString number).toList.getLast? ≠ some 'u' := by
    intro last
    have member := List.mem_of_getLast? last
    rw [Int.toString_eq_repr, Int.repr_eq_if] at member
    split at member
    · exact not_mem_toDigits _ (Nat.toList_repr ▸ member)
    · rw [String.toList_append, List.mem_append, Nat.toList_repr] at member
      exact member.elim (by decide) (not_mem_toDigits _)
  rw [readInteger?, if_neg plain, Int.toString_eq_repr, Int.toInt?_repr]
  rfl

theorem readInteger?_unsigned (number : Nat) :
    readInteger? (toString number ++ "u") = some ((number : Int), true) := by
  have digits : (toString number ++ "u").toList = (toString number).toList ++ ['u'] :=
    String.toList_append
  rw [readInteger?, digits, if_pos List.getLast?_concat, List.dropLast_concat,
    String.ofList_toList]
  change (Nat.repr number).toInt?.map _ = _
  rw [Nat.toInt?_repr]
  rfl

/-- The numbers of an integer type of so many bytes. -/
def InRange (size : UInt32) (signed : Bool) (number : Int) : Prop :=
  if signed then -2 ^ (8 * size.toNat - 1) ≤ number ∧ number < 2 ^ (8 * size.toNat - 1)
  else 0 ≤ number ∧ number < 2 ^ (8 * size.toNat)

instance (size : UInt32) (signed : Bool) (number : Int) :
    Decidable (InRange size signed number) :=
  inferInstanceAs (Decidable (if signed then _ else _))

/-- Is a constant's value one of its native type?  Numbers without a sign that fill all
64 bits are given by their two's complement. -/
def IsNativeValue (size : UInt32) (signed : Bool) (value : Int64) : Prop :=
  InRange size signed value.toInt ∨ size = 8

instance (size : UInt32) (signed : Bool) (value : Int64) :
    Decidable (IsNativeValue size signed value) :=
  inferInstanceAs (Decidable (_ ∨ _))

theorem toNat_toUInt64 (value : Int64) :
    (value.toUInt64.toNat : Int) =
      if 0 ≤ value.toInt then value.toInt else value.toInt + 2 ^ 64 := by
  have signed : value.toInt = value.toBitVec.toInt := rfl
  have unsigned : value.toUInt64.toNat = value.toBitVec.toNat := rfl
  have bound := value.toBitVec.isLt
  rw [signed, unsigned, BitVec.toInt_eq_toNat_cond]
  split <;> omega

/-- The number that the literal of an integer shows. -/
def shownNumber (value : Int64) (signed : Bool) : Int :=
  if signed then value.toInt else value.toUInt64.toNat

theorem readInteger?_text (value : Int64) (size : UInt32) (signed : Bool) :
    readInteger? (Constant.integer value size signed).text =
      some (shownNumber value signed, !signed) := by
  cases signed with
  | true => exact readInteger?_toString value.toInt
  | false => exact readInteger?_unsigned value.toUInt64.toNat

theorem shownNumber_modEq (value : Int64) {size : UInt32} (signed : Bool)
    (width : size ∈ [1, 2, 4, 8]) :
    shownNumber value signed ≡ value.toInt [ZMOD 2 ^ (8 * size.toNat)] := by
  cases signed with
  | true => exact Int.ModEq.refl _
  | false =>
      have bits : 8 * size.toNat ≤ 64 := by
        have sizes : size = 1 ∨ size = 2 ∨ size = 4 ∨ size = 8 := by simpa using width
        rcases sizes with rfl | rfl | rfl | rfl <;> decide
      have whole : ((value.toUInt64.toNat : Int) ≡ value.toInt [ZMOD 2 ^ 64]) := by
        rw [toNat_toUInt64]
        split
        · exact Int.ModEq.refl _
        · exact Int.add_modEq_right
      exact whole.of_dvd (pow_dvd_pow 2 bits)

/-- The number fits the target's type, unless it is in the upper half of an unsigned type
for which the target has only a signed one. -/
theorem inRange_shownNumber_iff {value : Int64} {size : UInt32} {signed : Bool}
    (platform : Platform) (width : size ∈ [1, 2, 4, 8])
    (native : IsNativeValue size signed value) :
    InRange size (platform.signOf signed) (shownNumber value (platform.signOf signed)) ↔
      ¬(platform = .jvm ∧ signed = false ∧ size < 8 ∧
        2 ^ (8 * size.toNat - 1) ≤ value.toInt) := by
  have lower := value.le_toInt
  have upper := value.toInt_lt
  have shown := toNat_toUInt64 value
  have sizes : size = 1 ∨ size = 2 ∨ size = 4 ∨ size = 8 := by simpa using width
  cases signed with
  | true =>
      have same : InRange size true value.toInt := by
        rcases native with fits | rfl
        · exact fits
        · exact ⟨lower, upper⟩
      simpa [Platform.signOf, shownNumber] using same
  | false =>
      cases platform with
      | jvm =>
          rcases sizes with rfl | rfl | rfl | rfl <;>
            simp [InRange, IsNativeValue, shownNumber, Platform.signOf] at native ⊢ <;> omega
      | native =>
          rcases sizes with rfl | rfl | rfl | rfl <;>
            simp [InRange, IsNativeValue, shownNumber, Platform.signOf] at native ⊢ <;> omega

theorem exists_integerName? {size : UInt32} (signed : Bool) (width : size ∈ [1, 2, 4, 8]) :
    ∃ name, integerName? size signed = some name := by
  have sizes : size = 1 ∨ size = 2 ∨ size = 4 ∨ size = 8 := by simpa using width
  rcases sizes with rfl | rfl | rfl | rfl <;> exact ⟨_, rfl⟩

/-- The size of an integer type that is not behind a name, and whether it has a sign. -/
def TypeShape.integral? : TypeShape → Option (UInt32 × Bool)
  | .integer size signed | .char size signed => some (size, signed)
  | _ => none

namespace Index

variable {index : Index} {platform : Platform} {value : Int64} {type : QualType}
  {constant : Constant}

theorem integralConstant?_eq_some_iff :
    index.integralConstant? platform value type = some constant ↔
      ∃ shape size signed, index.underlying? type = some shape ∧
        shape.integral? = some (size, signed) ∧ size ∈ [1, 2, 4, 8] ∧
        constant = .integer value size (platform.signOf signed) := by
  unfold integralConstant?
  constructor
  · intro found
    split at found
    case h_1 size signed below | h_2 size signed below =>
      obtain ⟨width, same⟩ := Option.ite_none_right_eq_some.mp found
      cases same
      exact ⟨_, size, signed, below, rfl, width, rfl⟩
    case h_3 => cases found
  · rintro ⟨shape, size, signed, below, integral, width, rfl⟩
    rw [below]
    cases shape with
    | integer | char =>
        cases integral
        exact if_pos width
    | _ => cases integral

/-- The literal of an integer constant has the sign of the target's type and is congruent to
the value; it is in range but for the upper half of the unsigned types that the target
makes signed. -/
theorem integer_literal_reads {shape : TypeShape} {size : UInt32} {signed : Bool}
    (literal : index.integralConstant? platform value type = some constant)
    (below : index.underlying? type = some shape)
    (integral : shape.integral? = some (size, signed))
    (native : IsNativeValue size signed value) :
    ∃ name number, integerName? size (platform.signOf signed) = some name ∧
      readInteger? constant.text = some (number, !platform.signOf signed) ∧
      number ≡ value.toInt [ZMOD 2 ^ (8 * size.toNat)] ∧
      (InRange size (platform.signOf signed) number ↔
        ¬(platform = .jvm ∧ signed = false ∧ size < 8 ∧
          2 ^ (8 * size.toNat - 1) ≤ value.toInt)) := by
  obtain ⟨other, otherSize, otherSigned, again, integralAgain, width, rfl⟩ :=
    integralConstant?_eq_some_iff.mp literal
  cases below.symm.trans again
  cases integral.symm.trans integralAgain
  obtain ⟨name, named⟩ := exists_integerName? (platform.signOf signed) width
  exact ⟨name, shownNumber value (platform.signOf signed), named,
    readInteger?_text value size (platform.signOf signed),
    shownNumber_modEq value (platform.signOf signed) width,
    inRange_shownNumber_iff platform width native⟩

/-- On the JVM an `unsigned char` is a `Byte`, of which 200 is none. -/
theorem integer_literal_reads_byte :
    let byte : QualType := ⟨"unsigned char", false, .char 1 false⟩
    ({} : Index).integralConstant? .jvm 200 byte = some (.integer 200 1 true) ∧
      ({} : Index).underlying? byte = some (.char 1 false) ∧ IsNativeValue 1 false 200 ∧
      ∃ name number, integerName? 1 true = some name ∧
        readInteger? (Constant.integer 200 1 true).text = some (number, false) ∧
        number ≡ 200 [ZMOD 2 ^ 8] ∧ ¬InRange 1 true number := by
  intro byte
  have literal : ({} : Index).integralConstant? .jvm 200 byte = some (.integer 200 1 true) := rfl
  have below : ({} : Index).underlying? byte = some (.char 1 false) := rfl
  have native : IsNativeValue 1 false 200 := by decide
  obtain ⟨name, number, named, reads, congruent, inRange⟩ :=
    integer_literal_reads literal below rfl native
  exact ⟨literal, below, native, name, number, named, reads, congruent,
    fun fits => inRange.mp fits (by decide)⟩

end Index

end NativeBindings
