import NativeBindings.Json.Value

namespace NativeBindings

/-! # Layouts of documents

The same data may be written in many ways: the members of an object come in any order, a
member that holds its default may be left out, and one that nobody asks for may be put in.
A schema says of which objects this is true, and what their members are.
-/

namespace Json

/-- A member of an object, and the value that it has if it is left out. -/
structure Member (σ : Type) where
  name : String
  default? : Option Value := none
  schema : σ

/-- What may be changed in a value without changing what it says. -/
inductive Schema where
  /-- Nothing. -/
  | fixed
  | list (item : Schema)
  | optional (present : Schema)
  | record (members : List (Member Schema))
  /-- A record whose first member names an alternative, which has the other members. -/
  | tagged (tag : String) (alternatives : List (String × List (Member Schema)))
  /-- The record of a native type, in which there may be further native types. -/
  | type

namespace Member

variable {σ : Type}

@[simp]
def required (name : String) (schema : σ) : Member σ := { name, schema }

@[simp]
def defaulted (name : String) (value : Value) (schema : σ) : Member σ :=
  { name, default? := some value, schema }

/-- A list that is empty if it is left out. -/
def listing (name : String) (item : Schema) : Member Schema :=
  defaulted name (.array []) (.list item)

/-- What is nothing if it is left out. -/
def possible (name : String) (present : Schema) : Member Schema :=
  defaulted name .null (.optional present)

/-- What does not hold if it is left out. -/
def flag (name : String) : Member Schema := defaulted name (.bool false) .fixed

end Member

/-- The alternatives of what a native type is. -/
def shapeAlternatives : List (String × List (Member Schema)) :=
  let sized : List (Member Schema) := [.required "size" .fixed, .required "is_signed" .fixed]
  let pointing : List (Member Schema) := [.required "pointee" .type]
  let identified : List (Member Schema) := [.required "id" .fixed]
  [ ("void", []),
    ("bool", []),
    ("char", sized),
    ("integer", sized),
    ("float", [.required "size" .fixed]),
    ("pointer", pointing),
    ("l_value_reference", pointing),
    ("r_value_reference", pointing),
    ("record", identified),
    ("enum", identified),
    ("typedef", identified),
    ("constant_array", [.required "element" .type, .required "len" .fixed]),
    ("incomplete_array", [.required "element" .type]),
    ("function_proto", [
      .required "result" .type, .required "args" (.list .type),
      .required "is_variadic" .fixed]),
    ("objc_object_pointer", identified),
    ("objc_id", []),
    ("unsupported", [.required "description" .fixed])]

def typeMembers : List (Member Schema) := [
  .required "spelling" .fixed,
  .flag "is_const",
  .required "type_ref" (.tagged "kind" shapeAlternatives)]

mutual

/-- The second value is the first one in another layout. -/
inductive Arranged : Schema → Value → Value → Prop
  | fixed {value} : Arranged .fixed value value
  | list {item values others} : ArrangedItems item values others →
      Arranged (.list item) (.array values) (.array others)
  | absent {present} : Arranged (.optional present) .null .null
  | present {present value other} : Arranged present value other →
      Arranged (.optional present) value other
  | record {members fields kept unknown others} : ArrangedFields members fields kept →
      (∀ field ∈ unknown, field.1 ∉ members.map (·.name)) →
      others.Perm (kept ++ unknown) →
      Arranged (.record members) (.object fields) (.object others)
  | tagged {tag kind alternatives members fields other} : (kind, members) ∈ alternatives →
      Arranged (.record (.required tag .fixed :: members))
        (.object ((tag, .string kind) :: fields)) other →
      Arranged (.tagged tag alternatives) (.object ((tag, .string kind) :: fields)) other
  | type {value other} : Arranged (.record typeMembers) value other → Arranged .type value other

inductive ArrangedItems : Schema → List Value → List Value → Prop
  | nil {item} : ArrangedItems item [] []
  | cons {item value other values others} : Arranged item value other →
      ArrangedItems item values others → ArrangedItems item (value :: values) (other :: others)

/-- The fields of a record, some of which are left out. -/
inductive ArrangedFields :
    List (Member Schema) → List (String × Value) → List (String × Value) → Prop
  | nil : ArrangedFields [] [] []
  | keep {member members value other fields kept} : Arranged member.schema value other →
      ArrangedFields members fields kept →
      ArrangedFields (member :: members) ((member.name, value) :: fields)
        ((member.name, other) :: kept)
  | drop {member members value fields kept} : member.default? = some value →
      ArrangedFields members fields kept →
      ArrangedFields (member :: members) ((member.name, value) :: fields) kept

end

mutual

/-- How many arrays and objects stand around each other. -/
def Value.nesting : Value → Nat
  | .null | .bool _ | .number _ | .string _ => 0
  | .array items => itemsNesting items + 1
  | .object fields => fieldsNesting fields + 1

def itemsNesting : List Value → Nat
  | [] => 0
  | item :: rest => max item.nesting (itemsNesting rest)

def fieldsNesting : List (String × Value) → Nat
  | [] => 0
  | (_, value) :: rest => max value.nesting (fieldsNesting rest)

end

theorem fieldsNesting_append (before after : List (String × Value)) :
    fieldsNesting (before ++ after) = max (fieldsNesting before) (fieldsNesting after) := by
  induction before with
  | nil => simp [fieldsNesting]
  | cons field rest ih => simp [fieldsNesting, ih, Nat.max_assoc]

end Json

end NativeBindings
