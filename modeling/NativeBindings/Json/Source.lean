import NativeBindings.Json.Value

namespace NativeBindings.Json

/-! # Documents as they were read

A text need not be a JSON document, and what is wrong with it may stand behind
something that is wrong for its reader.  A `Source` keeps both: it is the tree of
the text up to the place where reading had to stop, and that place is part of the
tree.  Whoever walks the tree in order meets the first problem of the text first.

Some texts can be stepped over though their value cannot be used: a number beyond
the doubles, or a string with half a surrogate pair.  A `Scalar` keeps the two
judgements apart.
-/

/-- Why a text cannot be read on: it breaks the grammar, or it ends too early. -/
inductive Fault where
  | malformed
  | truncated
  deriving DecidableEq

/-- A number or string of the text. -/
structure Scalar (α : Type) where
  /-- What a reader that needs the value gets. -/
  value : Except Fault α
  /-- What is in the way of a reader that only steps over it. -/
  blocked : Option Fault

/-- How the items of an array or object end. -/
inductive Ending where
  | closed
  /-- The text stops being readable, possibly after a comma. -/
  | stopped (afterComma : Bool) (fault : Fault)

inductive Source where
  | null
  | bool (value : Bool)
  | number (scalar : Scalar Number)
  | string (scalar : Scalar String)
  | array (items : List Source) (ending : Ending)
  | object (members : List (Source × Source)) (ending : Ending)
  /-- The text ended where a value was due. -/
  | absent
  /-- What stands where a value was due is none. -/
  | broken (fault : Fault)

/-- A whole text: its value, and whether anything but blanks follows. -/
structure Document where
  root : Source
  trailing : Bool

namespace Scalar

def ok {α : Type} (value : α) : Scalar α := ⟨.ok value, none⟩

end Scalar

mutual

/-- What keeps a reader from stepping over a value. -/
def Source.blocked : Source → Option Fault
  | .null | .bool _ => none
  | .number scalar => scalar.blocked
  | .string scalar => scalar.blocked
  | .array items ending => (blockedItems items).or (blockedEnding ending)
  | .object members ending => (blockedMembers members).or (blockedEnding ending)
  | .absent => some .truncated
  | .broken fault => some fault

def blockedEnding : Ending → Option Fault
  | .closed => none
  | .stopped _ fault => some fault

def blockedItems : List Source → Option Fault
  | [] => none
  | item :: rest => item.blocked.or (blockedItems rest)

def blockedMembers : List (Source × Source) → Option Fault
  | [] => none
  | (.string key, value) :: rest => (key.blocked.or value.blocked).or (blockedMembers rest)
  | _ => some .malformed

end

def Source.key : Source → Except Fault String
  | .string scalar => scalar.value
  | _ => .error .malformed

mutual

/-- The value of a tree, with at most `depth` arrays and objects around each
other. -/
def Source.value (depth : Nat) : Source → Except Fault Value
  | .null => .ok .null
  | .bool value => .ok (.bool value)
  | .number scalar => scalar.value.map .number
  | .string scalar => scalar.value.map .string
  | .array items ending =>
      if depth = 0 then .error .malformed
      else do
        let items ← itemValues (depth - 1) items
        match ending with
        | .closed => pure (.array items)
        | .stopped _ fault => throw fault
  | .object members ending =>
      if depth = 0 then .error .malformed
      else do
        let fields ← memberValues (depth - 1) members
        match ending with
        | .closed => pure (.object fields)
        | .stopped _ fault => throw fault
  | .absent => .error .truncated
  | .broken fault => .error fault

def itemValues (depth : Nat) : List Source → Except Fault (List Value)
  | [] => .ok []
  | item :: rest => do
      let value ← item.value depth
      let values ← itemValues depth rest
      pure (value :: values)

def memberValues (depth : Nat) : List (Source × Source) → Except Fault (List (String × Value))
  | [] => .ok []
  | (key, value) :: rest => do
      let key ← key.key
      let value ← value.value depth
      let fields ← memberValues depth rest
      pure ((key, value) :: fields)

end

mutual

def Value.source : Value → Source
  | .null => .null
  | .bool value => .bool value
  | .number value => .number (.ok value)
  | .string value => .string (.ok value)
  | .array items => .array (itemSources items) .closed
  | .object fields => .object (fieldSources fields) .closed

def itemSources : List Value → List Source
  | [] => []
  | item :: rest => item.source :: itemSources rest

def fieldSources : List (String × Value) → List (Source × Source)
  | [] => []
  | (key, value) :: rest => (.string (.ok key), value.source) :: fieldSources rest

end

end NativeBindings.Json
