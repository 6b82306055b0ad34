import NativeBindings.Json.Source

namespace NativeBindings.Json

/-! # Decoding documents

A decoder walks a tree in the order of its text and stops at the first problem.
A record is an object or the array of its fields in their declared order; a
choice is the name of an alternative, alone or as the only key of an object.

Decoders work in three stages.  In the streaming stage the text is still being
read, so faults of the text matter, and what cannot stand in a text of the right
shape is such a fault.  A stored tree is a value that was read before, and a
buffered one is a part of a record that was read through first; of both only the
shape is judged.
-/

inductive ReadError where
  | text (fault : Fault)
  | shape
  | missingField (name : String)
  | duplicateField (name : String)
  | unknownVariant (name : String)
  deriving DecidableEq

def ReadError.message : ReadError → String
  | .text .malformed => "syntax"
  | .text .truncated => "eof"
  | .shape => "data"
  | .missingField name => "data: missing field \x60" ++ name ++ "\x60"
  | .duplicateField name => "data: duplicate field \x60" ++ name ++ "\x60"
  | .unknownVariant name => "data: unknown variant \x60" ++ name ++ "\x60"

instance : MonadLift (Except Fault) (Except ReadError) where
  monadLift result := result.mapError .text

inductive Stage where
  | streaming
  | stored
  | buffered
  deriving DecidableEq

/-- The error for something that has no place in a text of the right shape. -/
def Stage.misplaced : Stage → ReadError
  | .streaming => .text .malformed
  | .stored | .buffered => .shape

/-- Reads a value around which at most `depth` arrays and objects may still be
opened. -/
abbrev Decoder (α : Type) := (stage : Stage) → (depth : Nat) → Source → Except ReadError α

/-- How many arrays and objects may stand around each other. -/
def nestingLimit : Nat := 127

/-- The error for a value of another kind than the one that is due.  Numbers and
strings are read through before they are refused. -/
def wrongKind : Source → ReadError
  | .number ⟨.error fault, _⟩ => .text fault
  | .string ⟨.error fault, _⟩ => .text fault
  | .broken fault => .text fault
  | .absent => .text .truncated
  | _ => .shape

namespace Decoder

variable {α ρ : Type}

def map {β : Type} (f : α → β) (decoder : Decoder α) : Decoder β :=
  fun stage depth source => (decoder stage depth source).map f

def string : Decoder String
  | _, _, .string scalar => scalar.value
  | _, _, source => .error (wrongKind source)

def bool : Decoder Bool
  | _, _, .bool value => .ok value
  | _, _, source => .error (wrongKind source)

/-- An integer that passes a test. -/
def integer (fits : Int → Bool) : Decoder Int
  | _, _, .number ⟨.ok (.integer value), _⟩ => if fits value then .ok value else .error .shape
  | _, _, source => .error (wrongKind source)

def uint32 : Decoder UInt32 :=
  (integer fun value => 0 ≤ value && value < UInt32.size).map fun value => UInt32.ofNat value.toNat

def uint64 : Decoder UInt64 :=
  (integer fun value => 0 ≤ value && value < UInt64.size).map fun value => UInt64.ofNat value.toNat

def int64 : Decoder Int64 :=
  (integer fun value =>
    Int64.minValue.toInt ≤ value && value ≤ Int64.maxValue.toInt).map Int64.ofInt

def doubleOfInt (value : Int) : Float :=
  if value < 0 then -(UInt64.ofNat value.natAbs).toFloat else (UInt64.ofNat value.toNat).toFloat

def float : Decoder Float
  | _, _, .number ⟨.ok (.integer value), _⟩ => .ok (doubleOfInt value)
  | _, _, .number ⟨.ok (.float value), _⟩ => .ok value
  | _, _, source => .error (wrongKind source)

def optional (decoder : Decoder α) : Decoder (Option α)
  | _, _, .null => .ok none
  | stage, depth, source => (decoder stage depth source).map some

/-- Refuses to open one more array or object at the limit. -/
def enter (depth : Nat) : Except ReadError Nat :=
  match depth with
  | 0 => .error (.text .malformed)
  | depth + 1 => .ok depth

/-- The end of an array or object after its last item. -/
def close : Ending → Except ReadError Unit
  | .closed => .ok ()
  | .stopped _ fault => .error (.text fault)

/-- The end of an array or object that may hold no more: even a comma is wrong. -/
def closeFull : Ending → Except ReadError Unit
  | .closed => .ok ()
  | .stopped true _ => .error (.text .malformed)
  | .stopped false fault => .error (.text fault)

def list (item : Decoder α) : Decoder (List α)
  | stage, depth, .array items ending => do
      let depth ← enter depth
      let values ← items.mapM (item stage depth)
      close ending
      pure values
  | _, _, source => .error (wrongKind source)

/-- One field of a record under construction. -/
structure Field (ρ : Type) where
  name : String
  required : Bool
  read : ρ → Decoder ρ

def field (name : String) (decoder : Decoder α) (set : ρ → α → ρ) : Field ρ :=
  ⟨name, true, fun record stage depth source => (decoder stage depth source).map (set record)⟩

/-- A field that keeps what the record begins with when it is not given. -/
def defaulted (name : String) (decoder : Decoder α) (set : ρ → α → ρ) : Field ρ :=
  { field name decoder set with required := false }

/-- Steps over a value that nobody asked for. -/
def skip (stage : Stage) (source : Source) : Except ReadError Unit :=
  match stage, source.blocked with
  | .streaming, some fault => .error (.text fault)
  | _, _ => .ok ()

/-- Reads the members of an object into a record; `seen` holds the names of the
fields read so far. -/
def members (fields : List (Field ρ)) (stage : Stage) (depth : Nat) (record : ρ)
    (seen : List String) : List (Source × Source) → Except ReadError (ρ × List String)
  | [] => .ok (record, seen)
  | (key, value) :: rest => do
      let key ← key.key
      match fields.find? (·.name = key) with
      | none =>
          skip stage value
          members fields stage depth record seen rest
      | some field =>
          if key ∈ seen then throw (.duplicateField key)
          else
            let record ← field.read record stage depth value
            members fields stage depth record (key :: seen) rest

def fromMembers (fields : List (Field ρ)) (stage : Stage) (depth : Nat) (initial : ρ)
    (all : List (Source × Source)) (ending : Ending) : Except ReadError ρ := do
  let (record, seen) ← members fields stage depth initial [] all
  close ending
  match fields.find? fun field => field.required && field.name ∉ seen with
  | some field => throw (.missingField field.name)
  | none => pure record

/-- Reads a record from an array's items.  Fields may be left off the end if they
need not be given. -/
def fromItems (stage : Stage) (depth : Nat) (ending : Ending) (record : ρ) :
    List (Field ρ) → List Source → Except ReadError ρ
  | [], [] => do
      closeFull ending
      pure record
  | [], _ :: _ => .error stage.misplaced
  | field :: fields, item :: items => do
      let record ← field.read record stage depth item
      fromItems stage depth ending record fields items
  | field :: fields, [] => do
      close ending
      if field.required then throw .shape
      else fromItems stage depth ending record fields []

/-- A record that begins as `initial`. -/
def record (initial : ρ) (fields : List (Field ρ)) : Decoder ρ
  | stage, depth, .object all ending => do
      let depth ← enter depth
      fromMembers fields stage depth initial all ending
  | stage, depth, .array items ending => do
      let depth ← enter depth
      fromItems stage depth ending initial fields items
  | _, _, source => .error (wrongKind source)

/-- An alternative of a choice: a plain one, or one with a value. -/
inductive Alternative (α : Type) where
  | plain (value : α)
  | carrying (decoder : Decoder α)

def alternative (alternatives : List (String × Alternative α)) (name : String) :
    Except ReadError (Alternative α) :=
  match alternatives.find? (·.1 = name) with
  | some found => .ok found.2
  | none => .error (.unknownVariant name)

/-- A choice by name.  A plain alternative may carry `null`.  An object that is no
text any more is refused for a second key before its first one is looked at. -/
def choice (alternatives : List (String × Alternative α)) : Decoder α
  | _, _, .string scalar => do
      let name ← scalar.value
      match ← alternative alternatives name with
      | .plain value => pure value
      | .carrying _ => throw .shape
  | stage, depth, .object all ending => do
      let depth ← enter depth
      match all with
      | [] =>
          match ending with
          | .closed => throw stage.misplaced
          | .stopped _ fault => throw (.text fault)
      | (key, source) :: rest => do
          if stage ≠ .streaming && !rest.isEmpty then throw .shape
          let name ← key.key
          let value ← match ← alternative alternatives name, source with
            | .plain value, .null => pure value
            | .plain _, source => throw (wrongKind source)
            | .carrying decoder, source => decoder stage depth source
          if rest.isEmpty then closeFull ending else throw (.text .malformed)
          pure value
  | _, _, .absent => .error (.text .truncated)
  | stage, _, _ => .error stage.misplaced

/-- Reads a value through without looking at its shape. -/
def through (stage : Stage) (depth : Nat) (source : Source) : Except ReadError Unit :=
  match stage with
  | .streaming => do
      let _ ← source.value depth
      pure ()
  | .stored | .buffered => pure ()

end Decoder

def Document.decode {α : Type} (decoder : Decoder α) (document : Document) :
    Except ReadError α := do
  let value ← decoder .streaming nestingLimit document.root
  if document.trailing then throw (.text .malformed)
  pure value

def Value.decode {α : Type} (decoder : Decoder α) (value : Value) : Except ReadError α :=
  decoder .stored nestingLimit value.source

end NativeBindings.Json
