import NativeBindings.Build.Attempt

namespace NativeBindings

/-! # Structs and unions -/

namespace Index

/-- Can a field of so many bits be read as a number? -/
def canPack (field : Field) (info : TypeInfo) : Bool :=
  match info with
  | .primitive .. | .boolean => true
  | _ => field.type.shape.isEnumeration

def fieldAccessor? (field : Field) (info : TypeInfo) : Option Accessor :=
  match field.bitWidth with
  | some width => if canPack field info then some (.bitField field.offset width) else none
  | none => some (.memberAt (field.offset / 8))

/-- The property for a field.  Nested records and arrays are read in place, so they
are never assigned, and neither is a constant. -/
def buildField (index : Index) (field : Field) : Represents PropertyStub := do
  let representation ← index.represent field.type
  let accessor ← OptionT.mk (pure (fieldAccessor? field representation.info))
  let id ← Run.freshStub
  pure {
    id
    name := field.name
    type := representation.placed
    kind :=
      if representation.isAggregate || field.type.isConst then .val accessor
      else .var accessor accessor }

/-- The properties for the fields of a record.  A field without a name is left
out, and so is one that cannot be represented. -/
def buildFields (index : Index) : List Field → StateM Run (List PropertyStub)
  | [] => pure []
  | field :: rest => do
      let property? ← if field.name = "" then pure none else (index.buildField field).run
      let properties ← index.buildFields rest
      pure (property?.toList ++ properties)

def buildStruct (index : Index) (decl : StructDecl) : Attempt (List StubElement) := do
  let classifier ← index.resolved (.struct decl) decl.id
  let id ← Run.freshStub
  match decl.layout with
  | none => pure [.ofClass {
      id
      classifier
      kind := .forwardStruct
      supertypes := [.interop "COpaque"] }]
  | some layout =>
      let properties ← index.buildFields layout.fields
      pure [.ofClass {
        id
        classifier
        kind := .struct layout.size layout.align layout.isUnion
        supertypes := [.interop "CStructVar"]
        properties }]

end Index

end NativeBindings
