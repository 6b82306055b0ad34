import NativeBindings.Build.Error
import NativeBindings.Mapping.Literal
import NativeBindings.Stub.Tree

namespace NativeBindings

/-! # Attempts at building a declaration

An attempt ends with an error or with a value.  What was named and numbered on the way to
an error stays so.  A draft also writes into a bridge table as it goes, and what it wrote
before an error is in the table when it fails; only who keeps the table can drop it.
-/

abbrev Attempt := ExceptT BuildError (StateM Run)

abbrev Draft := ExceptT BuildError (StateT BridgeTable (StateM Run))

/-- Names the place where an attempt or a draft fails. -/
def Attempt.within {m : Type → Type} [Monad m] {α : Type} (place : BuildError → BuildError)
    (attempt : ExceptT BuildError m α) : ExceptT BuildError m α :=
  ExceptT.mk do pure ((← attempt.run).mapError place)

namespace Draft

/-- An attempt that leaves the table alone. -/
instance : MonadLift Attempt Draft where
  monadLift attempt := ExceptT.mk (StateT.lift attempt.run)

def edit (change : BridgeTable → BridgeTable) : Draft Unit := ExceptT.lift (modify change)

end Draft

/-- What one declaration gives: its stubs and what is to be known beside them. -/
structure Built where
  elements : List StubElement := []
  table : BridgeTable := ∅
  deriving Inhabited

namespace Index

/-- The representation of a type that must have one. -/
def required (index : Index) (type : QualType) : Attempt Representation := do
  match ← (index.represent type).run with
  | some representation => pure representation
  | none => throw (.unrepresentable type.spelling)

def targetType (index : Index) (type : QualType) : Attempt TargetType := do
  pure (← index.required type).target

def resultType (index : Index) (type : QualType) : Attempt TargetType := do
  if type.shape.isVoid then pure .unit else pure (← index.required type).target

/-- The classifier of a declaration that other declarations may name. -/
def resolved (index : Index) (decl : Declaration) (id : DeclId) : Attempt Classifier := do
  match ← index.classifier decl with
  | some classifier => pure classifier
  | none => throw (.unresolved id)

end Index

end NativeBindings
