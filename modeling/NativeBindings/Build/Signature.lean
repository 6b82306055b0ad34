import NativeBindings.Build.Attempt
import NativeBindings.Text.Fresh

namespace NativeBindings

/-! # Parameters of function stubs -/

/-- Name of the last parameter of a function that takes any further arguments. -/
def variadicParameter : String := "variadicArguments"

/-- The names of a function's parameters.  One without a name is called by its
position, and a name that is taken is numbered. -/
def parameterNames (parameters : List Parameter) (isVariadic : Bool) : List String :=
  let wanted := parameters.mapIdx fun position parameter =>
    if parameter.name = "" then "arg" ++ toString position else parameter.name
  freshNames [] (if isVariadic then wanted ++ [variadicParameter] else wanted)

namespace Index

variable {m : Type → Type} [Monad m] [MonadLiftT Attempt m] (index : Index)

/-- The target type of a parameter.  Pointers to constant characters become strings if
there is a way to mark them. -/
def parameterType (mark? : Option (StringKind → m Unit)) (name : String) (type : QualType) :
    m TargetType :=
  match mark?, type.stringKind? with
  | some mark, some kind => do
      mark kind
      pure TargetType.string.nullable
  | _, _ => liftM (Attempt.within (.inParameter name) (index.targetType type))

/-- The parameters of a function stub from a place on, under the given names, of which there
may be one more: it stands for any further arguments.  Strings are marked on the way. -/
def parameterStubs (mark? : Option (Nat → StringKind → m Unit)) :
    (place : Nat) → List String → List Parameter → m (List ParameterStub)
  | place, name :: names, parameter :: parameters => do
      let type ← index.parameterType (mark?.map (· place)) name parameter.type
      let rest ← parameterStubs mark? (place + 1) names parameters
      pure ({ name, type } :: rest)
  | _, [name], [] => pure [
      { name, type := (TargetType.primitive "Any").nullable, isVararg := true }]
  | _, _, _ => pure []

def signature (mark? : Option (Nat → StringKind → m Unit)) (isVariadic : Bool)
    (parameters : List Parameter) (result : QualType) :
    m (List ParameterStub × TargetType) := do
  let parameters ← index.parameterStubs mark? 0 (parameterNames parameters isVariadic) parameters
  let result ← liftM (Attempt.within .inResult (index.resultType result))
  pure (parameters, result)

end Index

end NativeBindings
