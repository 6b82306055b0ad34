import NativeBindings.Native.Index
import NativeBindings.Stub.Element

namespace NativeBindings

/-! # Why a declaration was not turned into stubs

An error has a chain of sources.  At its end may stand a backtrace, which shows a text if
the environment asks for it; reports never show it.
-/

/-- A failure, with the place where it happened around its cause. -/
inductive BuildError where
  | inDeclaration (kind : DeclKind) (name : String) (cause : BuildError)
  | inMethod (name : String) (cause : BuildError)
  | inProperty (name : String) (cause : BuildError)
  | inParameter (name : String) (cause : BuildError)
  | inResult (cause : BuildError)
  | unrepresentable (spelling : String)
  | unsupported (description : String)
  | unresolved (id : DeclId)
  /-- The bridge table speaks of a stub that the tree does not have. -/
  | dangling (id : StubId)
  | index (cause : IndexError)
  deriving DecidableEq

/-- What an error has as its source: the error around which it stands, or the backtrace
that was taken where it arose, with the text it shows. -/
inductive ErrorSource where
  | error (message : String)
  | backtrace (shown : String)
  deriving DecidableEq

def ErrorSource.message? : ErrorSource → Option String
  | .error message => some message
  | .backtrace _ => none

namespace BuildError

def message : BuildError → String
  | .inDeclaration kind name _ => "Failed to build " ++ kind.text ++ " \"" ++ name ++ "\""
  | .inMethod name _ => "Failed to map method \"" ++ name ++ "\""
  | .inProperty name _ => "Failed to map property \"" ++ name ++ "\""
  | .inParameter name _ => "Failed to map parameter \"" ++ name ++ "\""
  | .inResult _ => "Failed to map return type"
  | .unrepresentable spelling =>
      "Type \"" ++ spelling ++ "\" cannot be represented in the target language"
  | .unsupported description => "Unsupported feature: \"" ++ description ++ "\""
  | .unresolved id => "Could not resolve declaration \"" ++ id.text ++ "\""
  | .dangling id =>
      "Bridge metadata references stub " ++ id.text ++ " which was not produced by this build"
  | .index _ => "bgn-index error"

/-- The chain of sources, if a backtrace shows `shown`. -/
def sources (shown : String) : BuildError → List ErrorSource
  | .inDeclaration _ _ cause | .inMethod _ cause | .inProperty _ cause | .inParameter _ cause
  | .inResult cause => .error cause.message :: cause.sources shown
  | .index cause => .error cause.message :: cause.causes.map .error
  | .unrepresentable _ | .unsupported _ => [.backtrace shown]
  | .unresolved _ | .dangling _ => []

/-- What the errors of the chain say.  That is told without backtraces. -/
def causes (error : BuildError) : List String := (error.sources "").filterMap (·.message?)

/-- Is something that the target does not have at the root of an error? -/
def isUnsupported : BuildError → Bool
  | .inDeclaration _ _ cause | .inMethod _ cause | .inProperty _ cause | .inParameter _ cause
  | .inResult cause => cause.isUnsupported
  | .unrepresentable _ | .unsupported _ => true
  | .unresolved _ | .dangling _ | .index _ => false

/-- An error with all its causes on one line.  A cause that says nothing is left out, and so
is a backtrace, whatever it shows. -/
def reportWith (shown : String) (error : BuildError) : String :=
  let causes := (error.sources shown).filterMap (·.message?)
  String.intercalate ": " (error.message :: causes.filter (· ≠ ""))

/-- The report where backtraces show nothing. -/
def report (error : BuildError) : String := error.reportWith ""

end BuildError

structure Skipped where
  kind : DeclKind
  name : String
  reason : String
  deriving DecidableEq

def Skipped.text (skipped : Skipped) : String :=
  skipped.kind.text ++ " \"" ++ skipped.name ++ "\" was skipped: " ++ skipped.reason

end NativeBindings
