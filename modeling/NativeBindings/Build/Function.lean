import NativeBindings.Build.Signature

namespace NativeBindings

/-! # Functions -/

/-- How a function is called.  No symbol bears a qualified name, and the symbol of
a variadic function is bound by the bridge. -/
def FunctionDecl.callKind (decl : FunctionDecl) : CallKind :=
  if isQualified decl.name || decl.isVariadic then .bridged else .direct decl.name

/-- Marks a parameter of a function as a string. -/
def Draft.markString (function : StubId) (place : Nat) (kind : StringKind) : Draft Unit :=
  edit (·.markString (function, place) kind)

namespace Index

def buildFunction (index : Index) (decl : FunctionDecl) : Draft (List StubElement) := do
  let id ← Run.freshStub
  let (parameters, result) ←
    index.signature (some (Draft.markString id)) decl.isVariadic decl.parameters decl.result
  pure [.ofFunction {
    id
    name := simpleName decl.name
    parameters
    result
    origin := .function decl.id
    call := decl.callKind }]

end Index

end NativeBindings
