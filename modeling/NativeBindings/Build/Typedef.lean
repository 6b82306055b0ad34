import NativeBindings.Build.Attempt

namespace NativeBindings

/-! # Typedefs -/

namespace Index

/-- The aliases for a typedef: one of the value's type, and one of its memory if
the typedef is used under its own name.  An alias of a record names the record and
not a copy of it. -/
def buildTypedef (index : Index) (decl : TypedefDecl) : Attempt (List StubElement) := do
  if index.namesItself decl then pure []
  else
    let representation ← index.required decl.aliased
    let classifier ← index.resolved (.typedef decl) decl.id
    let aliasee :=
      if representation.info.isRecord then representation.pointed
      else representation.target.nonNull
    let stub ← Run.freshStub
    let value := StubElement.ofTypealias ⟨stub, classifier, aliasee⟩
    if index.keepsName decl representation then
      let memory ← Run.freshStub
      pure [value, .ofTypealias ⟨memory, classifier.variableOf, representation.pointed⟩]
    else pure [value]

end Index

end NativeBindings
