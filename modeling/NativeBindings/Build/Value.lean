import NativeBindings.Build.Attempt

namespace NativeBindings

/-! # Globals and macros -/

namespace Representation

def getter (representation : Representation) (name : String) (type : QualType) : Getter where
  nativeName := name
  nativeType := type
  representation
  isAggregate := representation.isAggregate

end Representation

namespace Index

variable (index : Index)

/-- The property for a global.  What is read in place is not assigned, and neither
is a constant. -/
def buildGlobal (decl : GlobalDecl) : Draft (List StubElement) := do
  let representation ← index.required decl.type
  let id ← Run.freshStub
  Draft.edit (·.addGetter id (representation.getter decl.name decl.type))
  let isReadOnly := decl.type.isConst || representation.isAggregate
  if !isReadOnly then Draft.edit (·.addSetter id ⟨decl.name, decl.type, representation⟩)
  pure [.ofProperty {
    id
    name := decl.name
    type := representation.placed
    kind := if isReadOnly then .val .bridge else .var .bridge .bridge }]

def macroLiteral (decl : MacroConstant) : Represents (TargetType × Constant) := do
  let platform := (← getThe Run).config.platform
  match decl.value with
  | .string value => pure (.string, .string value)
  | .integer value =>
      let representation ← index.represent decl.type
      let constant ← OptionT.mk (pure (index.integralConstant? platform value decl.type))
      pure (representation.target, constant)
  | .float value =>
      let representation ← index.represent decl.type
      let constant ← OptionT.mk (pure (index.floatingConstant? value decl.type))
      pure (representation.target, constant)

/-- The constant for a macro.  One that the target cannot hold gives nothing. -/
def buildMacroConstant (decl : MacroConstant) : Attempt (List StubElement) := do
  match ← (index.macroLiteral decl).run with
  | none => pure []
  | some (type, constant) =>
      let id ← Run.freshStub
      pure [.ofProperty { id, name := decl.name, type, kind := .constant constant }]

def buildWrappedMacro (decl : WrappedMacro) : Draft (List StubElement) := do
  let representation ← index.required decl.type
  let id ← Run.freshStub
  Draft.edit (·.addGetter id (representation.getter decl.name decl.type))
  pure [.ofProperty {
    id
    name := decl.name
    type := representation.placed
    kind := .val .bridge }]

end Index

end NativeBindings
