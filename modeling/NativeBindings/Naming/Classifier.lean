import NativeBindings.Naming.Run
import NativeBindings.Native.Index
import NativeBindings.Text.Qualified

namespace NativeBindings

/-! # Names of type declarations

Declarations live in the package of the run under their simple names.  What is
declared without being defined belongs to the runtime, in a package of its own.
-/

/-- Package of structs and native classes that are not defined. -/
def forwardStructs : String := "cnames.structs"

def forwardObjCClasses : String := "objcnames.classes"

def forwardObjCProtocols : String := "objcnames.protocols"

inductive Naming where
  | named (name : String)
  /-- The declaration is listed as a forward declaration under its name. -/
  | forward (package name : String)
  /-- The name is made from the next number for anonymous structs. -/
  | numbered
  /-- Nothing can refer to the declaration. -/
  | unnamed
  deriving DecidableEq

namespace Index

/-- How a declaration is named.  A struct gives way to a typedef of its name,
unless that is a typedef of the struct itself. -/
def naming (index : Index) (platform : Platform) : Declaration → Naming
  | .struct decl =>
      match decl.name with
      | none => .numbered
      | some name =>
          let simple := simpleName name
          if decl.isForward && platform = .native then .forward forwardStructs simple
          else if index.hasTypedefNamed simple (some decl.id) then .named (simple ++ "Struct")
          else .named simple
  | .enumeration decl =>
      match decl.name with
      | none => .unnamed
      | some name => .named (simpleName name)
  | .typedef decl => .named (simpleName decl.name)
  | .nativeClass decl =>
      if decl.isForward && platform = .native then
        .forward forwardStructs (simpleName decl.name)
      else .named (simpleName decl.name)
  | .objcProtocol decl =>
      let name := decl.name ++ "Protocol"
      if decl.isForward then .forward forwardObjCProtocols name else .named name
  | .objcClass decl =>
      if decl.isForward then .forward forwardObjCClasses decl.name else .named decl.name
  | .function _ | .global _ | .macroConstant _ | .wrappedMacro _ | .objcCategory _ => .unnamed

def decideClassifier (index : Index) (decl : Declaration) (id : DeclId) :
    StateM Run (Option Classifier) := do
  let run ← get
  match index.naming run.config.platform decl with
  | .named name => pure (some ⟨run.package, name⟩)
  | .forward package name =>
      Run.recordForward name ⟨package, name⟩
      pure (some ⟨package, name⟩)
  | .numbered => do pure (some ⟨run.package, ← Run.anonymousName id⟩)
  | .unnamed => pure none

/-- The classifier of a declaration.  It is decided when it is first asked for, and
remembered by the declaration's identity. -/
def classifier (index : Index) (decl : Declaration) : StateM Run (Option Classifier) := do
  match decl.typeId? with
  | none => pure none
  | some id =>
      match (← get).classifiers.get? id with
      | some known => pure known
      | none =>
          let decided ← index.decideClassifier decl id
          modify fun run => { run with classifiers := run.classifiers.insert id decided }
          pure decided

end Index

end NativeBindings
