import NativeBindings.Native.Index

namespace NativeBindings

/-! # What a wrapper can call -/

/-- A native function, or a method of a native class. -/
inductive Callable where
  | function (decl : FunctionDecl)
  | method (owner : ClassDecl) (decl : MethodDecl)
  deriving Inhabited

namespace Callable

def nativeName : Callable → String
  | .function decl => decl.name
  | .method owner decl => owner.name ++ "::" ++ decl.name

def isVariadic : Callable → Bool
  | .function decl => decl.isVariadic
  | .method _ decl => decl.isVariadic

def result : Callable → QualType
  | .function decl => decl.result
  | .method _ decl => decl.result

def parameters : Callable → List Parameter
  | .function decl => decl.parameters
  | .method _ decl => decl.parameters

/-- The class of the object on which the callable is called. -/
def receiver? : Callable → Option ClassDecl
  | .function _ => none
  | .method owner decl => if decl.isStatic then none else some owner

/-- What stands before the arguments of a call; the object, if there is one, is the
wrapper's parameter `p0`. -/
def callee : Callable → String
  | .function decl => decl.name
  | .method owner decl =>
      if decl.isStatic then owner.name ++ "::" ++ decl.name
      else "((" ++ owner.name ++ "*)p0)->" ++ decl.name

end Callable

end NativeBindings
