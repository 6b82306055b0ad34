import NativeBindings.Stub.Element

namespace NativeBindings

/-! # Stub trees

A tree keeps its stubs by kind, in the order in which they came.  Groups hold
trees of their own.  Whoever walks a tree meets, at each level, the members of the
classes, then the free stubs, then the groups.
-/

mutual

structure StubTree where
  classes : List ClassStub
  functions : List FunctionStub
  properties : List PropertyStub
  typealiases : List TypealiasStub
  groups : List StubGroup

/-- A named group of stubs, such as what a category adds to a class. -/
structure StubGroup where
  id : StubId
  name : String
  members : StubTree

end

inductive StubElement where
  | ofClass (stub : ClassStub)
  | ofFunction (stub : FunctionStub)
  | ofProperty (stub : PropertyStub)
  | ofTypealias (stub : TypealiasStub)
  | ofGroup (stub : StubGroup)

namespace StubTree

instance : EmptyCollection StubTree := ⟨⟨[], [], [], [], []⟩⟩

instance : Inhabited StubTree := ⟨∅⟩

def push (tree : StubTree) : StubElement → StubTree
  | .ofClass stub => { tree with classes := tree.classes ++ [stub] }
  | .ofFunction stub => { tree with functions := tree.functions ++ [stub] }
  | .ofProperty stub => { tree with properties := tree.properties ++ [stub] }
  | .ofTypealias stub => { tree with typealiases := tree.typealiases ++ [stub] }
  | .ofGroup stub => { tree with groups := tree.groups ++ [stub] }

def ofElements (elements : List StubElement) : StubTree := elements.foldl push ∅

def append (tree other : StubTree) : StubTree where
  classes := tree.classes ++ other.classes
  functions := tree.functions ++ other.functions
  properties := tree.properties ++ other.properties
  typealiases := tree.typealiases ++ other.typealiases
  groups := tree.groups ++ other.groups

instance : Append StubTree := ⟨append⟩

def isEmpty (tree : StubTree) : Bool :=
  tree.classes.isEmpty && tree.functions.isEmpty && tree.properties.isEmpty &&
    tree.typealiases.isEmpty && tree.groups.isEmpty

mutual

/-- The numbers of all stubs, those of class members and groups among them. -/
def ids : StubTree → List StubId
  | ⟨classes, functions, properties, typealiases, groups⟩ =>
      (classes.flatMap fun stub =>
          stub.id :: (stub.properties.map (·.id) ++ stub.functions.map (·.id))) ++
        functions.map (·.id) ++ properties.map (·.id) ++ typealiases.map (·.id) ++
        groupIds groups

def groupIds : List StubGroup → List StubId
  | [] => []
  | ⟨id, _, members⟩ :: rest => id :: (members.ids ++ groupIds rest)

end

mutual

/-- All functions, those of classes and groups among them. -/
def allFunctions : StubTree → List FunctionStub
  | ⟨classes, functions, _, _, groups⟩ =>
      classes.flatMap (·.functions) ++ functions ++ groupFunctions groups

def groupFunctions : List StubGroup → List FunctionStub
  | [] => []
  | ⟨_, _, members⟩ :: rest => members.allFunctions ++ groupFunctions rest

end

mutual

/-- All properties, those of classes and groups among them. -/
def allProperties : StubTree → List PropertyStub
  | ⟨classes, _, properties, _, groups⟩ =>
      classes.flatMap (·.properties) ++ properties ++ groupProperties groups

def groupProperties : List StubGroup → List PropertyStub
  | [] => []
  | ⟨_, _, members⟩ :: rest => members.allProperties ++ groupProperties rest

end

end StubTree

end NativeBindings
