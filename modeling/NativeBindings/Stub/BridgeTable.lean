import NativeBindings.Data.SortedMap
import NativeBindings.Stub.Element
import NativeBindings.Target.Representation

namespace NativeBindings

/-! # How stubs reach native code

What does not fit into a stub is kept beside the tree, under the stub's number:
how a property is read and written through wrappers, how the values of a closed
enumeration are represented, and which parameters take strings.  A later entry
for a stub takes the place of an earlier one.
-/

instance : SortKey StubId where
  lt a b := decide (a.number < b.number)
  irrefl := by simp
  trans := by simp; omega
  total {a b} first second := by
    simp only [decide_eq_false_iff_not] at first second
    exact congrArg StubId.mk (Nat.le_antisymm (Nat.not_lt.mp second) (Nat.not_lt.mp first))

structure Getter where
  /-- The native expression, most often the name of a global. -/
  nativeName : String
  nativeType : QualType
  representation : Representation
  /-- Records and arrays are read in place, through their address. -/
  isAggregate : Bool
  deriving Inhabited

structure Setter where
  nativeName : String
  nativeType : QualType
  representation : Representation
  deriving Inhabited

inductive StringKind where
  | narrow
  | wide
  deriving DecidableEq, Inhabited

abbrev ParameterKey := StubId × Nat

/-- All that is known of stubs beside their tree.  A string parameter has one kind,
so none is narrow and wide. -/
structure BridgeTable where
  getters : SortedMap StubId Getter
  setters : SortedMap StubId Setter
  enumerations : SortedMap StubId Representation
  strings : SortedMap ParameterKey StringKind

namespace BridgeTable

instance : EmptyCollection BridgeTable := ⟨⟨∅, ∅, ∅, ∅⟩⟩

instance : Inhabited BridgeTable := ⟨∅⟩

def addGetter (table : BridgeTable) (property : StubId) (getter : Getter) : BridgeTable :=
  { table with getters := table.getters.insert property getter }

def addSetter (table : BridgeTable) (property : StubId) (setter : Setter) : BridgeTable :=
  { table with setters := table.setters.insert property setter }

def addEnumeration (table : BridgeTable) (enumeration : StubId)
    (representation : Representation) : BridgeTable :=
  { table with enumerations := table.enumerations.insert enumeration representation }

def markString (table : BridgeTable) (key : ParameterKey) (kind : StringKind) : BridgeTable :=
  { table with strings := table.strings.insert key kind }

/-- The entries of both tables; where both have one, that of `other`. -/
def merge (table other : BridgeTable) : BridgeTable where
  getters := table.getters.union other.getters
  setters := table.setters.union other.setters
  enumerations := table.enumerations.union other.enumerations
  strings := table.strings.union other.strings

def isEmpty (table : BridgeTable) : Bool :=
  table.getters.isEmpty && table.setters.isEmpty && table.enumerations.isEmpty &&
    table.strings.isEmpty

def stringsOf (table : BridgeTable) (kind : StringKind) : List ParameterKey :=
  (table.strings.toList.filter (·.2 = kind)).map (·.1)

def referenced (table : BridgeTable) : List StubId :=
  (SortedSet.ofMembers
    (table.getters.keys ++ table.setters.keys ++ table.enumerations.keys ++
      table.strings.keys.map (·.1))).keys

end BridgeTable

end NativeBindings
