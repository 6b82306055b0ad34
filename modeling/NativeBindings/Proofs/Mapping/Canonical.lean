import NativeBindings.Proofs.Mapping.Chains
import NativeBindings.Proofs.Mapping.Represented

namespace NativeBindings

/-! # Typedefs looked through

A type that is represented is a finite chain of typedefs in front of a type that is
none.  No typedef stands in the chain twice, or the chain would be longer than
itself, so the walk along it meets nothing that it has seen, and reaches the end.
-/

namespace Index

/-- Behind `names`, each the alias of the next, stands a type that is no typedef of the
index. -/
inductive Unfolds (index : Index) : QualType → List DeclId → QualType → Prop
  | done {type : QualType} : (∀ id, type.shape = .named id → index.typedefs.get? id = none) →
      Unfolds index type [] type
  | step {type last : QualType} {id names decl} : type.shape = .named id →
      index.typedefs.get? id = some decl → Unfolds index decl.aliased names last →
      Unfolds index type (id :: names) last

namespace Unfolds

variable {index : Index} {type last : QualType} {names : List DeclId}

theorem unique {others : List DeclId} {other : QualType} (unfolds : index.Unfolds type names last)
    (again : index.Unfolds type others other) : names = others ∧ last = other := by
  induction unfolds generalizing others with
  | done plain =>
      cases again with
      | done => exact ⟨rfl, rfl⟩
      | step isNamed found => cases (plain _ isNamed).symm.trans found
  | step isNamed found _ ih =>
      cases again with
      | done plain => cases (plain _ isNamed).symm.trans found
      | step otherNamed otherFound rest =>
          cases isNamed.symm.trans otherNamed
          cases found.symm.trans otherFound
          obtain ⟨rfl, rfl⟩ := ih rest
          exact ⟨rfl, rfl⟩

/-- What is behind a name of the chain is a shorter chain. -/
theorem behind (unfolds : index.Unfolds type names last) {id : DeclId} (member : id ∈ names) :
    ∃ decl shorter, index.typedefs.get? id = some decl ∧
      index.Unfolds decl.aliased shorter last ∧ shorter.length < names.length := by
  induction unfolds with
  | done => cases member
  | @step type last head rest decl _ found later ih =>
      rcases List.mem_cons.mp member with rfl | inside
      · exact ⟨decl, rest, found, later, Nat.lt_succ_self _⟩
      · obtain ⟨other, shorter, otherFound, again, less⟩ := ih inside
        exact ⟨other, shorter, otherFound, again, Nat.lt_succ_of_lt less⟩

theorem nodup (unfolds : index.Unfolds type names last) : names.Nodup := by
  induction unfolds with
  | done => exact List.nodup_nil
  | step _ found later ih =>
      refine List.nodup_cons.mpr ⟨fun member => ?_, ih⟩
      -- Met again, the name would begin the same chain anew, and a shorter one.
      obtain ⟨decl, shorter, again, other, less⟩ := later.behind member
      cases found.symm.trans again
      obtain ⟨rfl, -⟩ := later.unique other
      exact Nat.lt_irrefl _ less

theorem trail (unfolds : index.Unfolds type names last) :
    index.typedefWays.Trail type names last := by
  induction unfolds with
  | done => exact .here
  | step isNamed found _ ih =>
      have leads := (next?_typedefWays_eq_some isNamed).mpr ⟨_, found, rfl⟩
      exact .on (name?_typedefWays.mpr isNamed) leads ih

theorem ends (unfolds : index.Unfolds type names last) : index.typedefWays.Ends names last := by
  induction unfolds with
  | done plain =>
      intro id next atName leads
      obtain ⟨decl, isNamed, found, -⟩ := typedef_of_leads atName leads
      cases (plain id isNamed).symm.trans found
  | step _ _ _ ih =>
      exact fun id next isNamed leads => List.mem_cons_of_mem _ (ih id next isNamed leads)

theorem canonicalType (unfolds : index.Unfolds type names last) :
    index.canonicalType type = last :=
  (walks_canonicalType unfolds.trail unfolds.nodup unfolds.ends).1

end Unfolds

end Index

/-- Is a value a whole number, or written as one? -/
def TypeShape.isIntegral : TypeShape → Bool
  | .bool | .char .. | .integer .. | .enumeration _ => true
  | _ => false

/-- Records and references do not cross the boundary by themselves. -/
def TypeShape.isRemote (shape : TypeShape) : Bool := shape.isRecord || shape.isReference

theorem TypeShape.isRemote_of_isIntegral {shape : TypeShape} (integral : shape.isIntegral) :
    shape.isRemote = false := by
  cases shape <;> first | rfl | cases integral

theorem marshalling_of_integerRepresentation? {platform : Platform} {size : UInt32} {signed : Bool}
    {representation : Representation}
    (known : integerRepresentation? platform size signed = some representation) :
    representation.marshalling = .byValue := by
  obtain ⟨name, -, rfl⟩ := Option.map_eq_some_iff.mp known
  rfl

theorem marshalling_of_floatRepresentation? {size : UInt32} {representation : Representation}
    (known : floatRepresentation? size = some representation) :
    representation.marshalling = .byValue := by
  unfold floatRepresentation? at known
  split at known <;> cases known <;> rfl

namespace Index

/-- Are all enumerations made of whole numbers? -/
def hasIntegralEnums (index : Index) : Bool :=
  index.enums.values.all fun decl => (index.canonicalType decl.base).shape.isIntegral

/-- A type is marshalled like that which its typedefs stand for. -/
def MarshalledAs (index : Index) (type : QualType) (marshalling : Marshalling) : Prop :=
  ∃ names last, index.Unfolds type names last ∧ last.shape.isVoid = false ∧
    (marshalling = .byReference ↔ last.shape.isRemote)

namespace MarshalledAs

variable {index : Index} {type : QualType} {marshalling : Marshalling}

theorem plain {shape : TypeShape} (same : type.shape = shape) (isPlain : ∀ id, shape ≠ .named id)
    (notVoid : shape.isVoid = false) (agrees : marshalling = .byReference ↔ shape.isRemote) :
    index.MarshalledAs type marshalling := by
  subst same
  exact ⟨[], type, .done fun id isNamed => absurd isNamed (isPlain id), notVoid, agrees⟩

theorem step {id : DeclId} {decl : TypedefDecl} (isNamed : type.shape = .named id)
    (found : index.typedefs.get? id = some decl)
    (marshalled : index.MarshalledAs decl.aliased marshalling) :
    index.MarshalledAs type marshalling := by
  obtain ⟨names, last, unfolds, agrees⟩ := marshalled
  exact ⟨id :: names, last, .step isNamed found unfolds, agrees⟩

theorem isVoid_canonicalType (marshalled : index.MarshalledAs type marshalling) :
    (index.canonicalType type).shape.isVoid = false := by
  obtain ⟨names, last, unfolds, notVoid, -⟩ := marshalled
  rwa [unfolds.canonicalType]

theorem isRemote_canonicalType (marshalled : index.MarshalledAs type marshalling) :
    marshalling = .byReference ↔ (index.canonicalType type).shape.isRemote := by
  obtain ⟨names, last, unfolds, -, agrees⟩ := marshalled
  rwa [unfolds.canonicalType]

end MarshalledAs

/-- Whatever is represented is marshalled like that which its typedefs stand for. -/
theorem Represented.marshalledAs {index : Index} {run : Run} {representation : Representation}
    (integral : index.hasIntegralEnums) {shape : TypeShape}
    (represented : index.Represented run shape representation) (type : QualType)
    (same : type.shape = shape) : index.MarshalledAs type representation.marshalling := by
  induction represented generalizing type with
  | @seenThrough _ decl _ found _ _ ih | @kept _ decl _ _ found _ _ _ ih =>
      exact .step same found (ih decl.aliased rfl)
  | @anonymousEnum _ decl _ found _ _ ih =>
      -- The enumeration is no typedef of its base: they agree as neither is remote.
      have whole := List.all_eq_true.mp integral decl (DeclMap.mem_values_of_get? found)
      refine .plain same nofun rfl ?_
      rw [(ih decl.base rfl).isRemote_canonicalType, TypeShape.isRemote_of_isIntegral whole]
      rfl
  | char known | integer known =>
      refine .plain same nofun rfl ?_
      rw [marshalling_of_integerRepresentation? known]
      exact ⟨nofun, nofun⟩
  | float known =>
      refine .plain same nofun rfl ?_
      rw [marshalling_of_floatRepresentation? known]
      exact ⟨nofun, nofun⟩
  | leftReference | rightReference | struct | nativeClass =>
      exact .plain same nofun rfl ⟨fun _ => rfl, fun _ => rfl⟩
  | _ => exact .plain same nofun rfl ⟨nofun, nofun⟩

end Index

end NativeBindings
