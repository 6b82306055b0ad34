import NativeBindings.Proofs.Mapping.Acyclic
import NativeBindings.Proofs.Mapping.Kept

namespace NativeBindings

/-! # What has a representation

Whether the mapper has an answer does not depend on what it was asked before, but on the
configuration and on the declarations that are known to have no name.  So having an answer
is a property of types, and it is one of the parts of a type.
-/

/-- Two runs in which the same types are represented. -/
structure Run.Alike (run other : Run) : Prop where
  config : other.config = run.config
  nameless : ∀ id, other.classifiers.get? id = some none ↔ run.classifiers.get? id = some none

theorem Run.Alike.refl (run : Run) : run.Alike run := ⟨rfl, fun _ => Iff.rfl⟩

/-- Whether a question has an answer is the same in all runs alike. -/
structure Represents.Settles {α : Type} (ask : Represents α) (run : Run) (answered : Prop) :
    Prop where
  keeps : Keeps run.Alike ask.run
  iff : ∀ other, run.Alike other → ((ask.run other).1.isSome ↔ answered)

namespace Represents.Settles

variable {α β : Type} {run : Run} {ask : Represents α} {answered more : Prop}

theorem of_iff (settles : ask.Settles run answered) (same : answered ↔ more) :
    ask.Settles run more :=
  ⟨settles.keeps, fun other alike => (settles.iff other alike).trans same⟩

theorem pure (value : α) : (Pure.pure value : Represents α).Settles run True :=
  ⟨fun _ alike => alike, fun _ _ => iff_of_true rfl trivial⟩

theorem failure : (failure : Represents α).Settles run False :=
  ⟨fun _ alike => alike, fun _ _ => iff_of_false Bool.false_ne_true id⟩

theorem ofOption (value? : Option α) :
    Represents.Settles (OptionT.mk (Pure.pure value?)) run value?.isSome :=
  ⟨fun _ alike => alike, fun _ _ => Iff.rfl⟩

/-- Both steps have an answer, whatever the first one is. -/
theorem bind {next : α → Represents β} (first : ask.Settles run answered)
    (second : ∀ value, (next value).Settles run more) :
    (ask >>= next).Settles run (answered ∧ more) where
  keeps := first.keeps.option fun value => (second value).keeps
  iff other alike := by
    have asked := first.iff other alike
    rw [run_bind]
    cases answer : (ask.run other).1 with
    | none =>
        rw [answer] at asked
        exact iff_of_false (by simp) fun both => by simpa using asked.mpr both.1
    | some value =>
        rw [answer] at asked
        have rest := (second value).iff _ (first.keeps other alike)
        exact rest.trans (iff_and_self.mpr fun _ => asked.mp rfl)

/-- A last step that only puts the answer into another form. -/
theorem map {next : α → β} (settles : ask.Settles run answered) :
    (ask >>= fun value => Pure.pure (next value)).Settles run answered :=
  (settles.bind fun value => pure (next value)).of_iff (and_iff_left trivial)

/-- What follows on something that the index has or has not. -/
theorem lookup {value? : Option α} {next : α → Represents β}
    (second : ∀ value, value? = some value → ∃ answered, (next value).Settles run answered) :
    ∃ answered, Represents.Settles (OptionT.mk (Pure.pure value?) >>= next) run answered := by
  cases found : value? with
  | none => exact ⟨False, failure⟩
  | some value => exact second value found

theorem config {next : Run → Represents β}
    (second : ∀ other, other.config = run.config → (next other).Settles run answered) :
    Represents.Settles (getThe Run >>= next) run answered where
  keeps other alike := (second other alike.config).keeps other alike
  iff other alike := (second other alike.config).iff other alike

end Represents.Settles

namespace Index

variable {index : Index} {run : Run}

/-- A declaration that introduces a type has a name unless it is known to have none. -/
theorem settles_named {decl : Declaration} {id : DeclId} (typeId : decl.typeId? = some id)
    (hasName : decl.hasTypeName) :
    (index.named decl).Settles run (run.classifiers.get? id ≠ some none) where
  keeps other alike := by
    refine ⟨((index.grows_classifier decl) other).config.trans alike.config, fun wanted => ?_⟩
    rw [← alike.nameless]
    constructor
    · intro known
      rcases get?_classifier known with before | ⟨-, decided⟩
      · exact before
      · cases decided.trans hasName
    · exact ((index.grows_classifier decl) other).classifiers
  iff other alike := by
    rw [ne_eq, ← alike.nameless]
    change ((index.classifier decl).run other).1.isSome ↔ _
    cases known : other.classifiers.get? id with
    | some answer =>
        rw [index.classifier_run_known typeId known]
        cases answer <;> simp
    | none =>
        rw [index.classifier_run_new typeId known, (decideClassifier_run).1]
        simp [hasName]

/-- No typedef is known to have no name. -/
def NamesTypedefs (index : Index) (run : Run) : Prop :=
  ∀ id decl, index.typedefs.get? id = some decl → run.classifiers.get? id ≠ some none

theorem namesTypedefs_start (index : Index) (config : Config) :
    index.NamesTypedefs (.start config) := by
  intro id decl _ known
  cases known

theorem settles_representRecord (id : DeclId) :
    ∃ answered, (index.representRecord id).Settles run answered := by
  unfold representRecord
  split
  · exact ⟨_, (Represents.Settles.ofOption _).bind fun _ => (settles_named rfl rfl).map⟩
  · exact Represents.Settles.lookup fun decl _ => ⟨_, (settles_named rfl rfl).map⟩

theorem settles_representObject (id : DeclId) :
    ∃ answered, (index.representObject id).Settles run answered := by
  unfold representObject
  split
  · exact ⟨_, (settles_named rfl rfl).map⟩
  · exact Represents.Settles.lookup fun decl _ => ⟨_, (settles_named rfl rfl).map⟩

section Follow

variable {follow : QualType → Represents Representation}
  (follows : ∀ type, ∃ answered, (follow type).Settles run answered)

include follows

theorem settles_representEnumeration (id : DeclId) :
    ∃ answered, (index.representEnumeration follow id).Settles run answered := by
  unfold representEnumeration
  refine Represents.Settles.lookup fun decl _ => ?_
  obtain ⟨represented, base⟩ := follows decl.base
  split
  · exact ⟨_, base⟩
  · rename_i isNamed
    have hasName : (Declaration.enumeration decl).hasTypeName := by
      simpa [Declaration.hasTypeName, Option.isSome_iff_ne_none] using isNamed
    refine ⟨_, (settles_named rfl hasName).bind fun classifier =>
      (Represents.Settles.config fun other same => ?_ :
        Represents.Settles _ run (run.config.isStrict decl ∨ represented))⟩
    rw [same]
    split
    · rename_i strict
      exact (Represents.Settles.pure _).of_iff (iff_of_true trivial (.inl strict))
    · rename_i isOpen
      exact base.map.of_iff (or_iff_right isOpen).symm

omit follows in
/-- A typedef has a name whenever it is asked for one. -/
theorem settles_representTypedef (names : index.NamesTypedefs run) {id : DeclId}
    {decl : TypedefDecl} (found : index.typedefs.get? id = some decl) {answered : Prop}
    (aliased : (follow decl.aliased).Settles run answered) :
    (index.representTypedef follow id).Settles run answered := by
  have same : decl.id = id := DeclMap.id_of_get? found
  rw [representTypedef_found index follow found]
  refine Represents.Settles.of_iff (aliased.bind fun aliased => ?_) (and_iff_left trivial)
  split
  · exact (settles_named rfl rfl).map.of_iff
      (iff_of_true (same ▸ names id decl found) trivial)
  · exact .pure _

omit follows in
theorem settles_callback {spelling : String} {isConst variadic : Bool} {result : QualType}
    {arguments : List QualType} {inputs output : Prop}
    (values : (index.targetsOf follow arguments).Settles run inputs)
    (value : (index.representShape follow result.shape).Settles run output) :
    (index.representShape follow
      (.pointer ⟨spelling, isConst, .function result arguments variadic⟩)).Settles run
        (variadic = false ∧ inputs ∧ (result.shape.isVoid ∨ output)) := by
  cases variadic with
  | true =>
      obtain ⟨_, _, shape⟩ := result
      exact Represents.Settles.failure.of_iff (iff_of_false id fun both => nomatch both.1)
  | false =>
      rw [representShape_callback]
      refine Represents.Settles.of_iff (values.bind fun parameters => ?_)
        (and_iff_right rfl).symm
      split
      · rename_i isVoid
        exact (Represents.Settles.pure _).of_iff (iff_of_true trivial (.inl isVoid))
      · rename_i notVoid
        exact value.map.of_iff (or_iff_right notVoid).symm

/-- Whether there is an answer is settled if it is for what names are followed to. -/
theorem settles_representShapes (names : index.NamesTypedefs run) :
    (∀ shape, ∃ answered, (index.representShape follow shape).Settles run answered) ∧
      ∀ arguments, ∃ answered, (index.targetsOf follow arguments).Settles run answered := by
  apply Index.representShape.mutual_induct index follow
    (fun shape => ∃ answered, (index.representShape follow shape).Settles run answered)
    (fun arguments => ∃ answered, (index.targetsOf follow arguments).Settles run answered)
  case case5 | case6 =>
    intro size signed
    refine ⟨(integerRepresentation? run.config.platform size signed).isSome, .config ?_⟩
    intro other same
    rw [same]
    exact .ofOption _
  case case7 => exact fun _ => ⟨_, .ofOption _⟩
  case case9 =>
    rintro _ _ _ _ _ arguments ⟨_, values⟩ ⟨_, value⟩
    exact ⟨_, settles_callback values value⟩
  case case10 =>
    rintro _ _ _ _ _ arguments _ _ ⟨_, values⟩ ⟨_, value⟩
    exact ⟨_, settles_callback values value⟩
  case case11 =>
    intro spelling isConst shape notVoid notFunction decl forward
    rw [representShape_pointer index follow notVoid notFunction, forward]
    exact ⟨_, (settles_named rfl rfl).map⟩
  case case12 =>
    rintro spelling isConst shape notVoid notFunction plain ⟨_, memory⟩
    rw [representShape_pointer index follow notVoid notFunction, plain]
    exact ⟨_, memory.map⟩
  case case13 | case14 | case19 =>
    rintro _ _ _ ⟨_, memory⟩
    exact ⟨_, memory.map⟩
  case case15 => exact settles_representRecord
  case case16 => exact settles_representEnumeration follows
  case case17 =>
    intro id
    change ∃ answered, (index.representTypedef follow id).Settles run answered
    cases found : index.typedefs.get? id with
    | none =>
        simp only [representTypedef, found]
        exact ⟨_, .failure⟩
    | some decl =>
        obtain ⟨_, aliased⟩ := follows decl.aliased
        exact ⟨_, settles_representTypedef names found aliased⟩
  case case18 =>
    rintro _ _ _ _ ⟨_, memory⟩
    exact ⟨_, memory.map⟩
  case case20 => exact settles_representObject
  case case23 =>
    rintro _ _ shape rest ⟨_, first⟩ ⟨_, others⟩
    unfold targetsOf
    exact ⟨_, first.bind fun _ => others.map⟩
  case case1 => exact ⟨_, .failure⟩
  case case4 | case21 | case22 => exact ⟨_, .pure _⟩
  case case2 => exact fun _ _ _ => ⟨_, .failure⟩
  case case3 => exact fun _ => ⟨_, .failure⟩
  case case8 => exact fun _ _ => ⟨_, .pure _⟩

end Follow

theorem settles_representWithin (names : index.NamesTypedefs run) (rounds : Nat)
    (type : QualType) :
    ∃ answered, (index.representWithin rounds type).Settles run answered := by
  induction rounds generalizing type with
  | zero => exact (settles_representShapes (fun _ => ⟨_, .failure⟩) names).1 type.shape
  | succ rounds ih => exact (settles_representShapes ih names).1 type.shape

/-- Has the mapper an answer for a type? -/
def Representable (index : Index) (run : Run) (shape : TypeShape) : Prop :=
  ((index.represent ⟨"", false, shape⟩).run run).1.isSome

theorem represent_shape (index : Index) (type : QualType) :
    index.represent type = index.represent ⟨"", false, type.shape⟩ := by
  unfold represent
  cases index.typedefs.size + index.enums.size <;> rfl

section Equations

variable (names : index.NamesTypedefs run)

include names

theorem settles_represent (type : QualType) :
    (index.represent type).Settles run (index.Representable run type.shape) := by
  obtain ⟨answered, settles⟩ := settles_representWithin names
    (index.typedefs.size + index.enums.size) type
  have here := settles.iff run (.refl run)
  rw [← represent, represent_shape] at here
  exact settles.of_iff here.symm

variable (acyclic : index.Acyclic)

include acyclic

omit names in
/-- What is settled of a type's parts is settled of the type. -/
theorem representable_iff {shape : TypeShape} {answered : Prop}
    (settles : (index.representShape index.represent shape).Settles run answered) :
    index.Representable run shape ↔ answered := by
  rw [Representable, represent_eq acyclic]
  exact settles.iff run (.refl run)

theorem settles_shape (shape : TypeShape) :
    (index.representShape index.represent shape).Settles run (index.Representable run shape) := by
  have settles := settles_represent names ⟨"", false, shape⟩
  rwa [represent_eq acyclic] at settles

theorem settles_targetsOf (arguments : List QualType) :
    (index.targetsOf index.represent arguments).Settles run
      (∀ argument ∈ arguments, index.Representable run argument.shape) := by
  induction arguments with
  | nil => exact (Represents.Settles.pure _).of_iff (iff_of_true trivial nofun)
  | cons argument rest ih =>
      obtain ⟨_, _, shape⟩ := argument
      unfold targetsOf
      exact ((settles_shape names acyclic shape).bind fun _ => ih.map).of_iff (by simp)

theorem representable_named {id : DeclId} {decl : TypedefDecl}
    (found : index.typedefs.get? id = some decl) :
    index.Representable run (.named id) ↔ index.Representable run decl.aliased.shape :=
  representable_iff acyclic
    (settles_representTypedef names found (settles_represent names decl.aliased))

theorem representable_pointer {type : QualType} (notVoid : type.shape ≠ .void)
    (notFunction : ∀ result arguments variadic,
      type.shape ≠ .function result arguments variadic)
    (plain : index.forwardStruct? type = none) :
    index.Representable run (.pointer type) ↔ index.Representable run type.shape := by
  obtain ⟨spelling, isConst, shape⟩ := type
  refine representable_iff acyclic ?_
  rw [representShape_pointer index _ notVoid fun _ _ _ _ _ => notFunction _ _ _, plain]
  exact (settles_shape names acyclic shape).map

omit names in
/-- A pointer to a struct that is not defined needs a name for the struct. -/
theorem representable_forward {type : QualType} {decl : StructDecl}
    (forward : index.forwardStruct? type = some decl) :
    index.Representable run (.pointer type) ↔ run.classifiers.get? decl.id ≠ some none := by
  apply representable_iff acyclic
  rw [representShape_forward _ _ forward]
  exact (settles_named rfl rfl).map

theorem representable_callback {spelling : String} {isConst variadic : Bool} {result : QualType}
    {arguments : List QualType} :
    index.Representable run
        (.pointer ⟨spelling, isConst, .function result arguments variadic⟩) ↔
      variadic = false ∧ (∀ argument ∈ arguments, index.Representable run argument.shape) ∧
        (result.shape.isVoid ∨ index.Representable run result.shape) :=
  representable_iff acyclic (settles_callback (settles_targetsOf names acyclic arguments)
    (settles_shape names acyclic result.shape))

end Equations

end Index

end NativeBindings
