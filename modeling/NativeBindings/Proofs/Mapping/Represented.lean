import NativeBindings.Mapping.Represent
import NativeBindings.Proofs.Run.Question

namespace NativeBindings

/-! # Representations as a relation

What a type is represented as depends on the names that a run knows and on nothing
else of it.  The relation says so rule by rule, without a bound on how many names
stand behind each other; every answer of the mapper is one of its facts.
-/

namespace Index

/-- How a type is represented in the names that a run knows. -/
inductive Represented (index : Index) (run : Run) : TypeShape → Representation → Prop where
  | bool : Represented index run .bool (.primitive "Boolean" .boolean)
  | char {size signed representation} :
      integerRepresentation? run.config.platform size signed = some representation →
      Represented index run (.char size signed) representation
  | integer {size signed representation} :
      integerRepresentation? run.config.platform size signed = some representation →
      Represented index run (.integer size signed) representation
  | float {size representation} :
      floatRepresentation? size = some representation →
      Represented index run (.float size) representation
  | pointerToVoid {spelling isConst} :
      Represented index run (.pointer ⟨spelling, isConst, .void⟩) (.pointer none)
  | pointerToFunction {spelling isConst} {result : QualType} {arguments : List QualType}
      {values : List Representation} {value : Representation} :
      values.length = arguments.length →
      (∀ (place : Nat) (argument : QualType) (found : Representation),
        arguments[place]? = some argument → values[place]? = some found →
        Represented index run argument.shape found) →
      (result.shape.isVoid = false → Represented index run result.shape value) →
      Represented index run (.pointer ⟨spelling, isConst, .function result arguments false⟩)
        (.pointer (some (functionMemory (values.map (·.target))
          (if result.shape.isVoid then .unit else value.target))))
  | pointerToForward {pointee decl classifier} :
      index.forwardStruct? pointee = some decl → run.Names (.struct decl) classifier →
      Represented index run (.pointer pointee) (.pointer (some (.ofClassifier classifier)))
  | pointer {pointee : QualType} {memory : Representation} :
      index.forwardStruct? pointee = none → Represented index run pointee.shape memory →
      Represented index run (.pointer pointee) (.pointer (some memory.pointed))
  | leftReference {pointee : QualType} {memory : Representation} :
      Represented index run pointee.shape memory →
      Represented index run (.leftReference pointee) (.reference memory.pointed)
  | rightReference {pointee : QualType} {memory : Representation} :
      Represented index run pointee.shape memory →
      Represented index run (.rightReference pointee) (.reference memory.pointed)
  | struct {id} {decl : StructDecl} {layout classifier} :
      index.structs.get? id = some decl → decl.layout = some layout →
      run.Names (.struct decl) classifier →
      Represented index run (.record id) (.record classifier (.struct layout.size layout.align))
  | nativeClass {id decl classifier} :
      index.structs.get? id = none → index.classes.get? id = some decl →
      run.Names (.nativeClass decl) classifier →
      Represented index run (.record id) (.record classifier .nativeClass)
  | anonymousEnum {id} {decl : EnumDecl} {base : Representation} :
      index.enums.get? id = some decl → decl.name.isNone →
      Represented index run decl.base.shape base →
      Represented index run (.enumeration id) base
  | strictEnum {id} {decl : EnumDecl} {classifier} :
      index.enums.get? id = some decl → decl.name.isNone = false →
      run.Names (.enumeration decl) classifier → run.config.isStrict decl →
      Represented index run (.enumeration id) {
        target := .ofClassifier classifier
        pointed := .ofClassifier (classifier.nested "Var")
        marshalling := .byValue
        info := .enumeration classifier true }
  | openEnum {id} {decl : EnumDecl} {classifier} {base : Representation} :
      index.enums.get? id = some decl → decl.name.isNone = false →
      run.Names (.enumeration decl) classifier → run.config.isStrict decl = false →
      Represented index run decl.base.shape base →
      Represented index run (.enumeration id) {
        target := .ofClassifier classifier
        pointed := .ofClassifier classifier.variableOf
        marshalling := .byValue
        info := base.info }
  | seenThrough {id} {decl : TypedefDecl} {aliased : Representation} :
      index.typedefs.get? id = some decl → Represented index run decl.aliased.shape aliased →
      index.keepsName decl aliased = false →
      Represented index run (.named id) aliased
  | kept {id} {decl : TypedefDecl} {aliased : Representation} {classifier} :
      index.typedefs.get? id = some decl → Represented index run decl.aliased.shape aliased →
      index.keepsName decl aliased → run.Names (.typedef decl) classifier →
      Represented index run (.named id) {
        target := (TargetType.ofClassifier classifier).withNullable aliased.target.isNullable
        pointed := .ofClassifier classifier.variableOf
        marshalling := aliased.marshalling
        info := aliased.info }
  | array {element : QualType} {length} {memory : Representation} :
      Represented index run element.shape memory →
      Represented index run (.array element length) (.array memory.pointed (some length))
  | openArray {element : QualType} {memory : Representation} :
      Represented index run element.shape memory →
      Represented index run (.openArray element) (.array memory.pointed none)
  | objcClass {id decl classifier} :
      index.objcClasses.get? id = some decl → run.Names (.objcClass decl) classifier →
      Represented index run (.objcPointer id)
        (.object (TargetType.ofClassifier classifier).nullable)
  | objcProtocol {id decl classifier} :
      index.objcClasses.get? id = none → index.objcProtocols.get? id = some decl →
      run.Names (.objcProtocol decl) classifier →
      Represented index run (.objcPointer id)
        (.object (TargetType.ofClassifier classifier).nullable)
  | objcAny :
      Represented index run .objcAny (.object (TargetType.primitive "Any").nullable)

section Later

variable {index : Index} {run later : Run}

/-- What a type is represented as stays so for the rest of the run. -/
theorem Represented.mono {shape : TypeShape} {representation : Representation}
    (represented : index.Represented run shape representation) (le : run ≤ later) :
    index.Represented later shape representation := by
  induction represented with
  | bool => exact .bool
  | char known => exact .char (le.config ▸ known)
  | integer known => exact .integer (le.config ▸ known)
  | float known => exact .float known
  | pointerToVoid => exact .pointerToVoid
  | pointerToFunction same _ _ arguments result => exact .pointerToFunction same arguments result
  | pointerToForward forward named => exact .pointerToForward forward (named.mono le)
  | pointer plain _ ih => exact .pointer plain ih
  | leftReference _ ih => exact .leftReference ih
  | rightReference _ ih => exact .rightReference ih
  | struct found layout named => exact .struct found layout (named.mono le)
  | nativeClass other found named => exact .nativeClass other found (named.mono le)
  | anonymousEnum found unnamed _ ih => exact .anonymousEnum found unnamed ih
  | strictEnum found isNamed named strict =>
      exact .strictEnum found isNamed (named.mono le) (le.config ▸ strict)
  | openEnum found isNamed named isOpen _ ih =>
      exact .openEnum found isNamed (named.mono le) (le.config ▸ isOpen) ih
  | seenThrough found _ through ih => exact .seenThrough found ih through
  | kept found _ keeps named ih => exact .kept found ih keeps (named.mono le)
  | array _ ih => exact .array ih
  | openArray _ ih => exact .openArray ih
  | objcClass found named => exact .objcClass found (named.mono le)
  | objcProtocol other found named => exact .objcProtocol other found (named.mono le)
  | objcAny => exact .objcAny

theorem forwardStruct?_void (index : Index) (spelling : String) (isConst : Bool) :
    index.forwardStruct? ⟨spelling, isConst, .void⟩ = none := rfl

theorem forwardStruct?_function (index : Index) (spelling : String) (isConst : Bool)
    (result : QualType) (arguments : List QualType) (variadic : Bool) :
    index.forwardStruct? ⟨spelling, isConst, .function result arguments variadic⟩ = none := rfl

/-- A run represents a type in one way only. -/
theorem Represented.unique {shape : TypeShape} {first second : Representation}
    (represented : index.Represented run shape first)
    (again : index.Represented run shape second) : first = second := by
  induction represented generalizing second with
  | bool => cases again; rfl
  | char known =>
      cases again with
      | char other => exact Option.some.inj (known.symm.trans other)
  | integer known =>
      cases again with
      | integer other => exact Option.some.inj (known.symm.trans other)
  | float known =>
      cases again with
      | float other => exact Option.some.inj (known.symm.trans other)
  | pointerToVoid =>
      cases again with
      | pointerToVoid => rfl
      | pointerToForward forward => rw [forwardStruct?_void] at forward; cases forward
      | pointer _ value => cases value
  | @pointerToFunction _ _ result arguments values value same _ _ argumentsIH resultIH =>
      cases again with
      | @pointerToFunction _ _ _ _ others other otherSame otherEach otherResult =>
          have sameValues : values = others := by
            refine List.ext_getElem (same.trans otherSame.symm) fun place here there => ?_
            have inside : place < arguments.length := same ▸ here
            exact argumentsIH place _ _ (List.getElem?_eq_getElem inside)
              (List.getElem?_eq_getElem here)
              (otherEach place _ _ (List.getElem?_eq_getElem inside)
                (List.getElem?_eq_getElem there))
          subst sameValues
          by_cases isVoid : result.shape.isVoid
          · simp [isVoid]
          · rw [Bool.not_eq_true] at isVoid
            rw [resultIH isVoid (otherResult isVoid)]
      | pointerToForward forward => rw [forwardStruct?_function] at forward; cases forward
      | pointer _ value => cases value
  | pointerToForward forward named =>
      cases again with
      | pointerToVoid => rw [forwardStruct?_void] at forward; cases forward
      | pointerToFunction => rw [forwardStruct?_function] at forward; cases forward
      | pointerToForward other otherNamed =>
          cases forward.symm.trans other
          rw [named.unique otherNamed]
      | pointer plain => cases plain.symm.trans forward
  | pointer plain memory ih =>
      cases again with
      | pointerToVoid => cases memory
      | pointerToFunction => cases memory
      | pointerToForward forward => cases plain.symm.trans forward
      | pointer _ other => rw [ih other]
  | leftReference _ ih =>
      cases again with
      | leftReference other => rw [ih other]
  | rightReference _ ih =>
      cases again with
      | rightReference other => rw [ih other]
  | struct found layout named =>
      cases again with
      | struct other otherLayout otherNamed =>
          cases found.symm.trans other
          cases layout.symm.trans otherLayout
          rw [named.unique otherNamed]
      | nativeClass missing => cases missing.symm.trans found
  | nativeClass missing found named =>
      cases again with
      | struct other => cases missing.symm.trans other
      | nativeClass _ other otherNamed =>
          cases found.symm.trans other
          rw [named.unique otherNamed]
  | anonymousEnum found unnamed _ ih =>
      cases again with
      | anonymousEnum other _ base =>
          cases found.symm.trans other
          exact ih base
      | strictEnum other isNamed | openEnum other isNamed =>
          cases found.symm.trans other
          cases unnamed.symm.trans isNamed
  | strictEnum found isNamed named strict =>
      cases again with
      | anonymousEnum other unnamed =>
          cases found.symm.trans other
          cases isNamed.symm.trans unnamed
      | strictEnum other _ otherNamed =>
          cases found.symm.trans other
          rw [named.unique otherNamed]
      | openEnum other _ _ isOpen =>
          cases found.symm.trans other
          cases isOpen.symm.trans strict
  | openEnum found isNamed named isOpen _ ih =>
      cases again with
      | anonymousEnum other unnamed =>
          cases found.symm.trans other
          cases isNamed.symm.trans unnamed
      | strictEnum other _ _ strict =>
          cases found.symm.trans other
          cases isOpen.symm.trans strict
      | openEnum other _ otherNamed _ base =>
          cases found.symm.trans other
          rw [named.unique otherNamed, ih base]
  | seenThrough found _ through ih =>
      cases again with
      | seenThrough other aliased =>
          cases found.symm.trans other
          exact ih aliased
      | kept other aliased keeps =>
          cases found.symm.trans other
          rw [ih aliased] at through
          cases through.symm.trans keeps
  | kept found _ keeps named ih =>
      cases again with
      | seenThrough other aliased through =>
          cases found.symm.trans other
          rw [ih aliased] at keeps
          cases through.symm.trans keeps
      | kept other aliased _ otherNamed =>
          cases found.symm.trans other
          rw [ih aliased, named.unique otherNamed]
  | array _ ih =>
      cases again with
      | array other => rw [ih other]
  | openArray _ ih =>
      cases again with
      | openArray other => rw [ih other]
  | objcClass found named =>
      cases again with
      | objcClass other otherNamed =>
          cases found.symm.trans other
          rw [named.unique otherNamed]
      | objcProtocol missing => cases missing.symm.trans found
  | objcProtocol missing found named =>
      cases again with
      | objcClass other => cases missing.symm.trans other
      | objcProtocol _ other otherNamed =>
          cases found.symm.trans other
          rw [named.unique otherNamed]
  | objcAny => cases again; rfl

/-- How the types of a list are represented, one after the other. -/
def RepresentedAll (index : Index) (run : Run) (types : List QualType)
    (representations : List Representation) : Prop :=
  representations.length = types.length ∧
    ∀ (place : Nat) (type : QualType) (representation : Representation),
      types[place]? = some type → representations[place]? = some representation →
      index.Represented run type.shape representation

theorem RepresentedAll.mono {types : List QualType} {representations : List Representation}
    (all : index.RepresentedAll run types representations) (le : run ≤ later) :
    index.RepresentedAll later types representations :=
  ⟨all.1, fun place type representation atType atRepresentation =>
    (all.2 place type representation atType atRepresentation).mono le⟩

end Later

variable (index : Index)

theorem finds_representRecord (id : DeclId) :
    (index.representRecord id).Finds fun run => index.Represented run (.record id) := by
  unfold representRecord
  split
  · rename_i decl found
    refine .bind (.ofOption _) (fun known _ => known) fun layout => ?_
    refine .bind (index.finds_named _) Run.Names.mono fun classifier => .pure ?_
    exact fun run named hasLayout => .struct found hasLayout named
  · rename_i other
    refine .bind (.ofOption _) (fun known _ => known) fun decl => ?_
    refine .bind (index.finds_named _) Run.Names.mono fun classifier => .pure ?_
    exact fun run named found => .nativeClass other found named

section Follow

variable {follow : QualType → Represents Representation}
  (follows : ∀ type, (follow type).Finds fun run => index.Represented run type.shape)

include follows

theorem finds_representEnumeration (id : DeclId) :
    (index.representEnumeration follow id).Finds fun run =>
      index.Represented run (.enumeration id) := by
  unfold representEnumeration
  refine .bind (.ofOption _) (fun known _ => known) fun decl => ?_
  split
  · rename_i unnamed
    exact (follows _).mono fun run base represented found =>
      .anonymousEnum found unnamed represented
  · rename_i isNamed
    rw [Bool.not_eq_true] at isNamed
    refine .bind (index.finds_named _) Run.Names.mono fun classifier => ?_
    refine .config (fun run later same => by rw [same]) fun asked => ?_
    split
    · rename_i strict
      refine .pure fun run same named found => ?_
      exact .strictEnum found isNamed named (same ▸ strict)
    · rename_i isOpen
      rw [Bool.not_eq_true] at isOpen
      refine .bind (follows _) Represented.mono fun base => .pure ?_
      intro run represented same named found
      exact .openEnum found isNamed named (same ▸ isOpen) represented

theorem finds_representTypedef (id : DeclId) :
    (index.representTypedef follow id).Finds fun run => index.Represented run (.named id) := by
  unfold representTypedef
  refine .bind (.ofOption _) (fun known _ => known) fun decl => ?_
  refine .bind (follows _) Represented.mono fun aliased => ?_
  split
  · rename_i keeps
    refine .bind (index.finds_named _) Run.Names.mono fun classifier => .pure ?_
    exact fun run named represented found => .kept found represented keeps named
  · rename_i through
    rw [Bool.not_eq_true] at through
    exact .pure fun run represented found => .seenThrough found represented through

end Follow

theorem finds_representObject (id : DeclId) :
    (index.representObject id).Finds fun run => index.Represented run (.objcPointer id) := by
  unfold representObject
  split
  · rename_i decl found
    refine .bind (index.finds_named _) Run.Names.mono fun classifier => .pure ?_
    exact fun run named => .objcClass found named
  · rename_i other
    refine .bind (.ofOption _) (fun known _ => known) fun decl => ?_
    refine .bind (index.finds_named _) Run.Names.mono fun classifier => .pure ?_
    exact fun run named found => .objcProtocol other found named

/-- A pointer to something of which a value can be asked. -/
theorem representShape_pointer (follow : QualType → Represents Representation) {spelling : String}
    {isConst : Bool} {shape : TypeShape} (notVoid : shape ≠ .void)
    (notFunction : ∀ spelling isConst result arguments variadic,
      shape ≠ .function ⟨spelling, isConst, result⟩ arguments variadic) :
    index.representShape follow (.pointer ⟨spelling, isConst, shape⟩) =
      match index.forwardStruct? ⟨spelling, isConst, shape⟩ with
      | some decl => do
          let classifier ← index.named (.struct decl)
          return .pointer (some (.ofClassifier classifier))
      | none => do
          let memory ← index.representShape follow shape
          return .pointer (some memory.pointed) := by
  rewrite [representShape]
  · rfl
  · exact notVoid
  · exact notFunction

/-- A pointer to a struct that is not defined. -/
theorem representShape_forward (follow : QualType → Represents Representation) {type : QualType}
    {decl : StructDecl} (forward : index.forwardStruct? type = some decl) :
    index.representShape follow (.pointer type) = do
      let classifier ← index.named (.struct decl)
      return .pointer (some (.ofClassifier classifier)) := by
  obtain ⟨spelling, isConst, shape⟩ := type
  have notVoid : shape ≠ .void := by
    rintro rfl
    rw [forwardStruct?_void] at forward
    cases forward
  have notFunction : ∀ spelling isConst result arguments variadic,
      shape ≠ .function ⟨spelling, isConst, result⟩ arguments variadic := by
    rintro _ _ _ _ _ rfl
    rw [forwardStruct?_function] at forward
    cases forward
  rw [representShape_pointer index follow notVoid notFunction, forward]

/-- A pointer to a function with a fixed number of arguments. -/
theorem representShape_callback (follow : QualType → Represents Representation)
    {spelling : String} {isConst : Bool} {result : QualType} {arguments : List QualType} :
    index.representShape follow (.pointer ⟨spelling, isConst, .function result arguments false⟩) =
      (do
        let parameters ← index.targetsOf follow arguments
        if result.shape.isVoid then pure (.pointer (some (functionMemory parameters .unit)))
        else
          let value ← index.representShape follow result.shape
          pure (.pointer (some (functionMemory parameters value.target)))) := by
  obtain ⟨_, _, shape⟩ := result
  rw [representShape]
  cases shape.isVoid <;> simp

section Shapes

variable {index} {follow : QualType → Represents Representation}

private theorem stable_targets {run later : Run} {arguments : List QualType}
    {targets : List TargetType}
    (represented : ∃ values : List Representation, targets = values.map (·.target) ∧
      index.RepresentedAll run arguments values) (le : run ≤ later) :
    ∃ values : List Representation, targets = values.map (·.target) ∧
      index.RepresentedAll later arguments values := by
  obtain ⟨values, same, all⟩ := represented
  exact ⟨values, same, all.mono le⟩

theorem finds_callback {spelling : String} {isConst variadic : Bool} {result : QualType}
    {arguments : List QualType}
    (values : (index.targetsOf follow arguments).Finds fun run targets =>
      ∃ values : List Representation, targets = values.map (·.target) ∧
        index.RepresentedAll run arguments values)
    (value : (index.representShape follow result.shape).Finds fun run =>
      index.Represented run result.shape) :
    (index.representShape follow
      (.pointer ⟨spelling, isConst, .function result arguments variadic⟩)).Finds fun run =>
        index.Represented run
          (.pointer ⟨spelling, isConst, .function result arguments variadic⟩) := by
  cases variadic with
  | true =>
      obtain ⟨_, _, shape⟩ := result
      exact .failure
  | false =>
      rw [representShape_callback]
      refine .bind values stable_targets fun targets => ?_
      split
      · rename_i isVoid
        refine .pure ?_
        rintro run ⟨values, rfl, same, each⟩
        have represented := @Represented.pointerToFunction index run spelling isConst result
          arguments values default same each fun notVoid =>
            absurd isVoid (Bool.eq_false_iff.mp notVoid)
        rwa [if_pos isVoid] at represented
      · rename_i notVoid
        refine .bind value Represented.mono fun found => .pure ?_
        rintro run represented ⟨values, rfl, same, each⟩
        have pointed := @Represented.pointerToFunction index run spelling isConst result
          arguments values found same each fun _ => represented
        rwa [if_neg notVoid] at pointed

/-- The mapper finds representations if what it follows names to does. -/
theorem finds_representShapes
    (follows : ∀ type, (follow type).Finds fun run => index.Represented run type.shape) :
    (∀ shape, (index.representShape follow shape).Finds fun run => index.Represented run shape) ∧
      ∀ arguments, (index.targetsOf follow arguments).Finds fun run targets =>
        ∃ values : List Representation, targets = values.map (·.target) ∧
          index.RepresentedAll run arguments values := by
  apply Index.representShape.mutual_induct index follow
    (fun shape => (index.representShape follow shape).Finds fun run => index.Represented run shape)
    (fun arguments => (index.targetsOf follow arguments).Finds fun run targets =>
        ∃ values : List Representation, targets = values.map (·.target) ∧
          index.RepresentedAll run arguments values)
  case case1 => exact .failure
  case case2 => exact fun _ _ _ => .failure
  case case3 => exact fun _ => .failure
  case case4 => exact .pure fun _ => .bool
  case case5 =>
    exact fun size signed => .config (fun _ _ same => by rw [same]) fun _ =>
      (Represents.Finds.ofOption _).mono fun _ _ found same => .char (same ▸ found)
  case case6 =>
    exact fun size signed => .config (fun _ _ same => by rw [same]) fun _ =>
      (Represents.Finds.ofOption _).mono fun _ _ found same => .integer (same ▸ found)
  case case7 => exact fun size => (Represents.Finds.ofOption _).mono fun _ _ => .float
  case case8 => exact fun _ _ => .pure fun _ => .pointerToVoid
  case case9 => exact fun _ _ _ _ _ _ values value => finds_callback values value
  case case10 => exact fun _ _ _ _ _ _ _ _ values value => finds_callback values value
  case case11 =>
    intro spelling isConst shape notVoid notFunction decl forward
    rw [representShape_pointer index follow notVoid notFunction, forward]
    exact .bind (index.finds_named _) Run.Names.mono fun _ => .pure fun _ named =>
      .pointerToForward forward named
  case case12 =>
    intro spelling isConst shape notVoid notFunction plain memory
    rw [representShape_pointer index follow notVoid notFunction, plain]
    exact .bind memory Represented.mono fun _ => .pure fun _ represented =>
      .pointer plain represented
  case case13 =>
    exact fun _ _ _ memory => .bind memory Represented.mono fun _ => .pure fun _ represented =>
      .leftReference represented
  case case14 =>
    exact fun _ _ _ memory => .bind memory Represented.mono fun _ => .pure fun _ represented =>
      .rightReference represented
  case case15 => exact index.finds_representRecord
  case case16 => exact index.finds_representEnumeration follows
  case case17 => exact index.finds_representTypedef follows
  case case18 =>
    exact fun _ _ _ _ memory => .bind memory Represented.mono fun _ => .pure fun _ represented =>
      .array represented
  case case19 =>
    exact fun _ _ _ memory => .bind memory Represented.mono fun _ => .pure fun _ represented =>
      .openArray represented
  case case20 => exact index.finds_representObject
  case case21 => exact .pure fun _ => .objcAny
  case case22 => exact .pure fun _ => ⟨[], rfl, rfl, nofun⟩
  case case23 =>
    intro _ _ shape rest first others
    unfold targetsOf
    refine .bind first Represented.mono fun value => ?_
    refine .bind others stable_targets fun targets => .pure ?_
    rintro run ⟨values, rfl, same, each⟩ represented
    refine ⟨value :: values, rfl, congrArg (· + 1) same, ?_⟩
    intro place argument found atArgument atValue
    cases place with
    | zero =>
        cases atArgument
        cases atValue
        exact represented
    | succ place => exact each place argument found atArgument atValue

end Shapes

theorem finds_representWithin (rounds : Nat) (type : QualType) :
    (index.representWithin rounds type).Finds fun run => index.Represented run type.shape := by
  induction rounds generalizing type with
  | zero => exact (finds_representShapes fun _ => .failure).1 type.shape
  | succ rounds ih => exact (finds_representShapes ih).1 type.shape

/-- What the mapper answers is a representation in the names of the run. -/
theorem finds_represent (type : QualType) :
    (index.represent type).Finds fun run => index.Represented run type.shape :=
  index.finds_representWithin _ type

variable {index}

/-- Asked in `run`, the mapper has an answer, and nothing new to decide. -/
def Answers (index : Index) (run : Run) (type : QualType) (representation : Representation) :
    Prop :=
  (index.represent type).run run = (some representation, run)

theorem Answers.mono {run later : Run} {type : QualType} {representation : Representation}
    (answers : index.Answers run type representation) (le : run ≤ later) :
    index.Answers later type representation := by
  have again := (index.finds_represent type).again run later
  rw [answers] at again
  exact again le

theorem Answers.represented {run : Run} {type : QualType} {representation : Representation}
    (answers : index.Answers run type representation) :
    index.Represented run type.shape representation := by
  have sound := (index.finds_represent type).sound run representation
  rw [answers] at sound
  exact sound rfl

theorem le_of_represent {run after : Run} {type : QualType} {found? : Option Representation}
    (ends : (index.represent type).run run = (found?, after)) : run ≤ after := by
  have grows : run ≤ ((index.represent type).run run).2 := (index.finds_represent type).grows run
  rwa [ends] at grows

/-- What was answered once is answered from then on. -/
theorem answers_of_represent {run after : Run} {type : QualType} {representation : Representation}
    (ends : (index.represent type).run run = (some representation, after)) :
    index.Answers after type representation := by
  have again := (index.finds_represent type).again run after
  rw [ends] at again
  exact again le_rfl

end Index

end NativeBindings
