import NativeBindings.Proofs.Mapping.Answered
import NativeBindings.Proofs.Mapping.Transparent

namespace NativeBindings

/-! # Structs without a definition

There are no values of a struct that is only declared.  Where a pointer leads to one, the
mapper says so without asking for a value, typedefs looked through; a reference asks.  To
give the struct a definition changes the representation of nothing, and gives one to the
types that ask for its values.
-/

theorem Config.isStrict_of_isNone (config : Config) {decl : EnumDecl}
    (unnamed : decl.name.isNone) : config.isStrict decl = false := by
  rw [Config.isStrict, Option.isNone_iff_eq_none.mp unnamed]

namespace Index

/-- A record is used as what it is. -/
theorem keepsName_record (index : Index) (typedef : TypedefDecl) (classifier : Classifier)
    (info : TypeInfo) : index.keepsName typedef (.record classifier info) = false := by
  simp [keepsName, Representation.record]

/-- The index in which a struct has a layout. -/
def define (index : Index) (decl : StructDecl) (layout : RecordLayout) : Index :=
  index.insert (.struct { decl with layout := some layout })

/-- A pointer to a struct, or to a typedef of it. -/
def PointsTo (index : Index) (struct : DeclId) (shape : TypeShape) : Prop :=
  ∃ pointee, shape = .pointer pointee ∧ (index.canonicalType pointee).shape = .record struct

/-- A struct occurs in a type, but not right behind a pointer.  What a closed enumeration is
made of does not matter. -/
inductive NeedsDefinition (index : Index) (config : Config) (struct : DeclId) : TypeShape → Prop
  | value : NeedsDefinition index config struct (.record struct)
  | within {part whole : TypeShape} : index.PartOf part whole → ¬index.PointsTo struct whole →
      NeedsDefinition index config struct part → NeedsDefinition index config struct whole
  | base {id} {decl : EnumDecl} : index.enums.get? id = some decl → config.isStrict decl = false →
      NeedsDefinition index config struct decl.base.shape →
      NeedsDefinition index config struct (.enumeration id)

variable {index : Index} {config : Config} {struct : DeclId}

theorem not_needsDefinition {shape : TypeShape} (noParts : ∀ part, ¬index.PartOf part shape)
    (notValue : shape ≠ .record struct) (notEnum : ∀ id, shape ≠ .enumeration id) :
    ¬index.NeedsDefinition config struct shape := by
  intro needs
  cases needs with
  | value => exact notValue rfl
  | within inside => exact noParts _ inside
  | base => exact notEnum _ rfl

theorem not_needsDefinition_void : ¬index.NeedsDefinition config struct .void :=
  not_needsDefinition (fun _ inside => by cases inside) nofun nofun

theorem needsDefinition_record {id : DeclId} :
    index.NeedsDefinition config struct (.record id) ↔ id = struct := by
  refine ⟨fun needs => ?_, fun same => same ▸ .value⟩
  cases needs with
  | value => rfl
  | within inside => cases inside

theorem needsDefinition_enumeration {id : DeclId} {decl : EnumDecl}
    (found : index.enums.get? id = some decl) :
    index.NeedsDefinition config struct (.enumeration id) ↔
      config.isStrict decl = false ∧ index.NeedsDefinition config struct decl.base.shape := by
  refine ⟨fun needs => ?_, fun ⟨isOpen, needs⟩ => .base found isOpen needs⟩
  cases needs with
  | within inside => cases inside
  | base again isOpen needs =>
      cases found.symm.trans again
      exact ⟨isOpen, needs⟩

theorem NeedsDefinition.aliased {id : DeclId} {decl : TypedefDecl}
    (found : index.typedefs.get? id = some decl)
    (needs : index.NeedsDefinition config struct decl.aliased.shape) :
    index.NeedsDefinition config struct (.named id) :=
  .within (.aliased found) (by rintro ⟨_, ⟨⟩, _⟩) needs

theorem needsDefinition_named {id : DeclId} {decl : TypedefDecl}
    (found : index.typedefs.get? id = some decl) :
    index.NeedsDefinition config struct (.named id) ↔
      index.NeedsDefinition config struct decl.aliased.shape := by
  refine ⟨fun needs => ?_, .aliased found⟩
  cases needs with
  | within inside _ needs =>
      cases inside with
      | aliased again =>
          cases found.symm.trans again
          exact needs

theorem needsDefinition_pointer {pointee : QualType} :
    index.NeedsDefinition config struct (.pointer pointee) ↔
      (index.canonicalType pointee).shape ≠ .record struct ∧
        index.NeedsDefinition config struct pointee.shape := by
  constructor
  · intro needs
    cases needs with
    | within inside elsewhere needs =>
        cases inside
        exact ⟨fun isRecord => elsewhere ⟨pointee, rfl, isRecord⟩, needs⟩
  · rintro ⟨elsewhere, needs⟩
    refine .within .pointee ?_ needs
    rintro ⟨_, ⟨⟩, isRecord⟩
    exact elsewhere isRecord

theorem needsDefinition_memory {shape : TypeShape} {type : QualType}
    (memory : shape.memory? = some type) :
    index.NeedsDefinition config struct shape ↔
      index.NeedsDefinition config struct type.shape := by
  refine ⟨fun needs => ?_, .within ((partOf_memory memory).mpr rfl) ?_⟩
  · cases needs with
    | value | base => cases memory
    | within inside _ needs =>
        rw [partOf_memory memory] at inside
        exact inside ▸ needs
  · rintro ⟨_, rfl, _⟩
    cases memory

theorem needsDefinition_function {result : QualType} {arguments : List QualType}
    {variadic : Bool} :
    index.NeedsDefinition config struct (.function result arguments variadic) ↔
      index.NeedsDefinition config struct result.shape ∨
        ∃ argument ∈ arguments, index.NeedsDefinition config struct argument.shape := by
  have elsewhere : ¬index.PointsTo struct (.function result arguments variadic) := by
    rintro ⟨_, ⟨⟩, _⟩
  constructor
  · intro needs
    cases needs with
    | within inside _ needs =>
        cases inside with
        | result => exact .inl needs
        | argument member => exact .inr ⟨_, member, needs⟩
  · rintro (needs | ⟨argument, member, needs⟩)
    · exact .within .result elsewhere needs
    · exact .within (.argument member) elsewhere needs

/-- Typedefs need what they stand for. -/
theorem Unfolds.needsDefinition {type last : QualType} {names : List DeclId}
    (unfolds : index.Unfolds type names last) :
    index.NeedsDefinition config struct type.shape ↔
      index.NeedsDefinition config struct last.shape := by
  induction unfolds with
  | done => rfl
  | step isNamed found _ ih => rw [isNamed, needsDefinition_named found, ih]

theorem needsDefinition_canonicalType (acyclic : index.Acyclic) (type : QualType) :
    index.NeedsDefinition config struct type.shape ↔
      index.NeedsDefinition config struct (index.canonicalType type).shape := by
  obtain ⟨names, last, unfolds⟩ := exists_unfolds acyclic type
  rw [unfolds.canonicalType, unfolds.needsDefinition]

section Define

variable {decl : StructDecl} {layout : RecordLayout}

theorem structs_define (id : DeclId) :
    (index.define decl layout).structs.get? id =
      if decl.id = id then some { decl with layout := some layout } else index.structs.get? id :=
  SlotMap.get?_insert ..

theorem followTypedefs_define (seen : List DeclId) (fuel : Nat) (type : QualType) :
    (index.define decl layout).followTypedefs seen fuel type =
      index.followTypedefs seen fuel type := by
  induction fuel generalizing seen type with
  | zero => rfl
  | succ fuel ih =>
      rw [followTypedefs, followTypedefs]
      simp only [ih]
      rfl

theorem canonicalType_define (type : QualType) :
    (index.define decl layout).canonicalType type = index.canonicalType type :=
  followTypedefs_define ..

theorem acyclic_define (acyclic : index.Acyclic) : (index.define decl layout).Acyclic := acyclic

theorem structs_define_self : (index.define decl layout).structs.get? decl.id =
    some { decl with layout := some layout } := by
  rw [structs_define, if_pos rfl]

theorem forwardStruct?_define {type : QualType}
    (elsewhere : (index.canonicalType type).shape ≠ .record decl.id) :
    (index.define decl layout).forwardStruct? type = index.forwardStruct? type := by
  unfold forwardStruct?
  rw [canonicalType_define]
  split
  · rename_i id isRecord
    have other : decl.id ≠ id := fun same => elsewhere (same ▸ isRecord)
    rw [structs_define, if_neg other]
  · rfl

theorem forwardStruct?_define_self {type : QualType}
    (isRecord : (index.canonicalType type).shape = .record decl.id) :
    (index.define decl layout).forwardStruct? type = none := by
  simp [forwardStruct?, canonicalType_define, isRecord, structs_define_self, StructDecl.isForward]

theorem tagName?_define (found : index.structs.get? decl.id = some decl) (shape : TypeShape) :
    (index.define decl layout).tagName? shape = index.tagName? shape := by
  cases shape with
  | record id =>
      simp only [tagName?]
      rw [structs_define]
      split
      · rename_i same
        rw [← same, found]
        rfl
      · rfl
  | _ => rfl

theorem keepsName_define (found : index.structs.get? decl.id = some decl) (typedef : TypedefDecl)
    (aliased : Representation) :
    (index.define decl layout).keepsName typedef aliased = index.keepsName typedef aliased := by
  rw [keepsName, namesItself, tagName?_define found, keepsName, namesItself]

/-- Behind typedefs, a struct with a definition is represented as itself. -/
theorem Unfolds.represented_define {run : Run} {type last : QualType} {names : List DeclId}
    (unfolds : index.Unfolds type names last) (isRecord : last.shape = .record decl.id)
    {representation : Representation} :
    (index.define decl layout).Represented run type.shape representation ↔
      ∃ classifier, run.Names (.struct decl) classifier ∧
        representation = .record classifier (.struct layout.size layout.align) := by
  induction unfolds generalizing representation with
  | done =>
      rw [isRecord]
      constructor
      · intro represented
        cases represented with
        | struct known hasLayout named =>
            cases structs_define_self.symm.trans known
            cases hasLayout
            exact ⟨_, named, rfl⟩
        | nativeClass missing => cases structs_define_self.symm.trans missing
      · rintro ⟨classifier, named, rfl⟩
        exact .struct structs_define_self rfl named
  | step isNamed found _ ih =>
      rw [isNamed]
      constructor
      · intro represented
        cases represented with
        | seenThrough again aliased =>
            cases found.symm.trans again
            exact (ih isRecord).mp aliased
        | kept again aliased keeps =>
            cases found.symm.trans again
            obtain ⟨classifier, -, rfl⟩ := (ih isRecord).mp aliased
            rw [keepsName_record] at keeps
            cases keeps
      · rintro ⟨classifier, named, rfl⟩
        exact .seenThrough found ((ih isRecord).mpr ⟨classifier, named, rfl⟩)
          (keepsName_record ..)

end Define

section Represented

variable {run : Run} {decl : StructDecl} {layout : RecordLayout}

/-- A pointer to a struct that is not defined needs no other one's definition, and not its
own. -/
theorem not_needsDefinition_forward (acyclic : index.Acyclic) {pointee : QualType}
    {other : StructDecl} (forward : index.forwardStruct? pointee = some other) :
    ¬index.NeedsDefinition config struct (.pointer pointee) := by
  rw [needsDefinition_pointer, needsDefinition_canonicalType acyclic]
  rintro ⟨elsewhere, needs⟩
  unfold forwardStruct? at forward
  split at forward
  · rename_i id isRecord
    rw [isRecord, needsDefinition_record] at needs
    exact elsewhere (needs ▸ isRecord)
  · cases forward

variable (found : index.structs.get? decl.id = some decl) (isForward : decl.isForward)

include found isForward

theorem forwardStruct?_self {pointee : QualType}
    (isRecord : (index.canonicalType pointee).shape = .record decl.id) :
    index.forwardStruct? pointee = some decl := by
  simp [forwardStruct?, isRecord, found, isForward]

variable (acyclic : index.Acyclic)

include acyclic

/-- What is represented without a definition does not need it. -/
theorem Represented.not_needsDefinition {shape : TypeShape} {representation : Representation}
    (represented : index.Represented run shape representation) :
    ¬index.NeedsDefinition run.config decl.id shape := by
  induction represented with
  | bool | char | integer | float | objcClass | objcProtocol | objcAny =>
      exact Index.not_needsDefinition (fun _ inside => by cases inside) nofun nofun
  | pointerToVoid =>
      rw [needsDefinition_pointer]
      exact fun needs => not_needsDefinition_void needs.2
  | @pointerToFunction _ _ result arguments values value same _ _ inputs output =>
      rw [needsDefinition_pointer, needsDefinition_function]
      rintro ⟨-, needs | ⟨argument, member, needs⟩⟩
      · cases isVoid : result.shape.isVoid with
        | false => exact output isVoid needs
        | true =>
            rw [TypeShape.isVoid_iff.mp isVoid] at needs
            exact not_needsDefinition_void needs
      · obtain ⟨place, inside, rfl⟩ := List.mem_iff_getElem.mp member
        exact inputs place _ _ (List.getElem?_eq_getElem inside)
          (List.getElem?_eq_getElem (same ▸ inside)) needs
  | pointerToForward forward => exact not_needsDefinition_forward acyclic forward
  | pointer _ _ ih =>
      rw [needsDefinition_pointer]
      exact fun needs => ih needs.2
  | leftReference _ ih | rightReference _ ih | array _ ih | openArray _ ih =>
      exact (needsDefinition_memory rfl).not.mpr ih
  | struct known hasLayout =>
      rw [needsDefinition_record]
      rintro rfl
      cases found.symm.trans known
      simp [StructDecl.isForward, hasLayout] at isForward
  | nativeClass missing =>
      rw [needsDefinition_record]
      rintro rfl
      cases found.symm.trans missing
  | anonymousEnum known _ _ ih | openEnum known _ _ _ _ ih =>
      rw [needsDefinition_enumeration known]
      exact fun needs => ih needs.2
  | strictEnum known _ _ strict =>
      rw [needsDefinition_enumeration known, strict]
      exact fun needs => nomatch needs.1
  | seenThrough known _ _ ih | kept known _ _ _ ih =>
      rw [needsDefinition_named known]
      exact ih

/-- What is represented without a definition is represented so with it. -/
theorem Represented.define {shape : TypeShape} {representation : Representation}
    (represented : index.Represented run shape representation) :
    (index.define decl layout).Represented run shape representation := by
  induction represented with
  | bool => exact .bool
  | char known => exact .char known
  | integer known => exact .integer known
  | float known => exact .float known
  | pointerToVoid => exact .pointerToVoid
  | pointerToFunction same _ _ inputs output => exact .pointerToFunction same inputs output
  | @pointerToForward pointee _ _ forward named =>
      by_cases isRecord : (index.canonicalType pointee).shape = .record decl.id
      · -- Now the pointer is one to a value of the struct, behind the same typedefs.
        cases (forwardStruct?_self found isForward isRecord).symm.trans forward
        obtain ⟨names, last, unfolds⟩ := exists_unfolds acyclic pointee
        have value : (index.define decl layout).Represented run pointee.shape _ :=
          (unfolds.represented_define (unfolds.canonicalType ▸ isRecord)).mpr ⟨_, named, rfl⟩
        exact .pointer (forwardStruct?_define_self isRecord) value
      · exact .pointerToForward ((forwardStruct?_define isRecord).trans forward) named
  | pointer plain _ ih =>
      refine .pointer ((forwardStruct?_define fun isRecord => ?_).trans plain) ih
      cases plain.symm.trans (forwardStruct?_self found isForward isRecord)
  | leftReference _ ih => exact .leftReference ih
  | rightReference _ ih => exact .rightReference ih
  | @struct id _ _ _ known hasLayout named =>
      have other : decl.id ≠ id := by
        rintro rfl
        cases found.symm.trans known
        simp [StructDecl.isForward, hasLayout] at isForward
      exact .struct ((structs_define id).trans ((if_neg other).trans known)) hasLayout named
  | @nativeClass id _ _ missing known named =>
      have other : decl.id ≠ id := by
        rintro rfl
        cases found.symm.trans missing
      exact .nativeClass ((structs_define id).trans ((if_neg other).trans missing)) known named
  | anonymousEnum known unnamed _ ih => exact .anonymousEnum known unnamed ih
  | strictEnum known isNamed named strict => exact .strictEnum known isNamed named strict
  | openEnum known isNamed named isOpen _ ih => exact .openEnum known isNamed named isOpen ih
  | seenThrough known _ through ih =>
      exact .seenThrough known ih ((keepsName_define found ..).trans through)
  | kept known _ keeps named ih =>
      exact .kept known ih ((keepsName_define found ..).trans keeps) named
  | array _ ih => exact .array ih
  | openArray _ ih => exact .openArray ih
  | objcClass known named => exact .objcClass known named
  | objcProtocol missing known named => exact .objcProtocol missing known named
  | objcAny => exact .objcAny

/-- What is represented with a definition, and does not need it, is represented so without
it. -/
theorem Represented.undefine {shape : TypeShape} {representation : Representation}
    (represented : (index.define decl layout).Represented run shape representation)
    (unneeded : ¬index.NeedsDefinition run.config decl.id shape) :
    index.Represented run shape representation := by
  induction represented with
  | bool => exact .bool
  | char known => exact .char known
  | integer known => exact .integer known
  | float known => exact .float known
  | pointerToVoid => exact .pointerToVoid
  | pointerToFunction same _ _ inputs output =>
      rw [needsDefinition_pointer, needsDefinition_function] at unneeded
      have none (needs : _ ∨ _) := unneeded ⟨nofun, needs⟩
      refine .pointerToFunction same (fun place argument value atArgument atValue => ?_)
        fun notVoid => output notVoid fun needs => none (.inl needs)
      exact inputs place argument value atArgument atValue fun needs =>
        none (.inr ⟨argument, List.mem_of_getElem? atArgument, needs⟩)
  | @pointerToForward pointee _ _ forward named =>
      refine .pointerToForward ((forwardStruct?_define fun isRecord => ?_).symm.trans forward) named
      cases (forwardStruct?_define_self isRecord).symm.trans forward
  | @pointer pointee memory plain value ih =>
      rw [needsDefinition_pointer] at unneeded
      by_cases isRecord : (index.canonicalType pointee).shape = .record decl.id
      · obtain ⟨names, last, unfolds⟩ := exists_unfolds acyclic pointee
        obtain ⟨classifier, named, rfl⟩ :=
          (unfolds.represented_define (unfolds.canonicalType ▸ isRecord)).mp value
        exact .pointerToForward (forwardStruct?_self found isForward isRecord) named
      · exact .pointer ((forwardStruct?_define isRecord).symm.trans plain)
          (ih fun needs => unneeded ⟨isRecord, needs⟩)
  | leftReference _ ih =>
      exact .leftReference (ih ((needsDefinition_memory rfl).not.mp unneeded))
  | rightReference _ ih =>
      exact .rightReference (ih ((needsDefinition_memory rfl).not.mp unneeded))
  | @struct id _ _ _ known hasLayout named =>
      have other : decl.id ≠ id := fun same => unneeded (needsDefinition_record.mpr same.symm)
      exact .struct ((if_neg other).symm.trans ((structs_define id).symm.trans known)) hasLayout
        named
  | @nativeClass id _ _ missing known named =>
      have other : decl.id ≠ id := fun same => unneeded (needsDefinition_record.mpr same.symm)
      exact .nativeClass ((if_neg other).symm.trans ((structs_define id).symm.trans missing)) known
        named
  | anonymousEnum known unnamed _ ih =>
      exact .anonymousEnum known unnamed
        (ih fun needs => unneeded (.base known (run.config.isStrict_of_isNone unnamed) needs))
  | strictEnum known isNamed named strict => exact .strictEnum known isNamed named strict
  | openEnum known isNamed named isOpen _ ih =>
      exact .openEnum known isNamed named isOpen
        (ih fun needs => unneeded (.base known isOpen needs))
  | seenThrough known _ through ih =>
      exact .seenThrough known (ih fun needs => unneeded (.aliased known needs))
        ((keepsName_define found ..).symm.trans through)
  | kept known _ keeps named ih =>
      exact .kept known (ih fun needs => unneeded (.aliased known needs))
        ((keepsName_define found ..).symm.trans keeps) named
  | array _ ih => exact .array (ih ((needsDefinition_memory rfl).not.mp unneeded))
  | openArray _ ih => exact .openArray (ih ((needsDefinition_memory rfl).not.mp unneeded))
  | objcClass known named => exact .objcClass known named
  | objcProtocol missing known named => exact .objcProtocol missing known named
  | objcAny => exact .objcAny

end Represented

section Mapper

variable {run : Run} {decl : StructDecl}

/-- Has the mapper an answer, then there is a run alike in which that answer stands. -/
theorem Representable.represented (names : index.NamesTypedefs run) {shape : TypeShape}
    (representable : index.Representable run shape) :
    ∃ after representation, run.Alike after ∧ index.Represented after shape representation := by
  obtain ⟨representation, found⟩ := Option.isSome_iff_exists.mp representable
  have ends : (index.represent ⟨"", false, shape⟩).run run = (some representation, _) :=
    Prod.ext found rfl
  exact ⟨_, representation, (settles_represent names _).keeps run (.refl run),
    (answers_of_represent ends).represented⟩

theorem Represented.representable (acyclic : index.Acyclic) (names : index.NamesTypedefs run)
    {after : Run} (alike : run.Alike after) {shape : TypeShape} {representation : Representation}
    (represented : index.Represented after shape representation) :
    index.Representable run shape := by
  have answers : index.Answers after ⟨"", false, shape⟩ representation :=
    (answers_iff acyclic).mpr represented
  refine ((settles_represent names ⟨"", false, shape⟩).iff after alike).mp ?_
  rw [answers]
  rfl

/-- A type is represented without the definition of a struct exactly if it is represented
with it and does not need it. -/
theorem represented_iff_defined (acyclic : index.Acyclic) (names : index.NamesTypedefs run)
    (found : index.structs.get? decl.id = some decl) (isForward : decl.isForward)
    (layout : RecordLayout) (type : QualType) :
    ((index.represent type).run run).1.isSome ↔
      (((index.define decl layout).represent type).run run).1.isSome ∧
        ¬index.NeedsDefinition run.config decl.id type.shape := by
  have namesDefined : (index.define decl layout).NamesTypedefs run := names
  rw [represented_iff, represented_iff]
  constructor
  · intro representable
    obtain ⟨after, representation, alike, represented⟩ := representable.represented names
    have unneeded := represented.not_needsDefinition found isForward acyclic
    rw [alike.config] at unneeded
    exact ⟨(represented.define found isForward acyclic).representable (acyclic_define acyclic)
      namesDefined alike, unneeded⟩
  · rintro ⟨representable, unneeded⟩
    obtain ⟨after, representation, alike, represented⟩ := representable.represented namesDefined
    rw [← alike.config] at unneeded
    exact (represented.undefine found isForward acyclic unneeded).representable acyclic names alike

end Mapper

def device : StructDecl := { id := ⟨"device"⟩, name := some "Device" }

/-- A struct that is only declared, and a typedef of it. -/
def devices : Index where
  structs := .ofList [device]
  typedefs := .ofList [⟨⟨"device_t"⟩, "DeviceT", .record "struct Device" device.id⟩]

theorem acyclic_devices : devices.Acyclic := by
  apply acyclic_of_decreasing devices fun _ => 0
  · decide
  · decide

theorem represented_iff_defined_devices :
    let run := Run.start {}
    let layout : RecordLayout := { size := 4, align := 4 }
    let handle : QualType := ⟨"DeviceT", false, .named ⟨"device_t"⟩⟩
    (devices.Acyclic ∧ devices.NamesTypedefs run ∧
        devices.structs.get? device.id = some device ∧ device.isForward) ∧
      ((devices.represent (.pointerTo handle)).run run).1.isSome ∧
      (((devices.define device layout).represent (.referenceTo handle)).run run).1.isSome ∧
        ¬((devices.represent (.referenceTo handle)).run run).1.isSome := by
  intro run layout handle
  have names : devices.NamesTypedefs run := devices.namesTypedefs_start {}
  have law := @represented_iff_defined devices run device acyclic_devices names rfl rfl layout
  have unneeded : ¬devices.NeedsDefinition run.config device.id (QualType.pointerTo handle).shape :=
    fun needs => (needsDefinition_pointer.mp needs).1 rfl
  have needed : devices.NeedsDefinition run.config device.id (QualType.referenceTo handle).shape :=
    (needsDefinition_memory rfl).mpr (.aliased rfl .value)
  refine ⟨⟨acyclic_devices, names, rfl, rfl⟩, ?_, by decide +kernel, ?_⟩
  · exact (law (.pointerTo handle)).mpr ⟨by decide +kernel, unneeded⟩
  · exact fun found => ((law (.referenceTo handle)).mp found).2 needed

end Index

end NativeBindings
