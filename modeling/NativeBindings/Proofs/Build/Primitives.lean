import NativeBindings.Proofs.Build.Constants
import NativeBindings.Proofs.Build.Naming
import NativeBindings.Proofs.Mapping.Info
import NativeBindings.Proofs.Mapping.Shape
import NativeBindings.Proofs.Mapping.Stripped
import NativeBindings.Proofs.Mapping.Undefined

namespace NativeBindings

/-! # Literals and primitives

Two parts of the program look through names.  The one walks behind typedefs and
enumerations until it meets a type that is none, and remembers what it has seen; the other
represents a type like what stands behind its name.  Without cycles both come to the same
type, so a value has a literal exactly if its type is represented as a primitive.  Only
strict enumerations are more to the mapper than what they are made of.
-/

namespace Index

variable {index : Index} {run : Run} {shape last : TypeShape}

/-- Looking through names, one comes to a type that is none. -/
inductive Below (index : Index) : TypeShape → TypeShape → Prop
  | plain {shape : TypeShape} : shape.name? = none → Below index shape shape
  | through {shape last : TypeShape} {name type} : shape.name? = some name →
      index.behind? name = some type → Below index type.shape last → Below index shape last

theorem Below.unique {other : TypeShape} (below : index.Below shape last)
    (again : index.Below shape other) : last = other := by
  induction below with
  | plain isPlain =>
      cases again with
      | plain => rfl
      | through isName => cases isPlain.symm.trans isName
  | through isName stands _ ih =>
      cases again with
      | plain isPlain => cases isPlain.symm.trans isName
      | through isOther behind rest =>
          cases isName.symm.trans isOther
          cases stands.symm.trans behind
          exact ih rest

theorem Below.name?_eq_none (below : index.Below shape last) : last.name? = none := by
  induction below with
  | plain isPlain => exact isPlain
  | through _ _ _ ih => exact ih

theorem below_of_stripNames {seen : List DeclId} {fuel : Nat}
    (strips : index.stripNames seen fuel shape = some last) : index.Below shape last := by
  induction fuel generalizing seen shape with
  | zero => cases strips
  | succ fuel ih =>
      cases isName : shape.name? with
      | none =>
          rw [stripNames_plain seen fuel isName] at strips
          cases strips
          exact .plain isName
      | some name =>
          rw [stripNames_name seen fuel isName, Option.ite_none_left_eq_some,
            Option.bind_eq_some_iff] at strips
          obtain ⟨-, type, stands, rest⟩ := strips
          exact .through isName stands (ih rest)

/-- Names of an index that share an identity are the same. -/
theorem KindsApart.typeName (apart : index.KindsApart) {name other : TypeName}
    {type behind : QualType} (stands : index.behind? name = some type)
    (otherStands : index.behind? other = some behind) (same : name.id = other.id) :
    name = other := by
  have declared {name : TypeName} {type : QualType} (stands : index.behind? name = some type) :
      ∃ decl ∈ index.declarations, decl.typeId? = some name.id ∧
        (decl.kind = .typedef ↔ name = .typedef name.id) := by
    cases name with
    | typedef id =>
        obtain ⟨decl, found, -⟩ := Option.map_eq_some_iff.mp stands
        exact ⟨_, mem_declarations_typedef found, congrArg some (DeclMap.id_of_get? found),
          iff_of_true rfl rfl⟩
    | enumeration id =>
        obtain ⟨decl, found, -⟩ := Option.map_eq_some_iff.mp stands
        exact ⟨_, mem_declarations_enumeration found, congrArg some (DeclMap.id_of_get? found),
          iff_of_false nofun nofun⟩
  obtain ⟨decl, listed, typeId, kind⟩ := declared stands
  obtain ⟨again, otherListed, otherTypeId, otherKind⟩ := declared otherStands
  cases apart.unique listed otherListed typeId (same ▸ otherTypeId)
  have kinds := kind.symm.trans otherKind
  cases name <;> cases other <;> simp_all [TypeName.id]

/-- The walk ends where names end: what it has seen leads to more names than what is left of
its way. -/
theorem Below.stripNames (acyclic : index.Acyclic) (apart : index.KindsApart)
    (below : index.Below shape last) {seen : List DeclId} {fuel : Nat}
    (passed : ∀ id ∈ seen, ∃ name type, name.id = id ∧ index.behind? name = some type ∧
      index.depth shape < index.rank name)
    (enough : index.depth shape < fuel) : index.stripNames seen fuel shape = some last := by
  induction below generalizing seen fuel with
  | plain isPlain =>
      obtain ⟨fuel, rfl⟩ := Nat.exists_eq_succ_of_ne_zero (Nat.ne_zero_of_lt enough)
      exact stripNames_plain seen fuel isPlain
  | @through shape last name type isName stands _ ih =>
      obtain ⟨fuel, rfl⟩ := Nat.exists_eq_succ_of_ne_zero (Nat.ne_zero_of_lt enough)
      have inside : name ∈ shape.names := by simp [TypeShape.names_of_name? isName]
      have ranked : index.rank name ≤ index.depth shape := rank_le_depth inside
      have deeper : index.depth type.shape < index.rank name := depth_lt_rank acyclic stands
      have fresh : name.id ∉ seen := by
        intro member
        obtain ⟨other, behind, same, otherStands, less⟩ := passed _ member
        cases apart.typeName otherStands stands same
        omega
      rw [stripNames_name seen fuel isName, if_neg fresh, stands]
      refine ih (fun id member => ?_) (by omega)
      rcases List.mem_cons.mp member with rfl | earlier
      · exact ⟨name, type, rfl, stands, deeper⟩
      · obtain ⟨other, behind, same, otherStands, less⟩ := passed id earlier
        exact ⟨other, behind, same, otherStands, by omega⟩

theorem underlying?_eq_some_iff (acyclic : index.Acyclic) (apart : index.KindsApart)
    {type : QualType} : index.underlying? type = some last ↔ index.Below type.shape last := by
  refine ⟨below_of_stripNames, fun below => below.stripNames acyclic apart nofun ?_⟩
  exact Nat.lt_succ_of_le (depth_le fun name _ => index.rank_le name)

section Open

variable {config : Config}

theorem closed_named {id : DeclId} {decl : TypedefDecl} (found : index.typedefs.get? id = some decl)
    (isOpen : ∀ closed, ¬index.ClosedBehind config (.named id) closed) (closed : EnumDecl) :
    ¬index.ClosedBehind config decl.aliased.shape closed :=
  fun behind => isOpen closed (.aliased found behind)

theorem open_enumeration {id : DeclId} {decl : EnumDecl} (found : index.enums.get? id = some decl)
    (isOpen : ∀ closed, ¬index.ClosedBehind config (.enumeration id) closed) :
    config.isStrict decl = false ∧ ∀ closed, ¬index.ClosedBehind config decl.base.shape closed := by
  have own : config.isStrict decl = false :=
    Bool.eq_false_iff.mpr fun strict => isOpen decl (.here found strict)
  exact ⟨own, fun closed behind => isOpen closed (.base found own behind)⟩

theorem behind?_typedef {id : DeclId} {decl : TypedefDecl}
    (found : index.typedefs.get? id = some decl) :
    index.behind? (.typedef id) = some decl.aliased := by
  rw [behind?, found]
  rfl

theorem behind?_enumeration {id : DeclId} {decl : EnumDecl}
    (found : index.enums.get? id = some decl) :
    index.behind? (.enumeration id) = some decl.base := by
  rw [behind?, found]
  rfl

/-- The names of a type that is represented end somewhere. -/
theorem Represented.exists_below {representation : Representation}
    (represented : index.Represented run shape representation)
    (isOpen : ∀ closed, ¬index.ClosedBehind run.config shape closed) :
    ∃ last, index.Below shape last := by
  induction represented with
  | seenThrough found _ _ ih | kept found _ _ _ ih =>
      obtain ⟨last, below⟩ := ih (closed_named found isOpen)
      exact ⟨last, .through rfl (behind?_typedef found) below⟩
  | anonymousEnum found _ _ ih | openEnum found _ _ _ _ ih =>
      obtain ⟨last, below⟩ := ih (open_enumeration found isOpen).2
      exact ⟨last, .through rfl (behind?_enumeration found) below⟩
  | strictEnum found _ _ strict => exact absurd (.here found strict) (isOpen _)
  | _ => exact ⟨_, .plain rfl⟩

/-- A type is represented as the same thing as what stands below its names. -/
theorem Below.represented (below : index.Below shape last) {representation : Representation}
    (represented : index.Represented run shape representation)
    (isOpen : ∀ closed, ¬index.ClosedBehind run.config shape closed) :
    ∃ inner, index.Represented run last inner ∧ inner.info = representation.info := by
  induction below generalizing representation with
  | plain => exact ⟨representation, represented, rfl⟩
  | through isName stands _ ih =>
      cases represented with
      | seenThrough found aliased | kept found aliased =>
          cases isName
          cases (behind?_typedef found).symm.trans stands
          exact (ih aliased (closed_named found isOpen) :)
      | anonymousEnum found _ base | openEnum found _ _ _ base =>
          cases isName
          cases (behind?_enumeration found).symm.trans stands
          exact (ih base (open_enumeration found isOpen).2 :)
      | strictEnum found _ _ strict => exact absurd (.here found strict) (isOpen _)
      | _ => cases isName

theorem ClosedBehind.info {closed : EnumDecl} (behind : index.ClosedBehind run.config shape closed)
    {representation : Representation} (represented : index.Represented run shape representation) :
    ∃ classifier, run.Names (.enumeration closed) classifier ∧
      representation.info = .enumeration classifier true := by
  induction behind generalizing representation with
  | here found strict =>
      cases represented with
      | strictEnum other _ named =>
          cases found.symm.trans other
          exact ⟨_, named, rfl⟩
      | anonymousEnum other unnamed =>
          cases found.symm.trans other
          cases (run.config.isStrict_of_isNone unnamed).symm.trans strict
      | openEnum other _ _ isOpen =>
          cases found.symm.trans other
          cases isOpen.symm.trans strict
  | base found isOpen _ ih =>
      cases represented with
      | strictEnum other _ _ strict =>
          cases found.symm.trans other
          cases isOpen.symm.trans strict
      | anonymousEnum other _ base | openEnum other _ _ _ base =>
          cases found.symm.trans other
          exact (ih base :)
  | aliased found _ ih =>
      cases represented with
      | seenThrough other aliased | kept other aliased =>
          cases found.symm.trans other
          exact (ih aliased :)

/-- A type is represented as an enumeration exactly if a strict one stands behind its
names. -/
theorem Represented.enumeration_iff {representation : Representation}
    (represented : index.Represented run shape representation) :
    (∃ classifier strict, representation.info = .enumeration classifier strict) ↔
      ∃ closed, index.ClosedBehind run.config shape closed := by
  constructor
  · rintro ⟨classifier, strict, isEnum⟩
    by_contra none
    have isOpen : ∀ closed, ¬index.ClosedBehind run.config shape closed :=
      fun closed behind => none ⟨closed, behind⟩
    obtain ⟨last, below⟩ := represented.exists_below isOpen
    obtain ⟨inner, inside, same⟩ := below.represented represented isOpen
    have isPlain := below.name?_eq_none
    rw [← same] at isEnum
    cases inside with
    | anonymousEnum | strictEnum | openEnum | seenThrough | kept => cases isPlain
    | integer known | char known =>
        obtain ⟨name, -, rfl⟩ := Option.map_eq_some_iff.mp known
        cases isEnum
    | float known =>
        unfold floatRepresentation? at known
        split at known <;> cases known <;> cases isEnum
    | _ => cases isEnum
  · rintro ⟨closed, behind⟩
    obtain ⟨classifier, -, same⟩ := behind.info represented
    exact ⟨classifier, true, same⟩

/-- An enumeration that is not strict has a name whenever it is asked for one. -/
theorem settles_representOpen {follow : QualType → Represents Representation}
    (names : index.NamesEnums run) {id : DeclId} {decl : EnumDecl}
    (found : index.enums.get? id = some decl) (isOpen : run.config.isStrict decl = false)
    {answered : Prop} (base : (follow decl.base).Settles run answered) :
    (index.representEnumeration follow id).Settles run answered := by
  rw [representEnumeration_found index follow found]
  split
  · exact base
  · rename_i isNamed
    have hasName : (Declaration.enumeration decl).hasTypeName := by
      simpa [Declaration.hasTypeName, Option.isSome_iff_ne_none] using isNamed
    have known : run.classifiers.get? decl.id ≠ some none := by
      intro unnamed
      have named := names decl (mem_declarations_enumeration found) none unnamed
      cases named.trans hasName
    refine ((settles_named rfl hasName).bind fun classifier =>
      (Represents.Settles.config fun other same => ?_ :
        Represents.Settles _ run answered)).of_iff (and_iff_right known)
    rw [same, if_neg (Bool.eq_false_iff.mp isOpen)]
    exact base.map

variable (acyclic : index.Acyclic) (typedefs : index.NamesTypedefs run)
  (enums : index.NamesEnums run)

include acyclic typedefs enums

/-- Behind names a type is represented if and only if it is without them. -/
theorem Below.representable (below : index.Below shape last)
    (isOpen : ∀ closed, ¬index.ClosedBehind run.config shape closed) :
    index.Representable run shape ↔ index.Representable run last := by
  induction below with
  | plain => rfl
  | @through shape last name type isName stands _ ih =>
      cases shape with
      | named id =>
          cases isName
          obtain ⟨decl, found, rfl⟩ := Option.map_eq_some_iff.mp stands
          rw [representable_named typedefs acyclic found]
          exact ih (closed_named found isOpen)
      | enumeration id =>
          cases isName
          obtain ⟨decl, found, rfl⟩ := Option.map_eq_some_iff.mp stands
          obtain ⟨own, base⟩ := open_enumeration found isOpen
          have settled : (index.representShape index.represent (.enumeration id)).Settles run _ :=
            settles_representOpen enums found own (settles_represent typedefs decl.base)
          rw [representable_iff acyclic settled]
          exact ih base
      | _ => cases isName

end Open

end Index

/-- What a type that is no name is, if it is a number of the target. -/
def TypeShape.number? (platform : Platform) : TypeShape → Option TypeInfo
  | .integer size signed | .char size signed =>
      if size ∈ [1, 2, 4, 8] then some (.primitive size (platform.signOf signed) false) else none
  | .float size => if size ∈ [4, 8] then some (.primitive size true true) else none
  | _ => none

theorem map_info_integerRepresentation? (platform : Platform) (size : UInt32) (signed : Bool) :
    (integerRepresentation? platform size signed).map (·.info) =
      if size ∈ [1, 2, 4, 8] then some (.primitive size (platform.signOf signed) false)
      else none := by
  split
  · rename_i width
    obtain ⟨name, named⟩ := exists_integerName? (platform.signOf signed) width
    rw [integerRepresentation?, named]
    rfl
  · rename_i width
    have unnamed : integerName? size (platform.signOf signed) = none := by
      unfold integerName?
      split <;> simp_all
    rw [integerRepresentation?, unnamed]
    rfl

theorem map_info_floatRepresentation? (size : UInt32) :
    (floatRepresentation? size).map (·.info) =
      if size ∈ [4, 8] then some (.primitive size true true) else none := by
  unfold floatRepresentation?
  split
  · rfl
  · rfl
  · rename_i notFloat notDouble
    rw [if_neg (by simpa using ⟨notFloat, notDouble⟩)]
    rfl

namespace Index

variable {index : Index} {run : Run}

theorem represented_of_number? {shape : TypeShape} {info : TypeInfo}
    (number : shape.number? run.config.platform = some info) :
    ∃ representation, index.Represented run shape representation ∧
      representation.info = info := by
  cases shape with
  | integer size signed =>
      obtain ⟨representation, known, same⟩ := Option.map_eq_some_iff.mp
        ((map_info_integerRepresentation? run.config.platform size signed).trans number)
      exact ⟨representation, .integer known, same⟩
  | char size signed =>
      obtain ⟨representation, known, same⟩ := Option.map_eq_some_iff.mp
        ((map_info_integerRepresentation? run.config.platform size signed).trans number)
      exact ⟨representation, .char known, same⟩
  | float size =>
      obtain ⟨representation, known, same⟩ := Option.map_eq_some_iff.mp
        ((map_info_floatRepresentation? size).trans number)
      exact ⟨representation, .float known, same⟩
  | _ => cases number

theorem Represented.number? {shape : TypeShape} {representation : Representation}
    (represented : index.Represented run shape representation) (isPlain : shape.name? = none)
    {size : UInt32} {signed floating : Bool}
    (isNumber : representation.info = .primitive size signed floating) :
    shape.number? run.config.platform = some (.primitive size signed floating) := by
  rw [← isNumber]
  cases represented with
  | integer known | char known =>
      exact (map_info_integerRepresentation? ..).symm.trans (congrArg (Option.map _) known)
  | float known =>
      exact (map_info_floatRepresentation? _).symm.trans (congrArg (Option.map _) known)
  | anonymousEnum | strictEnum | openEnum | seenThrough | kept => cases isPlain
  | _ => cases isNumber

/-- A type is represented as a number exactly if there is one below its names. -/
theorem info?_eq_primitive_iff (acyclic : index.Acyclic) (typedefs : index.NamesTypedefs run)
    (enums : index.NamesEnums run) {type : QualType}
    (isOpen : ∀ closed, ¬index.ClosedBehind run.config type.shape closed)
    {size : UInt32} {signed floating : Bool} :
    index.info? run type = some (.primitive size signed floating) ↔
      ∃ last, index.Below type.shape last ∧
        last.number? run.config.platform = some (.primitive size signed floating) := by
  have answered {representation : Representation} {after : Run}
      (ends : (index.represent type).run run = (some representation, after)) :
      run ≤ after ∧ index.Represented after type.shape representation :=
    ⟨le_of_represent ends, (answers_of_represent ends).represented⟩
  constructor
  · intro isNumber
    obtain ⟨representation, found, same⟩ := Option.map_eq_some_iff.mp isNumber
    obtain ⟨le, represented⟩ := answered (Prod.ext found rfl)
    rw [← le.config] at isOpen ⊢
    obtain ⟨last, below⟩ := represented.exists_below isOpen
    obtain ⟨inner, inside, sameInfo⟩ := below.represented represented isOpen
    exact ⟨last, below, inside.number? below.name?_eq_none (sameInfo.trans same)⟩
  · rintro ⟨last, below, number⟩
    obtain ⟨_, atLast, -⟩ := @represented_of_number? index run _ _ number
    have representable : index.Representable run type.shape :=
      (below.representable acyclic typedefs enums isOpen).mpr
        (atLast.representable acyclic typedefs (.refl run))
    obtain ⟨representation, found⟩ :=
      Option.isSome_iff_exists.mp ((represented_iff type).mpr representable)
    obtain ⟨le, represented⟩ := answered (Prod.ext found rfl)
    rw [← le.config] at isOpen number
    obtain ⟨inner, inside, sameInfo⟩ := below.represented represented isOpen
    obtain ⟨other, again, isNumber⟩ := @represented_of_number? index _ _ _ number
    cases inside.unique again
    rw [info?, found, Option.map_some, ← sameInfo, isNumber]

theorem integralConstant?_iff_number {platform : Platform} {value : Int64} {type : QualType}
    {literal : Constant} :
    index.integralConstant? platform value type = some literal ↔
      ∃ last size signed, index.underlying? type = some last ∧
        last.number? platform = some (.primitive size signed false) ∧
        literal = .integer value size signed := by
  rw [integralConstant?_eq_some_iff]
  constructor
  · rintro ⟨last, size, signed, strips, integral, width, rfl⟩
    refine ⟨last, size, _, strips, ?_, rfl⟩
    cases last <;> cases integral <;> exact if_pos width
  · rintro ⟨last, size, signed, strips, number, rfl⟩
    cases last with
    | integer width sign | char width sign =>
        obtain ⟨known, same⟩ := Option.ite_none_right_eq_some.mp number
        cases same
        exact ⟨_, size, sign, strips, rfl, known, rfl⟩
    | float =>
        obtain ⟨-, same⟩ := Option.ite_none_right_eq_some.mp number
        cases same
    | _ => cases number

theorem floatingConstant?_iff_number (platform : Platform) {value : Float} {type : QualType}
    {literal : Constant} :
    index.floatingConstant? value type = some literal ↔
      ∃ last size signed, index.underlying? type = some last ∧
        last.number? platform = some (.primitive size signed true) ∧
        literal = .floating value size := by
  constructor
  · intro found
    unfold floatingConstant? at found
    split at found
    case h_1 size strips =>
      obtain ⟨width, same⟩ := Option.ite_none_right_eq_some.mp found
      exact ⟨_, size, true, strips, if_pos width, (Option.some.inj same).symm⟩
    case h_2 => cases found
  · rintro ⟨last, size, signed, strips, number, rfl⟩
    cases last with
    | integer | char =>
        obtain ⟨-, same⟩ := Option.ite_none_right_eq_some.mp number
        cases same
    | float =>
        obtain ⟨width, same⟩ := Option.ite_none_right_eq_some.mp number
        cases same
        rw [floatingConstant?, strips]
        exact if_pos width
    | _ => cases number

/-- A value of a type has a literal exactly if the type is represented as a number, and the
literal is one of that number. -/
structure LiteralsFit (index : Index) (platform : Platform) (type : QualType)
    (info? : Option TypeInfo) : Prop where
  integral : ∀ value literal, index.integralConstant? platform value type = some literal ↔
    ∃ size signed, info? = some (.primitive size signed false) ∧
      literal = .integer value size signed
  floating : ∀ number literal, index.floatingConstant? number type = some literal ↔
    ∃ size signed, info? = some (.primitive size signed true) ∧ literal = .floating number size
  neither : ∀ value number, index.integralConstant? platform value type = none ∧
      index.floatingConstant? number type = none ↔
    ∀ size signed floating, info? ≠ some (.primitive size signed floating)

/-- Whatever a run was asked before, a value has a literal if and only if its type is
represented as a primitive, unless a strict enumeration stands behind the names of the
type. -/
theorem literals_fit_info (acyclic : index.Acyclic) (apart : index.KindsApart) (config : Config)
    (queries : List index.Query) {type : QualType}
    (isOpen : ∀ closed, ¬index.ClosedBehind config type.shape closed) :
    index.LiteralsFit config.platform type (index.info? (index.after config queries) type) := by
  have knows := (@moment_after index config apart queries).knows apart
  have typedefs : index.NamesTypedefs (index.after config queries) :=
    (keeping_namesTypedefs apart).foldl queries (index.namesTypedefs_start config)
  have enums : index.NamesEnums (index.after config queries) :=
    (keeping_namesEnums apart).foldl queries (index.namesEnums_start config)
  rw [← knows.configured] at isOpen
  have isNumber {size : UInt32} {signed floating : Bool} :=
    @info?_eq_primitive_iff index _ acyclic typedefs enums type isOpen size signed floating
  rw [knows.configured] at isNumber
  have integral (value : Int64) (literal : Constant) :
      index.integralConstant? config.platform value type = some literal ↔
        ∃ size signed, index.info? (index.after config queries) type =
          some (.primitive size signed false) ∧ literal = .integer value size signed := by
    simp only [integralConstant?_iff_number, underlying?_eq_some_iff acyclic apart, isNumber]
    grind
  have floating (number : Float) (literal : Constant) :
      index.floatingConstant? number type = some literal ↔
        ∃ size signed, index.info? (index.after config queries) type =
          some (.primitive size signed true) ∧ literal = .floating number size := by
    simp only [floatingConstant?_iff_number config.platform,
      underlying?_eq_some_iff acyclic apart, isNumber]
    grind
  refine ⟨integral, floating, fun value number => ?_⟩
  rw [Option.eq_none_iff_forall_ne_some, Option.eq_none_iff_forall_ne_some]
  constructor
  · rintro ⟨noInteger, noFloat⟩ size signed (_ | _) same
    · exact noInteger _ ((integral value _).mpr ⟨size, signed, same, rfl⟩)
    · exact noFloat _ ((floating number _).mpr ⟨size, signed, same, rfl⟩)
  · refine fun other => ⟨fun literal found => ?_, fun literal found => ?_⟩
    · obtain ⟨size, signed, same, -⟩ := (integral value literal).mp found
      exact other size signed false same
    · obtain ⟨size, signed, same, -⟩ := (floating number literal).mp found
      exact other size signed true same

theorem acyclic_channels : channels.Acyclic := by
  apply acyclic_of_decreasing channels fun name =>
    if name = TypeName.typedef ⟨"word"⟩ then 0
    else if name = TypeName.enumeration ⟨"mode"⟩ then 1
    else if name = TypeName.typedef ⟨"channel_mode"⟩ then 2
    else if name = TypeName.typedef ⟨"any_mode"⟩ then 3
    else 4
  · decide
  · decide

/-- Two typedefs, an enumeration and another typedef stand before an `unsigned int`, which
the target has only with a sign. -/
theorem literals_fit_info_channels :
    let mode : QualType := ⟨"AnyMode", false, .named ⟨"any_mode"⟩⟩
    let config : Config := { platform := .jvm }
    let queries : List channels.Query := [.representation (.pointerTo mode), .build]
    (channels.Acyclic ∧ channels.KindsApart ∧
        ∀ closed, ¬channels.ClosedBehind config mode.shape closed) ∧
      channels.info? (channels.after config queries) mode = some (.primitive 4 true false) ∧
      channels.integralConstant? config.platform 3 mode = some (.integer 3 4 true) ∧
      channels.floatingConstant? 0.5 mode = none := by
  intro mode config queries
  have apart : channels.KindsApart := by decide
  have isOpen : ∀ closed, ¬channels.ClosedBehind config mode.shape closed := by
    intro closed behind
    have behindEnum := (closedBehind_named rfl).mp ((closedBehind_named rfl).mp behind)
    have behindWord := (closedBehind_open rfl (by decide)).mp behindEnum
    have plain : (TypeShape.integer 4 false).primitive? .jvm = some (.primitive "Int") := rfl
    exact not_closedBehind_primitive plain closed ((closedBehind_named rfl).mp behindWord)
  have fits := literals_fit_info acyclic_channels apart config queries isOpen
  have info : channels.info? (channels.after config queries) mode =
      some (.primitive 4 true false) := by decide +kernel
  refine ⟨⟨acyclic_channels, apart, isOpen⟩, info, ?_, ?_⟩
  · exact (fits.integral 3 _).mpr ⟨4, true, info, rfl⟩
  · rw [Option.eq_none_iff_forall_ne_some]
    intro literal found
    obtain ⟨size, signed, same, -⟩ := (fits.floating 0.5 literal).mp found
    rw [info] at same
    cases same

end Index

end NativeBindings
