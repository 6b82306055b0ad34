import NativeBindings.Proofs.Build.Aliases
import NativeBindings.Proofs.Build.Contributions
import NativeBindings.Proofs.Mapping.Literals

namespace NativeBindings

/-! # Types of constants

The literal of a constant is that of the type below all names, and its property has the
type of the outermost one.  The typealiases of the tree lead from the one to the other,
unless a strict enumeration stands between: they lead to its class then, of which no
literal is a value.
-/

def floatName? : UInt32 → Option String
  | 4 => some "Float"
  | 8 => some "Double"
  | _ => none

/-- The primitive of the target that a literal is a value of. -/
def Constant.primitive? : Constant → Option Classifier
  | .integer _ size signed => (integerName? size signed).map .primitive
  | .floating _ size => (floatName? size).map .primitive
  | .string _ => some (.primitive "String")

/-- A type is a name that typealiases lead to a class from. -/
inductive Leads (aliases : List TypealiasStub) : TargetType → Classifier → Prop
  | here {own} : Leads aliases (.ofClassifier own) own
  | through {stub own} : stub ∈ aliases → Leads aliases stub.aliasee own →
      Leads aliases (.ofClassifier stub.classifier) own

/-- A type comes to a class of the target if the typealiases of a tree are expanded.  Where
two of them share a name, the expansion may go another way. -/
structure StandsFor (aliases : List TypealiasStub) (type : TargetType) (own : Classifier) :
    Prop where
  leads : Leads aliases type own
  expands : (aliases.map (·.classifier)).Nodup → aliaseeIn aliases own = none →
    type.Expands (aliaseeIn aliases) (.ofClassifier own)

section Leads

variable {aliases : List TypealiasStub} {type : TargetType} {own : Classifier}

theorem Leads.named (leads : Leads aliases type own) : ∃ name, type = .ofClassifier name := by
  cases leads with
  | here | through => exact ⟨_, rfl⟩

theorem Leads.standsFor (leads : Leads aliases type own) : StandsFor aliases type own := by
  refine ⟨leads, fun distinct plain => ?_⟩
  have here : (TargetType.ofClassifier own).Plain (aliaseeIn aliases) := by
    intro other member
    cases List.mem_singleton.mp member
    exact plain
  induction leads with
  | here => exact .refl here
  | through member behind ih =>
      obtain ⟨name, same⟩ := behind.named
      have replaced := aliaseeIn_of_mem distinct member
      refine .of_replaced ?_
      rw [TargetType.ofClassifier, TargetType.replaceAliases, replaced]
      rw [same] at ih ⊢
      exact ih plain here

end Leads

namespace TypeShape

/-- The primitive of the target for a type that is not behind a name. -/
def primitive? (platform : Platform) : TypeShape → Option Classifier
  | .integer size signed | .char size signed =>
      (integerName? size (platform.signOf signed)).map .primitive
  | .float size => (floatName? size).map .primitive
  | _ => none

theorem primitive?_of_integral {shape : TypeShape} {size : UInt32} {signed : Bool}
    (platform : Platform) (integral : shape.integral? = some (size, signed)) :
    shape.primitive? platform = (integerName? size (platform.signOf signed)).map .primitive := by
  cases shape <;> cases integral <;> rfl

end TypeShape

namespace Index

variable {index : Index} {run after : Run} {outcomes : List Outcome}

theorem primitive?_of_integralConstant {platform : Platform} {value : Int64} {type : QualType}
    {literal : Constant} (found : index.integralConstant? platform value type = some literal) :
    ∃ below own, index.underlying? type = some below ∧ below.primitive? platform = some own ∧
      literal.primitive? = some own := by
  obtain ⟨below, size, signed, strips, integral, width, rfl⟩ :=
    integralConstant?_eq_some_iff.mp found
  obtain ⟨name, named⟩ := exists_integerName? (platform.signOf signed) width
  refine ⟨below, .primitive name, strips, ?_, ?_⟩
  · rw [TypeShape.primitive?_of_integral platform integral, named]
    rfl
  · rw [Constant.primitive?, named]
    rfl

theorem primitive?_of_floatingConstant (platform : Platform) {value : Float} {type : QualType}
    {literal : Constant} (found : index.floatingConstant? value type = some literal) :
    ∃ below own, index.underlying? type = some below ∧ below.primitive? platform = some own ∧
      literal.primitive? = some own := by
  unfold floatingConstant? at found
  split at found
  case h_1 size strips =>
    obtain ⟨width, same⟩ := Option.ite_none_right_eq_some.mp found
    cases same
    have sizes : size = 4 ∨ size = 8 := by simpa using width
    rcases sizes with rfl | rfl <;> exact ⟨_, _, strips, rfl, rfl⟩
  case h_2 => cases found

theorem Represented.target_of_primitive {shape : TypeShape} {representation : Representation}
    {own : Classifier} (represented : index.Represented run shape representation)
    (primitive : shape.primitive? run.config.platform = some own) :
    representation.target = .ofClassifier own := by
  have integral {size : UInt32} {signed : Bool}
      (found : integerRepresentation? run.config.platform size signed = some representation)
      (named : (integerName? size (run.config.platform.signOf signed)).map .primitive = some own) :
      representation.target = .ofClassifier own := by
    obtain ⟨name, isName, rfl⟩ := Option.map_eq_some_iff.mp found
    obtain ⟨other, same, rfl⟩ := Option.map_eq_some_iff.mp named
    cases isName.symm.trans same
    rfl
  cases represented with
  | char found | integer found => exact integral found primitive
  | float found =>
      unfold floatRepresentation? at found
      split at found <;> cases found <;> cases primitive <;> rfl
  | _ => cases primitive

/-- The first strict enumeration that one meets when looking through the names of a type. -/
inductive ClosedBehind (index : Index) (config : Config) : TypeShape → EnumDecl → Prop
  | here {id} {decl : EnumDecl} : index.enums.get? id = some decl → config.isStrict decl →
      ClosedBehind index config (.enumeration id) decl
  | base {id closed} {decl : EnumDecl} : index.enums.get? id = some decl →
      config.isStrict decl = false → ClosedBehind index config decl.base.shape closed →
      ClosedBehind index config (.enumeration id) closed
  | aliased {id closed} {decl : TypedefDecl} : index.typedefs.get? id = some decl →
      ClosedBehind index config decl.aliased.shape closed →
      ClosedBehind index config (.named id) closed

theorem closedBehind_named {config : Config} {id : DeclId} {decl : TypedefDecl}
    {closed : EnumDecl} (found : index.typedefs.get? id = some decl) :
    index.ClosedBehind config (.named id) closed ↔
      index.ClosedBehind config decl.aliased.shape closed := by
  constructor
  · rintro (_ | _ | ⟨other, behind⟩)
    cases found.symm.trans other
    exact behind
  · exact .aliased found

theorem closedBehind_open {config : Config} {id : DeclId} {decl : EnumDecl} {closed : EnumDecl}
    (found : index.enums.get? id = some decl) (isOpen : config.isStrict decl = false) :
    index.ClosedBehind config (.enumeration id) closed ↔
      index.ClosedBehind config decl.base.shape closed := by
  constructor
  · rintro (⟨other, strict⟩ | ⟨other, -, behind⟩)
    · cases found.symm.trans other
      cases isOpen.symm.trans strict
    · cases found.symm.trans other
      exact behind
  · exact .base found isOpen

theorem not_closedBehind_primitive {config : Config} {shape : TypeShape} {platform : Platform}
    {own : Classifier} (primitive : shape.primitive? platform = some own) (closed : EnumDecl) :
    ¬index.ClosedBehind config shape closed := by
  intro behind
  cases behind <;> cases primitive

/-- What the type of a value comes to when the typealiases of a tree are expanded: the
primitive below all names, or the class of a strict enumeration on the way. -/
inductive Fits (index : Index) (run : Run) (tree : StubTree) (shape : TypeShape)
    (type : TargetType) (own : Classifier) : Prop
  | primitive : (∀ closed, ¬index.ClosedBehind run.config shape closed) →
      StandsFor tree.typealiases type own → Fits index run tree shape type own
  | closed {closed stub entries base} : index.ClosedBehind run.config shape closed →
      stub ∈ tree.classes → stub.kind = .enumeration entries base →
      run.Names (.enumeration closed) stub.classifier →
      StandsFor tree.typealiases type stub.classifier → Fits index run tree shape type own

section Fits

variable {tree : StubTree} {shape inner : TypeShape} {type other : TargetType} {own : Classifier}

/-- A type that leads to another one comes to the same. -/
theorem Fits.through (fits : index.Fits run tree inner other own)
    (behind : ∀ closed, index.ClosedBehind run.config shape closed ↔
      index.ClosedBehind run.config inner closed)
    (leads : ∀ own, Leads tree.typealiases other own → Leads tree.typealiases type own) :
    index.Fits run tree shape type own := by
  cases fits with
  | primitive none stands =>
      exact .primitive (fun closed here => none closed ((behind closed).mp here))
        (leads _ stands.leads).standsFor
  | closed here member kind named stands =>
      exact .closed ((behind _).mpr here) member kind named (leads _ stands.leads).standsFor

theorem Fits.named (fits : index.Fits run tree shape type own) :
    ∃ name, type = .ofClassifier name := by
  cases fits with
  | primitive _ stands | closed _ _ _ _ stands => exact stands.leads.named

end Fits

theorem Builds.attempted (builds : index.Builds run outcomes after) {decl : Declaration}
    (declared : decl ∈ index.declarations) (typed : decl.typeId?.isSome) :
    ∃ result, (decl, result) ∈ outcomes := by
  have wanted : decl ∈ outcomes.map (·.1) := builds.listed ▸ mem_wanted declared typed
  obtain ⟨⟨_, result⟩, listed, rfl⟩ := List.mem_map.mp wanted
  exact ⟨result, listed⟩

/-- Does a build skip nothing? -/
def buildsAll (index : Index) (run : Run) : Bool :=
  match (index.build.run run).1 with
  | .ok library => library.skipped.isEmpty
  | .error _ => false

theorem Builds.clean_of_buildsAll (builds : index.Builds run outcomes after)
    (all : index.buildsAll run) : (Library.ofOutcomes outcomes).skipped = [] := by
  rw [buildsAll, builds.build_run] at all
  exact List.isEmpty_iff.mp all

theorem Builds.built_of_clean (builds : index.Builds run outcomes after)
    (clean : (Library.ofOutcomes outcomes).skipped = []) {decl : Declaration}
    (declared : decl ∈ index.declarations) (typed : decl.typeId?.isSome) :
    ∃ built, (decl, .ok built) ∈ outcomes := by
  obtain ⟨result, listed⟩ := builds.attempted declared typed
  cases result with
  | ok built => exact ⟨built, listed⟩
  | error error =>
      rw [Library.skipped_ofOutcomes, List.filterMap_eq_nil_iff] at clean
      cases clean _ listed

theorem mem_elements_of_built {decl : Declaration} {built : Built} {element : StubElement}
    (listed : (decl, .ok built) ∈ outcomes) (member : element ∈ built.elements) :
    element ∈ (Library.ofOutcomes outcomes).stubs.elements := by
  refine (Library.elements_ofOutcomes outcomes).mem_iff.mpr (List.mem_flatMap.mpr ⟨built, ?_, member⟩)
  exact List.mem_filterMap.mpr ⟨_, listed, rfl⟩

theorem mem_typealiases_of_built {decl : Declaration} {built : Built} {stub : TypealiasStub}
    (listed : (decl, .ok built) ∈ outcomes) (member : .ofTypealias stub ∈ built.elements) :
    stub ∈ (Library.ofOutcomes outcomes).stubs.typealiases := by
  simpa [StubTree.elements] using mem_elements_of_built listed member

theorem mem_classes_of_built {decl : Declaration} {built : Built} {stub : ClassStub}
    (listed : (decl, .ok built) ∈ outcomes) (member : .ofClass stub ∈ built.elements) :
    stub ∈ (Library.ofOutcomes outcomes).stubs.classes := by
  simpa [StubTree.elements] using mem_elements_of_built listed member

section Build

variable (builds : index.Builds run outcomes after)
  (clean : (Library.ofOutcomes outcomes).skipped = [])

include builds clean

theorem Builds.class_of_strict {id : DeclId} {decl : EnumDecl} {own : Classifier}
    (found : index.enums.get? id = some decl) (named : after.Names (.enumeration decl) own)
    (strict : after.config.isStrict decl) :
    ∃ stub ∈ (Library.ofOutcomes outcomes).stubs.classes, stub.classifier = own ∧
      ∃ entries base, stub.kind = .enumeration entries base := by
  obtain ⟨built, listed⟩ := builds.built_of_clean clean (mem_declarations_enumeration found) rfl
  cases builds.gives listed with
  | anonymousEnum unknown => exact absurd named (not_names_of_none rfl unknown)
  | openEnum _ isOpen => cases isOpen.symm.trans strict
  | strictEnum given =>
      exact ⟨_, mem_classes_of_built listed List.mem_cons_self, given.unique named, _, _, rfl⟩

theorem Builds.alias_of_open {id : DeclId} {decl : EnumDecl} {own : Classifier}
    {base : Representation} (found : index.enums.get? id = some decl)
    (named : after.Names (.enumeration decl) own) (isOpen : after.config.isStrict decl = false)
    (represented : index.Represented after decl.base.shape base) :
    ∃ value, ⟨value, own, base.target⟩ ∈ (Library.ofOutcomes outcomes).stubs.typealiases := by
  obtain ⟨built, listed⟩ := builds.built_of_clean clean (mem_declarations_enumeration found) rfl
  cases builds.gives listed with
  | anonymousEnum unknown => exact absurd named (not_names_of_none rfl unknown)
  | strictEnum _ strict => cases isOpen.symm.trans strict
  | openEnum given _ answers =>
      cases given.unique named
      cases answers.represented.unique represented
      exact ⟨_, mem_typealiases_of_built listed List.mem_cons_self⟩

/-- The walk through names ends at a primitive; the type of a value comes to it, or to the
first strict enumeration that the walk went through. -/
theorem Builds.fits {below : TypeShape} {own : Classifier}
    (primitive : below.primitive? after.config.platform = some own) (fuel : Nat)
    (seen : List DeclId) {shape : TypeShape} {representation : Representation}
    (strips : index.stripNames seen fuel shape = some below)
    (represented : index.Represented after shape representation) :
    index.Fits after (Library.ofOutcomes outcomes).stubs shape representation.target own := by
  induction fuel generalizing seen shape representation with
  | zero => cases strips
  | succ fuel ih =>
      cases shape with
      | named id =>
          simp only [stripNames] at strips
          split at strips
          · cases strips
          split at strips
          case h_2 => cases strips
          case h_1 decl found =>
            cases represented with
            | seenThrough other aliased through =>
                cases found.symm.trans other
                exact (ih _ strips aliased).through (fun _ => closedBehind_named found)
                  fun _ leads => leads
            | @kept _ _ aliased name other inner keeps named =>
                cases found.symm.trans other
                have fits := ih _ strips inner
                obtain ⟨built, listed⟩ :=
                  builds.built_of_clean clean (mem_declarations_typedef found) rfl
                obtain ⟨value, -, member, -⟩ :=
                  builds.aliases_of_kept le_rfl listed inner keeps named
                -- The type behind the name is a plain one, so the alias is not nullable.
                obtain ⟨target, plain⟩ := fits.named
                refine fits.through (fun _ => closedBehind_named found) fun own leads => ?_
                rw [plain] at member leads ⊢
                exact .through (mem_typealiases_of_built listed member) leads
      | enumeration id =>
          simp only [stripNames] at strips
          split at strips
          · cases strips
          split at strips
          case h_2 => cases strips
          case h_1 decl found =>
            cases represented with
            | anonymousEnum other unnamed base =>
                cases found.symm.trans other
                have isOpen : after.config.isStrict decl = false := by
                  simp only [Config.isStrict, Option.isNone_iff_eq_none.mp unnamed]
                exact (ih _ strips base).through (fun _ => closedBehind_open found isOpen)
                  fun _ leads => leads
            | strictEnum other _ named strict =>
                cases found.symm.trans other
                obtain ⟨stub, member, rfl, entries, base, kind⟩ :=
                  builds.class_of_strict clean found named strict
                exact .closed (.here found strict) member kind named Leads.here.standsFor
            | openEnum other _ named isOpen base =>
                cases found.symm.trans other
                obtain ⟨value, member⟩ := builds.alias_of_open clean found named isOpen base
                exact (ih _ strips base).through (fun _ => closedBehind_open found isOpen)
                  fun _ leads => .through member leads
      | _ =>
          cases strips
          rw [represented.target_of_primitive primitive]
          exact .primitive (not_closedBehind_primitive primitive) Leads.here.standsFor

end Build

/-- A constant comes from a macro whose value is a number, or from an enumeration, and its
literal is for a value of the macro's type or of the enumeration's base. -/
inductive ConstantOf (index : Index) (config : Config) :
    Declaration → String → Constant → QualType → Prop
  | number {decl literal} : index.NumberLiteral config.platform decl literal →
      ConstantOf index config (.macroConstant decl) decl.name literal decl.type
  | enumerator {decl : EnumDecl} {constant name literal} : constant ∈ decl.constants →
      index.EntryOf config decl constant name literal →
      ConstantOf index config (.enumeration decl) name literal decl.base

theorem ConstantOf.primitive {config : Config} {decl : Declaration} {name : String}
    {literal : Constant} {type : QualType}
    (constant : index.ConstantOf config decl name literal type) :
    ∃ below own, index.underlying? type = some below ∧
      below.primitive? config.platform = some own ∧ literal.primitive? = some own := by
  cases constant with
  | number number =>
      cases number with
      | integer _ found => exact primitive?_of_integralConstant found
      | float _ found => exact primitive?_of_floatingConstant config.platform found
  | enumerator _ entry => exact primitive?_of_integralConstant entry.2

/-- The constant for a macro whose value is a text. -/
structure TextOf (decl : MacroConstant) (stub : PropertyStub) (literal : Constant) : Prop where
  name : stub.name = decl.name
  type : stub.type = .string
  literal : ∃ text, decl.value = .string text ∧ literal = .string text

theorem leaves_constants (decl : MacroConstant) :
    (index.buildMacroConstant decl).untabled.Leaves run fun after built =>
      ∀ stub ∈ built.properties, ∀ literal, stub.kind = .constant literal →
        TextOf decl stub literal ∨ stub.name = decl.name ∧
          index.NumberLiteral run.config.platform decl literal ∧
          ∃ representation, index.Answers after decl.type representation ∧
            stub.type = representation.target := by
  refine .untabled ?_
  unfold buildMacroConstant
  refine .bind (.lift (leaves_macroLiteral decl)) fun literal? mid _ found => ?_
  cases literal? with
  | none => exact .pure nofun
  | some embedded =>
      refine .bind (.lift .freshStub) fun id after le _ => .pure fun stub member literal kind => ?_
      cases List.mem_singleton.mp member
      cases kind
      rcases found _ rfl with ⟨text, isText, rfl⟩ | ⟨representation, answers, same, number⟩
      · exact .inl ⟨rfl, rfl, text, isText, rfl⟩
      · exact .inr ⟨rfl, number, representation, answers.mono le, same⟩

/-- What a macro gave is still true when the build is over. -/
theorem Builds.constants_of_macro (builds : index.Builds run outcomes after)
    {decl : MacroConstant} {built : Built} (listed : (.macroConstant decl, .ok built) ∈ outcomes) :
    ∀ stub ∈ built.properties, ∀ literal, stub.kind = .constant literal →
      TextOf decl stub literal ∨ stub.name = decl.name ∧
        index.NumberLiteral run.config.platform decl literal ∧
        ∃ representation, index.Answers after decl.type representation ∧
          stub.type = representation.target := by
  obtain ⟨start, last, config, le, given⟩ :=
    builds.left listed fun _ => leaves_constants decl
  intro stub member literal kind
  rcases given stub member literal kind with text | ⟨name, number, found, answers, same⟩
  · exact .inl text
  · exact .inr ⟨name, config ▸ number, found, answers.mono le, same⟩

section Build

variable {decl : Declaration} {built : Built} {stub : PropertyStub} {literal : Constant}

/-- What gives no constants. -/
theorem getter?_of_constant (constant : stub.kind = .constant literal) : stub.getter? = none := by
  simp [PropertyStub.getter?, constant]

theorem FieldGiven.getter? {field : Field} (given : index.FieldGiven run field stub) :
    stub.getter?.isSome := by
  obtain ⟨isReadOnly, accessor, -, kind⟩ := given.kind
  cases isReadOnly <;> simp [PropertyStub.getter?, kind]

theorem ObjCPropertyGiven.getter? {receiver : Option TargetType} {property : ObjCProperty}
    (given : index.ObjCPropertyGiven run receiver property stub) : stub.getter?.isSome := by
  cases setter : property.setter <;>
    simp [PropertyStub.getter?, given.kind, ObjCProperty.kind, setter]

/-- A constant among the stubs of an enumeration, and the aliases of its type. -/
theorem constantOf_of_given {decl : EnumDecl} {entries : List EnumEntry} {type : TargetType}
    {constants : List StubElement} {config : Config}
    (listed : index.enumEntries config.platform decl = some entries)
    (given : List.Forall₂ (ConstantGiven type) entries constants)
    (member : stub ∈ constants.flatMap (·.properties)) (kind : stub.kind = .constant literal) :
    index.ConstantOf config (.enumeration decl) stub.name literal decl.base ∧ stub.type = type := by
  obtain ⟨element, inside, here⟩ := List.mem_flatMap.mp member
  obtain ⟨entry, isEntry, id, rfl⟩ := exists_of_forall₂ given inside
  cases List.mem_singleton.mp here
  cases kind
  obtain ⟨constant, declared, entryOf⟩ := exists_of_forall₂ (entryOf_of_enumEntries listed) isEntry
  exact ⟨.enumerator declared entryOf, rfl⟩

/-- Only macros and enumerations give constants.  Those of an enumeration have the type of
its base or that of an alias of it. -/
theorem Gives.constantOf (gives : index.Gives run decl built) (member : stub ∈ built.properties)
    (kind : stub.kind = .constant literal) :
    decl.kind = .macroConstant ∨ ∃ type base, index.Answers run type base ∧
      index.ConstantOf run.config decl stub.name literal type ∧
      (stub.type = base.target ∨ ∃ id own, stub.type = .ofClassifier own ∧
        .ofTypealias ⟨id, own, base.target⟩ ∈ built.elements) := by
  have accessed := getter?_of_constant kind
  cases gives with
  | noConstant | stringConstant | constant => exact .inl rfl
  | anonymousEnum _ base listed constants =>
      obtain ⟨constant, type⟩ := constantOf_of_given listed constants member kind
      exact .inr ⟨_, _, base, constant, .inl type⟩
  | openEnum _ _ base listed constants =>
      simp only [Built.properties, List.flatMap_append, List.flatMap_cons, List.flatMap_nil,
        StubElement.properties, List.nil_append] at member
      obtain ⟨constant, type⟩ := constantOf_of_given listed constants member kind
      exact .inr ⟨_, _, base, constant, .inr ⟨_, _, type, List.mem_cons_self⟩⟩
  | struct _ _ fields =>
      simp only [Built.properties, List.flatMap_singleton] at member
      obtain ⟨field, -, given⟩ := fields stub member
      simpa [accessed] using given.getter?
  | objcProtocol _ _ given | objcClass _ _ _ given =>
      simp only [Built.properties, List.flatMap_singleton] at member
      obtain ⟨property, -, given⟩ := exists_of_forall₂ given.properties member
      simpa [accessed] using given.getter?
  | objcCategory _ given =>
      simp [Built.properties, StubElement.properties] at member
      obtain ⟨property, -, given⟩ := exists_of_forall₂ given.properties member
      simpa [accessed] using given.getter?
  | readOnlyGlobal | wrappedMacro =>
      cases List.mem_singleton.mp member
      cases kind
  | «global» =>
      cases List.mem_singleton.mp member
      cases kind
  | _ => simp [Built.properties, StubElement.properties] at member

end Build

/-- Embedded texts are strings.  The type of any other constant comes to the primitive of its
literal, unless there is a strict enumeration among the names in the native type: then it
comes to the class of that enumeration. -/
theorem constants_fit (index : Index) (run : Run) : ∃ library after,
    index.build.run run = (.ok library, after) ∧
      (library.skipped = [] → ∀ stub ∈ library.stubs.allProperties, ∀ literal,
        stub.kind = .constant literal →
          (∃ decl, .macroConstant decl ∈ index.declarations ∧ TextOf decl stub literal) ∨
          ∃ decl ∈ index.declarations, ∃ type own,
            index.ConstantOf run.config decl stub.name literal type ∧
            literal.primitive? = some own ∧
            index.Fits after library.stubs type.shape stub.type own) := by
  obtain ⟨outcomes, after, builds⟩ := index.exists_builds run
  refine ⟨_, after, builds.build_run, fun clean stub member literal kind => ?_⟩
  -- The representation that the type was taken from fits, and the type leads to it.
  have fits {decl : Declaration} {type : QualType} {representation : Representation}
      (constant : index.ConstantOf run.config decl stub.name literal type)
      (answers : index.Answers after type representation)
      (leads : ∀ own, Leads (Library.ofOutcomes outcomes).stubs.typealiases
        representation.target own →
          Leads (Library.ofOutcomes outcomes).stubs.typealiases stub.type own) :
      ∃ own, literal.primitive? = some own ∧
        index.Fits after (Library.ofOutcomes outcomes).stubs type.shape stub.type own := by
    obtain ⟨below, own, strips, primitive, same⟩ := constant.primitive
    rw [← builds.le.config] at primitive
    have inner := builds.fits clean primitive _ [] strips answers.represented
    exact ⟨own, same, inner.through (fun _ => Iff.rfl) leads⟩
  rw [(Library.allProperties_ofOutcomes outcomes).mem_iff] at member
  obtain ⟨built, isBuilt, inside⟩ := List.mem_flatMap.mp member
  obtain ⟨⟨decl, result⟩, listed, same⟩ := List.mem_filterMap.mp isBuilt
  cases result with
  | error error => cases same
  | ok given =>
      cases same
      have declared := builds.mem_declarations listed
      rcases (builds.gives listed).constantOf inside kind with isMacro |
          ⟨type, base, answers, constant, sort⟩
      · cases decl with
        | macroConstant decl =>
            rcases builds.constants_of_macro listed stub inside literal kind with text |
                ⟨name, number, representation, answers, same⟩
            · exact .inl ⟨decl, declared, text⟩
            · have constant := ConstantOf.number number
              rw [← name] at constant
              obtain ⟨own, primitive, fit⟩ := fits constant answers fun _ leads => same ▸ leads
              exact .inr ⟨_, declared, decl.type, own, constant, primitive, fit⟩
        | _ => cases isMacro
      · rw [builds.le.config] at constant
        obtain ⟨own, primitive, fit⟩ := fits constant answers (by
          rcases sort with same | ⟨id, name, same, isAlias⟩
          · exact fun _ leads => same ▸ leads
          · exact fun _ leads => same ▸ .through (mem_typealiases_of_built listed isAlias) leads)
        exact .inr ⟨decl, declared, type, own, constant, primitive, fit⟩

/-- A strict enumeration, and a macro for one of its values. -/
def palette : Index where
  enums := .ofList [{
    id := ⟨"color"⟩, name := some "Color", base := .uint, constants := [⟨"RED", 0, false⟩] }]
  macroConstants := [⟨"DEFAULT_COLOR", ⟨"Color", false, .enumeration ⟨"color"⟩⟩, .integer 0⟩]

/-- The literal is a `UInt`, but the type of the constant is the class. -/
theorem constants_fit_palette : ∃ library after,
    palette.build.run (.start {}) = (.ok library, after) ∧ library.skipped = [] ∧
      ∃ stub ∈ library.stubs.allProperties, ∃ literal, stub.kind = .constant literal ∧
        literal.primitive? = some (.primitive "UInt") ∧
        ¬StandsFor library.stubs.typealiases stub.type (.primitive "UInt") ∧
        ∃ decl ∈ palette.declarations, ∃ type,
          palette.ConstantOf {} decl stub.name literal type ∧
          palette.Fits after library.stubs type.shape stub.type (.primitive "UInt") := by
  obtain ⟨library, after, built, fits⟩ := constants_fit palette (.start {})
  have computed : (match (palette.build.run (.start {})).1 with
      | .ok library => library.skipped.isEmpty && library.stubs.typealiases.isEmpty &&
          library.stubs.allProperties.any fun stub =>
            match stub.type.text, stub.kind with
            | text, .constant literal =>
                text = "Color" && literal.primitive? = some (.primitive "UInt")
            | _, .val _ | _, .var .. => false
      | .error _ => false) = true := by decide +kernel
  rw [built] at computed
  simp only [Bool.and_eq_true, List.isEmpty_iff, List.any_eq_true] at computed
  obtain ⟨⟨clean, noAliases⟩, stub, member, isUInt⟩ := computed
  split at isUInt
  case h_1 literal kind =>
    rw [Bool.and_eq_true, decide_eq_true_eq, decide_eq_true_eq] at isUInt
    obtain ⟨text, isUInt⟩ := isUInt
    refine ⟨library, after, built, clean, stub, member, literal, kind, isUInt, ?_, ?_⟩
    · rintro ⟨leads, -⟩
      rw [noAliases] at leads
      generalize stub.type = type at leads text
      cases leads with
      | here => exact absurd text (by decide)
      | through inside => cases inside
    · rcases fits clean stub member literal kind with ⟨decl, -, isText⟩ |
          ⟨decl, declared, type, own, constant, same, fit⟩
      · obtain ⟨text, -, rfl⟩ := isText.literal
        simp [Constant.primitive?, Classifier.primitive] at isUInt
      · cases isUInt.symm.trans same
        exact ⟨decl, declared, type, constant, fit⟩
  case h_2 => cases isUInt
  case h_3 => cases isUInt

end Index

end NativeBindings
