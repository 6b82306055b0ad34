import NativeBindings.Proofs.Build.Contributions
import NativeBindings.Proofs.Mapping.Answered
import NativeBindings.Proofs.Mapping.Compared

namespace NativeBindings

/-! # What the platform does not decide

The platform decides what some types are called and whether integers have signs.  Under
two configurations that differ in it, runs stay twins: the same declarations have names,
and what a representation is to native code is the same.
-/

/-- A type's information but for the signs of integers. -/
def TypeInfo.signless : TypeInfo → TypeInfo
  | .primitive size _ false => .primitive size false false
  | info => info

/-- What a representation is to native code. -/
def Representation.nativeSide (representation : Representation) : Marshalling × TypeInfo :=
  (representation.marshalling, representation.info.signless)

namespace View

/-- The view that leaves numbers alone, and takes all names of types and all signs as one. -/
def blurred : View := ⟨id, strictMono_id, true⟩

theorem same_blurred {first second : Option Classifier} (same : first.isSome = second.isSome) :
    blurred.Same first second := by
  cases first <;> cases second <;> first | rfl | cases same

/-- Only the names of enumerations are blurred beside the signs. -/
theorem Same.signless {first second : TypeInfo} (same : blurred.Same first second)
    (named : ∀ name strict other again, first = .enumeration name strict →
      second = .enumeration other again → name = other) : first.signless = second.signless := by
  cases first with
  | primitive size signed floating =>
      cases second with
      | primitive =>
          obtain ⟨rfl, signs, rfl⟩ := TypeInfo.primitive.inj same
          cases floating with
          | true =>
              obtain rfl : signed = _ := by simpa [blurred] using signs
              rfl
          | false => rfl
      | _ => cases same
  | enumeration name strict =>
      cases second with
      | enumeration other again =>
          cases named _ _ _ _ rfl rfl
          obtain ⟨-, rfl⟩ := TypeInfo.enumeration.inj same
          rfl
      | _ => cases same
  | _ => cases second <;> first | (cases same; rfl) | cases same

end View

namespace Run

/-- Has a declaration been asked for, and does it have a name? -/
def hasName (run : Run) (id : DeclId) : Option Bool :=
  (run.classifiers.get? id).map (·.isSome)

/-- Two runs under configurations that differ in platform and mode only, which have come to
the same point. -/
structure Twins (first second : Run) : Prop where
  config : ∃ platform mode, second.config = { first.config with platform, mode }
  package : second.package = first.package
  nextStub : second.nextStub = first.nextStub
  wrapperNames : second.wrapperNames = first.wrapperNames
  hasName : second.hasName = first.hasName

theorem twins_start (config : Config) (platform : Platform) (mode : Mode) :
    (start config).Twins (start { config with platform, mode }) :=
  ⟨⟨platform, mode, rfl⟩, rfl, rfl, rfl, rfl⟩

end Run

namespace Index

variable {index : Index} {run : Run}

/-- Which declarations have names is decided by what was asked, not by what they are called. -/
theorem hasName_classifier (decl : Declaration) (run : Run) :
    ((index.classifier decl).run run).1.isSome =
        (decl.typeId?.any fun id => (run.hasName id).getD decl.hasTypeName) ∧
      ((index.classifier decl).run run).2.hasName = fun id =>
        if decl.typeId? = some id then some ((run.hasName id).getD decl.hasTypeName)
        else run.hasName id := by
  cases typeId : decl.typeId? with
  | none =>
      rw [index.classifier_run_untyped typeId]
      exact ⟨rfl, rfl⟩
  | some id =>
      cases known : run.classifiers.get? id with
      | some answer =>
          rw [index.classifier_run_known typeId known]
          refine ⟨by simp [Run.hasName, known], funext fun other => ?_⟩
          split
          case isTrue same =>
            cases same
            simp [Run.hasName, known]
          case isFalse => rfl
      | none =>
          obtain ⟨decided, others⟩ := @decideClassifier_run index run decl id
          rw [index.classifier_run_new typeId known, others]
          refine ⟨by simp [Run.hasName, known, decided], funext fun other => ?_⟩
          unfold Run.hasName
          rw [SlotMap.get?_insert]
          by_cases same : id = other
          · cases same
            simp [known, decided]
          · simp [same]

end Index

/-- Twins side by side. -/
def Comparison.ofTwins : Comparison where
  view := .blurred
  inStep := Run.Twins
  mayReach _ := True
  mayReach_of_le _ _ := trivial

theorem Comparison.simulates_ofTwins (index : Index) : ofTwins.Simulates index where
  config twins := by
    obtain ⟨platform, mode, same⟩ := twins.config
    exact ⟨platform, mode, same, nofun⟩
  classifier decl _ := by
    refine ⟨index.grows_classifier decl, fun first second twins _ => ?_⟩
    obtain ⟨answer, names⟩ := index.hasName_classifier decl first
    obtain ⟨again, others⟩ := index.hasName_classifier decl second
    rw [twins.hasName] at again others
    refine ⟨⟨?_, ?_, ?_, ?_, others.trans names.symm⟩, View.same_blurred (answer.trans again.symm)⟩
    all_goals
      obtain ⟨_, _, _, one⟩ := index.classifier_frame decl first
      obtain ⟨_, _, _, two⟩ := index.classifier_frame decl second
      rw [one, two]
    · exact twins.config
    · exact twins.package
    · exact twins.nextStub
    · exact twins.wrapperNames
  freshStub := by
    refine ⟨Run.grows_freshStub, fun first second twins _ => ?_⟩
    refine ⟨⟨twins.config, twins.package, ?_, twins.wrapperNames, twins.hasName⟩, ?_⟩
    · exact congrArg (· + 1) twins.nextStub
    · exact congrArg StubId.mk twins.nextStub.symm

/-- The name of an enumeration behind its scopes.  If it is closed, the name is part of what a
type is; no platform changes it. -/
def EnumDecl.ownName (decl : EnumDecl) (package : String) : Option Classifier :=
  decl.name.map fun name => ⟨package, simpleName name⟩

namespace Index

/-- The closed enumeration that a type comes down to. -/
inductive Closes (index : Index) (config : Config) : TypeShape → EnumDecl → Prop
  | closed {id decl} : index.enums.get? id = some decl → decl.name.isNone = false →
      config.isStrict decl → Closes index config (.enumeration id) decl
  | base {id decl found} : index.enums.get? id = some decl →
      (decl.name.isNone = false → config.isStrict decl = false) →
      Closes index config decl.base.shape found → Closes index config (.enumeration id) found
  | aliased {id} {decl : TypedefDecl} {found} : index.typedefs.get? id = some decl →
      Closes index config decl.aliased.shape found → Closes index config (.named id) found

/-- Enumerations are known by no names but their own. -/
def OwnsEnums (index : Index) (run : Run) : Prop :=
  ∀ decl : EnumDecl, .enumeration decl ∈ index.declarations →
    ∀ answer, run.classifiers.get? decl.id = some answer → answer = decl.ownName run.package

variable {index : Index} {run : Run} {config other : Config} {shape : TypeShape}

theorem Closes.unique {first second : EnumDecl} (closes : index.Closes config shape first)
    (again : index.Closes config shape second) : first = second := by
  induction closes with
  | closed found isNamed strict =>
      cases again with
      | closed same => exact Option.some.inj (found.symm.trans same)
      | base same isOpen =>
          cases found.symm.trans same
          cases strict.symm.trans (isOpen isNamed)
  | base found isOpen _ ih =>
      cases again with
      | closed same isNamed strict =>
          cases found.symm.trans same
          cases strict.symm.trans (isOpen isNamed)
      | base same _ again =>
          cases found.symm.trans same
          exact ih again
  | aliased found _ ih =>
      cases again with
      | aliased same again =>
          cases found.symm.trans same
          exact ih again

theorem Closes.congr {decl : EnumDecl} (closes : index.Closes config shape decl)
    (strict : other.isStrict = config.isStrict) : index.Closes other shape decl := by
  induction closes with
  | closed found isNamed isStrict => exact .closed found isNamed (strict ▸ isStrict)
  | base found isOpen _ ih => exact .base found (strict ▸ isOpen) ih
  | aliased found _ ih => exact .aliased found ih

/-- What comes down to an enumeration bears its name. -/
theorem Represented.closes {representation : Representation}
    (represented : index.Represented run shape representation) {name : Classifier} {strict : Bool}
    (info : representation.info = .enumeration name strict) :
    ∃ decl, index.Closes run.config shape decl ∧ run.Names (.enumeration decl) name := by
  induction represented with
  | char known | integer known =>
      unfold integerRepresentation? at known
      obtain ⟨_, -, rfl⟩ := Option.map_eq_some_iff.mp known
      cases info
  | float known =>
      unfold floatRepresentation? at known
      split at known <;> cases known <;> cases info
  | anonymousEnum found unnamed _ ih =>
      obtain ⟨decl, closes, names⟩ := ih info
      exact ⟨decl, .base found (fun isNamed => by simp [isNamed] at unnamed) closes, names⟩
  | strictEnum found isNamed names strict =>
      cases info
      exact ⟨_, .closed found isNamed strict, names⟩
  | openEnum found isNamed _ isOpen _ ih =>
      obtain ⟨decl, closes, names⟩ := ih info
      exact ⟨decl, .base found (fun _ => isOpen) closes, names⟩
  | seenThrough found _ _ ih | kept found _ _ _ ih =>
      obtain ⟨decl, closes, names⟩ := ih info
      exact ⟨decl, .aliased found closes, names⟩
  | _ => cases info

theorem ownsEnums_start (index : Index) (config : Config) : index.OwnsEnums (.start config) := by
  intro decl _ answer known
  cases known

/-- A question for a name keeps the names of enumerations apart unless it is for a namesake of
another kind. -/
theorem OwnsEnums.classifier (owns : index.OwnsEnums run) {asked : Declaration}
    (own : ∀ decl : EnumDecl, .enumeration decl ∈ index.declarations →
      asked.typeId? = some decl.id → asked = .enumeration decl) :
    index.OwnsEnums ((index.classifier asked).run run).2 := by
  intro decl declared answer known
  rw [(index.grows_classifier asked run).package]
  cases typeId : asked.typeId? with
  | none =>
      rw [index.classifier_run_untyped typeId] at known
      exact owns decl declared answer known
  | some id =>
      cases before : run.classifiers.get? id with
      | some answer =>
          rw [index.classifier_run_known typeId before] at known
          exact owns decl declared _ known
      | none =>
          rw [index.classifier_run_new typeId before, decideClassifier_run.2,
            SlotMap.get?_insert] at known
          split at known
          case isFalse => exact owns decl declared answer known
          case isTrue same =>
            cases same
            cases own decl declared typeId
            rw [decideClassifier_enumeration] at known
            exact (Option.some.inj known).symm

/-- An enumeration may always be asked for its name. -/
theorem OwnsEnums.enumeration (owns : index.OwnsEnums run) {asked : EnumDecl}
    (listed : .enumeration asked ∈ index.declarations) :
    index.OwnsEnums ((index.classifier (.enumeration asked)).run run).2 := by
  refine owns.classifier fun decl declared typeId => ?_
  have same : asked.id = decl.id := Option.some.inj typeId
  have found := get?_of_mem_declarations_enumeration declared
  rw [← same, get?_of_mem_declarations_enumeration listed] at found
  exact congrArg Declaration.enumeration (Option.some.inj found)

theorem OwnsEnums.asked (owns : index.OwnsEnums run) {decl : EnumDecl}
    (listed : .enumeration decl ∈ index.declarations) {name : Classifier} {mid : Run}
    (asked : (index.named (.enumeration decl)).run run = (some name, mid)) :
    run ≤ mid ∧ index.OwnsEnums mid ∧ mid.classifiers.get? decl.id = some (some name) := by
  replace asked : (index.classifier (.enumeration decl)).run run = (some name, mid) := asked
  have le := index.grows_classifier (.enumeration decl) run
  have keeps := owns.enumeration listed
  have known := @classifier_known index (.enumeration decl) decl.id rfl run
  rw [asked] at le keeps known
  exact ⟨le, keeps, known⟩

theorem keeping_ownsEnums (apart : index.KindsApart) : index.Keeping index.OwnsEnums where
  classifier _ listed _ owns :=
    owns.classifier fun _ declared => apart.enumeration declared listed
  freshStub _ owns := owns
  recordStrictness _ _ _ owns := owns

end Index

theorem Represents.run_bind_of_some {α β : Type} {ask : Represents α} {next : α → Represents β}
    {run : Run} {result : β} (found : ((ask >>= next).run run).1 = some result) :
    ∃ answer mid, ask.run run = (some answer, mid) ∧
      (ask >>= next).run run = (next answer).run mid := by
  rw [run_bind] at found ⊢
  rcases asked : ask.run run with ⟨_ | answer, mid⟩
  · rw [asked] at found
    cases found
  · exact ⟨answer, mid, rfl, rfl⟩

namespace Index

variable {index : Index} {run : Run} {shape : TypeShape}

section Follow

variable {follow : QualType → Represents Representation}
  (follows : ∀ {type : QualType} {decl : EnumDecl} {run : Run} {representation : Representation},
    index.OwnsEnums run → index.Closes run.config type.shape decl →
      ((follow type).run run).1 = some representation →
        ((follow type).run run).2.classifiers.get? decl.id = some (decl.ownName run.package))

include follows

/-- On the way to a closed enumeration nothing but enumerations is asked for a name. -/
theorem known_of_closes {decl : EnumDecl} {representation : Representation}
    (owns : index.OwnsEnums run) (closes : index.Closes run.config shape decl)
    (found : ((index.representShape follow shape).run run).1 = some representation) :
    ((index.representShape follow shape).run run).2.classifiers.get? decl.id =
      some (decl.ownName run.package) := by
  cases closes with
  | closed isEnum isNamed strict =>
      rw [representShape, representEnumeration_found _ _ isEnum, if_neg (by simp [isNamed])]
        at found ⊢
      obtain ⟨name, mid, asked, rest⟩ := Represents.run_bind_of_some found
      obtain ⟨le, keeps, known⟩ := owns.asked (mem_declarations_enumeration isEnum) asked
      rw [rest, Represents.run_get, le.config, if_pos strict]
      have own := keeps decl (mem_declarations_enumeration isEnum) _ known
      rw [le.package] at own
      exact known.trans (congrArg some own)
  | @base _ outer _ isEnum isOpen closes =>
      rw [representShape, representEnumeration_found _ _ isEnum] at found ⊢
      split at found
      case isTrue unnamed =>
        rw [if_pos unnamed]
        exact follows owns closes found
      case isFalse isNamed =>
        rw [if_neg isNamed]
        obtain ⟨name, mid, asked, rest⟩ := Represents.run_bind_of_some found
        obtain ⟨le, keeps, -⟩ := owns.asked (mem_declarations_enumeration isEnum) asked
        rw [Represents.run_get, le.config, if_neg (by simp [isOpen, isNamed])] at rest
        rw [rest] at found ⊢
        obtain ⟨base, last, followed, ends⟩ := Represents.run_bind_of_some found
        have known := follows keeps (le.config ▸ closes) (congrArg Prod.fst followed)
        rw [followed, le.package] at known
        rw [ends]
        exact known
  | @aliased _ typedef _ isTypedef closes =>
      rw [representShape, representTypedef_found _ _ isTypedef] at found ⊢
      obtain ⟨aliased, mid, followed, rest⟩ := Represents.run_bind_of_some found
      have known := follows owns closes (congrArg Prod.fst followed)
      rw [followed] at known
      rw [rest] at found ⊢
      split at found
      case isFalse seenThrough =>
        rw [if_neg seenThrough]
        exact known
      case isTrue keeps =>
        rw [if_pos keeps]
        obtain ⟨name, last, asked, ends⟩ := Represents.run_bind_of_some found
        have le : mid ≤ ((index.classifier (.typedef typedef)).run mid).2 :=
          index.grows_classifier _ mid
        replace le : mid ≤ last := le.trans_eq (congrArg Prod.snd asked)
        rw [ends]
        exact le.classifiers known

end Follow

theorem known_of_representWithin {rounds : Nat} {type : QualType} {decl : EnumDecl}
    {representation : Representation} (owns : index.OwnsEnums run)
    (closes : index.Closes run.config type.shape decl)
    (found : ((index.representWithin rounds type).run run).1 = some representation) :
    ((index.representWithin rounds type).run run).2.classifiers.get? decl.id =
      some (decl.ownName run.package) := by
  induction rounds generalizing type decl run representation with
  | zero => exact known_of_closes (fun _ _ nothing => by cases nothing) owns closes found
  | succ rounds ih => exact known_of_closes ih owns closes found

/-- A closed enumeration is called by its own name, on any platform. -/
theorem name_of_represent {type : QualType} {representation : Representation}
    (owns : index.OwnsEnums run)
    (found : ((index.represent type).run run).1 = some representation) {name : Classifier}
    {strict : Bool} (info : representation.info = .enumeration name strict) :
    ∃ decl, index.Closes run.config type.shape decl ∧
      some name = decl.ownName run.package := by
  have finds := index.finds_represent type
  obtain ⟨decl, closes, id, typeId, known⟩ := (finds.sound run _ found).closes info
  have le : run ≤ ((index.represent type).run run).2 := finds.grows run
  rw [le.config] at closes
  cases typeId
  have own := known_of_representWithin owns closes found
  exact ⟨decl, closes, Option.some.inj (known.symm.trans own)⟩

/-- In twins, a type is represented in both or in none, and to native code it is the same. -/
theorem nativeSide_of_twins {first second : Run} (twins : first.Twins second)
    (owns : index.OwnsEnums first) (again : index.OwnsEnums second) (type : QualType) :
    ((index.represent type).run second).1.map Representation.nativeSide =
      ((index.represent type).run first).1.map Representation.nativeSide := by
  have agree := (Comparison.simulates_ofTwins index).represent type
  have same : View.blurred.Same ((index.represent type).run first).1
    ((index.represent type).run second).1 := (agree.2 first second twins trivial).2
  cases one : ((index.represent type).run first).1 with
  | none =>
      cases two : ((index.represent type).run second).1 with
      | none => rfl
      | some other =>
          rw [one, two] at same
          cases same
  | some representation =>
      cases two : ((index.represent type).run second).1 with
      | none =>
          rw [one, two] at same
          cases same
      | some other =>
          rw [one, two] at same
          have same : View.blurred.Same representation other := Option.some.inj same
          have marshalling : representation.marshalling = other.marshalling :=
            same.invariant Representation.marshalling fun _ _ => rfl
          have info : representation.info.signless = other.info.signless := by
            refine same.info.signless fun name strict last otherStrict here there => ?_
            obtain ⟨decl, closes, own⟩ := name_of_represent owns one here
            obtain ⟨found, closesAgain, ownAgain⟩ := name_of_represent again two there
            obtain ⟨platform, mode, config⟩ := twins.config
            rw [config] at closesAgain
            have strict : { first.config with platform, mode }.isStrict = first.config.isStrict :=
              rfl
            cases closes.unique (closesAgain.congr strict.symm)
            rw [twins.package, ← own] at ownAgain
            exact (Option.some.inj ownAgain).symm
          simp [Representation.nativeSide, marshalling, info]

end Index

end NativeBindings
