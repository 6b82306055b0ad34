import NativeBindings.Naming.Manifest
import NativeBindings.Proofs.Build.Clashes
import NativeBindings.Proofs.Data.SortedMap

namespace NativeBindings

/-! # Exported forward declarations

The manifest lists what the configuration exports by simple name, and looks for the names
among the forward declarations.  These are entered when they are asked about for the first
time, and a later one takes the entry of an earlier one of its name.  On the virtual machine
structs and classes are never entered, so they are listed in a package where they are not
declared; and a protocol that is called like a struct takes its entry.
-/

/-- The simple name of a declaration that is not defined. -/
def Declaration.undefinedName? : Declaration → Option String
  | .struct decl => if decl.isForward then decl.name.map simpleName else none
  | .nativeClass decl => if decl.isForward then some (simpleName decl.name) else none
  | .objcProtocol decl => if decl.isForward then some (simpleName decl.name) else none
  | .objcClass decl => if decl.isForward then some (simpleName decl.name) else none
  | .function _ | .global _ | .enumeration _ | .typedef _ | .macroConstant _ | .wrappedMacro _
  | .objcCategory _ => none

/-- A struct or a native class that is not defined, and its simple name. -/
inductive UndefinedRecord : Declaration → String → Prop
  | struct {decl : StructDecl} {name : String} : decl.isForward → decl.name = some name →
      UndefinedRecord (.struct decl) (simpleName name)
  | nativeClass {decl : ClassDecl} : decl.isForward →
      UndefinedRecord (.nativeClass decl) (simpleName decl.name)

namespace UndefinedRecord

variable {index : Index} {decl : Declaration} {name : String}
  (isRecord : UndefinedRecord decl name)

include isRecord

theorem typeId? : ∃ id, decl.typeId? = some id := by
  cases isRecord <;> exact ⟨_, rfl⟩

theorem named : decl.isUnnamedStruct = false := by
  cases isRecord with
  | struct _ isNamed => simp [Declaration.isUnnamedStruct, isNamed]
  | nativeClass => rfl

theorem uncertain : decl.kind ≠ .typedef ∧ decl.kind ≠ .enumeration := by
  cases isRecord <;> exact ⟨nofun, nofun⟩

theorem undefinedName? : decl.undefinedName? = some name := by
  cases isRecord with
  | struct undefined isNamed => simp [Declaration.undefinedName?, undefined, isNamed]
  | nativeClass undefined => simp [Declaration.undefinedName?, undefined]

theorem simpleName_eq : simpleName name = name := by
  cases isRecord <;> exact simpleName_simpleName _

theorem naming_native : index.naming .native decl = .forward forwardStructs name := by
  cases isRecord with
  | struct undefined isNamed => simp [Index.naming, isNamed, undefined]
  | nativeClass undefined => simp [Index.naming, undefined]

theorem naming_jvm :
    ∃ own, index.naming .jvm decl = .named own ∧ (own = name ∨ own = name ++ "Struct") := by
  cases isRecord with
  | @struct decl name undefined isNamed =>
      cases claimed : index.hasTypedefNamed (simpleName name) (some decl.id) with
      | true => exact ⟨_, by simp [Index.naming, isNamed, claimed], .inr rfl⟩
      | false => exact ⟨_, by simp [Index.naming, isNamed, claimed], .inl rfl⟩
  | nativeClass undefined => exact ⟨_, by simp [Index.naming], .inl rfl⟩

/-- It belongs to the runtime on the native platform, and to the generated package on the
virtual machine. -/
theorem settledClassifier (config : Config) :
    ∃ classifier, index.settledClassifier config decl = some classifier ∧
      (config.platform = .native → classifier = ⟨forwardStructs, name⟩) ∧
      (config.platform = .jvm → classifier.package = config.effectivePackage ∧
        (classifier.name = name ∨ classifier.name = name ++ "Struct")) := by
  cases platform : config.platform with
  | native =>
      refine ⟨⟨forwardStructs, name⟩, ?_, fun _ => rfl, fun onJvm => absurd onJvm (by decide)⟩
      rw [Index.settledClassifier, platform, isRecord.naming_native]
  | jvm =>
      obtain ⟨own, naming, named⟩ := @isRecord.naming_jvm index
      refine ⟨⟨config.effectivePackage, own⟩, ?_, fun onNative => absurd onNative (by decide),
        fun _ => ⟨rfl, named⟩⟩
      rw [Index.settledClassifier, platform, naming]

end UndefinedRecord

/-- A renamed struct has no name of this package: there would have to be a dot in the midst of
the package's own name. -/
theorem append_ne_renamed {owner package name : String}
    (noDot : owner.toList[owner.toList.length - 6]? ≠ some '.') :
    owner ++ "." ++ name ≠ package ++ "." ++ (name ++ "Struct") := by
  intro same
  have chars : owner.toList ++ '.' :: name.toList =
      package.toList ++ '.' :: (name.toList ++ "Struct".toList) := by
    simpa using congrArg String.toList same
  have lengths : owner.toList.length = package.toList.length + 6 := by
    have whole := congrArg List.length chars
    have ending : "Struct".toList.length = 6 := rfl
    simp only [List.length_append, List.length_cons, ending] at whole
    omega
  have dot := congrArg (·[package.toList.length]?) chars
  simp only [List.getElem?_append_right (Nat.le_refl _), Nat.sub_self, List.getElem?_cons_zero] at dot
  rw [List.getElem?_append_left (by omega)] at dot
  rw [lengths, Nat.add_sub_cancel] at noDot
  exact noDot dot

/-- In the packages of forward declarations nothing is called like a struct or a class of
another package, be it renamed or not. -/
theorem qualifiedName_eq_iff {owner name : String} {classifier : Classifier}
    (isOwner : owner = forwardStructs ∨ owner = forwardObjCProtocols)
    (named : classifier.name = name ∨ classifier.name = name ++ "Struct") :
    (Classifier.mk owner name).qualifiedName = classifier.qualifiedName ↔
      classifier = ⟨owner, name⟩ := by
  obtain ⟨package, own⟩ := classifier
  have notEmpty : owner ≠ "" := by rcases isOwner with rfl | rfl <;> decide
  have noDot : owner.toList[owner.toList.length - 6]? ≠ some '.' := by
    rcases isOwner with rfl | rfl <;> decide
  have long : 6 < owner.length := by rcases isOwner with rfl | rfl <;> decide
  refine ⟨fun same => ?_, fun same => by rw [same]⟩
  simp only [Classifier.qualifiedName, if_neg notEmpty] at same
  split at same
  · -- A package that is empty leaves a name that is too short.
    have lengths := congrArg String.length same
    have ending : "Struct".length = 6 := rfl
    rcases named with rfl | rfl <;> simp only [String.length_append, ending] at lengths <;> omega
  · rcases named with rfl | rfl
    · rw [String.append_left_inj, String.append_left_inj] at same
      rw [same]
    · exact absurd same (append_ne_renamed noDot)

namespace Run

/-- What the manifest lists as exported, in the order of the configuration. -/
def exportedNames (run : Run) : List String :=
  run.config.exportForwardDeclarations.map run.forwardName

theorem lookup_manifest (run : Run) :
    run.manifest.lookup "exportForwardDeclarations" =
      some (String.intercalate " " run.exportedNames) := rfl

/-- Was one declaration asked about for the first time before the other was? -/
def MetBefore (run : Run) (first second : DeclId) : Prop :=
  [first, second].Sublist run.classifiers.keys

/-- Behind the place of a declaration stands what was met later. -/
theorem metBefore_iff {run : Run} {first second : DeclId} {front back : List DeclId}
    (order : run.classifiers.keys = front ++ first :: back) :
    run.MetBefore first second ↔ second ∈ back := by
  have distinct : (front ++ first :: back).Nodup := order ▸ run.classifiers.inStep.distinct
  have notBefore : first ∉ front := fun member =>
    (List.nodup_append.mp distinct).2.2 first member first List.mem_cons_self rfl
  rw [MetBefore, order, ← List.singleton_sublist]
  constructor
  · intro ordered
    obtain ⟨early, late, split, inFront, inBack⟩ := List.sublist_append_iff.mp ordered
    cases early with
    | nil =>
        cases split
        exact List.cons_sublist_cons.mp inBack
    | cons head tail =>
        obtain ⟨rfl, -⟩ := List.cons.inj split
        exact absurd (inFront.subset List.mem_cons_self) notBefore
  · exact fun behind => (behind.cons_cons first).trans (List.sublist_append_right front _)

end Run

namespace Index

variable {index : Index} {config : Config} {run : Run}

/-- The entry that a declaration makes among the forward declarations. -/
def listing? (index : Index) (platform : Platform) (decl : Declaration) :
    Option (String × Classifier) :=
  match index.naming platform decl with
  | .forward package name => some (name, ⟨package, name⟩)
  | .named _ | .numbered | .unnamed => none

/-- The entry of the declaration that has an identity. -/
def listingOf? (index : Index) (platform : Platform) (id : DeclId) :
    Option (String × Classifier) :=
  (index.declarations.find? (·.typeId? = some id)).bind (index.listing? platform)

theorem KindsApart.find?_typeId (apart : index.KindsApart) {decl : Declaration} {id : DeclId} :
    index.declarations.find? (·.typeId? = some id) = some decl ↔
      decl ∈ index.declarations ∧ decl.typeId? = some id := by
  constructor
  · intro found
    exact ⟨List.mem_of_find?_eq_some found, by simpa using List.find?_some found⟩
  · rintro ⟨declared, typeId⟩
    have listed : (index.declarations.find? (·.typeId? = some id)).isSome :=
      List.find?_isSome.mpr ⟨decl, declared, by simpa using typeId⟩
    obtain ⟨other, found⟩ := Option.isSome_iff_exists.mp listed
    have otherTypeId : other.typeId? = some id := by simpa using List.find?_some found
    rw [found, apart.unique declared (List.mem_of_find?_eq_some found) typeId otherTypeId]

theorem listingOf?_eq_some_iff (apart : index.KindsApart) {platform : Platform} {id : DeclId}
    {entry : String × Classifier} :
    index.listingOf? platform id = some entry ↔ ∃ decl ∈ index.declarations,
      decl.typeId? = some id ∧ index.listing? platform decl = some entry := by
  rw [listingOf?, Option.bind_eq_some_iff]
  simp only [apart.find?_typeId, and_assoc]

theorem listingOf?_of_declared (apart : index.KindsApart) (platform : Platform)
    {decl : Declaration} {id : DeclId} (declared : decl ∈ index.declarations)
    (typeId : decl.typeId? = some id) :
    index.listingOf? platform id = index.listing? platform decl := by
  rw [listingOf?, apart.find?_typeId.mpr ⟨declared, typeId⟩]
  rfl

/-- The forward declarations are entered in the order of first questions. -/
def ListsForward (index : Index) (run : Run) : Prop :=
  run.forwardDeclarations = SortedMap.insertAll ∅
    (run.classifiers.keys.filterMap (index.listingOf? run.config.platform))

/-- What is decided for a declaration that was not met before is entered if it is to be. -/
theorem decideClassifier_listing (decl : Declaration) (id : DeclId) (run : Run) :
    ∃ structs, ((index.decideClassifier decl id).run run).2 =
      { run with
        anonymousStructs := structs
        forwardDeclarations := run.forwardDeclarations.insertAll
          (index.listing? run.config.platform decl).toList } := by
  rw [decideClassifier_run_naming, listing?]
  cases index.naming run.config.platform decl with
  | unnamed | named name | forward package name => exact ⟨_, rfl⟩
  | numbered =>
      change ∃ _, ((Run.anonymousNumber id).run run).2 = _
      rw [Run.anonymousNumber_run]
      split <;> exact ⟨_, rfl⟩

theorem keeping_listsForward (apart : index.KindsApart) : index.Keeping index.ListsForward where
  classifier decl declared run lists := by
    cases typeId : decl.typeId? with
    | none => rwa [index.classifier_run_untyped typeId]
    | some id =>
        cases known : run.classifiers.get? id with
        | some answer => rwa [index.classifier_run_known typeId known]
        | none =>
            obtain ⟨structs, decided⟩ := index.decideClassifier_listing decl id run
            have new : id ∉ run.classifiers.keys := SlotMap.get?_eq_none_iff.mp known
            rw [index.classifier_run_new typeId known, decided, ListsForward,
              SlotMap.keys_insert, if_neg new, List.filterMap_append, SortedMap.insertAll_append]
            simp only [List.filterMap_cons, List.filterMap_nil]
            rw [← show run.forwardDeclarations = _ from lists,
              listingOf?_of_declared apart _ declared typeId]
            cases index.listing? run.config.platform decl <;> rfl
  freshStub _ lists := lists
  recordStrictness _ _ _ lists := lists

theorem listsForward_after (apart : index.KindsApart) (config : Config)
    (queries : List index.Query) : index.ListsForward (index.after config queries) :=
  (keeping_listsForward apart).foldl queries rfl

/-- A protocol that is not defined, and its name in the target language. -/
structure UndefinedProtocol (index : Index) (protocol : ObjCProtocolDecl) (name : String) :
    Prop where
  declared : .objcProtocol protocol ∈ index.declarations
  undefined : protocol.isForward
  called : protocol.name ++ "Protocol" = name

theorem UndefinedProtocol.listing? {protocol : ObjCProtocolDecl} {name : String}
    (undefined : index.UndefinedProtocol protocol name) (platform : Platform) :
    index.listing? platform (.objcProtocol protocol) =
      some (name, ⟨forwardObjCProtocols, name⟩) := by
  simp [Index.listing?, naming, undefined.undefined, undefined.called]

theorem listing?_native {decl : Declaration} {name : String}
    (isRecord : UndefinedRecord decl name) :
    index.listing? .native decl = some (name, ⟨forwardStructs, name⟩) := by
  rw [listing?, isRecord.naming_native]

/-- An entry is made by a record on the native platform, by a protocol or by a class. -/
theorem of_listing {platform : Platform} {decl : Declaration} {name : String}
    {classifier : Classifier} (declared : decl ∈ index.declarations)
    (listed : index.listing? platform decl = some (name, classifier)) :
    platform = .native ∧ UndefinedRecord decl name ∨
      (∃ protocol, decl = .objcProtocol protocol ∧ index.UndefinedProtocol protocol name ∧
        classifier = ⟨forwardObjCProtocols, name⟩) ∨
      ∃ objc, decl = .objcClass objc ∧ objc.isForward ∧ objc.name = name := by
  have ofRecord {simple : String} (onNative : platform = .native)
      (isRecord : UndefinedRecord decl simple) : UndefinedRecord decl name := by
    rw [onNative, listing?_native isRecord] at listed
    cases listed
    exact isRecord
  cases decl with
  | struct decl =>
      cases isNamed : decl.name with
      | none => simp [listing?, naming, isNamed] at listed
      | some full =>
          by_cases onNative : decl.isForward ∧ platform = .native
          · exact .inl ⟨onNative.2, ofRecord onNative.2 (.struct onNative.1 isNamed)⟩
          · exfalso
            simp only [listing?, naming, isNamed] at listed
            grind
  | nativeClass decl =>
      by_cases onNative : decl.isForward ∧ platform = .native
      · exact .inl ⟨onNative.2, ofRecord onNative.2 (.nativeClass onNative.1)⟩
      · exfalso
        simp only [listing?, naming] at listed
        grind
  | objcProtocol decl =>
      by_cases undefined : decl.isForward
      · have isProtocol : index.UndefinedProtocol decl (decl.name ++ "Protocol") :=
          ⟨declared, undefined, rfl⟩
        rw [isProtocol.listing?] at listed
        cases listed
        exact .inr (.inl ⟨decl, rfl, isProtocol, rfl⟩)
      · simp [listing?, naming, undefined] at listed
  | objcClass decl =>
      by_cases undefined : decl.isForward
      · simp only [listing?, naming, undefined, if_true] at listed
        cases listed
        exact .inr (.inr ⟨decl, rfl, undefined, rfl⟩)
      · simp [listing?, naming, undefined] at listed
  | enumeration decl => cases isNamed : decl.name <;> simp [listing?, naming, isNamed] at listed
  | _ => cases listed

/-- A struct or a native class that is not defined, and no other declaration that is not
defined shares its simple name. -/
structure SoleUndefined (index : Index) (decl : Declaration) (name : String) : Prop where
  declared : decl ∈ index.declarations
  isRecord : UndefinedRecord decl name
  alone : ∀ other ∈ index.declarations, other.undefinedName? = some name → other = decl

/-- Beside the declaration itself, and that on the native platform alone, only protocols make
entries under its name. -/
theorem SoleUndefined.listed {decl other : Declaration} {name : String} {classifier : Classifier}
    {platform : Platform} (sole : index.SoleUndefined decl name)
    (declared : other ∈ index.declarations)
    (listed : index.listing? platform other = some (name, classifier)) :
    platform = .native ∧ other = decl ∨
      ∃ protocol, other = .objcProtocol protocol ∧ index.UndefinedProtocol protocol name ∧
        classifier = ⟨forwardObjCProtocols, name⟩ := by
  rcases of_listing declared listed with ⟨onNative, isRecord⟩ | protocol | ⟨objc, rfl, undefined, same⟩
  · exact .inl ⟨onNative, sole.alone other declared isRecord.undefinedName?⟩
  · exact .inr protocol
  · -- A class of this name would be another declaration of the simple name.
    have simple : (Declaration.objcClass objc).undefinedName? = some name := by
      simp [Declaration.undefinedName?, undefined, same, sole.isRecord.simpleName_eq]
    have isRecord := sole.isRecord
    rw [← sole.alone _ declared simple] at isRecord
    cases isRecord

/-- What is found under a name, when after the first entries only protocols had the name. -/
theorem forwardName_of_protocols (apart : index.KindsApart) {name : String}
    {base : SortedMap String Classifier} {later : List DeclId}
    (table : run.forwardDeclarations =
      base.insertAll (later.filterMap (index.listingOf? run.config.platform)))
    (before : ∀ classifier, base.get? name = some classifier → classifier = ⟨forwardStructs, name⟩)
    (only : ∀ id ∈ later, ∀ classifier,
      index.listingOf? run.config.platform id = some (name, classifier) →
        ∃ protocol, protocol.id = id ∧ index.UndefinedProtocol protocol name ∧
          classifier = ⟨forwardObjCProtocols, name⟩) :
    ((∃ protocol, index.UndefinedProtocol protocol name ∧ protocol.id ∈ later) →
      run.forwardName name = (Classifier.mk forwardObjCProtocols name).qualifiedName) ∧
    ((¬∃ protocol, index.UndefinedProtocol protocol name ∧ protocol.id ∈ later) →
      run.forwardName name = (Classifier.mk forwardStructs name).qualifiedName) := by
  have listed {classifier : Classifier}
      (member : (name, classifier) ∈ later.filterMap (index.listingOf? run.config.platform)) :
      ∃ protocol, protocol.id ∈ later ∧ index.UndefinedProtocol protocol name ∧
        classifier = ⟨forwardObjCProtocols, name⟩ := by
    obtain ⟨id, inLater, entered⟩ := List.mem_filterMap.mp member
    obtain ⟨protocol, rfl, undefined, same⟩ := only id inLater classifier entered
    exact ⟨protocol, inLater, undefined, same⟩
  unfold Run.forwardName
  rw [table]
  constructor
  · rintro ⟨protocol, undefined, inLater⟩
    have entered : (name, ⟨forwardObjCProtocols, name⟩) ∈
        later.filterMap (index.listingOf? run.config.platform) :=
      List.mem_filterMap.mpr ⟨protocol.id, inLater, by
        rw [listingOf?_of_declared apart _ undefined.declared rfl, undefined.listing?]⟩
    have one (other : Classifier)
        (member : (name, other) ∈ later.filterMap (index.listingOf? run.config.platform)) :
        other = ⟨forwardObjCProtocols, name⟩ := by
      obtain ⟨_, _, _, same⟩ := listed member
      exact same
    rw [SortedMap.get?_insertAll_of_forall (List.mem_map_of_mem entered) one]
  · intro none
    have missing : name ∉ (later.filterMap (index.listingOf? run.config.platform)).map (·.1) := by
      intro member
      obtain ⟨⟨_, classifier⟩, inList, rfl⟩ := List.mem_map.mp member
      obtain ⟨protocol, inLater, undefined, -⟩ := listed inList
      exact none ⟨protocol, undefined, inLater⟩
    rw [SortedMap.get?_insertAll_of_notMem missing]
    cases found : base.get? name with
    | none => rfl
    | some classifier => rw [before classifier found]

/-- The entry of a struct or a class is a protocol's: it has the name, and on the native
platform, where both make entries, it was met later. -/
def Taken (index : Index) (run : Run) (decl : Declaration) (name : String) : Prop :=
  ∃ protocol, index.UndefinedProtocol protocol name ∧
    (run.config.platform = .native →
      ∃ id, decl.typeId? = some id ∧ run.MetBefore id protocol.id)

/-- The name under which a struct or a class is listed: of the package of forward structs, on
both platforms, unless a protocol has taken the entry. -/
@[mk_iff]
structure Listed (index : Index) (run : Run) (decl : Declaration) (name : String) : Prop where
  taken : index.Taken run decl name →
    run.forwardName name = (Classifier.mk forwardObjCProtocols name).qualifiedName
  free : ¬index.Taken run decl name →
    run.forwardName name = (Classifier.mk forwardStructs name).qualifiedName

section Sole

variable {decl : Declaration} {name : String} (sole : index.SoleUndefined decl name)

include sole

theorem SoleUndefined.listingOf? (apart : index.KindsApart) {platform : Platform} {id : DeclId}
    {classifier : Classifier}
    (listed : index.listingOf? platform id = some (name, classifier)) :
    platform = .native ∧ decl.typeId? = some id ∨
      ∃ protocol, protocol.id = id ∧ index.UndefinedProtocol protocol name ∧
        classifier = ⟨forwardObjCProtocols, name⟩ := by
  obtain ⟨other, declared, typeId, entry⟩ := (listingOf?_eq_some_iff apart).mp listed
  rcases sole.listed declared entry with ⟨onNative, rfl⟩ | ⟨protocol, rfl, undefined, same⟩
  · exact .inl ⟨onNative, typeId⟩
  · cases typeId
    exact .inr ⟨protocol, rfl, undefined, same⟩

/-- The name that is listed, once the declaration and all protocols of its name were met. -/
theorem SoleUndefined.isListed (apart : index.KindsApart) (lists : index.ListsForward run)
    {id : DeclId} (typeId : decl.typeId? = some id) (met : id ∈ run.classifiers.keys)
    (protocols : ∀ protocol, index.UndefinedProtocol protocol name →
      protocol.id ∈ run.classifiers.keys) : index.Listed run decl name := by
  cases platform : run.config.platform with
  | native =>
      obtain ⟨front, back, order⟩ := List.append_of_mem met
      have taken : index.Taken run decl name ↔
          ∃ protocol, index.UndefinedProtocol protocol name ∧ protocol.id ∈ back := by
        simp [Taken, platform, typeId, Run.metBefore_iff order]
      have own : index.listingOf? run.config.platform id = some (name, ⟨forwardStructs, name⟩) := by
        rw [listingOf?_of_declared apart _ sole.declared typeId, platform,
          listing?_native sole.isRecord]
      have table := lists
      rw [ListsForward, order, List.filterMap_append, List.filterMap_cons, own,
        SortedMap.insertAll_append] at table
      rw [listed_iff, taken]
      -- What was entered before the declaration itself does not matter.
      refine forwardName_of_protocols apart table (fun classifier found => ?_) ?_
      · rw [SortedMap.get?_insert, if_pos rfl] at found
        exact (Option.some.inj found).symm
      · intro other inBack classifier listed
        rw [platform] at listed
        refine (sole.listingOf? apart listed).resolve_left fun ⟨_, again⟩ => ?_
        cases typeId.symm.trans again
        have distinct : (front ++ id :: back).Nodup := order ▸ run.classifiers.inStep.distinct
        exact (List.nodup_cons.mp (List.nodup_append.mp distinct).2.1).1 inBack
  | jvm =>
      have taken : index.Taken run decl name ↔
          ∃ protocol, index.UndefinedProtocol protocol name ∧
            protocol.id ∈ run.classifiers.keys := by
        simp only [Taken, platform, reduceCtorEq, false_implies, and_true]
        exact exists_congr fun protocol =>
          ⟨fun undefined => ⟨undefined, protocols protocol undefined⟩, And.left⟩
      rw [listed_iff, taken]
      refine forwardName_of_protocols apart lists (fun _ found => nomatch found) ?_
      intro other _ classifier listed
      rw [platform] at listed
      exact (sole.listingOf? apart listed).resolve_left fun ⟨onNative, _⟩ => nomatch onNative

end Sole

/-- An attempt at a struct fails only if it has no name. -/
theorem buildStruct_error {decl : StructDecl} {error : BuildError} {after : Run}
    (fails : (index.buildStruct decl).run run = (.error error, after)) :
    after.classifiers.get? decl.id = some none := by
  unfold buildStruct at fails
  rcases named : (index.classifier (.struct decl)).run run with ⟨own?, mid⟩
  have resolved := index.resolved_run (.struct decl) decl.id run
  have typeId : (Declaration.struct decl).typeId? = some decl.id := rfl
  have known := index.classifier_known typeId run
  rw [named] at resolved known
  cases own? with
  | none =>
      rw [run_bind_error resolved] at fails
      cases fails
      exact known
  | some own =>
      have numbered (mid : Run) : (liftM Run.freshStub : Attempt StubId).run mid = (.ok _, _) :=
        Attempt.run_lift rfl
      rw [run_bind_ok resolved, run_bind_ok (numbered mid)] at fails
      split at fails
      · cases fails
      · rename_i layout _
        have fields (mid : Run) : (liftM (index.buildFields layout.fields) : Attempt _).run mid =
            (.ok _, _) := Attempt.run_lift rfl
        rw [run_bind_ok (fields _)] at fails
        cases fails

section Build

variable {after : Run} {outcomes : List Outcome} {asked : List DeclId}
  (builds : index.Builds run outcomes after)

include builds

/-- A build asks for the names of all types but those that are certain. -/
theorem Builds.met {decl : Declaration} {id : DeclId} (declared : decl ∈ index.declarations)
    (typeId : decl.typeId? = some id) (uncertain : decl.kind ≠ .typedef ∧ decl.kind ≠ .enumeration) :
    ∃ answer, after.classifiers.get? id = some answer := by
  obtain ⟨result, listed⟩ := builds.attempted declared (by simp [typeId])
  obtain ⟨start, last, attempt, le⟩ := attempted_of_mem builds listed
  rcases @known_of_attempt index _ _ typeId start with ⟨answer, known⟩ | certain
  · rw [attempt] at known
    exact ⟨answer, le.classifiers known⟩
  · exact absurd certain (not_or.mpr uncertain)

/-- A struct that has a name when a build is over was built by it. -/
theorem Builds.built_struct {decl : StructDecl} {classifier : Classifier}
    (declared : .struct decl ∈ index.declarations)
    (named : after.Names (.struct decl) classifier) :
    ∃ built, (.struct decl, .ok built) ∈ outcomes := by
  obtain ⟨result, listed⟩ := builds.attempted declared rfl
  cases result with
  | ok built => exact ⟨built, listed⟩
  | error error =>
      exfalso
      obtain ⟨start, last, attempt, le⟩ := attempted_of_mem builds listed
      obtain ⟨cause, fails⟩ := builder_error attempt
      exact not_names_of_none rfl (le.classifiers (buildStruct_error (Attempt.error_of_untabled fails))) named

end Build

/-- What is listed has the name of the declaration only if both have one package. -/
theorem exportedNames_eq_iff {decl : Declaration} {name : String} {classifier : Classifier}
    {place : Nat}
    (listed : index.Listed run decl name)
    (called : classifier.name = name ∨ classifier.name = name ++ "Struct")
    (isPlace : run.config.exportForwardDeclarations[place]? = some name) :
    run.exportedNames[place]? = some classifier.qualifiedName ↔
      index.Taken run decl name ∧ classifier = ⟨forwardObjCProtocols, name⟩ ∨
        ¬index.Taken run decl name ∧ classifier = ⟨forwardStructs, name⟩ := by
  have entry : run.exportedNames[place]? = some (run.forwardName name) := by
    simp [Run.exportedNames, isPlace]
  rw [entry, Option.some_inj]
  by_cases taken : index.Taken run decl name
  · rw [listed.taken taken, qualifiedName_eq_iff (.inr rfl) called]
    simp [taken]
  · rw [listed.free taken, qualifiedName_eq_iff (.inl rfl) called]
    simp [taken]

/-- How a struct or a class that is not defined is listed once a build is over, and what it is
called in the tree. -/
structure Exports (index : Index) (config : Config) (outcomes : List Outcome) (run : Run)
    (decl : Declaration) (name : String) (classifier : Classifier) : Prop where
  known : run.Names decl classifier
  /-- On the native platform it belongs to the runtime. -/
  native : config.platform = .native → classifier = ⟨forwardStructs, name⟩
  /-- On the virtual machine it belongs to the generated package. -/
  jvm : config.platform = .jvm → classifier.package = config.effectivePackage ∧
    (classifier.name = name ∨ classifier.name = name ++ "Struct")
  /-- A struct is declared in any case. -/
  declared : decl.kind = .struct → ∃ built, (decl, .ok built) ∈ outcomes
  /-- What it gives is a class of its classifier. -/
  stub : ∀ built, (decl, .ok built) ∈ outcomes → ∃ stub, built.elements = [.ofClass stub] ∧
    stub.classifier = classifier ∧ stub ∈ (Library.ofOutcomes outcomes).stubs.classes
  listed : index.Listed run decl name
  /-- On the native platform the listed name is that of the declaration unless a protocol has
  taken the entry. -/
  exportedNative : config.platform = .native → ∀ place : Nat,
    config.exportForwardDeclarations[place]? = some name →
      (run.exportedNames[place]? = some classifier.qualifiedName ↔ ¬index.Taken run decl name)
  /-- On the virtual machine it is only if the generated package is that of the entry, too. -/
  exportedJvm : config.platform = .jvm → ∀ place : Nat,
    config.exportForwardDeclarations[place]? = some name →
      (run.exportedNames[place]? = some classifier.qualifiedName ↔ classifier.name = name ∧
        (index.Taken run decl name ∧ config.effectivePackage = forwardObjCProtocols ∨
          ¬index.Taken run decl name ∧ config.effectivePackage = forwardStructs))

/-- A struct or a class that is not defined gives a class of its name. -/
theorem Gives.class_of_undefined {decl : Declaration} {name : String} {built : Built}
    (isRecord : UndefinedRecord decl name) (gives : index.Gives run decl built) :
    ∃ stub, built.elements = [.ofClass stub] ∧ run.Names decl stub.classifier := by
  cases isRecord with
  | struct undefined _ =>
      have missing := Option.isNone_iff_eq_none.mp undefined
      cases gives with
      | forwardStruct _ named => exact ⟨_, rfl, named⟩
      | struct defined _ => cases missing.symm.trans defined
  | nativeClass _ =>
      cases gives with
      | nativeClass named _ => exact ⟨_, rfl, named⟩

/-- When a build is over the run knows the declaration by the name that was settled for it. -/
theorem SoleUndefined.isNamed {outcomes : List Outcome} {after : Run} {asked : List DeclId}
    {decl : Declaration} {name : String} (sole : index.SoleUndefined decl name)
    (builds : index.Builds run outcomes after) (knows : index.Knows config asked after) :
    ∃ classifier, after.Names decl classifier ∧
      (config.platform = .native → classifier = ⟨forwardStructs, name⟩) ∧
      (config.platform = .jvm → classifier.package = config.effectivePackage ∧
        (classifier.name = name ∨ classifier.name = name ++ "Struct")) := by
  obtain ⟨id, typeId⟩ := sole.isRecord.typeId?
  obtain ⟨answer, met⟩ := builds.met sole.declared typeId sole.isRecord.uncertain
  obtain ⟨classifier, settled, platforms⟩ :=
    @UndefinedRecord.settledClassifier index _ _ sole.isRecord config
  have same := knows.settled decl sole.declared sole.isRecord.named id answer typeId met
  exact ⟨classifier, ⟨id, typeId, by rw [met, same, settled]⟩, platforms⟩

theorem SoleUndefined.exports {queries : List index.Query} {outcomes : List Outcome} {after : Run}
    {decl : Declaration} {name : String} (sole : index.SoleUndefined decl name)
    (apart : index.KindsApart)
    (builds : index.Builds (index.after config queries) outcomes after) :
    ∃ classifier, index.Exports config outcomes after decl name classifier := by
  obtain ⟨asked, knows⟩ := builds.knows apart
  obtain ⟨classifier, named, native, jvm⟩ := sole.isNamed builds knows
  obtain ⟨id, typeId, met⟩ := named
  have isMet {id : DeclId} {answer : Option Classifier}
      (met : after.classifiers.get? id = some answer) : id ∈ after.classifiers.keys :=
    SlotMap.mem_keys_of_get? met
  have lists := (keeping_listsForward apart).builds builds (listsForward_after apart config queries)
  have protocols (protocol : ObjCProtocolDecl)
      (undefined : index.UndefinedProtocol protocol name) :
      protocol.id ∈ after.classifiers.keys := by
    obtain ⟨_, met⟩ := builds.met undefined.declared rfl ⟨nofun, nofun⟩
    exact isMet met
  have listed := sole.isListed apart lists typeId (isMet met) protocols
  have called : classifier.name = name ∨ classifier.name = name ++ "Struct" := by
    cases platform : config.platform with
    | native => exact .inl (by rw [native platform])
    | jvm => exact (jvm platform).2
  have exported (place : Nat) (isPlace : config.exportForwardDeclarations[place]? = some name) :=
    exportedNames_eq_iff listed called (knows.configured ▸ isPlace)
  have named : after.Names decl classifier := ⟨id, typeId, met⟩
  refine ⟨classifier, named, native, jvm, ?isDeclared, ?isClass, listed, ?onNative, ?onJvm⟩
  case isDeclared =>
    intro isStruct
    have declared := sole.declared
    cases decl with
    | struct decl => exact builds.built_struct declared named
    | _ => cases isStruct
  case isClass =>
    intro built member
    obtain ⟨stub, elements, own⟩ := (builds.gives member).class_of_undefined sole.isRecord
    exact ⟨stub, elements, own.unique named, mem_classes_of_built member (by simp [elements])⟩
  case onNative =>
    intro platform place isPlace
    have apart : forwardStructs ≠ forwardObjCProtocols := by decide
    rw [exported place isPlace, native platform]
    simp [apart]
  case onJvm =>
    intro platform place isPlace
    rw [exported place isPlace, ← (jvm platform).1]
    obtain ⟨package, own⟩ := classifier
    simp only [Classifier.mk.injEq]
    rw [← and_assoc, ← and_assoc, ← or_and_right, and_comm]

/-- Whatever a run was asked before, in a build the manifest lists the forward declarations
that are exported, each under a qualified name that need not be the one it is declared by. -/
theorem exports_of_build (apart : index.KindsApart) (config : Config)
    (queries : List index.Query) : ∃ outcomes after,
      index.Builds (index.after config queries) outcomes after ∧
      index.build.run (index.after config queries) = (.ok (Library.ofOutcomes outcomes), after) ∧
      after.manifest.lookup "exportForwardDeclarations" =
        some (String.intercalate " " after.exportedNames) ∧
      ∀ decl name, index.SoleUndefined decl name →
        ∃ classifier, index.Exports config outcomes after decl name classifier := by
  obtain ⟨outcomes, after, builds⟩ := index.exists_builds (index.after config queries)
  exact ⟨outcomes, after, builds, builds.build_run, after.lookup_manifest,
    fun decl name sole => sole.exports apart builds⟩

def engine : StructDecl := { id := ⟨"engine"⟩, name := some "Engine" }

/-- A struct without a definition. -/
def engines : Index where
  structs := .ofList [engine]

/-- For the virtual machine it is declared in the generated package, and listed in another. -/
theorem exports_of_build_engines :
    let config : Config :=
      { package := some "org.sample", platform := .jvm, exportForwardDeclarations := ["Engine"] }
    engines.KindsApart ∧ engines.SoleUndefined (.struct engine) "Engine" ∧
      ∃ outcomes after built stub, engines.Builds (.start config) outcomes after ∧
        (.struct engine, .ok built) ∈ outcomes ∧
        engines.Exports config outcomes after (.struct engine) "Engine" stub.classifier ∧
        built.elements = [.ofClass stub] ∧ stub.classifier.package = "org.sample" ∧
        after.exportedNames = ["cnames.structs.Engine"] ∧
        after.exportedNames[0]? ≠ some stub.classifier.qualifiedName := by
  intro config
  have apart : engines.KindsApart := by decide
  have declarations : engines.declarations = [.struct engine] := rfl
  have sole : engines.SoleUndefined (.struct engine) "Engine" := by
    have isRecord : UndefinedRecord (.struct engine) (simpleName "Engine") := .struct rfl rfl
    have simple : simpleName "Engine" = "Engine" := by decide
    refine ⟨by simp [declarations], simple ▸ isRecord, fun other declared _ => ?_⟩
    rwa [declarations, List.mem_singleton] at declared
  obtain ⟨outcomes, after, builds, -, -, each⟩ := exports_of_build apart config []
  obtain ⟨classifier, exports⟩ := each _ _ sole
  obtain ⟨built, listed⟩ := exports.declared rfl
  obtain ⟨stub, elements, rfl, -⟩ := exports.stub built listed
  have free : ¬engines.Taken after (.struct engine) "Engine" := by
    rintro ⟨protocol, undefined, -⟩
    have declared := undefined.declared
    rw [declarations, List.mem_singleton] at declared
    cases declared
  refine ⟨apart, sole, outcomes, after, built, stub, builds, listed, exports, elements,
    (exports.jvm rfl).1, ?_, ?_⟩
  · have configured : after.config = config := builds.le.config
    rw [Run.exportedNames, configured]
    exact congrArg (· :: []) (exports.listed.free free)
  · have elsewhere : config.effectivePackage ≠ forwardStructs := by decide
    rw [Ne, exports.exportedJvm rfl 0 rfl]
    simp [free, elsewhere]

end Index

end NativeBindings
