import NativeBindings.Proofs.Build.Written
import NativeBindings.Proofs.Native.Declared

namespace NativeBindings

/-! # What the bridge table says of the tree

The entries of a library's table are those of its declarations, each under the number
of a stub that the declaration gave.  No number is given twice, so what the table of a
single declaration says of its stubs, the table of the library says of the tree.
-/

def ClassKind.isEnumeration : ClassKind → Bool
  | .enumeration .. => true
  | .struct .. | .forwardStruct | .nativeClass | .objcClass | .objcProtocol => false

namespace Index

/-- The function behind a stub takes a string at a position. -/
def TakesString (index : Index) (stub : FunctionStub) (position : Nat) (kind : StringKind) :
    Prop :=
  ∃ decl parameter, index.functions.get? decl.id = some decl ∧
    stub.origin = .function decl.id ∧ decl.parameters[position]? = some parameter ∧
    parameter.type.stringKind? = some kind

/-- The bridge table of a library speaks of exactly the stubs in its tree. -/
structure Describes (index : Index) (library : Library) : Prop where
  getters : ∀ id, id ∈ library.table.getters.keys ↔
    ∃ stub ∈ library.stubs.allProperties, stub.id = id ∧ stub.getter? = some .bridge
  setters : ∀ id, id ∈ library.table.setters.keys ↔
    ∃ stub ∈ library.stubs.allProperties, stub.id = id ∧ stub.setter? = some .bridge
  /-- What can be assigned can be read, and is no aggregate. -/
  readable : ∀ id setter, library.table.setters.get? id = some setter →
    ∃ getter, library.table.getters.get? id = some getter ∧
      getter.nativeName = setter.nativeName ∧ getter.nativeType = setter.nativeType ∧
      getter.isAggregate = false
  aggregates : ∀ id getter, library.table.getters.get? id = some getter → getter.isAggregate →
    ∀ stub ∈ library.stubs.allProperties, stub.id = id → stub.kind = .val .bridge
  enumerations : ∀ id, id ∈ library.table.enumerations.keys ↔
    ∃ stub ∈ library.stubs.allClasses, stub.id = id ∧ stub.kind.isEnumeration
  strings : ∀ id position kind, (id, position) ∈ library.table.stringsOf kind ↔
    ∃ stub ∈ library.stubs.allFunctions, stub.id = id ∧ index.TakesString stub position kind
  stringTypes : ∀ stub ∈ library.stubs.allFunctions, ∀ position kind,
    index.TakesString stub position kind →
      stub.parameters[position]?.map (·.type) = some TargetType.string.nullable
  oneKind : ∀ key, ¬(key ∈ library.table.stringsOf .narrow ∧ key ∈ library.table.stringsOf .wide)

/-- A build from `run` on attempted the declaration in `first`, and failed in `last` after it
had written a table. -/
structure Failed (index : Index) (run : Run) (decl : Declaration) (table : BridgeTable)
    (first last : Run) : Prop where
  attempted : ∃ earlier later, index.wanted run.config = earlier ++ decl :: later ∧
    ((index.addDeclarations {} earlier).run run).2 = first
  failed : ∃ error, ((index.draftDeclaration decl).run.run ∅).run first =
    ((.error error, table), last)

theorem get?_singleton {α : Type} {key wanted : StubId} {value found : α} :
    (SortedMap.insert ∅ key value).get? wanted = some found ↔ key = wanted ∧ value = found := by
  have nothing : (∅ : SortedMap StubId α).get? wanted = none := rfl
  by_cases same : key = wanted <;> simp [SortedMap.get?_insert, same, nothing]

theorem mem_stringMarks {id : StubId} {parameters : List Parameter} {key : ParameterKey}
    {kind : StringKind} :
    (key, kind) ∈ stringMarks id parameters ↔ key.1 = id ∧
      ∃ parameter, parameters[key.2]? = some parameter ∧
        parameter.type.stringKind? = some kind := by
  rw [stringMarks, List.reduceOption_mem_iff, List.mem_mapIdx]
  constructor
  · rintro ⟨position, inside, found⟩
    obtain ⟨other, isString, same⟩ := Option.map_eq_some_iff.mp found
    cases same
    exact ⟨rfl, _, List.getElem?_eq_getElem inside, isString⟩
  · rintro ⟨rfl, parameter, found, isString⟩
    obtain ⟨inside, same⟩ := List.getElem?_eq_some_iff.mp found
    exact ⟨key.2, inside, by rw [same, isString]; rfl⟩

/-- A position has one kind, so its mark is the one that is found. -/
theorem get?_stringMarks {id : StubId} {parameters : List Parameter} {key : ParameterKey}
    {kind : StringKind} :
    ((stringMarks id parameters).foldl (fun table mark => table.markString mark.1 mark.2)
        (∅ : BridgeTable)).strings.get? key = some kind ↔
      (key, kind) ∈ stringMarks id parameters := by
  rw [foldl_markString]
  set marked := (stringMarks id parameters).foldl (fun strings mark =>
    SortedMap.insert strings mark.1 mark.2) (∅ : BridgeTable).strings with isMarked
  have sound {found : StringKind} (here : marked.get? key = some found) :
      (key, found) ∈ stringMarks id parameters := by
    rcases SortedMap.get?_foldl_insert (isMarked ▸ here) with member | before
    · exact member
    · cases before
  refine ⟨sound, fun member => ?_⟩
  have known : key ∈ marked.keys :=
    SortedMap.mem_keys_foldl_insert.mpr (.inr (List.mem_map_of_mem member))
  obtain ⟨found, here⟩ := SortedMap.mem_keys_iff_exists.mp known
  obtain ⟨-, parameter, declared, isString⟩ := mem_stringMarks.mp member
  obtain ⟨-, other, again, otherString⟩ := mem_stringMarks.mp (sound here)
  cases declared.symm.trans again
  cases isString.symm.trans otherString
  exact here

variable {index : Index} {run after : Run} {decl : Declaration} {built : Built}

theorem Gives.readable (gives : index.Gives run decl built) {id : StubId} {setter : Setter}
    (found : built.table.setters.get? id = some setter) :
    ∃ getter, built.table.getters.get? id = some getter ∧
      getter.nativeName = setter.nativeName ∧ getter.nativeType = setter.nativeType ∧
      getter.isAggregate = false := by
  cases gives with
  | «global» plain =>
      obtain ⟨rfl, rfl⟩ := get?_singleton.mp found
      exact ⟨_, get?_singleton.mpr ⟨rfl, rfl⟩, rfl, rfl, plain⟩
  | function =>
      rw [foldl_markString] at found
      cases found
  | _ => cases found

/-- What is read in place is not assigned. -/
theorem Gives.aggregates (gives : index.Gives run decl built) {id : StubId} {getter : Getter}
    (found : built.table.getters.get? id = some getter) (aggregate : getter.isAggregate) :
    ∀ stub ∈ built.properties, stub.kind = .val .bridge := by
  cases gives with
  | readOnlyGlobal | wrappedMacro =>
      intro stub member
      cases List.mem_singleton.mp member
      rfl
  | «global» plain =>
      obtain ⟨-, rfl⟩ := get?_singleton.mp found
      cases plain.symm.trans aggregate
  | function =>
      rw [foldl_markString] at found
      cases found
  | _ => cases found

theorem classes_constants {type : TargetType} {entries : List EnumEntry}
    {constants : List StubElement}
    (given : List.Forall₂ (ConstantGiven type) entries constants) :
    constants.flatMap (·.classes) = [] := by
  refine List.flatMap_eq_nil_iff.mpr fun element member => ?_
  obtain ⟨entry, -, id, rfl⟩ := exists_of_forall₂ given member
  rfl

private theorem not_enumerated (none : built.table.enumerations = ∅)
    (others : ∀ stub ∈ built.classes, stub.kind.isEnumeration = false) {id : StubId} :
    id ∈ built.table.enumerations.keys ↔
      ∃ stub ∈ built.classes, stub.id = id ∧ stub.kind.isEnumeration := by
  have missing : id ∉ built.table.enumerations.keys := none ▸ List.not_mem_nil
  refine iff_of_false missing ?_
  rintro ⟨stub, member, -, closed⟩
  cases (others stub member).symm.trans closed

theorem Gives.mem_enumerations (gives : index.Gives run decl built) {id : StubId} :
    id ∈ built.table.enumerations.keys ↔
      ∃ stub ∈ built.classes, stub.id = id ∧ stub.kind.isEnumeration := by
  cases gives with
  | strictEnum =>
      rw [show (BridgeTable.addEnumeration ∅ _ _).enumerations = SortedMap.insert ∅ _ _ from rfl,
        mem_keys_singleton]
      simpa [Built.classes, StubElement.classes, ClassKind.isEnumeration] using eq_comm
  | anonymousEnum _ _ _ constants =>
      exact not_enumerated rfl (by simp [Built.classes, classes_constants constants])
  | openEnum _ _ _ _ constants =>
      have nothing := classes_constants constants
      refine not_enumerated rfl ?_
      rw [Built.classes, List.flatMap_append, nothing]
      simp [StubElement.classes]
  | function =>
      rw [foldl_markString]
      exact not_enumerated rfl (by simp [Built.classes, StubElement.classes])
  | _ =>
      exact not_enumerated rfl
        (by simp [Built.classes, StubElement.classes, ClassKind.isEnumeration])

/-- A marked parameter is one of a function, which has a stub. -/
theorem Gives.strings (gives : index.Gives run decl built) (declared : decl ∈ index.declarations)
    {key : ParameterKey} {kind : StringKind}
    (found : built.table.strings.get? key = some kind) :
    ∃ stub ∈ built.functions, stub.id = key.1 ∧ index.TakesString stub key.2 kind := by
  cases gives with
  | @function decl id =>
      obtain ⟨same, parameter, listed, isString⟩ :=
        mem_stringMarks.mp (get?_stringMarks.mp found)
      exact ⟨_, List.mem_singleton_self _, same.symm, decl, parameter,
        get?_of_mem_declarations_function declared, rfl, listed, isString⟩
  | _ => cases found

theorem ParametersGiven.string {isVariadic : Bool} {parameters : List Parameter}
    {stubs : List ParameterStub}
    (given : index.ParametersGiven run true isVariadic parameters stubs) {position : Nat}
    {parameter : Parameter} (listed : parameters[position]? = some parameter)
    (isString : parameter.type.stringKind?.isSome) :
    stubs[position]?.map (·.type) = some TargetType.string.nullable := by
  induction given generalizing position with
  | nil | further => cases listed
  | cons type rest ih =>
      cases position with
      | succ position => exact ih listed
      | zero =>
          cases listed
          cases type with
          | string => rfl
          | value plain => simp [isString] at plain

/-- A string that a function takes is marked, and the stub takes one. -/
theorem Gives.takesString (gives : index.Gives run decl built)
    (declared : decl ∈ index.declarations) {stub : FunctionStub} (member : stub ∈ built.functions)
    {position : Nat} {kind : StringKind} (takes : index.TakesString stub position kind) :
    built.table.strings.get? (stub.id, position) = some kind ∧
      stub.parameters[position]?.map (·.type) = some TargetType.string.nullable := by
  obtain ⟨own, parameter, found, origin, listed, isString⟩ := takes
  cases gives.functionGiven member with
  | method _ given => cases given.origin.symm.trans origin
  | objcMethod given => cases given.origin.symm.trans origin
  | @function decl _ _ _ signature =>
      have same : decl.id = own.id := FunctionOrigin.function.inj origin
      have known := get?_of_mem_declarations_function declared
      rw [same, found] at known
      cases known
      refine ⟨?_, signature.parameters.string listed (isString ▸ rfl)⟩
      cases gives with
      | function =>
          cases List.mem_singleton.mp member
          exact get?_stringMarks.mpr (mem_stringMarks.mpr ⟨rfl, parameter, listed, isString⟩)

section Parts

variable {κ α : Type} [SortKey κ] [DecidableEq κ] (part : BridgeTable → SortedMap κ α)
  (merged : ∀ table other,
    part (BridgeTable.merge table other) = (part table).union (part other))

include merged

/-- What is found in the table of a library, one of its declarations gave. -/
theorem get?_foldl_take (outcomes : List Outcome) (library : Library) {key : κ} {value : α}
    (found : (part (outcomes.foldl Library.take library).table).get? key = some value) :
    (part library.table).get? key = some value ∨
      ∃ built ∈ outcomes.filterMap Outcome.built?, (part built.table).get? key = some value := by
  induction outcomes generalizing library with
  | nil => exact .inl found
  | cons outcome rest ih =>
      obtain ⟨decl, result⟩ := outcome
      cases result with
      | error error => exact ih (library.take (decl, .error error)) found
      | ok built =>
          have later := ih _ found
          rw [Library.take, Library.add, merged] at later
          rcases later with taken | ⟨other, listed, inside⟩
          · rcases SortedMap.get?_union taken with here | before
            · exact .inr ⟨built, by simp [Outcome.built?], here⟩
            · exact .inl before
          · exact .inr ⟨other, by simp [Outcome.built?, listed], inside⟩

variable {index : Index} {run after : Run} {outcomes : List Outcome}

/-- Tables of different declarations share no key, so merging loses nothing. -/
theorem Builds.get?_table (builds : index.Builds run outcomes after) (nothing : part ∅ = ∅)
    (owner : κ → StubId) (owned : ∀ {table key}, key ∈ (part table).keys →
      owner key ∈ BridgeTable.referenced table) {key : κ} {value : α} :
    (part (Library.ofOutcomes outcomes).table).get? key = some value ↔
      ∃ built ∈ outcomes.filterMap Outcome.built?, (part built.table).get? key = some value := by
  have sound {found : α}
      (here : (part (Library.ofOutcomes outcomes).table).get? key = some found) :
      ∃ built ∈ outcomes.filterMap Outcome.built?, (part built.table).get? key = some found := by
    refine (get?_foldl_take part merged outcomes {} here).resolve_left fun before => ?_
    have empty : part ({} : Library).table = ∅ := nothing
    rw [empty] at before
    cases before
  have inside {built : Built} {found : α} (listed : built ∈ outcomes.filterMap Outcome.built?)
      (here : (part built.table).get? key = some found) : owner key ∈ built.ids := by
    have known : key ∈ (part built.table).keys := SortedMap.mem_keys_iff_exists.mpr ⟨_, here⟩
    obtain ⟨decl, -, gives⟩ := builds.of_mem_built listed
    exact gives.referenced (owned known)
  refine ⟨sound, ?_⟩
  rintro ⟨built, listed, here⟩
  have known : key ∈ (part (Library.ofOutcomes outcomes).table).keys := by
    refine (Library.mem_part_ofOutcomes outcomes (fun table => (part table).keys) ?_ ?_).mpr
      ⟨built, listed, SortedMap.mem_keys_iff_exists.mpr ⟨_, here⟩⟩
    · rw [nothing]
      rfl
    · intro table other wanted
      rw [merged, SortedMap.mem_keys_union]
  obtain ⟨found, there⟩ := SortedMap.mem_keys_iff_exists.mp known
  obtain ⟨other, otherListed, otherHere⟩ := sound there
  have same : other = built :=
    builds.built_unique otherListed listed (inside otherListed otherHere) (inside listed here)
  rw [same, here] at otherHere
  rw [there, otherHere]

end Parts

section Failed

variable {index : Index} {run : Run}

/-- The stubs of a library were numbered before a failed attempt or after it. -/
theorem Failed.apart {decl : Declaration} {table : BridgeTable} {first last : Run}
    (failed : index.Failed run decl table first last) {outcomes : List Outcome} {after : Run}
    (builds : index.Builds run outcomes after) :
    ∀ id ∈ (Library.ofOutcomes outcomes).stubs.ids,
      id.number < first.nextStub ∨ last.nextStub ≤ id.number := by
  obtain ⟨⟨earlier, later, wanted, reached⟩, error, ends⟩ := failed
  have fails : (index.buildDeclaration decl).run.run first = (.error error, last) :=
    index.buildDeclaration_run ends
  rw [addDeclarations_run] at reached
  rcases before : (index.outcomes earlier).run run with ⟨front, mid⟩
  rcases behind : (index.outcomes later).run last with ⟨back, final⟩
  rw [before] at reached
  cases reached
  rw [Builds, wanted, outcomes_append_run before (outcomes_cons_run fails behind)] at builds
  cases builds
  have frontNumbered := (@leaves_outcomes index run earlier).2.2.2.upper
  have backNumbered := (@leaves_outcomes index last later).2.2.2.lower
  rw [before] at frontNumbered
  rw [behind] at backNumbered
  intro id member
  rw [(Library.ids_ofOutcomes _).mem_iff, List.filterMap_append, List.flatMap_append,
    List.mem_append] at member
  rcases member with here | there
  · exact .inl (frontNumbered id here)
  · exact .inr (backNumbered id there)

end Failed

section Builds

variable {index : Index} {run after : Run} {outcomes : List Outcome}

variable (builds : index.Builds run outcomes after)

include builds

theorem Builds.get?_getters {id : StubId} {getter : Getter} :
    (Library.ofOutcomes outcomes).table.getters.get? id = some getter ↔
      ∃ built ∈ outcomes.filterMap Outcome.built?, built.table.getters.get? id = some getter :=
  builds.get?_table (·.getters) (fun _ _ => rfl) rfl (fun key => key)
    fun known => BridgeTable.mem_referenced.mpr (.inl known)

theorem Builds.get?_setters {id : StubId} {setter : Setter} :
    (Library.ofOutcomes outcomes).table.setters.get? id = some setter ↔
      ∃ built ∈ outcomes.filterMap Outcome.built?, built.table.setters.get? id = some setter :=
  builds.get?_table (·.setters) (fun _ _ => rfl) rfl (fun key => key)
    fun known => BridgeTable.mem_referenced.mpr (.inr (.inl known))

theorem Builds.get?_enumerations {id : StubId} {representation : Representation} :
    (Library.ofOutcomes outcomes).table.enumerations.get? id = some representation ↔
      ∃ built ∈ outcomes.filterMap Outcome.built?,
        built.table.enumerations.get? id = some representation :=
  builds.get?_table (·.enumerations) (fun _ _ => rfl) rfl (fun key => key)
    fun known => BridgeTable.mem_referenced.mpr (.inr (.inr (.inl known)))

theorem Builds.get?_strings {key : ParameterKey} {kind : StringKind} :
    (Library.ofOutcomes outcomes).table.strings.get? key = some kind ↔
      ∃ built ∈ outcomes.filterMap Outcome.built?, built.table.strings.get? key = some kind :=
  builds.get?_table (·.strings) (fun _ _ => rfl) rfl (·.1)
    fun known => BridgeTable.mem_referenced.mpr (.inr (.inr (.inr ⟨_, known, rfl⟩)))

theorem Builds.describes : index.Describes (Library.ofOutcomes outcomes) where
  getters id := builds.mem_getters
  setters id := builds.mem_setters
  readable id setter found := by
    obtain ⟨built, listed, here⟩ := builds.get?_setters.mp found
    obtain ⟨decl, -, gives⟩ := builds.of_mem_built listed
    obtain ⟨getter, there, agrees⟩ := gives.readable here
    exact ⟨getter, builds.get?_getters.mpr ⟨built, listed, there⟩, agrees⟩
  aggregates id getter found aggregate stub member same := by
    obtain ⟨built, listed, here⟩ := builds.get?_getters.mp found
    obtain ⟨decl, -, gives⟩ := builds.of_mem_built listed
    rw [(Library.allProperties_ofOutcomes outcomes).mem_iff] at member
    obtain ⟨other, otherListed, inside⟩ := List.mem_flatMap.mp member
    have known : id ∈ built.table.getters.keys := SortedMap.mem_keys_iff_exists.mpr ⟨_, here⟩
    have own : id ∈ built.ids :=
      gives.referenced (BridgeTable.mem_referenced.mpr (.inl known))
    have others : id ∈ other.ids := same ▸ (memberIds_built other).subset
      (List.mem_append_right _ (List.mem_map_of_mem inside))
    cases builds.built_unique listed otherListed own others
    exact gives.aggregates here aggregate stub inside
  enumerations id := by
    rw [Library.mem_part_ofOutcomes outcomes (·.enumerations.keys) rfl
      fun _ _ _ => SortedMap.mem_keys_union]
    simp only [(Library.allClasses_ofOutcomes outcomes).mem_iff, List.mem_flatMap]
    constructor
    · rintro ⟨built, listed, known⟩
      obtain ⟨decl, -, gives⟩ := builds.of_mem_built listed
      obtain ⟨stub, inside, closed⟩ := gives.mem_enumerations.mp known
      exact ⟨stub, ⟨built, listed, inside⟩, closed⟩
    · rintro ⟨stub, ⟨built, listed, inside⟩, closed⟩
      obtain ⟨decl, -, gives⟩ := builds.of_mem_built listed
      exact ⟨built, listed, gives.mem_enumerations.mpr ⟨stub, inside, closed⟩⟩
  strings id position kind := by
    rw [BridgeTable.mem_stringsOf, builds.get?_strings]
    simp only [(Library.allFunctions_ofOutcomes outcomes).mem_iff, List.mem_flatMap]
    constructor
    · rintro ⟨built, listed, found⟩
      obtain ⟨decl, declared, gives⟩ := builds.of_mem_built listed
      obtain ⟨stub, inside, takes⟩ := gives.strings declared found
      exact ⟨stub, ⟨built, listed, inside⟩, takes⟩
    · rintro ⟨stub, ⟨built, listed, inside⟩, rfl, takes⟩
      obtain ⟨decl, declared, gives⟩ := builds.of_mem_built listed
      exact ⟨built, listed, (gives.takesString declared inside takes).1⟩
  stringTypes stub member position kind takes := by
    rw [(Library.allFunctions_ofOutcomes outcomes).mem_iff] at member
    obtain ⟨built, listed, inside⟩ := List.mem_flatMap.mp member
    obtain ⟨decl, declared, gives⟩ := builds.of_mem_built listed
    exact (gives.takesString declared inside takes).2
  oneKind key both := by
    have narrow := BridgeTable.mem_stringsOf.mp both.1
    cases narrow.symm.trans (BridgeTable.mem_stringsOf.mp both.2)

end Builds

/-- A build ends well, its bridge table speaks of exactly the stubs in its tree, and a
declaration that could not be built left nothing in either: nothing of what it had written,
and nothing else under a number that it was given. -/
theorem table_of_build (index : Index) (run : Run) :
    ∃ library after, index.build.run run = (.ok library, after) ∧ index.Describes library ∧
      ∀ decl table first last, index.Failed run decl table first last →
        (∀ id ∈ table.referenced,
          id ∉ library.table.referenced ∧ id ∉ library.stubs.ids) ∧
        ∀ id : StubId, first.nextStub ≤ id.number → id.number < last.nextStub →
          id ∉ library.table.referenced ∧ id ∉ library.stubs.ids := by
  obtain ⟨outcomes, after, builds⟩ := index.exists_builds run
  refine ⟨Library.ofOutcomes outcomes, after, builds.build_run, builds.describes, ?_⟩
  intro decl table first last failed
  have absent (id : StubId) (lower : first.nextStub ≤ id.number)
      (upper : id.number < last.nextStub) :
      id ∉ (Library.ofOutcomes outcomes).table.referenced ∧
        id ∉ (Library.ofOutcomes outcomes).stubs.ids := by
    have unused : id ∉ (Library.ofOutcomes outcomes).stubs.ids := by
      intro member
      have apart := failed.apart builds id member
      omega
    refine ⟨fun referenced => unused ?_, unused⟩
    have whole := List.find?_eq_none.mp builds.not_dangling id referenced
    simpa using whole
  obtain ⟨error, ends⟩ := failed.failed
  refine ⟨fun id written => ?_, absent⟩
  obtain ⟨lower, upper⟩ := number_of_written ends id written
  exact absent id lower upper

end Index

end NativeBindings
