import NativeBindings.Proofs.Bridge.Lines
import NativeBindings.Proofs.Build.Table

namespace NativeBindings

/-! # Storage that is assigned

A global and a field can be assigned unless they are read in place or their type is
constant.  Of the type it is read whether it says so itself.  A typedef of a constant type
makes constants as well, and they are assigned all the same: there is a property with a
setter, an entry in the bridge table and a wrapper that assigns.
-/

namespace Index

/-- The storage of a type is constant: the type says so, or a typedef that it is named by
stands for a type that is. -/
inductive ConstBehind (index : Index) : QualType → Prop
  | here {type : QualType} : type.isConst → ConstBehind index type
  | aliased {type : QualType} {id decl} : type.shape = .named id →
      index.typedefs.get? id = some decl → ConstBehind index decl.aliased →
      ConstBehind index type

/-- The storage of a type is constant, but only a typedef says so. -/
def HidesConst (index : Index) (type : QualType) : Prop :=
  type.isConst = false ∧ index.ConstBehind type

/-- Storage of a type is taken for such as can be assigned: it is not read in place, and no
constant unless a typedef hides that. -/
def Writable (index : Index) (type : QualType) (representation : Representation) : Prop :=
  representation.isAggregate = false ∧ (index.ConstBehind type → index.HidesConst type)

variable {index : Index} {run : Run}

theorem writable_iff {type : QualType} {representation : Representation} :
    index.Writable type representation ↔
      representation.isAggregate = false ∧ type.isConst = false := by
  refine and_congr_right fun _ => ⟨fun hides => ?_, fun plain behind => ⟨plain, behind⟩⟩
  cases isConst : type.isConst with
  | false => rfl
  | true => exact isConst.symm.trans (hides (.here isConst)).1

/-- A global gives one property, with an entry for a setter if it can be assigned. -/
structure GlobalBuilt (index : Index) (run : Run) (decl : GlobalDecl) (built : Built)
    (stub : PropertyStub) (representation : Representation) : Prop where
  elements : built.elements = [.ofProperty stub]
  name : stub.name = decl.name
  answers : index.Answers run decl.type representation
  writable : index.Writable decl.type representation → stub.kind = .var .bridge .bridge ∧
    built.table.setters = SortedMap.insert ∅ stub.id ⟨decl.name, decl.type, representation⟩
  readOnly : ¬index.Writable decl.type representation → stub.kind = .val .bridge ∧
    built.table.setters = ∅

theorem leaves_globalBuilt (decl : GlobalDecl) :
    (index.buildGlobal decl).built.Leaves run fun after built =>
      ∃ stub representation, index.GlobalBuilt after decl built stub representation := by
  rw [built_buildGlobal]
  refine .bind (leaves_required _) fun representation mid _ answers => ?_
  refine .bind (.lift .freshStub) fun id after le _ => ?_
  have isWritable := @writable_iff index decl.type representation
  cases isReadOnly : decl.type.isConst || representation.isAggregate with
  | false =>
      have writable := isWritable.mpr (Bool.or_eq_false_iff.mp isReadOnly).symm
      exact .pure ⟨_, representation, rfl, rfl, answers.mono le, fun _ => ⟨rfl, rfl⟩,
        absurd writable⟩
  | true =>
      have readOnly : ¬index.Writable decl.type representation := by
        rw [isWritable, and_comm, ← Bool.or_eq_false_iff, isReadOnly]
        exact nofun
      exact .pure ⟨_, representation, rfl, rfl, answers.mono le, (absurd · readOnly),
        fun _ => ⟨rfl, rfl⟩⟩

/-- A struct with a definition gives a class, of which some of the fields are properties. -/
theorem leaves_structBuilt (decl : StructDecl) {layout : RecordLayout}
    (defined : decl.layout = some layout) :
    (index.buildStruct decl).untabled.Leaves run fun after built =>
      ∃ stub, built.elements = [.ofClass stub] ∧
        List.SublistForall₂ (fun property field => index.FieldBuilt after field property)
          stub.properties layout.fields := by
  refine .untabled ?_
  unfold buildStruct
  refine .bind (leaves_resolved _ _) fun classifier _ _ _ => ?_
  refine .bind (.lift .freshStub) fun id _ _ _ => ?_
  rw [defined]
  refine .bind (.lift (leaves_buildFields _)) fun properties after _ ⟨fields, _⟩ => .pure ?_
  exact ⟨_, rfl, fields⟩

theorem mem_allProperties_of_built {outcomes : List Outcome} {decl : Declaration} {built : Built}
    {stub : PropertyStub} (listed : (decl, .ok built) ∈ outcomes)
    (member : stub ∈ built.properties) :
    stub ∈ (Library.ofOutcomes outcomes).stubs.allProperties :=
  (Library.allProperties_ofOutcomes outcomes).mem_iff.mpr
    (List.mem_flatMap.mpr ⟨built, List.mem_filterMap.mpr ⟨_, listed, rfl⟩, member⟩)

namespace Builds

variable {outcomes : List Outcome} {after : Run} (builds : index.Builds run outcomes after)

include builds

theorem globalBuilt {decl : GlobalDecl} {built : Built}
    (listed : (.global decl, .ok built) ∈ outcomes) :
    ∃ stub representation, index.GlobalBuilt after decl built stub representation := by
  obtain ⟨start, last, -, le, stub, representation, given⟩ :=
    builds.left listed fun _ => leaves_globalBuilt decl
  exact ⟨stub, representation, { given with answers := given.answers.mono le }⟩

theorem structBuilt {decl : StructDecl} {layout : RecordLayout} {built : Built}
    (listed : (.struct decl, .ok built) ∈ outcomes) (defined : decl.layout = some layout) :
    ∃ stub, built.elements = [.ofClass stub] ∧
      List.SublistForall₂ (fun property field => index.FieldBuilt after field property)
        stub.properties layout.fields := by
  obtain ⟨start, last, -, le, stub, elements, fields⟩ :=
    builds.left listed fun _ => leaves_structBuilt decl defined
  exact ⟨stub, elements, sublistForall₂_imp fields fun _ _ _ _ built => built.mono le⟩

/-- A property that is not assigned through the bridge has no entry there. -/
theorem no_setter {stub : PropertyStub}
    (member : stub ∈ (Library.ofOutcomes outcomes).stubs.allProperties)
    (other : stub.setter? ≠ some .bridge) :
    (Library.ofOutcomes outcomes).table.setters.get? stub.id = none := by
  by_contra found
  obtain ⟨owner, listed, same, isSet⟩ := builds.mem_setters.mp (SortedMap.mem_keys_iff.mpr found)
  have distinct := (List.nodup_append.mp builds.nodup_memberIds).2.1
  rw [List.inj_on_of_nodup_map distinct listed member same] at isSet
  exact other isSet

end Builds

namespace Links

variable {built after : Run} {outcomes : List Outcome} {bindings : List Binding}
  (links : index.Links run outcomes built bindings after)

include links

/-- An entry for a setter is bound to a wrapper that assigns. -/
theorem assigns {id : StubId} {setter : Setter}
    (found : (Library.ofOutcomes outcomes).table.setters.get? id = some setter) :
    ∃ name, .toWrapper (stubSymbol built.package setter.nativeName "_set" id)
      (setter.wrapper name) ∈ bindings := by
  have asked := Library.mem_requests.mpr (.inr (.inr ⟨(id, setter), mem_of_valueOf? found, rfl⟩))
  obtain ⟨binding, listed, fulfils⟩ :=
    exists_of_forall₂ (List.Forall₂.flip links.fulfilled) asked
  cases fulfils with
  | assign => exact ⟨_, listed⟩

/-- A property without an entry has no binding by which it could be assigned. -/
theorem not_bound {stub : PropertyStub}
    (member : stub ∈ (Library.ofOutcomes outcomes).stubs.allProperties)
    (missing : (Library.ofOutcomes outcomes).table.setters.get? stub.id = none) :
    ∀ binding ∈ bindings, ∀ name,
      binding.symbol ≠ stubSymbol built.package name "_set" stub.id := by
  intro binding listed name same
  obtain ⟨request, asked, fulfils⟩ := exists_of_forall₂ links.fulfilled listed
  rw [fulfils.symbol] at same
  rcases Library.mem_requests.mp asked with
    ⟨function, called, -, rfl⟩ | ⟨entry, read, rfl⟩ | ⟨entry, written, rfl⟩
  · obtain ⟨-, -, apart⟩ := List.nodup_append.mp links.builds.nodup_memberIds
    exact apart _ (List.mem_map_of_mem called) _ (List.mem_map_of_mem member)
      (stubSymbol_split same).1
  · exact getter_ne_setter same
  · have own : entry.1 = stub.id := (stubSymbol_split same).1
    have found := valueOf?_of_mem (SortedMap.nodup_keys _) written
    rw [own] at found
    cases missing.symm.trans found

end Links

/-- How the property of a global is assigned: through a wrapper, or not at all. -/
structure StoresGlobal (index : Index) (library : Library) (run : Run) (bindings : List Binding)
    (decl : GlobalDecl) (stub : PropertyStub) (representation : Representation) : Prop where
  name : stub.name = decl.name
  answers : index.Answers run decl.type representation
  writable : index.Writable decl.type representation →
    stub.kind = .var .bridge .bridge ∧
    library.table.setters.get? stub.id = some ⟨decl.name, decl.type, representation⟩ ∧
    ∃ wrapper, .toWrapper (stubSymbol run.package decl.name "_set" stub.id)
      (Setter.wrapper ⟨decl.name, decl.type, representation⟩ wrapper) ∈ bindings
  readOnly : ¬index.Writable decl.type representation →
    stub.kind = .val .bridge ∧ library.table.setters.get? stub.id = none ∧
    ∀ binding ∈ bindings, ∀ name, binding.symbol ≠ stubSymbol run.package name "_set" stub.id

/-- How the property of a field is assigned: in its record, or not at all. -/
structure StoresField (index : Index) (library : Library) (run : Run) (bindings : List Binding)
    (field : Field) (stub : PropertyStub) : Prop where
  name : stub.name = field.name
  access : ∃ representation accessor, index.Answers run field.type representation ∧
    fieldAccessor? field representation.info = some accessor ∧
    (index.Writable field.type representation → stub.kind = .var accessor accessor) ∧
    (¬index.Writable field.type representation → stub.kind = .val accessor)
  missing : library.table.setters.get? stub.id = none
  unbound : ∀ binding ∈ bindings, ∀ name,
    binding.symbol ≠ stubSymbol run.package name "_set" stub.id

/-- What a library and its bridge assign: every global and field that is taken for
writable, and nothing else. -/
structure Stores (index : Index) (outcomes : List Outcome) (run : Run) (bindings : List Binding) :
    Prop where
  globals : ∀ decl built, (.global decl, .ok built) ∈ outcomes → ∃ stub representation,
    built.elements = [.ofProperty stub] ∧
      index.StoresGlobal (Library.ofOutcomes outcomes) run bindings decl stub representation
  fields : ∀ decl layout built, (.struct decl, .ok built) ∈ outcomes → decl.layout = some layout →
    ∃ stub, built.elements = [.ofClass stub] ∧
      List.SublistForall₂ (fun property field =>
        index.StoresField (Library.ofOutcomes outcomes) run bindings field property)
        stub.properties layout.fields
  entries : ∀ id setter, (Library.ofOutcomes outcomes).table.setters.get? id = some setter →
    ∃ decl, .global decl ∈ index.declarations ∧ setter.nativeName = decl.name ∧
      setter.nativeType = decl.type ∧ index.Writable decl.type setter.representation

namespace Links

variable {built after : Run} {outcomes : List Outcome} {bindings : List Binding}
  (links : index.Links run outcomes built bindings after)

include links

theorem storesGlobal {decl : GlobalDecl} {given : Built}
    (listed : (.global decl, .ok given) ∈ outcomes) : ∃ stub representation,
      given.elements = [.ofProperty stub] ∧
      index.StoresGlobal (Library.ofOutcomes outcomes) built bindings decl stub
        representation := by
  obtain ⟨stub, representation, shape⟩ := links.builds.globalBuilt listed
  have own : stub ∈ given.properties := by
    rw [Built.properties, shape.elements]
    exact List.mem_singleton_self stub
  have member := mem_allProperties_of_built listed own
  refine ⟨stub, representation, shape.elements, shape.name, shape.answers, fun writable => ?_,
    fun readOnly => ?_⟩
  · obtain ⟨kind, setters⟩ := shape.writable writable
    have found : (Library.ofOutcomes outcomes).table.setters.get? stub.id =
        some ⟨decl.name, decl.type, representation⟩ := by
      refine links.builds.get?_setters.mpr ⟨given, List.mem_filterMap.mpr ⟨_, listed, rfl⟩, ?_⟩
      rw [setters]
      exact get?_singleton.mpr ⟨rfl, rfl⟩
    have assigns := links.assigns found
    dsimp only at assigns
    exact ⟨kind, found, assigns⟩
  · obtain ⟨kind, -⟩ := shape.readOnly readOnly
    have missing := links.builds.no_setter member (by simp [PropertyStub.setter?, kind])
    exact ⟨kind, missing, links.not_bound member missing⟩

theorem storesField {field : Field} {stub : PropertyStub}
    (shape : index.FieldBuilt built field stub)
    (member : stub ∈ (Library.ofOutcomes outcomes).stubs.allProperties) :
    index.StoresField (Library.ofOutcomes outcomes) built bindings field stub := by
  have missing := links.builds.no_setter member shape.given.unbridged.2
  obtain ⟨representation, accessor, answers, found, -, kind⟩ := shape.access
  refine ⟨shape.name, ⟨representation, accessor, answers, found, fun writable => ?_,
    fun readOnly => ?_⟩, missing, links.not_bound member missing⟩
  · rw [writable_iff, ← Bool.or_eq_false_iff] at writable
    rw [kind, writable]
    rfl
  · rw [writable_iff, ← Bool.or_eq_false_iff, Bool.not_eq_false] at readOnly
    rw [kind, if_pos readOnly]

/-- Only globals have entries. -/
theorem global_of_setter {id : StubId} {setter : Setter}
    (found : (Library.ofOutcomes outcomes).table.setters.get? id = some setter) :
    ∃ decl, .global decl ∈ index.declarations ∧ setter.nativeName = decl.name ∧
      setter.nativeType = decl.type ∧ index.Writable decl.type setter.representation := by
  obtain ⟨given, isGiven, here⟩ := links.builds.get?_setters.mp found
  obtain ⟨⟨decl, result⟩, listed, isBuilt⟩ := List.mem_filterMap.mp isGiven
  cases result with
  | error error => cases isBuilt
  | ok other =>
      cases isBuilt
      have gives := links.builds.gives listed
      cases decl with
      | «global» decl =>
          obtain ⟨stub, representation, shape⟩ := links.builds.globalBuilt listed
          by_cases writable : index.Writable decl.type representation
          · rw [(shape.writable writable).2] at here
            obtain ⟨-, rfl⟩ := get?_singleton.mp here
            exact ⟨decl, links.builds.mem_declarations listed, rfl, rfl, writable⟩
          · rw [(shape.readOnly writable).2] at here
            cases here
      | function decl =>
          cases gives with
          | function =>
              rw [foldl_markString] at here
              cases here
      | _ => cases gives <;> cases here

theorem stores : index.Stores outcomes built bindings where
  globals _ _ listed := links.storesGlobal listed
  fields decl layout given listed defined := by
    obtain ⟨stub, elements, fields⟩ := links.builds.structBuilt listed defined
    refine ⟨stub, elements, sublistForall₂_imp fields fun property member _ _ shape => ?_⟩
    have own : property ∈ given.properties := by
      rw [Built.properties, elements, List.flatMap_singleton]
      exact member
    exact links.storesField shape (mem_allProperties_of_built listed own)
  entries _ _ found := links.global_of_setter found

end Links

/-- Whatever an index declares, its globals and fields are assigned unless they are read in
place or constant, where constants that only a typedef makes such are assigned, too. -/
theorem stores_of_build (index : Index) (run : Run) : ∃ outcomes built bindings after,
    index.Links run outcomes built bindings after ∧ index.Stores outcomes built bindings := by
  obtain ⟨outcomes, built, bindings, after, links⟩ := index.exists_links run
  exact ⟨outcomes, built, bindings, after, links, links.stores⟩

/-- A global whose type is constant by a typedef. -/
def limit : GlobalDecl := ⟨⟨"limit"⟩, "limit", ⟨"limit_t", false, .named ⟨"limit_t"⟩⟩⟩

def limits : Index where
  typedefs := .ofList [⟨⟨"limit_t"⟩, "limit_t", ⟨"const int", true, .integer 4 true⟩⟩]
  globals := .ofList [limit]

/-- The constant is assigned, by the property and by a wrapper. -/
theorem stores_of_build_limits : ∃ outcomes built bindings after stub representation wrapper,
    limits.Links (.start {}) outcomes built bindings after ∧
      limits.ConstBehind limit.type ∧
      stub ∈ (Library.ofOutcomes outcomes).stubs.allProperties ∧ stub.name = "limit" ∧
      stub.kind = .var .bridge .bridge ∧
      (Library.ofOutcomes outcomes).table.setters.get? stub.id =
        some ⟨"limit", limit.type, representation⟩ ∧
      .toWrapper (stubSymbol built.package "limit" "_set" stub.id)
        (Setter.wrapper ⟨"limit", limit.type, representation⟩ wrapper) ∈ bindings := by
  obtain ⟨outcomes, built, bindings, after, links, stores⟩ := stores_of_build limits (.start {})
  have computed : (match (limits.build.run (.start {})).1 with
      | .ok library => library.skipped.isEmpty &&
          library.stubs.allProperties.all (·.setter?.isSome)
      | .error _ => false) = true := by decide +kernel
  rw [links.builds.build_run] at computed
  obtain ⟨clean, assigned⟩ := (Bool.and_eq_true _ _).mp computed
  have found : limits.globals.get? ⟨"limit"⟩ = some limit := rfl
  have declared := mem_declarations_global found
  have wanted : .global limit ∈ limits.wanted {} := List.mem_filter.mpr ⟨declared, rfl⟩
  obtain ⟨⟨decl, result⟩, listed, same⟩ := List.mem_map.mp (links.builds.listed.symm ▸ wanted)
  cases same
  cases result with
  | error error =>
      rw [Library.skipped_ofOutcomes, List.isEmpty_iff, List.filterMap_eq_nil_iff] at clean
      cases clean _ listed
  | ok given =>
      obtain ⟨stub, representation, elements, stored⟩ := stores.globals _ _ listed
      have own : stub ∈ given.properties := by
        rw [Built.properties, elements]
        exact List.mem_singleton_self stub
      have member := mem_allProperties_of_built listed own
      have isSet := List.all_eq_true.mp assigned stub member
      have writable : limits.Writable limit.type representation := by
        by_contra readOnly
        rw [PropertyStub.setter?, (stored.readOnly readOnly).1] at isSet
        cases isSet
      obtain ⟨kind, entry, wrapper, bound⟩ := stored.writable writable
      exact ⟨outcomes, built, bindings, after, stub, representation, wrapper, links,
        .aliased rfl rfl (.here rfl), member, stored.name, kind, entry, bound⟩

end Index

end NativeBindings
