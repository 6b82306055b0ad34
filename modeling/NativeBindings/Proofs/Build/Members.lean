import Mathlib.Data.List.ReduceOption
import NativeBindings.Proofs.Build.Outcomes

namespace NativeBindings

/-! # Functions and properties of what was given

The rules by which declarations give stubs, read for single functions and
properties: what a function stub calls, and which accessors have an entry in the
bridge table.
-/

namespace PropertyStub

/-- How the property is read, if that is not known beforehand. -/
def getter? (stub : PropertyStub) : Option Accessor :=
  match stub.kind with
  | .val getter | .var getter _ => some getter
  | .constant _ => none

def setter? (stub : PropertyStub) : Option Accessor :=
  match stub.kind with
  | .var _ setter => some setter
  | .val _ | .constant _ => none

/-- Does nothing reach the property through the bridge table? -/
def Unbridged (stub : PropertyStub) : Prop :=
  stub.getter? ≠ some .bridge ∧ stub.setter? ≠ some .bridge

theorem unbridged_of_constant {stub : PropertyStub} {value : Constant}
    (constant : stub.kind = .constant value) : stub.Unbridged := by
  rw [Unbridged, getter?, setter?, constant]
  exact ⟨nofun, nofun⟩

end PropertyStub

theorem exists_of_forall₂ {α β : Type} {related : α → β → Prop} {first : List α} {second : List β}
    (all : List.Forall₂ related first second) {item : β} (member : item ∈ second) :
    ∃ other ∈ first, related other item := by
  induction all with
  | nil => cases member
  | cons head _ ih =>
      rcases List.mem_cons.mp member with rfl | later
      · exact ⟨_, List.mem_cons_self, head⟩
      · obtain ⟨other, listed, holds⟩ := ih later
        exact ⟨other, List.mem_cons_of_mem _ listed, holds⟩

namespace Index

variable {index : Index} {run : Run} {decl : Declaration} {built : Built}

/-- The stub of a native function or method, or of one that the runtime dispatches. -/
inductive FunctionGiven (index : Index) (run : Run) : Declaration → FunctionStub → Prop
  | function {decl : FunctionDecl} {id parameters result} :
      index.SignatureGiven run true decl.isVariadic decl.parameters decl.result
        parameters result →
      FunctionGiven index run (.function decl) {
        id, name := simpleName decl.name, parameters, result, origin := .function decl.id,
        call := decl.callKind }
  | method {decl : ClassDecl} {number method stub} :
      decl.methods[number]? = some method → index.MethodGiven run decl number method stub →
      FunctionGiven index run (.nativeClass decl) stub
  | objcMethod {decl container receiver method stub} :
      index.ObjCMethodGiven run container receiver method stub →
      FunctionGiven index run decl stub

theorem functionGiven_of_members {container : DeclId} {receiver : Option TargetType}
    {methods : List ObjCMethod} {properties : List ObjCProperty}
    {functions : List FunctionStub} {stubs : List PropertyStub}
    (given : index.MembersGiven run container receiver methods properties functions stubs)
    {stub : FunctionStub} (member : stub ∈ functions) : index.FunctionGiven run decl stub := by
  obtain ⟨method, -, methodGiven⟩ := exists_of_forall₂ given.functions member
  exact .objcMethod methodGiven

private theorem functions_constants {type : TargetType} {entries : List EnumEntry}
    {constants : List StubElement}
    (given : List.Forall₂ (ConstantGiven type) entries constants) :
    constants.flatMap (·.functions) = [] := by
  refine List.flatMap_eq_nil_iff.mpr fun element member => ?_
  obtain ⟨entry, -, id, rfl⟩ := exists_of_forall₂ given member
  rfl

theorem Gives.functionGiven (gives : index.Gives run decl built) {stub : FunctionStub}
    (member : stub ∈ built.functions) : index.FunctionGiven run decl stub := by
  cases gives with
  | anonymousEnum _ _ _ constants =>
      rw [Built.functions, functions_constants constants] at member
      cases member
  | openEnum _ _ _ _ constants =>
      rw [Built.functions, List.flatMap_append, functions_constants constants] at member
      simp [StubElement.functions] at member
  | nativeClass named methods =>
      rw [Built.functions, List.flatMap_singleton] at member
      obtain ⟨⟨method, number⟩, listed, given⟩ := exists_of_forall₂ methods member
      exact .method (List.mem_zipIdx_iff_getElem?.mp listed) given
  | objcProtocol _ _ given | objcClass _ _ _ given =>
      rw [Built.functions, List.flatMap_singleton] at member
      exact functionGiven_of_members given member
  | objcCategory _ given =>
      simp [Built.functions, StubElement.functions] at member
      exact functionGiven_of_members given member
  | function signature =>
      simp [Built.functions, StubElement.functions] at member
      exact member ▸ .function signature
  | _ => simp [Built.functions, StubElement.functions] at member

theorem ObjCPropertyGiven.unbridged {receiver : Option TargetType} {property : ObjCProperty}
    {stub : PropertyStub} (given : index.ObjCPropertyGiven run receiver property stub) :
    stub.Unbridged := by
  rw [PropertyStub.Unbridged, PropertyStub.getter?, PropertyStub.setter?, given.kind,
    ObjCProperty.kind]
  cases property.setter <;> simp

theorem FieldGiven.unbridged {field : Field} {stub : PropertyStub}
    (given : index.FieldGiven run field stub) : stub.Unbridged := by
  obtain ⟨isReadOnly, accessor, other, kind⟩ := given.kind
  rw [PropertyStub.Unbridged, PropertyStub.getter?, PropertyStub.setter?, kind]
  cases isReadOnly <;> simp [other]

private theorem properties_constants {type : TargetType} {entries : List EnumEntry}
    {constants : List StubElement}
    (given : List.Forall₂ (ConstantGiven type) entries constants) :
    ∀ stub ∈ constants.flatMap (·.properties), stub.Unbridged := by
  intro stub member
  obtain ⟨element, listed, inside⟩ := List.mem_flatMap.mp member
  obtain ⟨entry, -, id, rfl⟩ := exists_of_forall₂ given listed
  cases List.mem_singleton.mp inside
  exact PropertyStub.unbridged_of_constant rfl

/-- Either no property goes through the bridge, or there is one property alone, and
the table has an entry for each of its accessors. -/
inductive Accessed (built : Built) : Prop
  | unbridged : built.table.getters = ∅ → built.table.setters = ∅ →
      (∀ stub ∈ built.properties, stub.Unbridged) → Accessed built
  | readOnly {stub getter} : built.properties = [stub] → stub.getter? = some .bridge →
      stub.setter? = none → built.table.getters = SortedMap.insert ∅ stub.id getter →
      built.table.setters = ∅ → Accessed built
  | writable {stub getter setter} : built.properties = [stub] → stub.getter? = some .bridge →
      stub.setter? = some .bridge → built.table.getters = SortedMap.insert ∅ stub.id getter →
      built.table.setters = SortedMap.insert ∅ stub.id setter → Accessed built

theorem foldl_markString (marks : List (ParameterKey × StringKind)) (table : BridgeTable) :
    marks.foldl (fun table mark => table.markString mark.1 mark.2) table =
      { table with
        strings := marks.foldl (fun strings mark => strings.insert mark.1 mark.2)
          table.strings } := by
  induction marks generalizing table with
  | nil => rfl
  | cons mark rest ih => exact ih (table.markString mark.1 mark.2)

theorem Gives.accessed (gives : index.Gives run decl built) : Accessed built := by
  cases gives with
  | forwardStruct | strictEnum | typedef | keptTypedef | namesItself | noConstant =>
      exact .unbridged rfl rfl (by simp [Built.properties, StubElement.properties])
  | struct _ _ fields =>
      refine .unbridged rfl rfl fun stub member => ?_
      rw [Built.properties, List.flatMap_singleton] at member
      obtain ⟨field, -, given⟩ := fields stub member
      exact given.unbridged
  | anonymousEnum _ _ _ constants => exact .unbridged rfl rfl (properties_constants constants)
  | openEnum _ _ _ _ constants =>
      refine .unbridged rfl rfl fun stub member => properties_constants constants stub ?_
      rw [Built.properties, List.flatMap_append] at member
      simpa [StubElement.properties] using member
  | nativeClass => exact .unbridged rfl rfl (by simp [Built.properties, StubElement.properties])
  | objcProtocol _ _ given | objcClass _ _ _ given =>
      refine .unbridged rfl rfl fun stub member => ?_
      rw [Built.properties, List.flatMap_singleton] at member
      obtain ⟨property, -, given⟩ := exists_of_forall₂ given.properties member
      exact given.unbridged
  | objcCategory _ given =>
      refine .unbridged rfl rfl fun stub member => ?_
      simp [Built.properties, StubElement.properties] at member
      obtain ⟨property, -, given⟩ := exists_of_forall₂ given.properties member
      exact given.unbridged
  | readOnlyGlobal => exact .readOnly rfl rfl rfl rfl rfl
  | «global» => exact .writable rfl rfl rfl rfl rfl
  | function =>
      rw [foldl_markString]
      exact .unbridged rfl rfl (by simp [Built.properties, StubElement.properties])
  | stringConstant | constant =>
      refine .unbridged rfl rfl fun stub member => ?_
      cases List.mem_singleton.mp member
      exact PropertyStub.unbridged_of_constant rfl
  | wrappedMacro => exact .readOnly rfl rfl rfl rfl rfl

theorem mem_keys_singleton {α : Type} {key wanted : StubId} {value : α} :
    wanted ∈ (SortedMap.insert ∅ key value).keys ↔ wanted = key :=
  SortedMap.mem_keys_insert.trans (or_iff_left List.not_mem_nil)

/-- The getters of the table are those of the properties that are read through it. -/
theorem Accessed.mem_getters (accessed : Accessed built) {id : StubId} :
    id ∈ built.table.getters.keys ↔
      ∃ stub ∈ built.properties, stub.id = id ∧ stub.getter? = some .bridge := by
  cases accessed with
  | unbridged getters _ others =>
      rw [getters]
      refine ⟨fun member => absurd member List.not_mem_nil, ?_⟩
      rintro ⟨stub, member, -, bridged⟩
      exact absurd bridged (others stub member).1
  | readOnly only bridged _ getters | writable only bridged _ getters =>
      rw [getters, mem_keys_singleton, only]
      simp [bridged, eq_comm]

theorem Accessed.mem_setters (accessed : Accessed built) {id : StubId} :
    id ∈ built.table.setters.keys ↔
      ∃ stub ∈ built.properties, stub.id = id ∧ stub.setter? = some .bridge := by
  cases accessed with
  | unbridged _ setters others =>
      rw [setters]
      refine ⟨fun member => absurd member List.not_mem_nil, ?_⟩
      rintro ⟨stub, member, -, bridged⟩
      exact absurd bridged (others stub member).2
  | readOnly only _ constant _ setters =>
      rw [setters, only]
      simp [constant, SortedMap.keys, EmptyCollection.emptyCollection]
  | writable only _ bridged _ setters =>
      rw [setters, mem_keys_singleton, only]
      simp [bridged, eq_comm]

theorem memberIds_built (built : Built) :
    (built.functions.map (·.id) ++ built.properties.map (·.id)).Subperm built.ids := by
  rw [Built.functions, Built.properties, List.map_flatMap, List.map_flatMap]
  refine (List.flatMap_append_perm built.elements _ _).subperm.trans
    (StubTree.subperm_flatMap fun element => ?_)
  cases element with
  | ofClass stub =>
      exact List.perm_append_comm.subperm.trans (List.sublist_cons_self _ _).subperm
  | ofFunction stub | ofProperty stub => exact List.Perm.refl _ |>.subperm
  | ofTypealias stub => exact List.nil_subperm
  | ofGroup stub =>
      exact stub.members.memberIds_subperm.trans (List.sublist_cons_self _ _).subperm

theorem fst_of_mem_stringMarks {function : StubId} {parameters : List Parameter}
    {key : ParameterKey} (member : key ∈ (stringMarks function parameters).map (·.1)) :
    key.1 = function := by
  obtain ⟨mark, listed, rfl⟩ := List.mem_map.mp member
  obtain ⟨position, inside, found⟩ := List.mem_mapIdx.mp (List.reduceOption_mem_iff.mp listed)
  obtain ⟨kind, -, rfl⟩ := Option.map_eq_some_iff.mp found
  rfl

/-- The table speaks of nothing that the declaration did not give. -/
theorem Gives.referenced (gives : index.Gives run decl built) {id : StubId}
    (member : id ∈ built.table.referenced) : id ∈ built.ids := by
  have inProperties {stub : PropertyStub} (listed : stub ∈ built.properties) :
      stub.id ∈ built.ids :=
    (memberIds_built built).subset (List.mem_append_right _ (List.mem_map_of_mem listed))
  rcases BridgeTable.mem_referenced.mp member with
    getter | setter | enumeration | ⟨key, string, rfl⟩
  · obtain ⟨stub, listed, rfl, -⟩ := gives.accessed.mem_getters.mp getter
    exact inProperties listed
  · obtain ⟨stub, listed, rfl, -⟩ := gives.accessed.mem_setters.mp setter
    exact inProperties listed
  · cases gives with
    | strictEnum =>
        rw [mem_keys_singleton.mp enumeration]
        simp [Built.ids, StubElement.ids]
    | function =>
        rw [foldl_markString] at enumeration
        exact absurd enumeration List.not_mem_nil
    | _ => exact absurd enumeration List.not_mem_nil
  · cases gives with
    | function =>
        rw [foldl_markString] at string
        rcases SortedMap.mem_keys_foldl_insert.mp string with none | mark
        · exact absurd none List.not_mem_nil
        · rw [fst_of_mem_stringMarks mark]
          simp [Built.ids, StubElement.ids]
    | _ => exact absurd string List.not_mem_nil

end Index

end NativeBindings
