import NativeBindings.Native.Document.Index
import NativeBindings.Proofs.Native.DeclMap

namespace NativeBindings

/-! # Tables of an index

An index made from a file keeps the declarations of each kind in a table.  Of those that
the file lists under one identity it keeps the last, in the place of the first, and
macros, which have no identity, it keeps all.  So what an index lists is a file again,
and the index made from that is the same.
-/

/-- The identity of a declaration, which macros are without. -/
def Declaration.id? : Declaration → Option DeclId
  | .function decl => some decl.id
  | .global decl => some decl.id
  | .struct decl => some decl.id
  | .enumeration decl => some decl.id
  | .typedef decl => some decl.id
  | .nativeClass decl => some decl.id
  | .objcProtocol decl => some decl.id
  | .objcClass decl => some decl.id
  | .objcCategory decl => some decl.id
  | .macroConstant _ | .wrappedMacro _ => none

/-- The declarations of one kind that a file lists. -/
def IndexFile.listed (file : IndexFile) : DeclKind → List Declaration
  | .function => file.functions.map .function
  | .global => file.globals.map .global
  | .struct => file.structs.map .struct
  | .enumeration => file.enums.map .enumeration
  | .typedef => file.typedefs.map .typedef
  | .macroConstant => file.macroConstants.map .macroConstant
  | .wrappedMacro => file.wrappedMacros.map .wrappedMacro
  | .objcProtocol => file.objcProtocols.map .objcProtocol
  | .objcClass => file.objcClasses.map .objcClass
  | .objcCategory => file.objcCategories.map .objcCategory
  | .nativeClass => file.classes.map .nativeClass

namespace Index

/-- An index remembers the file that it is made from. -/
structure Remembers (index : Index) (file : IndexFile) : Prop where
  /-- Under an identity stands the last of the declarations that carry it. -/
  found : ∀ kind id, index.declaration? kind id =
    ((file.listed kind).filter (·.id? = some id)).getLast?
  carried : ∀ kind id decl, index.declaration? kind id = some decl →
    decl.kind = kind ∧ decl.id? = some id
  /-- The identities of a kind are in the order in which the file has them first. -/
  ordered : ∀ kind, (index.toFile.listed kind).filterMap (·.id?) =
    ((file.listed kind).filterMap (·.id?)).eraseDups
  distinct : ∀ kind, ((index.toFile.listed kind).filterMap (·.id?)).Nodup
  again : ofFile index.toFile = index

/-- How an index keeps the declarations of one kind: in a table, or in a list if they have
no identity. -/
inductive Tabled (file : IndexFile) (kind : DeclKind) : Prop
  | inTable {α : Type} {id : α → DeclId} (wrap : α → Declaration) (decls : List α)
      (ofKind : ∀ decl, (wrap decl).kind = kind)
      (carries : ∀ decl, (wrap decl).id? = some (id decl))
      (listed : file.listed kind = decls.map wrap)
      (relisted : (ofFile file).toFile.listed kind =
        (DeclMap.ofList decls : DeclMap id).values.map wrap)
      (found : ∀ wanted, (ofFile file).declaration? kind wanted =
        ((DeclMap.ofList decls : DeclMap id).get? wanted).map wrap)
  | inList (bare : ∀ decl ∈ file.listed kind, decl.id? = none)
      (relisted : (ofFile file).toFile.listed kind = file.listed kind)
      (found : ∀ wanted, (ofFile file).declaration? kind wanted = none)

theorem tabled (file : IndexFile) (kind : DeclKind) : Tabled file kind := by
  have bare {α : Type} {wrap : α → Declaration} (without : ∀ decl, (wrap decl).id? = none)
      (decls : List α) : ∀ decl ∈ decls.map wrap, decl.id? = none := by
    intro decl member
    obtain ⟨decl, -, rfl⟩ := List.mem_map.mp member
    exact without decl
  cases kind with
  | function => exact .inTable .function _ (fun _ => rfl) (fun _ => rfl) rfl rfl fun _ => rfl
  | global => exact .inTable .global _ (fun _ => rfl) (fun _ => rfl) rfl rfl fun _ => rfl
  | struct => exact .inTable .struct _ (fun _ => rfl) (fun _ => rfl) rfl rfl fun _ => rfl
  | enumeration =>
      exact .inTable .enumeration _ (fun _ => rfl) (fun _ => rfl) rfl rfl fun _ => rfl
  | typedef => exact .inTable .typedef _ (fun _ => rfl) (fun _ => rfl) rfl rfl fun _ => rfl
  | macroConstant => exact .inList (bare (fun _ => rfl) _) rfl fun _ => rfl
  | wrappedMacro => exact .inList (bare (fun _ => rfl) _) rfl fun _ => rfl
  | objcProtocol =>
      exact .inTable .objcProtocol _ (fun _ => rfl) (fun _ => rfl) rfl rfl fun _ => rfl
  | objcClass => exact .inTable .objcClass _ (fun _ => rfl) (fun _ => rfl) rfl rfl fun _ => rfl
  | objcCategory =>
      exact .inTable .objcCategory _ (fun _ => rfl) (fun _ => rfl) rfl rfl fun _ => rfl
  | nativeClass =>
      exact .inTable .nativeClass _ (fun _ => rfl) (fun _ => rfl) rfl rfl fun _ => rfl

section OfFile

variable (file : IndexFile) (kind : DeclKind)

theorem declaration?_ofFile (wanted : DeclId) : (ofFile file).declaration? kind wanted =
    ((file.listed kind).filter (·.id? = some wanted)).getLast? := by
  cases tabled file kind with
  | inTable wrap decls _ carries listed _ found =>
      rw [found, DeclMap.get?_ofList, listed, List.filter_map, List.getLast?_map]
      simp only [Function.comp_def, carries, Option.some.injEq]
  | inList bare _ found =>
      have none : (file.listed kind).filter (·.id? = some wanted) = [] := by
        refine List.filter_eq_nil_iff.mpr fun decl member => ?_
        simp [bare decl member]
      rw [found, none]
      rfl

theorem carried_of_declaration? {wanted : DeclId} {decl : Declaration}
    (here : (ofFile file).declaration? kind wanted = some decl) :
    decl.kind = kind ∧ decl.id? = some wanted := by
  cases tabled file kind with
  | inTable wrap decls ofKind carries _ _ found =>
      rw [found, Option.map_eq_some_iff] at here
      obtain ⟨decl, known, rfl⟩ := here
      rw [carries, DeclMap.id_of_get? known]
      exact ⟨ofKind decl, rfl⟩
  | inList _ _ found =>
      rw [found] at here
      cases here

/-- The listing of a kind holds each identity once, in the order of the file. -/
theorem ids_toFile_ofFile :
    ((ofFile file).toFile.listed kind).filterMap (·.id?) =
        ((file.listed kind).filterMap (·.id?)).eraseDups ∧
      (((ofFile file).toFile.listed kind).filterMap (·.id?)).Nodup := by
  cases tabled file kind with
  | @inTable _ id wrap decls _ carries listed relisted _ =>
      have wrapped (decls : List _) :
          (decls.map wrap).filterMap (·.id?) = decls.map id := by
        rw [List.filterMap_map, ← List.filterMap_eq_map]
        exact congrArg (decls.filterMap ·) (funext carries)
      rw [relisted, listed, wrapped, wrapped]
      exact ⟨DeclMap.ids_ofList decls, DeclMap.nodup_ids _⟩
  | inList bare relisted _ =>
      have none : (file.listed kind).filterMap (·.id?) = [] :=
        List.filterMap_eq_nil_iff.mpr bare
      rw [relisted, none]
      exact ⟨rfl, List.nodup_nil⟩

end OfFile

theorem ofFile_toFile (index : Index) : ofFile index.toFile = index := by
  simp only [ofFile, toFile, DeclMap.ofList_values]

theorem remembers_ofFile (file : IndexFile) : (ofFile file).Remembers file where
  found := declaration?_ofFile file
  carried kind _ _ := carried_of_declaration? file kind
  ordered kind := (ids_toFile_ofFile file kind).1
  distinct kind := (ids_toFile_ofFile file kind).2
  again := ofFile_toFile _

/-- Whatever is inserted, a table of slots remembers it, and an index its file. -/
theorem tablesRemember :
    (∀ (κ α : Type) [DecidableEq κ] (inserts : List (κ × α)),
        SlotTable.Remembers (SlotTable.putAll {} inserts).1 (SlotTable.putAll {} inserts).2
          inserts) ∧
      ∀ file : IndexFile, (ofFile file).Remembers file := by
  constructor
  · intro κ α _ inserts
    exact SlotTable.remembers_putAll inserts
  · exact remembers_ofFile

end Index

end NativeBindings
