import NativeBindings.Native.Document.Type
import NativeBindings.Proofs.Document.Record

namespace NativeBindings

open Json

/-! # Reading native types

The kind of a type may stand anywhere among its parts, as its record is read through before
any part is.  A type is read by a decoder for as many levels as values nest, and each level
of types takes two of values, so the levels last.
-/

theorem find_typeKind : ∀ named ∈ typeKinds, typeKinds.find? (·.1 = named.1) = some named := by
  decide

theorem TypeKind.decoder_text {name : String} {kind : TypeKind} (named : (name, kind) ∈ typeKinds)
    (stage : Stage) (depth : Nat) :
    TypeKind.decoder stage depth (Value.string name).source = .ok kind := by
  have found := find_typeKind _ named
  cases stage <;> simp [Value.source, TypeKind.decoder, Scalar.ok, found, pure, Except.pure]

theorem shapeAlternatives_unique {name : String} {members others : List (Member Schema)}
    (left : (name, members) ∈ shapeAlternatives) (right : (name, others) ∈ shapeAlternatives) :
    members = others := by
  have distinct : (shapeAlternatives.map Prod.fst).Nodup := by decide
  exact congrArg Prod.snd (List.inj_on_of_nodup_map distinct left right rfl)

theorem member_name_ne_kindKey : ∀ alternative ∈ shapeAlternatives, ∀ member ∈ alternative.2,
    member.name ≠ kindKey := by
  decide

section Through

variable {fields before after : List (String × Value)} {depth : Nat}

theorem readThrough_parts (kind : Option TypeKind) (fits : fieldsNesting fields ≤ depth)
    (parts : kindKey ∉ fields.map Prod.fst) (stage : Stage) :
    readThrough stage depth kind (fieldSources fields) = .ok (kind, fieldSources fields) := by
  induction fields with
  | nil => rfl
  | cons field rest ih =>
      obtain ⟨key, value⟩ := field
      simp only [fieldsNesting, Nat.max_le] at fits
      simp only [List.map_cons, List.mem_cons, not_or] at parts
      have ih := ih fits.2 parts.2
      simp [fieldSources, readThrough, Ne.symm parts.1, Decoder.through_source stage fits.1, ih,
        pure, Except.pure]

/-- The kind is found wherever it stands, and the parts are kept in their order. -/
theorem readThrough_kind {name : String} {kind : TypeKind} (named : (name, kind) ∈ typeKinds)
    (fits : fieldsNesting (before ++ (kindKey, .string name) :: after) ≤ depth)
    (parts : kindKey ∉ (before ++ after).map Prod.fst) (stage : Stage) :
    readThrough stage depth none (fieldSources (before ++ (kindKey, .string name) :: after)) =
      .ok (some kind, fieldSources (before ++ after)) := by
  induction before with
  | nil =>
      simp only [List.nil_append, fieldsNesting, Nat.max_le] at fits
      simp [fieldSources, readThrough, TypeKind.decoder_text named,
        readThrough_parts (some kind) fits.2 parts]
  | cons field rest ih =>
      obtain ⟨key, value⟩ := field
      simp only [List.cons_append, fieldsNesting, Nat.max_le] at fits
      simp only [List.cons_append, List.map_cons, List.mem_cons, not_or] at parts
      have ih := ih fits.2 parts.2
      simp [fieldSources, readThrough, Ne.symm parts.1, Decoder.through_source stage fits.1, ih,
        pure, Except.pure]

end Through

section Parts

variable {limit : Nat} {inner : Decoder QualType} {name : String} {type : TypeShape}

/-- In a layout of a type the kind stands among what is a layout of the parts. -/
theorem laid_of_tagged {ρ : Type} {initial : ρ} {parts : List (Part limit initial)}
    {other : Value} (alternative : (name, parts.map Part.member) ∈ shapeAlternatives)
    (apart : parts.Pairwise Part.Apart)
    (arranged : Arranged (.tagged kindKey shapeAlternatives)
      (.object ((kindKey, .string name) :: parts.map Part.entry)) other) :
    ∃ before after, other = .object (before ++ (kindKey, .string name) :: after) ∧
      kindKey ∉ (before ++ after).map Prod.fst ∧ Part.Laid parts (before ++ after) := by
  cases arranged with
  | tagged mem arranged =>
  obtain rfl := shapeAlternatives_unique mem alternative
  cases arranged with
  | @record _ _ _ unknown others arranged foreign order =>
  cases arranged with
  | drop default _ => cases default
  | @keep _ _ _ _ _ kept first arranged =>
  cases first
  obtain ⟨before, after, rfl⟩ := List.append_of_mem (order.mem_iff.mpr List.mem_cons_self)
  have order : (before ++ after).Perm (kept ++ unknown) :=
    (List.perm_middle.symm.trans order).cons_inv
  have foreign : ∀ field ∈ unknown, field.1 ≠ kindKey ∧ ∀ part ∈ parts, field.1 ≠ part.name := by
    intro field mem
    have absent := foreign field mem
    rw [List.map_cons, List.mem_cons, not_or, List.map_map] at absent
    exact ⟨absent.1, fun part known same => absent.2 (List.mem_map.mpr ⟨part, known, same.symm⟩)⟩
  refine ⟨before, after, rfl, ?_, Part.laid_of_arranged apart arranged
    (fun field mem => (foreign field mem).2) order⟩
  intro present
  obtain ⟨field, mem, named⟩ := List.mem_map.mp present
  rcases List.mem_append.mp (order.mem_iff.mp mem) with mem | mem
  · obtain ⟨part, known, same, _⟩ := Part.known_of_kept arranged field mem
    exact member_name_ne_kindKey _ alternative _ (List.mem_map_of_mem known) (same.symm.trans named)
  · exact (foreign field mem).1 named

/-- A type is read if the parts of its kind are. -/
theorem reads_parts {drafted : TypeParts} (kind : TypeKind)
    (parts : List (Part limit drafted.initial)) (draft : kind.parts inner = drafted)
    (named : (name, kind) ∈ typeKinds)
    (alternative : (name, parts.map Part.member) ∈ shapeAlternatives)
    (read : drafted.fields = parts.map Part.field) (apart : parts.Pairwise Part.Apart)
    (all : drafted.finish (Part.whole parts) = type) :
    Reads limit (.tagged kindKey shapeAlternatives) (TypeShape.decoderWith inner)
      (.object ((kindKey, .string name) :: parts.map Part.entry)) type where
  conforms := by
    have arranged : ArrangedFields (.required kindKey .fixed :: parts.map Part.member)
        ((kindKey, .string name) :: parts.map Part.entry)
        ((kindKey, .string name) :: parts.map Part.entry) :=
      .keep .fixed (Part.arrangedFields parts)
    exact .tagged alternative (.record arranged (by simp) (.of_eq (List.append_nil _).symm))
  decodes := fun {other} arranged stage depth fits within => by
    subst draft
    obtain ⟨before, after, rfl, noKind, laid⟩ := laid_of_tagged alternative apart arranged
    simp only [Value.nesting] at fits within
    obtain ⟨depth, rfl⟩ : ∃ inner, depth = inner + 1 := ⟨depth - 1, by omega⟩
    have less : fieldsNesting (before ++ after) ≤
        fieldsNesting (before ++ (kindKey, .string name) :: after) := by
      simp only [fieldsNesting_append, fieldsNesting]
      omega
    have through := readThrough_kind named (Nat.le_of_succ_le_succ fits) noKind stage
    have members : Decoder.fromMembers _ .buffered depth _ _ _ = _ :=
      Part.fromMembers_laid apart laid .buffered (by omega) (by omega)
    simp [Value.source, TypeShape.decoderWith, Decoder.enter, through, Decoder.close, read, members,
      all, pure, Except.pure]

theorem reads_noParts (kind : TypeKind) (draft : kind.parts inner = noParts type)
    (named : (name, kind) ∈ typeKinds) (alternative : (name, []) ∈ shapeAlternatives) :
    Reads limit (.tagged kindKey shapeAlternatives) (TypeShape.decoderWith inner)
      (.object [(kindKey, .string name)]) type :=
  reads_parts kind [] draft named alternative rfl .nil rfl

theorem reads_onePart {α : Type} [Inhabited α] {key : String} {schema : Schema}
    {decoder : Decoder α} {encoded : Value} {value : α} {finish : α → TypeShape} (kind : TypeKind)
    (draft : kind.parts inner = onePart key decoder finish) (named : (name, kind) ∈ typeKinds)
    (alternative : (name, [.required key schema]) ∈ shapeAlternatives)
    (reads : Reads limit schema decoder encoded value) :
    Reads limit (.tagged kindKey shapeAlternatives) (TypeShape.decoderWith inner)
      (.object [(kindKey, .string name), (key, encoded)]) (finish value) :=
  reads_parts kind [.required key reads] draft named alternative rfl (by simp) rfl

theorem reads_sized {size : UInt32} {signed : Bool} {finish : UInt32 → Bool → TypeShape}
    (kind : TypeKind) (draft : kind.parts inner = TypeKind.parts.sized finish)
    (named : (name, kind) ∈ typeKinds)
    (alternative :
      (name, [.required "size" .fixed, .required "is_signed" .fixed]) ∈ shapeAlternatives) :
    Reads limit (.tagged kindKey shapeAlternatives) (TypeShape.decoderWith inner)
      (.object [(kindKey, .string name), ("size", .nat size.toNat), ("is_signed", .bool signed)])
      (finish size signed) :=
  reads_parts kind [.required "size" (.uint32 size), .required "is_signed" (.bool signed)] draft
    named alternative rfl (by simp [TypeKind.parts.sized]) rfl

end Parts

theorem DeclId.reads {limit : Nat} (id : DeclId) :
    Reads limit .fixed DeclId.decoder id.encode id :=
  .map DeclId.mk (.string id.text)

theorem QualType.encodeAll_eq (types : List QualType) :
    QualType.encodeAll types = types.map QualType.encode := by
  induction types with
  | nil => rfl
  | cons type rest ih => rw [QualType.encodeAll, ih, List.map_cons]

/-- A type opens one more level around what it is. -/
theorem QualType.reads_succ {limit levels : Nat} {type : QualType}
    (read : Reads limit (.tagged kindKey shapeAlternatives)
      (TypeShape.decoderWith (QualType.decoderWithin levels)) type.shape.encode type.shape) :
    Reads (limit + 1) .type (QualType.decoderWithin (levels + 1)) type.encode type := by
  obtain ⟨spelling, isConst, shape⟩ := type
  have reads : Reads (limit + 1) (.record typeMembers) (QualType.decoderWithin (levels + 1))
      (QualType.mk spelling isConst shape).encode ⟨spelling, isConst, shape⟩ :=
    .record_succ [
      .required "spelling" (.string spelling),
      .flag "is_const" isConst rfl,
      .required "type_ref" read] (by simp) rfl
  refine ⟨.type reads.conforms, fun arranged => ?_⟩
  cases arranged with
  | type arranged => exact reads.decodes arranged

mutual

theorem TypeShape.reads : (levels : Nat) → (type : TypeShape) →
    Reads levels (.tagged kindKey shapeAlternatives)
      (TypeShape.decoderWith (QualType.decoderWithin levels)) type.encode type
  | _, .void => reads_noParts .void rfl (by decide) (by simp [shapeAlternatives])
  | _, .bool => reads_noParts .bool rfl (by decide) (by simp [shapeAlternatives])
  | _, .char .. => reads_sized .char rfl (by decide) (by simp [shapeAlternatives])
  | _, .integer .. => reads_sized .integer rfl (by decide) (by simp [shapeAlternatives])
  | _, .float size =>
      reads_onePart .float rfl (by decide) (by simp [shapeAlternatives]) (.uint32 size)
  | levels, .pointer pointee =>
      reads_onePart .pointer rfl (by decide) (by simp [shapeAlternatives])
        (QualType.reads levels pointee)
  | levels, .leftReference pointee =>
      reads_onePart .leftReference rfl (by decide) (by simp [shapeAlternatives])
        (QualType.reads levels pointee)
  | levels, .rightReference pointee =>
      reads_onePart .rightReference rfl (by decide) (by simp [shapeAlternatives])
        (QualType.reads levels pointee)
  | _, .record id => reads_onePart .record rfl (by decide) (by simp [shapeAlternatives]) id.reads
  | _, .enumeration id =>
      reads_onePart .enumeration rfl (by decide) (by simp [shapeAlternatives]) id.reads
  | _, .named id => reads_onePart .named rfl (by decide) (by simp [shapeAlternatives]) id.reads
  | levels, .array element length =>
      reads_parts .array [
          .required "element" (QualType.reads levels element),
          .required "len" (.uint64 length)]
        rfl (by decide) (by simp [shapeAlternatives]) rfl (by simp [TypeKind.parts]) rfl
  | levels, .openArray element =>
      reads_onePart .openArray rfl (by decide) (by simp [shapeAlternatives])
        (QualType.reads levels element)
  | levels, .function result arguments variadic => by
      rw [TypeShape.encode, QualType.encodeAll_eq]
      exact reads_parts .function [
          .required "result" (QualType.reads levels result),
          .required "args" (.list (QualType.readsAll levels arguments)),
          .required "is_variadic" (.bool variadic)]
        rfl (by decide) (by simp [shapeAlternatives]) rfl (by simp [TypeKind.parts]) rfl
  | _, .objcPointer id =>
      reads_onePart .objcPointer rfl (by decide) (by simp [shapeAlternatives]) id.reads
  | _, .objcAny => reads_noParts .objcAny rfl (by decide) (by simp [shapeAlternatives])
  | _, .other description =>
      reads_onePart .other rfl (by decide) (by simp [shapeAlternatives]) (.string description)

theorem QualType.reads : (levels : Nat) → (type : QualType) →
    Reads levels .type (QualType.decoderWithin levels) type.encode type
  | 0, ⟨_, _, shape⟩ => by
      refine ⟨(QualType.reads_succ (TypeShape.reads 0 shape)).conforms, ?_⟩
      intro other arranged _ _ _ within
      cases arranged with
      | type arranged => cases arranged; cases within
  | levels + 1, ⟨_, _, shape⟩ => QualType.reads_succ (TypeShape.reads levels shape)

theorem QualType.readsAll : (levels : Nat) → (types : List QualType) → ∀ type ∈ types,
    Reads levels .type (QualType.decoderWithin levels) type.encode type
  | _, [] => fun _ mem => absurd mem List.not_mem_nil
  | levels, type :: rest => List.forall_mem_cons.mpr
      ⟨QualType.reads levels type, QualType.readsAll levels rest⟩

end

end NativeBindings
