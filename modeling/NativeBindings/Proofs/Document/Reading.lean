import Mathlib.Data.List.Pairwise
import NativeBindings.Json.Decoder
import NativeBindings.Proofs.Document.Layout

namespace NativeBindings.Json

/-! # Reading any layout

A decoder undoes an encoding if it makes the same of every layout of the encoded value.
For records this comes from their fields: whichever are given, in whatever order, each one
changes its own part of the record, and what a record begins with is the default.
-/

section Steps

variable {α β ε : Type}

@[simp]
theorem ok_bind (value : α) (next : α → Except ε β) : (Except.ok value >>= next) = next value :=
  rfl

@[simp]
theorem lift_ok (value : α) :
    (liftM (Except.ok value : Except Fault α) : Except ReadError α) = .ok value := rfl

@[simp]
theorem Source.key_string (text : String) : (Source.string (.ok text)).key = .ok text := rfl

end Steps

mutual

/-- Nothing is in the way of a reader who steps over a value. -/
theorem blocked_source : (value : Value) → value.source.blocked = none
  | .null | .bool _ | .number _ | .string _ => rfl
  | .array items => by simp [Value.source, Source.blocked, blockedItems_sources items, blockedEnding]
  | .object fields => by
      simp [Value.source, Source.blocked, blockedMembers_sources fields, blockedEnding]

theorem blockedItems_sources : (items : List Value) → blockedItems (itemSources items) = none
  | [] => rfl
  | item :: rest => by
      simp [itemSources, blockedItems, blocked_source item, blockedItems_sources rest]

theorem blockedMembers_sources : (fields : List (String × Value)) →
    blockedMembers (fieldSources fields) = none
  | [] => rfl
  | (key, value) :: rest => by
      simp [fieldSources, blockedMembers, Scalar.ok, blocked_source value,
        blockedMembers_sources rest]

end

mutual

/-- What is read through gives the value again. -/
theorem value_source : (value : Value) → (depth : Nat) → value.nesting ≤ depth →
    value.source.value depth = .ok value
  | .null, _, _ | .bool _, _, _ | .number _, _, _ | .string _, _, _ => rfl
  | .array items, depth, fits => by
      simp only [Value.nesting] at fits
      have inner := itemValues_sources items (depth - 1) (by omega)
      have positive : depth ≠ 0 := by omega
      simp only [Value.source, Source.value, positive, inner]
      rfl
  | .object fields, depth, fits => by
      simp only [Value.nesting] at fits
      have inner := memberValues_sources fields (depth - 1) (by omega)
      have positive : depth ≠ 0 := by omega
      simp only [Value.source, Source.value, positive, inner]
      rfl

theorem itemValues_sources : (items : List Value) → (depth : Nat) →
    itemsNesting items ≤ depth → itemValues depth (itemSources items) = .ok items
  | [], _, _ => rfl
  | item :: rest, depth, fits => by
      simp only [itemsNesting] at fits
      have head := value_source item depth (by omega)
      have tail := itemValues_sources rest depth (by omega)
      simp only [itemSources, itemValues, head, tail]
      rfl

theorem memberValues_sources : (fields : List (String × Value)) → (depth : Nat) →
    fieldsNesting fields ≤ depth → memberValues depth (fieldSources fields) = .ok fields
  | [], _, _ => rfl
  | (key, value) :: rest, depth, fits => by
      simp only [fieldsNesting] at fits
      have head := value_source value depth (by omega)
      have tail := memberValues_sources rest depth (by omega)
      simp only [fieldSources, memberValues, head, tail]
      rfl

end

namespace Decoder

theorem skip_source (stage : Stage) (value : Value) : skip stage value.source = .ok () := by
  cases stage <;> simp [skip, blocked_source]

theorem through_source (stage : Stage) {depth : Nat} {value : Value}
    (fits : value.nesting ≤ depth) : through stage depth value.source = .ok () := by
  cases stage with
  | streaming => simp only [through, value_source value depth fits]; rfl
  | stored | buffered => rfl

end Decoder

theorem Arranged.null_left {schema : Schema} {value other : Value}
    (arranged : Arranged schema value other) (isNull : value = .null) : other = .null :=
  match arranged with
  | .fixed => isNull
  | .absent => rfl
  | .present inner => inner.null_left isNull
  | .type (.record ..) => nomatch isNull
  | .list _ | .record .. | .tagged .. => nomatch isNull

theorem Arranged.null_right {schema : Schema} {value other : Value}
    (arranged : Arranged schema value other) (isNull : other = .null) : value = .null :=
  match arranged with
  | .fixed => isNull
  | .absent => rfl
  | .present inner => inner.null_right isNull
  | .type (.record ..) => nomatch isNull
  | .list _ | .record .. | .tagged _ (.record ..) => nomatch isNull

/-- The encoded value follows its schema, and the decoder makes the value of every layout of
it that does not nest too deep. -/
structure Reads {α : Type} (limit : Nat) (schema : Schema) (decoder : Decoder α)
    (encoded : Value) (value : α) : Prop where
  conforms : Arranged schema encoded encoded
  decodes : ∀ {other}, Arranged schema encoded other → ∀ stage depth, other.nesting ≤ depth →
    other.nesting ≤ limit → decoder stage depth other.source = .ok value

namespace Reads

variable {α : Type} {limit more : Nat} {schema : Schema} {decoder : Decoder α}
  {encoded : Value} {value : α}

theorem mono (reads : Reads more schema decoder encoded value) (le : limit ≤ more) :
    Reads limit schema decoder encoded value :=
  ⟨reads.conforms, fun arranged stage depth fits within =>
    reads.decodes arranged stage depth fits (Nat.le_trans within le)⟩

theorem fixed (decodes : ∀ stage depth, encoded.nesting ≤ depth → encoded.nesting ≤ limit →
    decoder stage depth encoded.source = .ok value) : Reads limit .fixed decoder encoded value := by
  refine ⟨.fixed, fun arranged => ?_⟩
  cases arranged
  exact decodes

theorem string (text : String) : Reads limit .fixed Decoder.string (.string text) text :=
  fixed fun _ _ _ _ => rfl

theorem bool (value : Bool) : Reads limit .fixed Decoder.bool (.bool value) value :=
  fixed fun _ _ _ _ => rfl

theorem map {β : Type} (f : α → β) (reads : Reads limit schema decoder encoded value) :
    Reads limit schema (decoder.map f) encoded (f value) where
  conforms := reads.conforms
  decodes := fun arranged stage depth fits within => by
    simp only [Decoder.map, reads.decodes arranged stage depth fits within, Except.map]

theorem integer {fits : Int → Bool} {convert : Int → α} {number : Int}
    (inside : fits number = true) (same : convert number = value) :
    Reads limit .fixed ((Decoder.integer fits).map convert) (.int number) value := by
  subst same
  exact map convert (fixed fun _ _ _ _ => if_pos inside)

theorem word {size number : Nat} {convert : Nat → α} (bound : number < size)
    (same : convert number = value) :
    Reads limit .fixed
      ((Decoder.integer fun value => 0 ≤ value && value < size).map fun value =>
        convert value.toNat) (.nat number) value := by
  apply integer
  · have bound : (number : Int) < size := by exact_mod_cast bound
    rw [Bool.and_eq_true, decide_eq_true_eq, decide_eq_true_eq]
    exact ⟨Int.natCast_nonneg _, bound⟩
  · rw [Int.toNat_natCast, same]

theorem uint32 (number : UInt32) :
    Reads limit .fixed Decoder.uint32 (.nat number.toNat) number :=
  word number.toNat_lt_size UInt32.ofNat_toNat

theorem uint64 (number : UInt64) :
    Reads limit .fixed Decoder.uint64 (.nat number.toNat) number :=
  word number.toNat_lt_size UInt64.ofNat_toNat

theorem int64 (number : Int64) :
    Reads limit .fixed Decoder.int64 (.int number.toInt) number := by
  apply integer
  · rw [Bool.and_eq_true, decide_eq_true_eq, decide_eq_true_eq]
    exact ⟨number.minValue_le_toInt, number.toInt_le⟩
  · exact Int64.ofInt_toInt number

/-- An alternative that is named by the only key of an object. -/
theorem carried {alternatives : List (String × Decoder.Alternative α)} {name : String}
    (found : Decoder.alternative alternatives name = .ok (.carrying decoder))
    (reads : Reads limit .fixed decoder encoded value) :
    Reads limit .fixed (Decoder.choice alternatives) (.object [(name, encoded)]) value := by
  apply fixed
  intro stage depth fits within
  simp only [Value.nesting, fieldsNesting] at fits within
  obtain ⟨depth, rfl⟩ : ∃ inner, depth = inner + 1 := ⟨depth - 1, by omega⟩
  have inner := reads.decodes .fixed stage depth (by omega) (by omega)
  simp [Value.source, fieldSources, Decoder.choice, Decoder.enter, found, inner, Decoder.closeFull,
    pure, Except.pure]

/-- What may be nothing is read if nothing else is written as null. -/
theorem optional {encode : α → Value} (filled : ∀ value, encode value ≠ .null)
    (reads : ∀ value, Reads limit schema decoder (encode value) value) (value : Option α) :
    Reads limit (.optional schema) (Decoder.optional decoder) (.optional encode value) value := by
  cases value with
  | none =>
      refine ⟨.absent, fun arranged stage depth _ _ => ?_⟩
      cases arranged.null_left rfl
      rfl
  | some value =>
      have reads := reads value
      refine ⟨.present reads.conforms, fun {other} arranged stage depth fits within => ?_⟩
      have notNull : other ≠ .null := fun isNull => filled value (arranged.null_right isNull)
      have present : Arranged schema (encode value) other := by
        generalize eq : Value.optional encode (some value) = encoded at arranged
        cases arranged with
        | absent => exact absurd eq (filled value)
        | present inner => rwa [← eq] at inner
      have decoded := reads.decodes present stage depth fits within
      cases other with
      | null => exact absurd rfl notNull
      | _ => exact congrArg (Except.map some) decoded

theorem list {encode : α → Value} {items : List α}
    (each : ∀ item ∈ items, Reads limit schema decoder (encode item) item) :
    Reads limit (.list schema) (Decoder.list decoder) (.array (items.map encode)) items where
  conforms := by
    refine .list ?_
    induction items with
    | nil => exact .nil
    | cons item rest ih =>
        have ⟨first, later⟩ := List.forall_mem_cons.mp each
        exact .cons first.conforms (ih later)
  decodes := fun {other} arranged stage depth fits within => by
    cases arranged with
    | @list _ _ others arranged =>
    simp only [Value.nesting] at fits within
    obtain ⟨depth, rfl⟩ : ∃ inner, depth = inner + 1 := ⟨depth - 1, by omega⟩
    have all : (itemSources others).mapM (decoder stage depth) = .ok items := by
      induction items generalizing others with
      | nil => cases arranged; rfl
      | cons item rest ih =>
          cases arranged with
          | @cons _ _ other _ others head tail =>
          simp only [itemsNesting] at fits within
          have ⟨first, later⟩ := List.forall_mem_cons.mp each
          have first := first.decodes head stage depth (by omega) (by omega)
          have later := ih later tail (by omega) (by omega)
          simp only [itemSources, List.mapM_cons, first, later]
          rfl
    simp [Value.source, Decoder.list, Decoder.enter, Decoder.close, all, pure, Except.pure]

end Reads

end NativeBindings.Json
