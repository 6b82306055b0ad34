import Mathlib.Logic.Function.Iterate
import NativeBindings.Proofs.Stub.Types

namespace NativeBindings

/-! # Aliases in target types

An alias stands for another type, which may use aliases itself.  So a type is expanded
round by round, until no alias is left in it; then further rounds change nothing, and it
does not matter how many there are.
-/

namespace TargetType

mutual

/-- A type with each alias in it replaced once.  The use of an alias says whether it is
nullable. -/
def replaceAliases (aliasee? : Classifier → Option TargetType) : TargetType → TargetType
  | .named classifier arguments nullable =>
      match aliasee? classifier with
      | some aliasee => aliasee.withNullable nullable
      | none => .named classifier (replaceAliasesIn aliasee? arguments) nullable
  | .function parameters result =>
      .function (replaceAliasesIn aliasee? parameters) (result.replaceAliases aliasee?)
  | .star => .star

def replaceAliasesIn (aliasee? : Classifier → Option TargetType) :
    List TargetType → List TargetType
  | [] => []
  | type :: rest => type.replaceAliases aliasee? :: replaceAliasesIn aliasee? rest

end

/-- Is no name in a type an alias? -/
abbrev Plain (aliasee? : Classifier → Option TargetType) (type : TargetType) : Prop :=
  type.All fun classifier => aliasee? classifier = none

/-- The type that is left when no alias is. -/
def Expands (aliasee? : Classifier → Option TargetType) (type expanded : TargetType) : Prop :=
  (∃ rounds, (replaceAliases aliasee?)^[rounds] type = expanded) ∧ expanded.Plain aliasee?

section Expands

variable {aliasee? : Classifier → Option TargetType} {type expanded : TargetType}

theorem replaceAliasesIn_eq (types : List TargetType) :
    replaceAliasesIn aliasee? types = types.map (replaceAliases aliasee?) := by
  induction types with
  | nil => rfl
  | cons type rest ih => rw [replaceAliasesIn, ih, List.map_cons]

mutual

/-- Where there is no alias, nothing is replaced. -/
theorem replaceAliases_of_plain : (type : TargetType) → type.Plain aliasee? →
    type.replaceAliases aliasee? = type
  | .named classifier arguments nullable, plain => by
      have here : aliasee? classifier = none := plain _ List.mem_cons_self
      have inside := replaceAliasesIn_of_plain arguments fun other member =>
        plain other (List.mem_cons_of_mem _ member)
      simp only [replaceAliases, here, inside]
  | .function parameters result, plain => by
      have inputs := replaceAliasesIn_of_plain parameters fun other member =>
        plain other (List.mem_append_left _ member)
      have output := replaceAliases_of_plain result fun other member =>
        plain other (List.mem_append_right _ member)
      rw [replaceAliases, inputs, output]
  | .star, _ => rfl

theorem replaceAliasesIn_of_plain : (types : List TargetType) →
    (∀ classifier ∈ classifiersOf types, aliasee? classifier = none) →
      replaceAliasesIn aliasee? types = types
  | [], _ => rfl
  | type :: rest, plain => by
      have head := replaceAliases_of_plain type fun other member =>
        plain other (List.mem_append_left _ member)
      have tail := replaceAliasesIn_of_plain rest fun other member =>
        plain other (List.mem_append_right _ member)
      rw [replaceAliasesIn, head, tail]

end

theorem Expands.refl (plain : type.Plain aliasee?) : type.Expands aliasee? type :=
  ⟨⟨0, rfl⟩, plain⟩

/-- From some round on, the type stays as it is. -/
theorem Expands.eventually (expands : type.Expands aliasee? expanded) :
    ∃ rounds, ∀ more, rounds ≤ more → (replaceAliases aliasee?)^[more] type = expanded := by
  obtain ⟨⟨rounds, rfl⟩, plain⟩ := expands
  refine ⟨rounds, fun more le => ?_⟩
  obtain ⟨further, rfl⟩ := Nat.exists_eq_add_of_le' le
  rw [Function.iterate_add_apply]
  exact Function.iterate_fixed (replaceAliases_of_plain _ plain) further

theorem Expands.unique {other : TargetType} (expands : type.Expands aliasee? expanded)
    (again : type.Expands aliasee? other) : expanded = other := by
  obtain ⟨rounds, stable⟩ := expands.eventually
  obtain ⟨others, otherStable⟩ := again.eventually
  rw [← stable _ (Nat.le_max_left rounds others), otherStable _ (Nat.le_max_right rounds others)]

/-- A round more at the start makes no difference. -/
theorem Expands.of_replaced (expands : (type.replaceAliases aliasee?).Expands aliasee? expanded) :
    type.Expands aliasee? expanded := by
  obtain ⟨⟨rounds, same⟩, plain⟩ := expands
  exact ⟨⟨rounds + 1, same⟩, plain⟩

theorem replaceAliases_withNullable (nullable : Bool) (type : TargetType) :
    (type.withNullable nullable).replaceAliases aliasee? =
      (type.replaceAliases aliasee?).withNullable nullable := by
  cases type with
  | named classifier arguments other =>
      simp only [withNullable, replaceAliases]
      cases aliasee? classifier with
      | none => rfl
      | some aliasee => cases aliasee <;> rfl
  | function parameters result => rfl
  | star => rfl

theorem Expands.withNullable (expands : type.Expands aliasee? expanded) (nullable : Bool) :
    (type.withNullable nullable).Expands aliasee? (expanded.withNullable nullable) := by
  obtain ⟨⟨rounds, rfl⟩, plain⟩ := expands
  have commute : Function.Commute (withNullable nullable) (replaceAliases aliasee?) :=
    fun type => (replaceAliases_withNullable nullable type).symm
  exact ⟨⟨rounds, (commute.iterate_right rounds type).symm⟩, plain.withNullable⟩

theorem Expands.generic {classifier : Classifier} (here : aliasee? classifier = none)
    (expands : type.Expands aliasee? expanded) :
    (generic classifier [type]).Expands aliasee? (generic classifier [expanded]) := by
  obtain ⟨⟨rounds, rfl⟩, plain⟩ := expands
  have commute : Function.Commute (fun type => generic classifier [type])
      (replaceAliases aliasee?) := by
    intro type
    simp [TargetType.generic, replaceAliases, replaceAliasesIn, here]
  exact ⟨⟨rounds, (commute.iterate_right rounds type).symm⟩, plain.generic here⟩

theorem iterate_function (rounds : Nat) (parameters : List TargetType) (result : TargetType) :
    (replaceAliases aliasee?)^[rounds] (.function parameters result) =
      .function (parameters.map (replaceAliases aliasee?)^[rounds])
        ((replaceAliases aliasee?)^[rounds] result) := by
  induction rounds generalizing parameters result with
  | zero => simp
  | succ rounds ih =>
      rw [Function.iterate_succ_apply, replaceAliases, ih, replaceAliasesIn_eq, List.map_map]
      rfl

theorem Expands.function {parameters inputs : List TargetType}
    (each : List.Forall₂ (Expands aliasee?) parameters inputs)
    (expands : type.Expands aliasee? expanded) :
    (function parameters type).Expands aliasee? (.function inputs expanded) := by
  have plain : ∀ input ∈ inputs, input.Plain aliasee? := by
    induction each with
    | nil => nofun
    | cons head _ ih => exact List.forall_mem_cons.mpr ⟨head.2, ih⟩
  have together : ∃ rounds, ∀ more, rounds ≤ more →
      parameters.map (replaceAliases aliasee?)^[more] = inputs := by
    clear plain
    induction each with
    | nil => exact ⟨0, fun _ _ => rfl⟩
    | cons head _ ih =>
        obtain ⟨first, stable⟩ := head.eventually
        obtain ⟨others, otherStable⟩ := ih
        refine ⟨max first others, fun more le => ?_⟩
        rw [List.map_cons, stable more (by omega), otherStable more (by omega)]
  obtain ⟨rounds, stable⟩ := expands.eventually
  obtain ⟨others, otherStable⟩ := together
  refine ⟨⟨max rounds others, ?_⟩, .function plain expands.2⟩
  rw [iterate_function, stable _ (Nat.le_max_left _ _), otherStable _ (Nat.le_max_right _ _)]

/-- Two types that are the same type when no alias is left. -/
def SameMeaning (aliasee? : Classifier → Option TargetType) (first second : TargetType) : Prop :=
  ∃ expanded, first.Expands aliasee? expanded ∧ second.Expands aliasee? expanded

namespace SameMeaning

variable {first second : TargetType}

theorem refl (plain : type.Plain aliasee?) : type.SameMeaning aliasee? type :=
  ⟨type, .refl plain, .refl plain⟩

theorem left (same : first.SameMeaning aliasee? second) : first.SameMeaning aliasee? first := by
  obtain ⟨expanded, expands, -⟩ := same
  exact ⟨expanded, expands, expands⟩

theorem of_replaced (same : (first.replaceAliases aliasee?).SameMeaning aliasee? second) :
    first.SameMeaning aliasee? second := by
  obtain ⟨expanded, expands, other⟩ := same
  exact ⟨expanded, expands.of_replaced, other⟩

theorem withNullable (same : first.SameMeaning aliasee? second) (nullable : Bool) :
    (first.withNullable nullable).SameMeaning aliasee? (second.withNullable nullable) := by
  obtain ⟨expanded, expands, other⟩ := same
  exact ⟨_, expands.withNullable nullable, other.withNullable nullable⟩

theorem generic {classifier : Classifier} (here : aliasee? classifier = none)
    (same : first.SameMeaning aliasee? second) :
    (generic classifier [first]).SameMeaning aliasee? (.generic classifier [second]) := by
  obtain ⟨expanded, expands, other⟩ := same
  exact ⟨_, expands.generic here, other.generic here⟩

theorem function {parameters others : List TargetType}
    (each : List.Forall₂ (SameMeaning aliasee?) parameters others)
    (same : first.SameMeaning aliasee? second) :
    (function parameters first).SameMeaning aliasee? (.function others second) := by
  have inputs : ∃ expanded, List.Forall₂ (Expands aliasee?) parameters expanded ∧
      List.Forall₂ (Expands aliasee?) others expanded := by
    induction each with
    | nil => exact ⟨[], .nil, .nil⟩
    | cons head _ ih =>
        obtain ⟨expanded, first, second⟩ := head
        obtain ⟨rest, firstRest, secondRest⟩ := ih
        exact ⟨expanded :: rest, .cons first firstRest, .cons second secondRest⟩
  obtain ⟨expanded, first, second⟩ := inputs
  obtain ⟨output, firstOutput, secondOutput⟩ := same
  exact ⟨_, .function first firstOutput, .function second secondOutput⟩

end SameMeaning

end Expands

end TargetType

end NativeBindings
