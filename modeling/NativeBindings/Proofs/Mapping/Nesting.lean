import Mathlib.Algebra.BigOperators.Group.Finset.Basic
import Mathlib.Algebra.Order.BigOperators.Group.Finset
import NativeBindings.Proofs.Mapping.Bare
import NativeBindings.Proofs.Mapping.Stripped

namespace NativeBindings

/-! # How deep the mapper calls itself

The mapper calls itself on the parts of a type, and on what stands behind its typedefs and
enumerations, which may be larger than the type.  Where no name leads back to itself, a
name weighs as much as all that it leads to is large.  What stands behind a name is large
by a part of the name's weight, and the names in it weigh no more than the rest; so a type
and the names in it say together how many calls may stand inside each other.
-/

/-- A computation whose calls stand inside each other.  It has no outcome at all if they
would stand deeper than allowed. -/
abbrev Nested := OptionT (StateT Run Option)

namespace Nested

variable {α β : Type}

/-- What the mapper does without calling itself. -/
def lift (ask : Represents α) : Nested α := OptionT.mk fun run => some (ask.run run)

/-- A call that would stand too deep. -/
def tooDeep : Nested α := OptionT.mk fun _ => none

section Bind

variable {ask : Nested α} {next : α → Nested β} {run after : Run}

theorem bind_tooDeep (deep : ask.run run = none) : (ask >>= next).run run = none := by
  change (ask.run run).bind _ = none
  rw [deep]
  rfl

theorem bind_failure (fails : ask.run run = some (none, after)) :
    (ask >>= next).run run = some (none, after) := by
  change (ask.run run).bind _ = _
  rw [fails]
  rfl

theorem bind_answer {answer : α} (answers : ask.run run = some (some answer, after)) :
    (ask >>= next).run run = (next answer).run after := by
  change (ask.run run).bind _ = _
  rw [answers]
  rfl

end Bind

theorem lift_pure (value : α) : lift (pure value) = pure value := rfl

theorem lift_bind (ask : Represents α) (next : α → Represents β) :
    lift (ask >>= next) = lift ask >>= fun answer => lift (next answer) := by
  apply OptionT.ext
  funext run
  have lifted : (lift ask).run run = some (ask.run run) := rfl
  change some ((ask >>= next).run run) = _
  rw [Represents.run_bind]
  rcases asked : ask.run run with ⟨_ | answer, after⟩ <;> rw [asked] at lifted
  · exact Eq.symm (bind_failure lifted)
  · exact Eq.symm (bind_answer lifted)

theorem lift_ite (condition : Prop) [Decidable condition] (first second : Represents α) :
    lift (if condition then first else second) = if condition then lift first else lift second :=
  apply_ite lift condition first second

theorem lift_run : lift (getThe Run) = getThe Run := rfl

theorem found (value : α) (next : α → Nested β) :
    OptionT.mk (pure (some value)) >>= next = next value := rfl

end Nested

namespace Index

variable (index : Index)

mutual

/-- Represents a type by no more than so many calls inside each other. -/
def representCall : (calls : Nat) → QualType → Nested Representation
  | 0, _ => .tooDeep
  | calls + 1, type =>
      match type.shape with
      | .pointer pointee => pointerCall calls pointee
      | .leftReference pointee | .rightReference pointee => do
          pure (.reference (← representCall calls pointee).pointed)
      | .enumeration id => do
          let decl ← OptionT.mk (pure (index.enums.get? id))
          if decl.name.isNone then representCall calls decl.base
          else
            let classifier ← .lift (index.named (.enumeration decl))
            if (← getThe Run).config.isStrict decl then
              pure {
                target := .ofClassifier classifier
                pointed := .ofClassifier (classifier.nested "Var")
                marshalling := .byValue
                info := .enumeration classifier true }
            else
              let base ← representCall calls decl.base
              pure {
                target := .ofClassifier classifier
                pointed := .ofClassifier classifier.variableOf
                marshalling := .byValue
                info := base.info }
      | .named id => do
          let decl ← OptionT.mk (pure (index.typedefs.get? id))
          let aliased ← representCall calls decl.aliased
          if index.keepsName decl aliased then
            let classifier ← .lift (index.named (.typedef decl))
            pure {
              target := (TargetType.ofClassifier classifier).withNullable aliased.target.isNullable
              pointed := .ofClassifier classifier.variableOf
              marshalling := aliased.marshalling
              info := aliased.info }
          else pure aliased
      | .array element length => arrayCall calls element (some length)
      | .openArray element => arrayCall calls element none
      | shape => .lift (index.representShape (fun _ => failure) shape)

def pointerCall : (calls : Nat) → QualType → Nested Representation
  | 0, _ => .tooDeep
  | calls + 1, pointee =>
      match index.forwardStruct? pointee with
      | some decl => do
          pure (.pointer (some (.ofClassifier (← .lift (index.named (.struct decl))))))
      | none =>
          match pointee.shape with
          | .void => pure (.pointer none)
          | .function result arguments variadic => do
              if variadic then failure
              let parameters ← arguments.mapM fun argument => do
                pure (← representCall calls argument).target
              if result.shape.isVoid then pure (.pointer (some (functionMemory parameters .unit)))
              else
                let value ← representCall calls result
                pure (.pointer (some (functionMemory parameters value.target)))
          | _ => do pure (.pointer (some (← representCall calls pointee).pointed))

def arrayCall : (calls : Nat) → QualType → Option UInt64 → Nested Representation
  | 0, _, _ => .tooDeep
  | calls + 1, element, length => do
      pure (.array (← representCall calls element).pointed length)

end

end Index

mutual

/-- Of how many types a type is made. -/
def TypeShape.size : TypeShape → Nat
  | .pointer ⟨_, _, shape⟩ | .leftReference ⟨_, _, shape⟩ | .rightReference ⟨_, _, shape⟩ =>
      shape.size + 1
  | .array ⟨_, _, shape⟩ _ | .openArray ⟨_, _, shape⟩ => shape.size + 1
  | .function ⟨_, _, result⟩ arguments _ => result.size + sizeOfAll arguments + 1
  | .void | .bool | .char .. | .integer .. | .float _ | .record _ | .enumeration _ | .named _
  | .objcPointer _ | .objcAny | .other _ => 1

def sizeOfAll : List QualType → Nat
  | [] => 0
  | ⟨_, _, shape⟩ :: rest => shape.size + sizeOfAll rest

end

theorem TypeShape.size_pos (shape : TypeShape) : 0 < shape.size := by
  unfold size
  split <;> exact Nat.succ_pos _

theorem size_argument_le {argument : QualType} {arguments : List QualType}
    (member : argument ∈ arguments) : argument.shape.size ≤ sizeOfAll arguments := by
  induction arguments with
  | nil => cases member
  | cons head rest ih =>
      obtain ⟨_, _, shape⟩ := head
      rw [sizeOfAll]
      rcases List.mem_cons.mp member with rfl | later
      · exact Nat.le_add_right _ _
      · exact Nat.le_trans (ih later) (Nat.le_add_left _ _)

namespace Index

variable (index : Index)

/-- The sizes of all aliased types and bases, taken together. -/
def namesSize : Nat :=
  sizeOfAll (index.typedefs.values.map (·.aliased)) + sizeOfAll (index.enums.values.map (·.base))

/-- How large the type behind a name is. -/
def sizeBehind (name : TypeName) : Nat := ((index.behind? name).map (·.shape.size)).getD 0

theorem sum_sizeBehind_le :
    ∑ name ∈ index.typeNames.toFinset, index.sizeBehind name ≤ index.namesSize := by
  have typedef (decl : TypedefDecl) (member : decl ∈ index.typedefs.values) :
      index.sizeBehind (.typedef decl.id) = decl.aliased.shape.size := by
    simp [sizeBehind, behind?, DeclMap.get?_of_mem_values member]
  have enumeration (decl : EnumDecl) (member : decl ∈ index.enums.values) :
      index.sizeBehind (.enumeration decl.id) = decl.base.shape.size := by
    simp [sizeBehind, behind?, DeclMap.get?_of_mem_values member]
  have sizes (types : List QualType) : sizeOfAll types = (types.map (·.shape.size)).sum := by
    induction types with
    | nil => rfl
    | cons head rest ih =>
        obtain ⟨_, _, shape⟩ := head
        rw [sizeOfAll, ih, List.map_cons, List.sum_cons]
  calc ∑ name ∈ index.typeNames.toFinset, index.sizeBehind name
      ≤ (index.typeNames.map index.sizeBehind).sum := by
        rw [Finset.sum_list_map_count]
        refine Finset.sum_le_sum fun name member => ?_
        exact Nat.le_mul_of_pos_left _ (List.count_pos_iff.mpr (List.mem_toFinset.mp member))
    _ = index.namesSize := by
        rw [typeNames, List.map_append, List.map_map, List.map_map, List.sum_append, namesSize,
          sizes, sizes, List.map_map, List.map_map]
        congr 2
        · exact List.map_congr_left typedef
        · exact List.map_congr_left enumeration

open Classical in
/-- How large all types are together that a name leads to, itself among them. -/
noncomputable def weight (name : TypeName) : Nat :=
  ∑ next ∈ index.typeNames.toFinset with Relation.ReflTransGen index.LeadsTo name next,
    index.sizeBehind next

/-- So many calls inside each other are enough for a type: two for each part of it, as for
each part of what the names in it lead to. -/
def Enough (calls : Nat) (shape : TypeShape) : Prop :=
  ∃ bound, (∀ name ∈ shape.names, index.weight name ≤ bound) ∧ 2 * (shape.size + bound) ≤ calls

variable {index} {calls : Nat} {shape part : TypeShape}

theorem weight_le (index : Index) (name : TypeName) : index.weight name ≤ index.namesSize := by
  classical
  calc index.weight name
      ≤ ∑ next ∈ index.typeNames.toFinset, index.sizeBehind next :=
        Finset.sum_le_sum_of_subset (Finset.filter_subset _ _)
    _ ≤ index.namesSize := index.sum_sizeBehind_le

/-- What stands behind a name takes its part of the weight, and the names in it the rest. -/
theorem weight_behind (acyclic : index.Acyclic) {name next : TypeName} {type : QualType}
    (stands : index.behind? name = some type) (inside : next ∈ type.shape.names) :
    type.shape.size + index.weight next ≤ index.weight name := by
  classical
  have leads : index.LeadsTo name next := ⟨type, stands, inside⟩
  have own : index.sizeBehind name = type.shape.size := by simp [sizeBehind, stands]
  have apart : name ∉ index.typeNames.toFinset.filter
      (Relation.ReflTransGen index.LeadsTo next ·) :=
    fun member => acyclic name (.head' leads (Finset.mem_filter.mp member).2)
  rw [← own, weight, ← Finset.sum_insert apart]
  refine Finset.sum_le_sum_of_subset fun other member => ?_
  rw [Finset.mem_filter]
  rcases Finset.mem_insert.mp member with rfl | later
  · exact ⟨List.mem_toFinset.mpr (mem_typeNames_of_behind? stands), .refl⟩
  · rw [Finset.mem_filter] at later
    exact ⟨later.1, later.2.head leads⟩

theorem size_le_weight {name : TypeName} {type : QualType}
    (stands : index.behind? name = some type) : type.shape.size ≤ index.weight name := by
  classical
  have own : index.sizeBehind name = type.shape.size := by simp [sizeBehind, stands]
  rw [← own, weight]
  exact Finset.single_le_sum (fun _ _ => Nat.zero_le _) (Finset.mem_filter.mpr
    ⟨List.mem_toFinset.mpr (mem_typeNames_of_behind? stands), .refl⟩)

theorem Enough.inner {fewer : Nat} (enough : index.Enough calls shape)
    (names : part.names ⊆ shape.names) (smaller : part.size < shape.size)
    (le : calls ≤ fewer + 2) : index.Enough fewer part := by
  obtain ⟨bound, light, few⟩ := enough
  exact ⟨bound, fun name member => light name (names member), by omega⟩

theorem Enough.behind (acyclic : index.Acyclic) (enough : index.Enough (calls + 1) shape)
    {name : TypeName} {type : QualType} (member : name ∈ shape.names)
    (stands : index.behind? name = some type) : index.Enough calls type.shape := by
  obtain ⟨bound, light, few⟩ := enough
  have size := shape.size_pos
  have whole := size_le_weight stands
  have heavy := light name member
  refine ⟨index.weight name - type.shape.size, fun next inside => ?_, by omega⟩
  have less := weight_behind acyclic stands inside
  omega

theorem pointerCall_callback (calls : Nat) {spelling : String} {isConst variadic : Bool}
    {result : QualType} {arguments : List QualType}
    (answers : ∀ argument ∈ arguments, index.representCall calls argument =
      .lift (index.representShape index.represent argument.shape))
    (answer : index.representCall calls result =
      .lift (index.representShape index.represent result.shape)) :
    index.pointerCall (calls + 1) ⟨spelling, isConst, .function result arguments variadic⟩ =
      .lift (index.representShape index.represent
        (.pointer ⟨spelling, isConst, .function result arguments variadic⟩)) := by
  have targets : (arguments.mapM fun argument => do
      pure (← index.representCall calls argument).target) =
        .lift (index.targetsOf index.represent arguments) := by
    clear answer
    induction arguments with
    | nil => rfl
    | cons head rest ih =>
        rw [List.mapM_cons, answers head List.mem_cons_self,
          ih fun argument member => answers argument (List.mem_cons_of_mem _ member)]
        obtain ⟨_, _, shape⟩ := head
        simp only [targetsOf, Nested.lift_bind, Nested.lift_pure, bind_assoc, pure_bind]
  cases variadic with
  | true =>
      obtain ⟨_, _, shape⟩ := result
      rfl
  | false =>
      rw [representShape_callback, pointerCall, forwardStruct?_function]
      simp only [targets, answer]
      rw [Nested.lift_bind]
      cases result.shape.isVoid with
      | true => rfl
      | false => simp only [Bool.false_eq_true, ↓reduceIte, Nested.lift_bind, Nested.lift_pure]

/-- Behind a pointer the mapper calls itself on parts of the type, which are smaller. -/
theorem pointerCall_eq {calls : Nat} {pointee : QualType}
    (inner : ∀ part : QualType, part.shape.names ⊆ (TypeShape.pointer pointee).names →
      part.shape.size < (TypeShape.pointer pointee).size → index.representCall calls part =
        .lift (index.representShape index.represent part.shape)) :
    index.pointerCall (calls + 1) pointee =
      .lift (index.representShape index.represent (.pointer pointee)) := by
  obtain ⟨spelling, isConst, shape⟩ := pointee
  cases forward : index.forwardStruct? ⟨spelling, isConst, shape⟩ with
  | some decl =>
      rw [pointerCall, representShape_forward _ _ forward, Nested.lift_bind, forward]
      rfl
  | none =>
      cases shape with
      | void => rfl
      | function result arguments variadic =>
          obtain ⟨_, _, output⟩ := result
          refine pointerCall_callback calls (fun argument member => ?_) ?_
          · refine inner argument (fun name inside => ?_) ?_
            · exact List.mem_append_right _ (names_argument member inside)
            · have part := size_argument_le member
              simp only [TypeShape.size]
              omega
          · refine inner _ (List.subset_append_left _ _) ?_
            simp only [TypeShape.size]
            omega
      | _ =>
          rw [representShape_pointer _ _ (by nofun) (by nofun), forward, pointerCall, forward]
          dsimp only
          rw [inner _ (fun _ => id) (Nat.lt_succ_self _), Nested.lift_bind]
          rfl

theorem representCall_enumeration {calls : Nat} {id : DeclId} {spelling : String} {isConst : Bool}
    (behind : ∀ decl, index.enums.get? id = some decl →
      index.representCall calls decl.base = .lift (index.represent decl.base)) :
    index.representCall (calls + 1) ⟨spelling, isConst, .enumeration id⟩ =
      .lift (index.representShape index.represent (.enumeration id)) := by
  rw [representCall, representShape]
  dsimp only
  cases found : index.enums.get? id with
  | none => simp only [representEnumeration, found]; rfl
  | some decl =>
      rw [representEnumeration_found _ _ found, Nested.found, behind decl found]
      simp only [Nested.lift_ite, Nested.lift_bind, Nested.lift_run, Nested.lift_pure]

theorem representCall_named {calls : Nat} {id : DeclId} {spelling : String} {isConst : Bool}
    (behind : ∀ decl, index.typedefs.get? id = some decl →
      index.representCall calls decl.aliased = .lift (index.represent decl.aliased)) :
    index.representCall (calls + 1) ⟨spelling, isConst, .named id⟩ =
      .lift (index.representShape index.represent (.named id)) := by
  rw [representCall, representShape]
  dsimp only
  cases found : index.typedefs.get? id with
  | none => simp only [representTypedef, found]; rfl
  | some decl =>
      rw [representTypedef_found _ _ found, Nested.found, behind decl found]
      simp only [Nested.lift_ite, Nested.lift_bind, Nested.lift_pure]

/-- Calls that may stand deep enough answer what the mapper answers. -/
theorem representCall_eq (acyclic : index.Acyclic) {type : QualType} {calls : Nat}
    (enough : index.Enough calls type.shape) :
    index.representCall calls type = .lift (index.represent type) := by
  induction calls using Nat.strong_induction_on generalizing type with
  | h calls ih =>
      obtain ⟨calls, rfl⟩ : ∃ fewer, calls = fewer + 2 := by
        obtain ⟨bound, -, few⟩ := enough
        have size := type.shape.size_pos
        exact ⟨calls - 2, by omega⟩
      have inner (part : QualType) (names : part.shape.names ⊆ type.shape.names)
          (smaller : part.shape.size < type.shape.size) {fewer : Nat} (lower : calls ≤ fewer)
          (upper : fewer ≤ calls + 1) : index.representCall fewer part =
            .lift (index.representShape index.represent part.shape) := by
        rw [ih fewer (by omega) (enough.inner names smaller (by omega)), represent_eq acyclic]
      have behind (name : TypeName) (part : QualType) (member : name ∈ type.shape.names)
          (stands : index.behind? name = some part) :
          index.representCall (calls + 1) part = .lift (index.represent part) :=
        ih (calls + 1) (by omega) (enough.behind acyclic member stands)
      rw [represent_eq acyclic]
      obtain ⟨spelling, isConst, shape⟩ := type
      cases shape with
      | pointer pointee =>
          rw [representCall]
          exact pointerCall_eq fun part names smaller =>
            inner part names smaller (Nat.le_refl _) (Nat.le_succ _)
      | leftReference pointee | rightReference pointee =>
          obtain ⟨spelling, isConst, shape⟩ := pointee
          have below := inner ⟨spelling, isConst, shape⟩ (fun _ => id) (Nat.lt_succ_self _)
            (Nat.le_succ _) (Nat.le_refl _)
          rw [representCall, representShape, Nested.lift_bind]
          dsimp only
          rw [below]
          rfl
      | array element length | openArray element =>
          obtain ⟨spelling, isConst, shape⟩ := element
          have below := inner ⟨spelling, isConst, shape⟩ (fun _ => id) (Nat.lt_succ_self _)
            (Nat.le_refl _) (Nat.le_succ _)
          rw [representCall, representShape, Nested.lift_bind]
          dsimp only
          rw [arrayCall, below]
          rfl
      | enumeration id =>
          exact representCall_enumeration fun decl found =>
            behind (.enumeration id) decl.base (List.mem_singleton_self _) (by simp [behind?, found])
      | named id =>
          exact representCall_named fun decl found =>
            behind (.typedef id) decl.aliased (List.mem_singleton_self _) (by simp [behind?, found])
      | _ => rfl

/-- A typedef of itself is never represented, however deep the calls may stand. -/
theorem representCall_circle {id : DeclId} {decl : TypedefDecl} {type : QualType}
    (found : index.typedefs.get? id = some decl) (itself : decl.aliased.shape = .named id)
    (uses : type.shape = .named id) (calls : Nat) (run : Run) :
    (index.representCall calls type).run run = none := by
  induction calls generalizing type with
  | zero => rfl
  | succ calls ih =>
      rw [representCall, uses]
      dsimp only
      rw [found, Nested.found]
      exact Nested.bind_tooDeep (ih itself)

/-- Where no name leads back to itself, the calls of the mapper end: as many inside each
other as there are parts in the type and in all types behind names, taken twice, answer it.
The walk that strips names off a type ends on every index. -/
theorem represent_ends (index : Index) :
    (index.Acyclic → ∀ (type : QualType) (calls : Nat),
      2 * (type.shape.size + index.namesSize) ≤ calls → ∀ run : Run,
        (index.representCall calls type).run run = some ((index.represent type).run run)) ∧
      ∀ type : QualType, ∃ rounds ≤ index.typedefs.size + index.enums.size + 1, ∃ last,
        (∀ others other, index.nameWays.Walks [] type.shape others other ↔
          others = rounds ∧ other = last) ∧
        index.underlying? type = if last.name?.isNone then some last else none := by
  refine ⟨fun acyclic type calls few run => ?_, underlying?_ends index⟩
  have enough : index.Enough calls type.shape :=
    ⟨index.namesSize, fun name _ => index.weight_le name, few⟩
  rw [representCall_eq acyclic enough]
  rfl

/-- A struct that points to itself, with a typedef of the pointer, and a visitor that a
typedef of an enumeration without a name is passed to. -/
def branches : Index where
  structs := .ofList [{
    id := ⟨"branch"⟩, name := some "branch",
    layout := some {
      size := 8, align := 8,
      fields := [⟨"next", ⟨"branch_t", false, .named ⟨"branch_t"⟩⟩, 0, none⟩] } }]
  enums := .ofList [{ id := ⟨"order"⟩, base := .uint, constants := [⟨"DOWN", 0, false⟩] }]
  typedefs := .ofList [
    ⟨⟨"branch_t"⟩, "branch_t", .pointerTo (.record "struct branch" ⟨"branch"⟩)⟩,
    ⟨⟨"order_t"⟩, "order_t", ⟨"order", false, .enumeration ⟨"order"⟩⟩⟩,
    ⟨⟨"visitor"⟩, "visitor", .pointerTo ⟨"void (branch_t, order_t)", false, .function .void [
      ⟨"branch_t", false, .named ⟨"branch_t"⟩⟩, ⟨"order_t", false, .named ⟨"order_t"⟩⟩] false⟩⟩]

theorem acyclic_branches : branches.Acyclic := by
  apply acyclic_of_decreasing branches fun name =>
    if name = TypeName.typedef ⟨"visitor"⟩ then 2
    else if name = TypeName.typedef ⟨"order_t"⟩ then 1 else 0
  · decide
  · decide

theorem represent_ends_branches :
    let visitor : QualType := ⟨"visitor", false, .named ⟨"visitor"⟩⟩
    let run := Run.start {}
    branches.Acyclic ∧ 2 * (visitor.shape.size + branches.namesSize) = 20 ∧
      (branches.representCall 20 visitor).run run = some ((branches.represent visitor).run run) ∧
      ((branches.represent visitor).run run).1.isSome := by
  intro visitor run
  have few : 2 * (visitor.shape.size + branches.namesSize) = 20 := by decide
  exact ⟨acyclic_branches, few,
    (represent_ends branches).1 acyclic_branches visitor 20 (Nat.le_of_eq few) run,
    by decide +kernel⟩

end Index

end NativeBindings
