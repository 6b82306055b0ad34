import NativeBindings.Proofs.Build.Builders

namespace NativeBindings

/-! # What comes of the declarations of an index

Declarations are built one after the other, and each attempt starts in the run that
the one before left behind.  A library is what came of all of them, put together; a
declaration that could not be built adds nothing to it but its report.
-/

/-- What came of a declaration. -/
abbrev Outcome := Declaration × Except BuildError Built

namespace Outcome

def built? : Outcome → Option Built
  | (_, .ok built) => some built
  | (_, .error _) => none

def skipped? : Outcome → Option Skipped
  | (_, .ok _) => none
  | (decl, .error error) => some ⟨decl.kind, decl.displayName, error.report⟩

end Outcome

namespace Built

def classes (built : Built) : List ClassStub := built.elements.flatMap (·.classes)

def functions (built : Built) : List FunctionStub := built.elements.flatMap (·.functions)

def properties (built : Built) : List PropertyStub := built.elements.flatMap (·.properties)

end Built

namespace Library

/-- A library with what came of one more declaration. -/
def take (library : Library) : Outcome → Library
  | (_, .ok built) => library.add built
  | (decl, .error error) => library.skip ⟨decl.kind, decl.displayName, error.report⟩

def ofOutcomes (outcomes : List Outcome) : Library := outcomes.foldl take {}

end Library

namespace Index

/-- Attempts at declarations, one after the other. -/
def outcomes (index : Index) : List Declaration → StateM Run (List Outcome)
  | [] => pure []
  | decl :: rest => do
      let result ← (index.buildDeclaration decl).run
      let others ← index.outcomes rest
      pure ((decl, result) :: others)

/-- The declarations that a build attempts. -/
def wanted (index : Index) (config : Config) : List Declaration :=
  index.declarations.filter (!config.excludes ·)

variable {index : Index} {run after : Run} {outcomes : List Outcome}

/-- One declaration adds to a library what came of it.  What a failing draft wrote into its
table goes nowhere. -/
theorem addDeclaration_run (library : Library) (decl : Declaration) (run : Run) :
    (index.addDeclaration library decl).run run =
      (library.take (decl, ((index.buildDeclaration decl).run.run run).1),
        ((index.buildDeclaration decl).run.run run).2) := by
  rcases ends : ((index.draftDeclaration decl).run.run ∅).run run with ⟨⟨result, table⟩, mid⟩
  rw [index.buildDeclaration_run ends]
  unfold addDeclaration
  rw [StateT.run_bind, ends]
  cases result <;> rfl

/-- A function whose first parameter is a string, and whose second is nothing the target has. -/
private def caption : FunctionDecl :=
  .ofName "caption" .void [
    { name := "text", type := .pointerTo QualType.char.constant },
    { name := "angle", type := ⟨"_Complex float", false, .other "complex"⟩ }]

example :
    let draft := ({} : Index).draftDeclaration (.function caption)
    ((draft.run.run ∅).run (.start {})).1.2.stringsOf .narrow = [(⟨1⟩, 0)] ∧
      ((({} : Index).addDeclaration {} (.function caption)).run (.start {})).1.table.isEmpty := by
  decide

theorem addDeclarations_run (library : Library) (decls : List Declaration) (run : Run) :
    (index.addDeclarations library decls).run run =
      (((index.outcomes decls).run run).1.foldl Library.take library,
        ((index.outcomes decls).run run).2) := by
  induction decls generalizing library run with
  | nil => rfl
  | cons decl rest ih =>
      rw [addDeclarations, StateT.run_bind, addDeclaration_run, outcomes, StateT.run_bind]
      exact ih _ _

/-- A declaration fails where its builder does. -/
theorem builder_error {decl : Declaration} {error : BuildError}
    (fails : (index.buildDeclaration decl).run.run run = (.error error, after)) :
    ∃ cause, (index.builder decl).run run = (.error cause, after) := by
  rw [buildDeclaration_eq] at fails
  exact Attempt.error_of_within fails

theorem outcomes_cons_run {decl : Declaration} {rest : List Declaration}
    {result : Except BuildError Built} {others : List Outcome} {mid : Run}
    (first : (index.buildDeclaration decl).run.run run = (result, mid))
    (second : (index.outcomes rest).run mid = (others, after)) :
    (index.outcomes (decl :: rest)).run run = ((decl, result) :: others, after) := by
  rw [outcomes, StateT.run_bind, first]
  change ((index.outcomes rest).run mid >>= fun more => pure ((decl, result) :: more.1, more.2)) = _
  rw [second]
  rfl

theorem outcomes_append_run {decls more : List Declaration} {others : List Outcome}
    {mid : Run} (first : (index.outcomes decls).run run = (outcomes, mid))
    (second : (index.outcomes more).run mid = (others, after)) :
    (index.outcomes (decls ++ more)).run run = (outcomes ++ others, after) := by
  induction decls generalizing run outcomes with
  | nil =>
      cases first
      exact second
  | cons decl rest ih =>
      rcases attempt : (index.buildDeclaration decl).run.run run with ⟨result, next⟩
      rcases later : (index.outcomes rest).run next with ⟨between, last⟩
      rw [outcomes_cons_run attempt later] at first
      cases first
      exact outcomes_cons_run attempt (ih later)

/-- Every attempt that ended well gave what is still true in the end, and no number
was given twice. -/
theorem leaves_outcomes (decls : List Declaration) :
    Leaves (index.outcomes decls) run fun after outcomes =>
      outcomes.map (·.1) = decls ∧
        (∀ decl built, (decl, .ok built) ∈ outcomes → index.Gives after decl built) ∧
        run.Numbered after ((outcomes.filterMap Outcome.built?).flatMap Built.ids) := by
  induction decls generalizing run with
  | nil => exact .pure ⟨rfl, nofun, .nil le_rfl⟩
  | cons decl rest ih =>
      unfold Index.outcomes
      refine .bind (leaves_buildDeclaration decl) fun result mid before found => ?_
      refine .bind ih fun others after le ⟨listed, given, numbered⟩ => .pure ?_
      refine ⟨congrArg (decl :: ·) listed, ?_, ?_⟩
      · intro other built member
        rcases List.mem_cons.mp member with same | later
        · cases same
          exact (found built rfl).1.mono le
        · exact given other built later
      · cases result with
        | ok built => exact (found built rfl).2.append numbered
        | error error => exact numbered.after_le before

theorem listed_of_outcomes {decls : List Declaration}
    (ends : (index.outcomes decls).run run = (outcomes, after)) : outcomes.map (·.1) = decls := by
  have leaves := @leaves_outcomes index run decls
  rw [Leaves, ends] at leaves
  exact leaves.2.1

/-- Every outcome is that of an attempt on the way. -/
theorem attempted_of_mem {decls : List Declaration} {decl : Declaration}
    {result : Except BuildError Built} (ends : (index.outcomes decls).run run = (outcomes, after))
    (member : (decl, result) ∈ outcomes) :
    ∃ start last, (index.buildDeclaration decl).run.run start = (result, last) ∧
      last ≤ after := by
  induction decls generalizing run outcomes with
  | nil =>
      cases ends
      cases member
  | cons other rest ih =>
      rcases attempt : (index.buildDeclaration other).run.run run with ⟨first, mid⟩
      rcases behind : (index.outcomes rest).run mid with ⟨others, last⟩
      rw [outcomes_cons_run attempt behind] at ends
      cases ends
      rcases List.mem_cons.mp member with same | later
      · cases same
        have le := (@leaves_outcomes index mid rest).1
        rw [behind] at le
        exact ⟨run, mid, attempt, le⟩
      · exact ih behind later

end Index

namespace BridgeTable

theorem mem_referenced {table : BridgeTable} {id : StubId} :
    id ∈ table.referenced ↔
      id ∈ table.getters.keys ∨ id ∈ table.setters.keys ∨ id ∈ table.enumerations.keys ∨
        ∃ key ∈ table.strings.keys, key.1 = id := by
  simp only [referenced, SortedSet.mem_ofMembers, List.mem_append, List.mem_map, or_assoc]

theorem mem_referenced_merge (table other : BridgeTable) (id : StubId) :
    id ∈ (table.merge other).referenced ↔ id ∈ table.referenced ∨ id ∈ other.referenced := by
  simp only [mem_referenced, merge, SortedMap.mem_keys_union, or_and_right, exists_or, or_assoc,
    or_left_comm]

end BridgeTable

namespace Library

variable (outcomes : List Outcome) (library : Library)

theorem elements_take (outcome : Outcome) :
    (library.take outcome).stubs.elements.Perm
      (library.stubs.elements ++ outcome.built?.toList.flatMap (·.elements)) := by
  obtain ⟨decl, result⟩ := outcome
  cases result with
  | ok built =>
      simpa [take, add, Outcome.built?] using library.stubs.elements_foldl_push built.elements
  | error error => simp [take, skip, Outcome.built?]

theorem elements_foldl_take :
    (outcomes.foldl take library).stubs.elements.Perm
      (library.stubs.elements ++ (outcomes.filterMap Outcome.built?).flatMap (·.elements)) := by
  induction outcomes generalizing library with
  | nil => simp
  | cons outcome rest ih =>
      refine (ih _).trans (((library.elements_take outcome).append_right _).trans ?_)
      cases built : outcome.built? <;> simp [built]

/-- The elements of a library are those that its declarations gave. -/
theorem elements_ofOutcomes :
    (ofOutcomes outcomes).stubs.elements.Perm
      ((outcomes.filterMap Outcome.built?).flatMap (·.elements)) :=
  elements_foldl_take outcomes {}

theorem ids_ofOutcomes :
    (ofOutcomes outcomes).stubs.ids.Perm
      ((outcomes.filterMap Outcome.built?).flatMap Built.ids) := by
  rw [StubTree.ids_eq_flatMap]
  refine ((elements_ofOutcomes outcomes).flatMap_right _).trans ?_
  rw [List.flatMap_assoc]
  rfl

theorem allClasses_ofOutcomes :
    (ofOutcomes outcomes).stubs.allClasses.Perm
      ((outcomes.filterMap Outcome.built?).flatMap Built.classes) := by
  rw [StubTree.allClasses_eq_flatMap]
  refine ((elements_ofOutcomes outcomes).flatMap_right _).trans ?_
  rw [List.flatMap_assoc]
  rfl

theorem allFunctions_ofOutcomes :
    (ofOutcomes outcomes).stubs.allFunctions.Perm
      ((outcomes.filterMap Outcome.built?).flatMap Built.functions) := by
  rw [StubTree.allFunctions_eq_flatMap]
  refine ((elements_ofOutcomes outcomes).flatMap_right _).trans ?_
  rw [List.flatMap_assoc]
  rfl

theorem allProperties_ofOutcomes :
    (ofOutcomes outcomes).stubs.allProperties.Perm
      ((outcomes.filterMap Outcome.built?).flatMap Built.properties) := by
  rw [StubTree.allProperties_eq_flatMap]
  refine ((elements_ofOutcomes outcomes).flatMap_right _).trans ?_
  rw [List.flatMap_assoc]
  rfl

theorem skipped_foldl_take :
    (outcomes.foldl take library).skipped =
      library.skipped ++ outcomes.filterMap Outcome.skipped? := by
  induction outcomes generalizing library with
  | nil => simp
  | cons outcome rest ih =>
      rw [List.foldl_cons, ih]
      obtain ⟨decl, result⟩ := outcome
      cases result <;> simp [take, add, skip, Outcome.skipped?, List.filterMap_cons]

theorem skipped_ofOutcomes :
    (ofOutcomes outcomes).skipped = outcomes.filterMap Outcome.skipped? :=
  skipped_foldl_take outcomes {}

/-- Some part of the bridge table, if the parts of merged tables are put together. -/
theorem mem_part_ofOutcomes {κ : Type} (part : BridgeTable → List κ)
    (nothing : part ∅ = []) (merged : ∀ table other key,
      key ∈ part (BridgeTable.merge table other) ↔ key ∈ part table ∨ key ∈ part other)
    {key : κ} :
    key ∈ part (ofOutcomes outcomes).table ↔
      ∃ built ∈ outcomes.filterMap Outcome.built?, key ∈ part built.table := by
  have folded (library : Library) : key ∈ part (outcomes.foldl take library).table ↔
      key ∈ part library.table ∨
        ∃ built ∈ outcomes.filterMap Outcome.built?, key ∈ part built.table := by
    induction outcomes generalizing library with
    | nil => simp
    | cons outcome rest ih =>
        rw [List.foldl_cons, ih]
        obtain ⟨decl, result⟩ := outcome
        cases result with
        | ok built => simp [take, add, Outcome.built?, merged, or_assoc]
        | error error => simp [take, skip, Outcome.built?, List.filterMap_cons]
  have empty : key ∉ part (∅ : BridgeTable) := by simp [nothing]
  exact (folded {}).trans (or_iff_right empty)

theorem mem_getters_ofOutcomes {id : StubId} :
    id ∈ (ofOutcomes outcomes).table.getters.keys ↔
      ∃ built ∈ outcomes.filterMap Outcome.built?, id ∈ built.table.getters.keys :=
  mem_part_ofOutcomes outcomes (·.getters.keys) rfl fun _ _ _ => SortedMap.mem_keys_union

theorem mem_setters_ofOutcomes {id : StubId} :
    id ∈ (ofOutcomes outcomes).table.setters.keys ↔
      ∃ built ∈ outcomes.filterMap Outcome.built?, id ∈ built.table.setters.keys :=
  mem_part_ofOutcomes outcomes (·.setters.keys) rfl fun _ _ _ => SortedMap.mem_keys_union

theorem mem_referenced_ofOutcomes {id : StubId} :
    id ∈ (ofOutcomes outcomes).table.referenced ↔
      ∃ built ∈ outcomes.filterMap Outcome.built?, id ∈ built.table.referenced :=
  mem_part_ofOutcomes outcomes (·.referenced) rfl BridgeTable.mem_referenced_merge

end Library

end NativeBindings
