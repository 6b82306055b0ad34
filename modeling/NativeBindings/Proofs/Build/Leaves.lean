import NativeBindings.Proofs.Build.Compared
import NativeBindings.Proofs.Build.Typed

namespace NativeBindings

/-! # Leaves that could not be built

Nothing refers to functions, globals, macros and categories.  One that could not be built
leaves no trace but its report: without it everything else is built as before, only that
the numbers are taken up which it wasted.
-/

/-- `kept` are the same items, in the same order, without some of those that are `gone`. -/
inductive Omits {α : Type} (gone : α → Prop) : List α → List α → Prop
  | nil : Omits gone [] []
  | keep {item : α} {items kept : List α} : Omits gone items kept →
      Omits gone (item :: items) (item :: kept)
  | drop {item : α} {items kept : List α} : gone item → Omits gone items kept →
      Omits gone (item :: items) kept

namespace Omits

variable {α β : Type} {gone : α → Prop} {items kept : List α}

/-- What is only there for other items is not affected. -/
theorem filterMap_eq (omits : Omits gone items kept) {read : α → Option β}
    (nothing : ∀ item, gone item → read item = none) :
    kept.filterMap read = items.filterMap read := by
  induction omits with
  | nil => rfl
  | keep _ ih => simp only [List.filterMap_cons, ih]
  | drop isGone _ ih => simp only [List.filterMap_cons, nothing _ isGone, ih]

/-- What cannot be gone is still there. -/
theorem append_left {front back : List α} (omits : Omits gone (front ++ back) kept)
    (stays : ∀ item ∈ front, ¬gone item) : ∃ rest, kept = front ++ rest ∧ Omits gone back rest := by
  induction front generalizing kept with
  | nil => exact ⟨kept, rfl, omits⟩
  | cons item front ih =>
      have later (item : α) (member : item ∈ front) := stays item (List.mem_cons_of_mem _ member)
      rw [List.cons_append] at omits
      cases omits with
      | keep omits =>
          obtain ⟨rest, rfl, behind⟩ := ih omits later
          exact ⟨rest, rfl, behind⟩
      | drop isGone => exact absurd isGone (stays item List.mem_cons_self)

theorem filter (keep : α → Bool) (others : ∀ item ∈ items, keep item = false → gone item) :
    Omits gone items (items.filter keep) := by
  induction items with
  | nil => exact .nil
  | cons item rest ih =>
      have behind := ih fun item member => others item (List.mem_cons_of_mem _ member)
      rw [List.filter_cons]
      cases kept : keep item with
      | true => exact .keep behind
      | false => exact .drop (others item List.mem_cons_self kept) behind

end Omits

/-- A declaration that nothing refers to, and that could not be built. -/
def Outcome.FailedLeaf (outcome : Outcome) : Prop :=
  outcome.1.typeId? = none ∧ ∃ error, outcome.2 = .error error

theorem Outcome.FailedLeaf.built? {outcome : Outcome} (failed : outcome.FailedLeaf) :
    outcome.built? = none := by
  obtain ⟨decl, result⟩ := outcome
  obtain ⟨-, error, rfl⟩ := failed
  rfl

/-- Stubs and the bridge table come from what was built. -/
theorem Library.foldl_take_built (outcomes : List Outcome) {library other : Library}
    (stubs : library.stubs = other.stubs) (table : library.table = other.table) :
    (outcomes.foldl take library).stubs =
        ((outcomes.filterMap Outcome.built?).foldl add other).stubs ∧
      (outcomes.foldl take library).table =
        ((outcomes.filterMap Outcome.built?).foldl add other).table := by
  induction outcomes generalizing library other with
  | nil => exact ⟨stubs, table⟩
  | cons outcome rest ih =>
      obtain ⟨decl, result⟩ := outcome
      cases result with
      | error error => exact ih stubs table
      | ok built => exact ih (by rw [take, add, add, stubs]) (by rw [take, add, add, table])

namespace Comparison

/-- Two runs that go on from `typed`, one of which has taken more numbers.  The view moves
numbers by that distance, from `low` and up to `high`, where the first run may get to. -/
def beside (index : Index) (typed : Run) (view : View) (low high distance : Nat) :
    Comparison where
  view
  inStep first second :=
    index.Follows typed first ∧ index.Follows typed second ∧
      low ≤ first.nextStub ∧ second.nextStub = first.nextStub + distance
  mayReach first := first.nextStub ≤ high
  mayReach_of_le le reaches := Nat.le_trans le.stubs reaches

theorem simulates_beside {index : Index} {typed : Run} (apart : index.KindsApart)
    (knows : index.KnowsTypes typed) {view : View} {low high distance : Nat}
    (moves : ∀ number, low ≤ number → number < high → view.number number = number + distance) :
    (beside index typed view low high distance).Simulates index where
  config := by
    rintro first second ⟨one, two, -, -⟩
    rw [one.le.config, two.le.config]
    exact .refl _ _
  classifier decl declared := by
    refine ⟨index.grows_classifier decl, ?_⟩
    rintro first second ⟨one, two, above, ahead⟩ -
    obtain ⟨answer, one⟩ := one.classifier apart knows declared
    obtain ⟨again, two⟩ := two.classifier apart knows declared
    have number (run : Run) : ((index.classifier decl).run run).2.nextStub = run.nextStub := by
      obtain ⟨_, _, _, frame⟩ := index.classifier_frame decl run
      rw [frame]
    refine ⟨⟨one, two, ?_, ?_⟩, ?_⟩
    · rwa [number]
    · rwa [number, number]
    · rw [answer, again]
      exact .answer _ _
  freshStub := by
    refine ⟨Run.grows_freshStub, ?_⟩
    rintro first second ⟨one, two, above, ahead⟩ below
    have moved : view.number first.nextStub = second.nextStub := by
      rw [ahead]
      exact moves _ above below
    refine ⟨⟨one.freshStub, two.freshStub, Nat.le_succ_of_le above, ?_⟩,
      congrArg StubId.mk moved⟩
    exact (congrArg (· + 1) ahead).trans (Nat.add_right_comm _ _ _)

/-- A run beside itself, seen from a view that leaves the numbers below `bound` alone. -/
def itself (view : View) (bound : Nat) : Comparison where
  view
  inStep first second := first = second
  mayReach first := first.nextStub ≤ bound
  mayReach_of_le le reaches := Nat.le_trans le.stubs reaches

theorem simulates_itself (index : Index) {view : View} {bound : Nat}
    (leaves : ∀ number < bound, view.number number = number) :
    (itself view bound).Simulates index where
  config := by
    rintro first _ rfl
    exact .refl _ _
  classifier decl _ := by
    refine ⟨index.grows_classifier decl, ?_⟩
    rintro first _ rfl -
    exact ⟨rfl, .answer _ _⟩
  freshStub := by
    refine ⟨Run.grows_freshStub, ?_⟩
    rintro first _ rfl below
    exact ⟨rfl, congrArg StubId.mk (leaves _ below)⟩

end Comparison

namespace Index

variable {index smaller : Index} {run typed first second after last : Run}
  {outcomes kept : List Outcome}

/-- A view that leaves the numbers taken so far alone sees what was built so far as it is. -/
theorem smul_outcomes {decls : List Declaration}
    (declared : ∀ decl ∈ decls, decl ∈ index.declarations)
    (ends : (index.outcomes decls).run run = (outcomes, after)) {view : View}
    (fine : view.coarse = false) (leaves : ∀ number < after.nextStub, view.number number = number) :
    view • outcomes = outcomes := by
  have simulates := Comparison.simulates_itself index leaves
  have agree := simulates.outcomes decls declared fun name strict => by
    refine ⟨Run.grows_recordStrictness name strict, ?_⟩
    rintro first _ rfl -
    exact ⟨rfl, rfl⟩
  exact (View.same_iff_of_fine fine).mp (agree.ends rfl ends ends (Nat.le_refl _)).2

section Leaves

variable (apart : index.KindsApart) (knows : index.KnowsTypes typed)

include apart knows

/-- An attempt at a leaf is the same attempt wherever it takes its numbers. -/
theorem attempt_beside {decl : Declaration} (declared : decl ∈ index.declarations)
    (leaf : decl.typeId? = none) (view : View) (fine : view.coarse = false) {distance : Nat}
    (one : index.Follows typed first) (two : index.Follows typed second)
    (ahead : second.nextStub = first.nextStub + distance)
    {result again : Except BuildError Built}
    (ends : (index.buildDeclaration decl).run.run first = (result, after))
    (endsAgain : (index.buildDeclaration decl).run.run second = (again, last))
    (moves : ∀ number, first.nextStub ≤ number → number < after.nextStub →
      view.number number = number + distance) :
    index.Follows typed after ∧ index.Follows typed last ∧
      last.nextStub = after.nextStub + distance ∧ view • result = again := by
  have simulates := Comparison.simulates_beside apart knows moves
  have agree := simulates.buildDeclaration declared fun enumeration => by
    cases decl with
    | enumeration decl => cases leaf
    | _ => cases enumeration
  obtain ⟨⟨one, two, -, ahead⟩, same⟩ := agree.ends
    ⟨one, two, Nat.le_refl _, ahead⟩ ends endsAgain (Nat.le_refl _)
  exact ⟨one, two, ahead, (View.same_iff_of_fine fine).mp same⟩

/-- Leaves are built alike with and without some that fail.  The induction is on the list
with the failing ones: with each that is dropped, the distance grows. -/
theorem outcomes_beside (omits : Omits Outcome.FailedLeaf outcomes kept)
    (leaves : ∀ outcome ∈ outcomes, outcome.1 ∈ index.declarations ∧ outcome.1.typeId? = none)
    {distance : Nat} (one : index.Follows typed first) (two : index.Follows typed second)
    (ahead : second.nextStub = first.nextStub + distance)
    (ends : (index.outcomes (outcomes.map (·.1))).run second = (outcomes, last)) :
    ∃ others after, (index.outcomes (kept.map (·.1))).run first = (others, after) ∧
      index.Follows typed after ∧ index.Follows typed last ∧
      ∃ number : Nat → Nat, StrictMono number ∧ (∀ n, n + distance ≤ number n) ∧
        (∀ n < first.nextStub, number n = n + distance) ∧
        ∀ view : View, view.coarse = false →
          (∀ n, first.nextStub ≤ n → view.number n = number n) → view • others = kept := by
  induction omits generalizing first second distance with
  | nil =>
      cases ends
      exact ⟨[], first, rfl, one, two, (· + distance),
        fun _ _ before => Nat.add_lt_add_right before _, fun _ => Nat.le_refl _,
        fun _ _ => rfl, fun _ _ _ => rfl⟩
  | @keep outcome outcomes kept omits ih =>
      obtain ⟨decl, result⟩ := outcome
      obtain ⟨declared, leaf⟩ := leaves _ List.mem_cons_self
      rcases again : (index.buildDeclaration decl).run.run second with ⟨there, secondMid⟩
      rcases behind : (index.outcomes (outcomes.map (·.1))).run secondMid with ⟨rest, final⟩
      rw [List.map_cons, outcomes_cons_run again behind] at ends
      cases ends
      rcases attempt : (index.buildDeclaration decl).run.run first with ⟨here, firstMid⟩
      have le : first ≤ firstMid := by
        have grows := (@leaves_buildDeclaration index first decl).1
        rwa [attempt] at grows
      obtain ⟨oneMid, twoMid, aheadMid, -⟩ := attempt_beside apart knows declared leaf
        (.shift distance) rfl one two ahead attempt again fun _ _ _ => rfl
      obtain ⟨others, after, reached, follows, followsLast, number, mono, above, below, looks⟩ :=
        ih (fun outcome member => leaves outcome (List.mem_cons_of_mem _ member))
          oneMid twoMid aheadMid behind
      refine ⟨(decl, here) :: others, after, outcomes_cons_run attempt reached, follows,
        followsLast, number, mono, above, fun n before => ?_, fun view fine same => ?_⟩
      · exact below n (Nat.lt_of_lt_of_le before le.stubs)
      · obtain ⟨-, -, -, moved⟩ := attempt_beside apart knows declared leaf view fine one two ahead
          attempt again fun n low high => (same n low).trans (below n high)
        have rest := looks view fine fun n low => same n (Nat.le_trans le.stubs low)
        rw [View.smul_cons, rest]
        exact congrArg (fun result => (decl, result) :: kept) moved
  | @drop outcome outcomes kept failed omits ih =>
      obtain ⟨decl, result⟩ := outcome
      obtain ⟨declared, leaf⟩ := leaves _ List.mem_cons_self
      rcases again : (index.buildDeclaration decl).run.run second with ⟨there, secondMid⟩
      rcases behind : (index.outcomes (outcomes.map (·.1))).run secondMid with ⟨rest, final⟩
      rw [List.map_cons, outcomes_cons_run again behind] at ends
      cases ends
      have le : second ≤ secondMid := by
        have grows := (@leaves_buildDeclaration index second decl).1
        rwa [again] at grows
      obtain ⟨twoMid, -⟩ := attempt_beside apart knows declared leaf (.shift 0) rfl two two
        rfl again again fun _ _ _ => rfl
      obtain ⟨taken, further⟩ := Nat.exists_eq_add_of_le le.stubs
      have aheadMid : secondMid.nextStub = first.nextStub + (distance + taken) := by
        rw [further, ahead, Nat.add_assoc]
      obtain ⟨others, after, reached, follows, followsLast, number, mono, above, below, looks⟩ :=
        ih (fun outcome member => leaves outcome (List.mem_cons_of_mem _ member))
          one twoMid aheadMid behind
      -- Only what comes from here on is moved further.
      refine ⟨others, after, reached, follows, followsLast,
        fun n => if n < first.nextStub then n + distance else number n, ?_, ?_, ?_, ?_⟩
      · intro m n before
        have ordered := mono before
        have beyond := above n
        dsimp only
        split <;> split <;> omega
      · intro n
        have beyond := above n
        dsimp only
        split <;> omega
      · intro n before
        simp [before]
      · intro view fine same
        refine looks view fine fun n low => (same n low).trans ?_
        simp [Nat.not_lt.mpr low]

end Leaves

/-- A build first builds all types and then the leaves. -/
theorem Builds.split (builds : index.Builds run outcomes last) :
    ∃ front typed back, outcomes = front ++ back ∧
      (index.outcomes index.types.declarations).run run = (front, typed) ∧
      (index.outcomes (index.leafDeclarations.filter (!run.config.excludes ·))).run typed =
        (back, last) := by
  rcases early : (index.outcomes index.types.declarations).run run with ⟨front, typed⟩
  rcases late : (index.outcomes (index.leafDeclarations.filter (!run.config.excludes ·))).run typed
    with ⟨back, final⟩
  have whole := outcomes_append_run early late
  rw [← wanted_eq] at whole
  cases builds.symm.trans whole
  exact ⟨front, typed, back, rfl, rfl, late⟩

/-- Without some leaves, the types are the same. -/
theorem types_eq_of_omits (builds : index.Builds run outcomes last)
    (omits : Omits Outcome.FailedLeaf outcomes kept)
    (less : smaller.wanted run.config = kept.map (·.1)) : smaller.types = index.types := by
  have same : kept.filterMap (Option.guard (·.1.typeId?.isSome)) =
      outcomes.filterMap (Option.guard (·.1.typeId?.isSome)) :=
    omits.filterMap_eq fun outcome failed => by simp [Option.guard, failed.1]
  simp only [List.filterMap_eq_filter] at same
  refine types_eq_of_declarations ?_
  rw [← @filter_wanted smaller run.config, ← @filter_wanted index run.config, less,
    ← builds.listed, List.filter_map, List.filter_map]
  exact congrArg _ same

/-- Leaves that could not be built are not missed.  Without some of them, in whatever run, a
build gives the reports for all others, in their order, it leaves the same manifest, the same
numbering of anonymous structs, the same forward declarations and the same names behind, and
its stubs and its bridge table are the same but for numbers, which keep their order. -/
theorem failed_leaves_leave_no_trace (apart : index.KindsApart)
    (builds : index.Builds run outcomes last) (omits : Omits Outcome.FailedLeaf outcomes kept)
    (less : smaller.wanted run.config = kept.map (·.1)) :
    ∃ library after,
      smaller.build.run run = (.ok library, after) ∧
      index.build.run run = (.ok (Library.ofOutcomes outcomes), last) ∧
      library.skipped = kept.filterMap Outcome.skipped? ∧
      after.manifest = last.manifest ∧
      after.anonymousStructs = last.anonymousStructs ∧
      after.forwardDeclarations = last.forwardDeclarations ∧
      (∀ decl ∈ index.declarations,
        ((smaller.classifier decl).run after).1 = ((index.classifier decl).run last).1) ∧
      ∃ view : View, view.coarse = false ∧
        view • library.stubs = (Library.ofOutcomes outcomes).stubs ∧
        view • library.table = (Library.ofOutcomes outcomes).table := by
  have types := types_eq_of_omits builds omits less
  obtain ⟨front, typed, back, rfl, early, late⟩ := builds.split
  have knows := knowsTypes_of_outcomes early
  have frontListed := listed_of_outcomes early
  have backListed := listed_of_outcomes late
  have leaves (outcome : Outcome) (member : outcome ∈ back) :
      outcome.1 ∈ index.declarations ∧ outcome.1.typeId? = none := by
    have listed := List.mem_of_mem_filter (backListed ▸ List.mem_map_of_mem member)
    exact ⟨declarations_eq ▸ List.mem_append_right _ listed, typeId?_of_mem_leaves listed⟩
  obtain ⟨rest, rfl, behind⟩ := omits.append_left fun outcome member failed => by
    have isType := typeId?_of_mem_types (frontListed ▸ List.mem_map_of_mem member)
    simp [failed.1] at isType
  -- The types are built alike, and from there on both builds stay side by side.
  obtain ⟨others, after, reached, follows, followsLast, number, mono, -, below, looks⟩ :=
    outcomes_beside apart knows behind leaves (.refl index typed) (.refl index typed)
      (Nat.add_zero _).symm (backListed.symm ▸ late)
  have smallerBuilds : smaller.Builds run (front ++ others) after := by
    unfold Builds
    rw [outcomes_eq_of_types types, less, List.map_append, frontListed]
    exact outcomes_append_run early reached
  let view : View := ⟨number, mono, false⟩
  have seen : view • Library.ofOutcomes (front ++ others) = Library.ofOutcomes (front ++ rest) := by
    have declared (decl : Declaration) (member : decl ∈ index.types.declarations) :
        decl ∈ index.declarations := declarations_eq ▸ List.mem_append_left _ member
    have unmoved : view • front = front := smul_outcomes declared early rfl below
    rw [Library.smul_ofOutcomes, View.smul_append, unmoved, looks view rfl fun _ _ => rfl]
  have built : (front ++ rest).filterMap Outcome.built? =
      (front ++ back).filterMap Outcome.built? :=
    omits.filterMap_eq fun _ => Outcome.FailedLeaf.built?
  obtain ⟨stubs, table⟩ := @Library.foldl_take_built (front ++ rest) {} {} rfl rfl
  obtain ⟨allStubs, wholeTable⟩ := @Library.foldl_take_built (front ++ back) {} {} rfl rfl
  rw [built] at stubs table
  refine ⟨_, after, smallerBuilds.build_run, builds.build_run, ?skipped,
    follows.manifest.trans followsLast.manifest.symm,
    follows.anonymousStructs.trans followsLast.anonymousStructs.symm,
    follows.forwardDeclarations.trans followsLast.forwardDeclarations.symm, ?names,
    view, rfl, ?stubs, ?table⟩
  case skipped => exact (congrArg Library.skipped seen).trans (Library.skipped_ofOutcomes _)
  case names =>
    intro decl declared
    have same : smaller.classifier decl = index.classifier decl := by
      rw [← smaller.classifier_types, types, classifier_types]
    rw [same, (follows.classifier apart knows declared).1,
      (followsLast.classifier apart knows declared).1]
  case stubs => exact (congrArg Library.stubs seen).trans (stubs.trans allStubs.symm)
  case table => exact (congrArg Library.table seen).trans (table.trans wholeTable.symm)

/-- A struct and three functions, the second of which cannot be built. -/
def sketch : Index where
  structs := .ofList [{ id := ⟨"point"⟩, name := some "Point" }]
  functions := .ofList [
    .ofName "clear" .void [⟨"corner", .pointerTo (.record "struct Point" ⟨"point"⟩)⟩],
    .ofName "blend" ⟨"complex", false, .other "complex"⟩ [],
    .ofName "draw" .void []]

def sketchWithoutBlend : Index :=
  { sketch with functions := .ofList (sketch.functions.values.eraseIdx 1) }

theorem failed_leaves_leave_no_trace_sketch :
    let run := Run.start {}
    ∃ outcomes kept last,
      sketch.KindsApart ∧ sketch.Builds run outcomes last ∧
      Omits Outcome.FailedLeaf outcomes kept ∧
      sketchWithoutBlend.wanted run.config = kept.map (·.1) ∧
      ∃ library after, sketchWithoutBlend.build.run run = (.ok library, after) ∧
        sketch.build.run run = (.ok (Library.ofOutcomes outcomes), last) ∧
        after.manifest = last.manifest ∧
        library.stubs.functions.map (·.id.number) = [2, 3] ∧
        (Library.ofOutcomes outcomes).stubs.functions.map (·.id.number) = [2, 4] ∧
        ∃ view : View, view.coarse = false ∧
          view • library.stubs = (Library.ofOutcomes outcomes).stubs ∧
          view • library.table = (Library.ofOutcomes outcomes).table := by
  intro run
  have apart : sketch.KindsApart := by decide
  have leaves : ((sketch.outcomes (sketch.wanted {})).run run).1.all
      (fun outcome => outcome.2.isOk || outcome.1.typeId?.isNone) := by decide +kernel
  have less : sketchWithoutBlend.wanted {} =
      (((sketch.outcomes (sketch.wanted {})).run run).1.filter (·.2.isOk)).map (·.1) := rfl
  have numbers : (sketch.build.run run).1.toOption.map
      (·.stubs.functions.map (·.id.number)) = some [2, 4] := by decide +kernel
  have fewer : (sketchWithoutBlend.build.run run).1.toOption.map
      (·.stubs.functions.map (·.id.number)) = some [2, 3] := by decide +kernel
  obtain ⟨outcomes, last, builds⟩ := sketch.exists_builds run
  have outcome : (sketch.outcomes (sketch.wanted {})).run run = (outcomes, last) := builds
  rw [outcome] at leaves less
  have omits : Omits Outcome.FailedLeaf outcomes (outcomes.filter (·.2.isOk)) := by
    refine .filter _ fun outcome member failed => ?_
    have leaf := List.all_eq_true.mp leaves outcome member
    obtain ⟨decl, result⟩ := outcome
    cases result with
    | ok built => cases failed
    | error error => exact ⟨Option.isNone_iff_eq_none.mp leaf, error, rfl⟩
  obtain ⟨library, after, built, whole, -, manifest, -, -, -, seen⟩ :=
    failed_leaves_leave_no_trace apart builds omits less
  rw [whole] at numbers
  rw [built] at fewer
  exact ⟨outcomes, _, last, apart, builds, omits, less, library, after, built, whole, manifest,
    Option.some.inj fewer, Option.some.inj numbers, seen⟩

end Index

end NativeBindings
