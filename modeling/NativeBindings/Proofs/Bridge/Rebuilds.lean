import NativeBindings.Naming.Manifest
import NativeBindings.Proofs.Bridge.Frame
import NativeBindings.Proofs.Build.Rebuilt

namespace NativeBindings

/-! # Many builds in one run

One run may serve any number of builds of an index, with bridges for any stubs between
them.  No number of a stub is ever given again, and apart from the numbers every build
gives what the first one gave.
-/

/-- What may be asked of a run. -/
inductive SessionStep where
  | build
  | bridge (stubs : StubTree) (table : BridgeTable)

theorem View.shift_shift {α : Type} [MulAction View α] (distance further : Nat) (value : α) :
    shift distance • shift further • value = shift (further + distance) • value := by
  rw [← mul_smul]
  exact congrArg (· • value) (ext (funext fun number => Nat.add_assoc number further distance) rfl)

namespace Index

/-- Does what is asked, one step after the other.  What comes of the builds is listed,
each with the manifest as it is then. -/
def session (index : Index) :
    List SessionStep → StateM Run (List (Except BuildError Library × List (String × String)))
  | [] => pure []
  | .build :: rest => do
      let result ← index.build.run
      let manifest := (← get).manifest
      let results ← index.session rest
      pure ((result, manifest) :: results)
  | .bridge stubs table :: rest => do
      let _ ← (index.bridge stubs table).run
      index.session rest

variable {index : Index} {run after last : Run} {outcomes : List Outcome}

theorem session_build {rest : List SessionStep}
    {results : List (Except BuildError Library × List (String × String))}
    (builds : index.Builds run outcomes after)
    (ends : (index.session rest).run after = (results, last)) :
    (index.session (.build :: rest)).run run =
      ((.ok (Library.ofOutcomes outcomes), after.manifest) :: results, last) := by
  have built : StateT.run index.build.run run = (.ok (Library.ofOutcomes outcomes), after) :=
    builds.build_run
  rw [session, StateT.run_bind, built]
  change ((_, after.manifest) :: ((index.session rest).run after).1,
    ((index.session rest).run after).2) = _
  rw [ends]

/-- A bridge takes names for wrappers before the rest is done. -/
theorem session_bridge (stubs : StubTree) (table : BridgeTable) (rest : List SessionStep)
    (run : Run) :
    ∃ names, run ≤ { run with wrapperNames := names } ∧
      (index.session (.bridge stubs table :: rest)).run run =
        (index.session rest).run { run with wrapperNames := names } := by
  have bridges := index.namesWrappers_bridge stubs table
  refine ⟨_, bridges.frame run ▸ (bridges run).1, ?_⟩
  rw [session, StateT.run_bind]
  exact congrArg (index.session rest).run (bridges.frame run)

/-- Once there was a build, every further one gives it again, at some distance. -/
private theorem session_again (builds : index.Builds run outcomes after) (steps : List SessionStep)
    (distance : Nat) (names : WrapperNames) :
    ∃ (distances : List Nat) (last : Run),
      (index.session steps).run (after.resumed (run.nextStub + distance) names) =
        (distances.map fun distance =>
          (.ok (View.shift distance • Library.ofOutcomes outcomes), after.manifest), last) ∧
      (∀ further ∈ distances, distance ≤ further) ∧ distances.Pairwise (· ≤ ·) ∧
      (after.resumed (run.nextStub + distance) names).Numbered last
        (distances.flatMap fun distance =>
          (View.shift distance • Library.ofOutcomes outcomes).stubs.ids) := by
  induction steps generalizing distance names with
  | nil => exact ⟨[], _, rfl, nofun, .nil, .nil le_rfl⟩
  | cons step rest ih =>
      cases step with
      | build =>
          have again := builds.again distance names
          have beyond : after.nextStub + distance =
              run.nextStub + (after.nextStub - run.nextStub + distance) := by
            have grows := builds.le.stubs
            omega
          obtain ⟨distances, last, ends, above, ascending, numbered⟩ :=
            ih (after.nextStub - run.nextStub + distance) names
          rw [← beyond] at ends numbered
          have above (further : Nat) (member : further ∈ distances) : distance ≤ further :=
            Nat.le_trans (Nat.le_add_left _ _) (above further member)
          refine ⟨distance :: distances, last, ?_, ?_, .cons above ascending, ?_⟩
          · rw [session_build again ends, ← Library.smul_ofOutcomes]
            rfl
          · exact List.forall_mem_cons.mpr ⟨Nat.le_refl _, above⟩
          · rw [List.flatMap_cons, Library.smul_ofOutcomes]
            exact again.numbered.append numbered
      | bridge stubs table =>
          obtain ⟨taken, le, continues⟩ := index.session_bridge stubs table rest
            (after.resumed (run.nextStub + distance) names)
          obtain ⟨distances, last, ends, above, ascending, numbered⟩ := ih distance taken
          exact ⟨distances, last, continues.trans ends, above, ascending, numbered.after_le le⟩

/-- Whatever is asked of one run in which an index is built over and over: every build
succeeds, no two stubs of all the trees have one number, and of any two builds the later
one has the reports, the manifest, the stubs and the bridge table of the earlier one, with
one constant added to every number. -/
theorem builds_repeat (index : Index) (run : Run) (steps : List SessionStep) :
    ∃ (libraries : List Library) (manifest : List (String × String)),
      ((index.session steps).run run).1 =
        libraries.map (fun library => (.ok library, manifest)) ∧
      (libraries.flatMap (·.stubs.ids)).Nodup ∧
      libraries.Pairwise fun earlier later =>
        later.skipped = earlier.skipped ∧ ∃ distance,
          later.stubs = View.shift distance • earlier.stubs ∧
          later.table = View.shift distance • earlier.table := by
  induction steps generalizing run with
  | nil => exact ⟨[], [], rfl, List.nodup_nil, .nil⟩
  | cons step rest ih =>
      cases step with
      | bridge stubs table =>
          obtain ⟨taken, -, continues⟩ := index.session_bridge stubs table rest run
          rw [continues]
          exact ih _
      | build =>
          obtain ⟨outcomes, after, builds⟩ := index.exists_builds run
          -- From here on the run only resumes what the first build left behind.
          obtain ⟨distances, last, ends, -, ascending, numbered⟩ :=
            session_again builds rest (after.nextStub - run.nextStub) after.wrapperNames
          rw [Nat.add_sub_cancel' builds.le.stubs] at ends numbered
          replace ends : (index.session rest).run after = (_, last) := ends
          have first : View.shift 0 • Library.ofOutcomes outcomes = Library.ofOutcomes outcomes :=
            one_smul View _
          refine ⟨(0 :: distances).map fun distance =>
            View.shift distance • Library.ofOutcomes outcomes, after.manifest, ?_, ?_, ?_⟩
          · rw [session_build builds ends, List.map_cons, List.map_cons, List.map_map, first]
            rfl
          · have all := (builds.numbered.append numbered).distinct
            rwa [List.map_cons, List.flatMap_cons, List.flatMap_map, first]
          · refine List.pairwise_map.mpr ((ascending.cons fun _ _ => Nat.zero_le _).imp ?_)
            intro earlier later before
            have apart : View.shift later • Library.ofOutcomes outcomes =
                View.shift (later - earlier) •
                  View.shift earlier • Library.ofOutcomes outcomes := by
              rw [View.shift_shift, Nat.add_sub_cancel' before]
            exact ⟨rfl, later - earlier, congrArg Library.stubs apart, congrArg Library.table apart⟩

end Index

end NativeBindings
