import Mathlib.Data.List.SplitBy
import NativeBindings.Proofs.Bridge.Symbols

namespace NativeBindings

/-! # Runs of characters

A text is cut wherever a character that is kept meets one that is not.  What is kept is
written as it is, and each other piece, however long, as one underscore.
-/

/-- Are the characters of a run all kept, or all not? -/
def Uniform (keep : Char → Bool) (run : List Char) : Prop :=
  ∃ answer, ∀ c ∈ run, keep c = answer

/-- Two runs of which one is kept and the other is not. -/
def Apart (keep : Char → Bool) (run next : List Char) : Prop :=
  ∀ c ∈ run, ∀ d ∈ next, keep c ≠ keep d

/-- The pieces of a text are its maximal runs of characters that are kept, and of
characters that are not. -/
structure Runs (keep : Char → Bool) (text : List Char) (runs : List (List Char)) : Prop where
  joined : runs.flatten = text
  nonempty : [] ∉ runs
  uniform : ∀ run ∈ runs, Uniform keep run
  maximal : runs.IsChain (Apart keep)

/-- How a run is written. -/
def writeRun (keep : Char → Bool) (run : List Char) : List Char :=
  if run.all keep then run else ['_']

section Runs

variable {keep : Char → Bool} {text rest run : List Char} {runs : List (List Char)}

theorem squash_append_kept (kept : ∀ c ∈ run, keep c = true) (nonempty : run ≠ [])
    (inRun : Bool) : squash keep inRun (run ++ rest) = run ++ squash keep false rest := by
  induction run generalizing inRun with
  | nil => exact absurd rfl nonempty
  | cons c more ih =>
      obtain ⟨here, later⟩ := List.forall_mem_cons.mp kept
      rw [List.cons_append, squash, if_pos here, List.cons_append]
      cases more with
      | nil => rfl
      | cons d more => rw [ih later (List.cons_ne_nil _ _)]

theorem squash_append_refused (refused : ∀ c ∈ run, keep c = false) :
    squash keep true (run ++ rest) = squash keep true rest := by
  induction run with
  | nil => rfl
  | cons c more ih =>
      obtain ⟨here, later⟩ := List.forall_mem_cons.mp refused
      rw [List.cons_append, squash, if_neg (by simp [here]), if_pos rfl, ih later]

theorem writeRun_kept (kept : ∀ c ∈ run, keep c = true) : writeRun keep run = run :=
  if_pos (List.all_eq_true.mpr kept)

theorem writeRun_refused (refused : ∀ c ∈ run, keep c = false) (nonempty : run ≠ []) :
    writeRun keep run = ['_'] := by
  obtain ⟨c, more, rfl⟩ := List.exists_cons_of_ne_nil nonempty
  exact if_neg (by simp [refused c List.mem_cons_self])

/-- One character after the other writes run after run.  Behind a refused character the
next run is one that is kept. -/
theorem squash_flatten {inRun : Bool} (nonempty : [] ∉ runs)
    (uniform : ∀ run ∈ runs, Uniform keep run) (maximal : runs.IsChain (Apart keep))
    (begins : inRun = true → ∀ run ∈ runs.head?, ∀ c ∈ run, keep c = true) :
    squash keep inRun runs.flatten = runs.flatMap (writeRun keep) := by
  induction runs generalizing inRun with
  | nil => rfl
  | cons run later ih =>
      obtain ⟨⟨answer, same⟩, others⟩ := List.forall_mem_cons.mp uniform
      obtain ⟨apart, chain⟩ := List.isChain_cons.mp maximal
      rw [List.mem_cons, not_or] at nonempty
      have filled : run ≠ [] := Ne.symm nonempty.1
      rw [List.flatten_cons, List.flatMap_cons]
      cases answer with
      | true =>
          have plain : squash keep false later.flatten = later.flatMap (writeRun keep) :=
            ih nonempty.2 others chain (by simp)
          rw [squash_append_kept same filled, writeRun_kept same, plain]
      | false =>
          obtain ⟨c, more, rfl⟩ := List.exists_cons_of_ne_nil filled
          have first : keep c = false := same c List.mem_cons_self
          have outside : inRun = false := by
            cases inRun with
            | false => rfl
            | true =>
                have kept := begins rfl _ rfl c List.mem_cons_self
                rw [first] at kept
                cases kept
          have next : ∀ run ∈ later.head?, ∀ d ∈ run, keep d = true := by
            intro run head d member
            have other := apart run head c List.mem_cons_self d member
            simpa [first] using other
          rw [writeRun_refused same filled, outside, List.cons_append, squash,
            if_neg (by simp [first]), if_neg Bool.false_ne_true,
            squash_append_refused fun d member => same d (List.mem_cons_of_mem _ member),
            ih nonempty.2 others chain fun _ => next]
          rfl

/-- In a run every answer is its neighbour's. -/
theorem uniform_iff : Uniform keep run ↔ run.IsChain fun c d => keep c == keep d := by
  have transitive : Trans (fun c d => (keep c == keep d) = true)
      (fun c d => (keep c == keep d) = true) fun c d => (keep c == keep d) = true :=
    ⟨fun first second => beq_iff_eq.mpr ((eq_of_beq first).trans (eq_of_beq second))⟩
  rw [List.isChain_iff_pairwise]
  constructor
  · rintro ⟨answer, same⟩
    refine List.pairwise_of_forall_mem_list fun c here d there => beq_iff_eq.mpr ?_
    rw [same c here, same d there]
  · intro alike
    cases run with
    | nil => exact ⟨true, nofun⟩
    | cons first more =>
        refine ⟨keep first, fun c member => ?_⟩
        rcases List.mem_cons.mp member with rfl | later
        · rfl
        · exact (eq_of_beq ((List.pairwise_cons.mp alike).1 c later)).symm

/-- Two runs are apart as soon as the characters that meet are. -/
theorem apart_iff {next : List Char} (here : Uniform keep run) (filled : run ≠ [])
    (there : Uniform keep next) (more : next ≠ []) :
    Apart keep run next ↔
      ∃ filled more, (keep (run.getLast filled) == keep (next.head more)) = false := by
  constructor
  · intro apart
    exact ⟨filled, more, beq_eq_false_iff_ne.mpr
      (apart _ (List.getLast_mem filled) _ (List.head_mem more))⟩
  · rintro ⟨_, _, differ⟩ c inRun d inNext
    obtain ⟨answer, same⟩ := here
    obtain ⟨other, alsoSame⟩ := there
    rw [beq_eq_false_iff_ne, same _ (List.getLast_mem _), alsoSame _ (List.head_mem _)] at differ
    rwa [same c inRun, alsoSame d inNext]

/-- The runs of a text are found by cutting it where the answers change. -/
theorem runs_iff : Runs keep text runs ↔ runs = text.splitBy fun c d => keep c == keep d := by
  rw [eq_comm, List.splitBy_eq_iff]
  have meet (nonempty : [] ∉ runs) (uniform : ∀ run ∈ runs, Uniform keep run) :
      runs.IsChain (Apart keep) ↔ runs.IsChain fun run next =>
        ∃ filled more, (keep (run.getLast filled) == keep (next.head more)) = false :=
    List.IsChain.iff_of_mem_imp fun run next here there =>
      apart_iff (uniform run here) (ne_of_mem_of_not_mem here nonempty) (uniform next there)
        (ne_of_mem_of_not_mem there nonempty)
  constructor
  · rintro ⟨joined, nonempty, uniform, maximal⟩
    exact ⟨joined.symm, nonempty, fun run member => uniform_iff.mp (uniform run member),
      (meet nonempty uniform).mp maximal⟩
  · rintro ⟨joined, nonempty, alike, differ⟩
    have uniform := fun run member => uniform_iff.mpr (alike run member)
    exact ⟨joined.symm, nonempty, uniform, (meet nonempty uniform).mpr differ⟩

theorem squash_of_runs (cut : Runs keep text runs) :
    squash keep false text = runs.flatMap (writeRun keep) := by
  rw [← cut.joined]
  exact squash_flatten cut.nonempty cut.uniform cut.maximal (by simp)

end Runs

end NativeBindings
