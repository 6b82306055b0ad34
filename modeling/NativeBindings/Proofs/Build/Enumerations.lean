import NativeBindings.Proofs.Build.Contributions
import NativeBindings.Proofs.Mapping.Answered

namespace NativeBindings

/-! # Closed enumerations

A closed enumeration asks for the representation of its own type, under a name that it
was given just before.  So there is always an answer, and it is known which.
-/

/-- What a closed enumeration is represented as. -/
def Representation.closed (classifier : Classifier) : Representation where
  target := .ofClassifier classifier
  pointed := .ofClassifier (classifier.nested "Var")
  marshalling := .byValue
  info := .enumeration classifier true

/-- The class for a closed enumeration, and how its values are represented. -/
def closedBuilt (classifier : Classifier) (base : Representation) (entries : List EnumEntry) :
    StateM Run Built := do
  let id ← Run.freshStub
  pure {
    elements := [.ofClass {
      id
      classifier
      kind := .enumeration entries base.target
      supertypes := [.interop "CEnum"] }]
    table := BridgeTable.addEnumeration ∅ id (.closed classifier) }

namespace Index

variable {index : Index} {run : Run} {decl : EnumDecl} {classifier : Classifier}

theorem answers_closed (found : index.enums.get? decl.id = some decl)
    (named : run.Names (.enumeration decl) classifier) (strict : run.config.isStrict decl)
    (spelling : String) (isConst : Bool) :
    index.Answers run ⟨spelling, isConst, .enumeration decl.id⟩ (.closed classifier) := by
  have isNamed : decl.name.isNone = false := by
    cases name : decl.name with
    | none => simp [Config.isStrict, name] at strict
    | some name => rfl
  have shape (follow : QualType → Represents Representation) :
      (index.representShape follow (.enumeration decl.id)).run run =
        (some (.closed classifier), run) := by
    rw [representShape, representEnumeration_found _ _ found, if_neg (by simp [isNamed]),
      Represents.run_bind_some (named_run named), Represents.run_get, if_pos strict]
    rfl
  unfold Answers represent
  cases index.typedefs.size + index.enums.size with
  | zero => exact shape _
  | succ rounds => exact shape _

/-- The type of a closed enumeration is represented once its name is known. -/
theorem buildStrict_run (found : index.enums.get? decl.id = some decl)
    (named : run.Names (.enumeration decl) classifier) (strict : run.config.isStrict decl)
    (base : Representation) (entries : List EnumEntry) :
    (index.buildStrict decl classifier base entries).built.run run =
      (liftM (closedBuilt classifier base entries) : Attempt Built).run run := by
  rcases fresh : Run.freshStub.run run with ⟨id, mid⟩
  have le : run ≤ mid := by
    have grown := Run.grows_freshStub run
    rwa [fresh] at grown
  have answers := answers_closed found (named.mono le) (le.config ▸ strict) classifier.name false
  have asked := index.required_run ⟨classifier.name, false, .enumeration decl.id⟩ mid
  rw [answers] at asked
  rw [built_buildStrict]
  rw [run_bind_ok (Attempt.run_lift fresh), run_bind_ok asked]
  refine (Attempt.run_lift ?_).symm
  rw [closedBuilt, StateT.run_bind, fresh]
  rfl

/-- An enumeration, with nothing left to ask once it has a name. -/
theorem buildEnum_eq (declared : .enumeration decl ∈ index.declarations) :
    (index.buildEnum decl).built = (do
      let base ← index.required decl.base
      let config := (← getThe Run).config
      match index.enumEntries config.platform decl with
      | none => throw (.unrepresentable decl.base.spelling)
      | some entries =>
          match ← index.classifier (.enumeration decl) with
          | none => Attempt.untabled (constantProperties base.target entries)
          | some classifier =>
              let strict := config.isStrict decl
              if let some name := decl.name then Run.recordStrictness name strict
              if strict then closedBuilt classifier base entries
              else Attempt.untabled (buildOpen classifier base entries)) := by
  have found := get?_of_mem_declarations_enumeration declared
  have read {next : Run → Attempt Built} (run : Run) :
      (getThe Run >>= next).run run = (next run).run run := rfl
  rw [built_buildEnum]
  refine congrArg (index.required decl.base >>= ·) (funext fun base => ?_)
  refine Attempt.ext fun run => ?_
  rw [read, read]
  cases listed : index.enumEntries run.config.platform decl with
  | none => simp only [listed]
  | some entries =>
      simp only [listed]
      rcases asked : (index.classifier (.enumeration decl)).run run with ⟨answer, mid⟩
      have ends := Attempt.run_lift asked
      rw [run_bind_ok ends, run_bind_ok ends]
      cases answer with
      | none => rfl
      | some classifier =>
          have config : mid.config = run.config := by
            have grown := index.grows_classifier (.enumeration decl) run
            rw [asked] at grown
            exact grown.config
          -- From here on the name is known, and recording the strictness does not touch it.
          have closed (later : Run) (le : mid ≤ later) (strict : run.config.isStrict decl) :=
            buildStrict_run found ((index.names_of_classifier asked).mono le)
              (le.config.trans config ▸ strict) base entries
          dsimp only
          cases strict : run.config.isStrict decl with
          | false => rfl
          | true =>
              cases decl.name with
              | none => exact closed mid le_rfl strict
              | some name =>
                  have recorded := Attempt.run_lift
                    (rfl : (Run.recordStrictness name true).run mid = (_, _))
                  dsimp only
                  rw [run_bind_ok recorded, run_bind_ok recorded]
                  exact closed _ (Run.grows_recordStrictness _ _ mid) strict

end Index

end NativeBindings
