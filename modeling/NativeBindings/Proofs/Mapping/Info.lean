import NativeBindings.Proofs.Mapping.Answered
import NativeBindings.Proofs.Mapping.Canonical
import NativeBindings.Proofs.Mapping.Settled

namespace NativeBindings

/-! # What sort of thing a type is represented as

A representation has an info beside its names.  A typedef gives another name to what it
aliases and leaves the info as it is, so that it is the same along a chain of typedefs.
-/

namespace Index

/-- What sort of thing a run represents a type as. -/
def info? (index : Index) (run : Run) (type : QualType) : Option TypeInfo :=
  ((index.represent type).run run).1.map (·.info)

variable {index : Index} {run : Run} {type : QualType}

theorem info?_eq_some_iff {info : TypeInfo} : index.info? run type = some info ↔
    ∃ representation after, (index.represent type).run run = (some representation, after) ∧
      representation.info = info := by
  rw [info?, Option.map_eq_some_iff]
  refine exists_congr fun representation => ?_
  exact ⟨fun ⟨found, same⟩ => ⟨_, Prod.ext found rfl, same⟩, fun ⟨_, ends, same⟩ =>
    ⟨congrArg Prod.fst ends, same⟩⟩

variable (acyclic : index.Acyclic) (names : index.NamesTypedefs run)

include acyclic names

/-- A typedef is the same sort of thing as what it aliases. -/
theorem info?_aliased {id : DeclId} {decl : TypedefDecl} (isNamed : type.shape = .named id)
    (found : index.typedefs.get? id = some decl) :
    index.info? run type = index.info? run decl.aliased := by
  rw [info?, info?, represent_eq acyclic type, isNamed, representShape,
    representTypedef_found _ _ found]
  rcases asked : (index.represent decl.aliased).run run with ⟨_ | aliased, mid⟩
  · rw [Represents.run_bind, asked]
  have alike : run.Alike mid := by
    have kept := (settles_represent names decl.aliased).keeps run (.refl run)
    rwa [show StateT.run (index.represent decl.aliased).run run = _ from asked] at kept
  rw [Represents.run_bind_some asked]
  split
  · -- The typedef is not known to have no name, so it has one.
    have same : decl.id = id := DeclMap.id_of_get? found
    have named : ((index.named (.typedef decl)).run mid).1.isSome :=
      ((settles_named rfl rfl).iff mid alike).mpr (same ▸ names id decl found)
    obtain ⟨classifier, known⟩ := Option.isSome_iff_exists.mp named
    rw [Represents.run_bind_some (Prod.ext known rfl)]
    rfl
  · rfl

theorem Unfolds.info? {last : QualType} {chain : List DeclId}
    (unfolds : index.Unfolds type chain last) : index.info? run type = index.info? run last := by
  induction unfolds with
  | done => rfl
  | step isNamed found _ ih => rw [info?_aliased acyclic names isNamed found, ih]

end Index

end NativeBindings
