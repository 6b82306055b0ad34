import NativeBindings.Proofs.Output.Walks
import NativeBindings.Proofs.Target.Rendering

namespace NativeBindings

/-! # Signatures of fragments

A fragment's signature is the text of the types that its element is declared with: those
above a class, what a typealias stands for, the type of a property, and parameters and
result of a function.  So a signature tells these types, with their arguments, how many
there are of them, and what is nullable or a function at any depth.
-/

/-- The types that a fragment writes of an element. -/
def StubElement.written : StubElement → List TargetType
  | .ofClass stub => stub.supertypes
  | .ofFunction stub => [.function (stub.parameters.map (·.type)) stub.result]
  | .ofProperty stub => [stub.type]
  | .ofTypealias stub => [stub.aliasee]
  | .ofGroup _ => []

namespace Fragment

variable {symbols others : SymbolTable} {fragment other : Fragment}
  {element elsewhere : StubElement}

theorem toList_signature (described : Describes symbols fragment element) :
    fragment.signature.toList = TargetType.listed element.written := by
  cases described with
  | ofTypealias stub => rfl
  | ofClass stub => exact TargetType.toList_intercalate_qualifiedText stub.supertypes
  | ofProperty scope stub => rfl
  | ofFunction scope stub =>
      have inputs := TargetType.toList_intercalate_qualifiedText (stub.parameters.map (·.type))
      rw [List.map_map] at inputs
      rw [StubElement.written, TargetType.listed, TargetType.characters_function, ← inputs]
      simp [Fragment.ofFunction, TargetType.characters, Function.comp_def]

theorem signature_eq_iff (described : Describes symbols fragment element)
    (alsoDescribed : Describes others other elsewhere)
    (legible : ∀ type ∈ element.written, type.All Classifier.Legible)
    (alsoLegible : ∀ type ∈ elsewhere.written, type.All Classifier.Legible) :
    fragment.signature = other.signature ↔
      List.Forall₂ TargetType.Alike element.written elsewhere.written := by
  rw [← String.toList_inj, toList_signature described, toList_signature alsoDescribed]
  exact TargetType.listed_eq_iff legible alsoLegible

/-- Types with the same text are the same but for where their names are split, and so are
the types written by fragments with the same signature. -/
theorem signatures_unambiguous :
    (∀ first second : TargetType, first.All Classifier.Legible →
      second.All Classifier.Legible →
        (first.qualifiedText = second.qualifiedText ↔ first.Alike second)) ∧
      ∀ (symbols others : SymbolTable) (fragment other : Fragment)
        (element elsewhere : StubElement), Describes symbols fragment element →
          Describes others other elsewhere →
          (∀ type ∈ element.written, type.All Classifier.Legible) →
          (∀ type ∈ elsewhere.written, type.All Classifier.Legible) →
            (fragment.signature = other.signature ↔
              List.Forall₂ TargetType.Alike element.written elsewhere.written) := by
  constructor
  · intro first second
    exact TargetType.qualifiedText_eq_iff
  · intro symbols others fragment other element elsewhere
    exact signature_eq_iff

/-- A property that takes handlers under keys, which may be absent, and gives back how to
take them away again. -/
def handlers (package key : String) : PropertyStub where
  id := ⟨1⟩
  name := "handlers"
  type := .function
    [.named (.primitive "Map") [.named ⟨package, key⟩ [] true, .function [.star] .unit] false]
    (.function [] .unit)
  kind := .val .bridge

theorem signatures_unambiguous_handlers :
    let inner := handlers "org.sample" "Outer.Inner"
    let top := handlers "org.sample.Outer" "Inner"
    inner.type.All Classifier.Legible ∧ top.type.All Classifier.Legible ∧
      inner.type.Alike top.type ∧
      (ofProperty {} "org.sample" inner).signature = (ofProperty {} "org.other" top).signature := by
  intro inner top
  have nonempty : ∀ classifier ∈ inner.type.classifiers ++ top.type.classifiers,
      classifier.qualifiedName ≠ "" := by decide
  have words : (inner.type.classifiers ++ top.type.classifiers).all fun classifier =>
      classifier.qualifiedName.toList.all isWordChar := by decide
  have legible (classifier : Classifier)
      (member : classifier ∈ inner.type.classifiers ++ top.type.classifiers) :
      classifier.Legible :=
    Classifier.legible_of_words (nonempty classifier member)
      (List.all_eq_true.mp words classifier member)
  have here : inner.type.All Classifier.Legible := fun classifier member =>
    legible classifier (List.mem_append_left _ member)
  have there : top.type.All Classifier.Legible := fun classifier member =>
    legible classifier (List.mem_append_right _ member)
  have alike : inner.type.Alike top.type :=
    (signatures_unambiguous.1 inner.type top.type here there).mp (by decide +kernel)
  have signatures := signatures_unambiguous.2 {} {} _ _ _ _ (.ofProperty "org.sample" inner)
    (.ofProperty "org.other" top) (List.forall_mem_singleton.mpr here)
    (List.forall_mem_singleton.mpr there)
  exact ⟨here, there, alike, signatures.mpr (.cons alike .nil)⟩

end Fragment

end NativeBindings
