import NativeBindings.Proofs.Build.Outcomes
import NativeBindings.Proofs.Stub.View

namespace NativeBindings

/-! # Views of what declarations give

What a library looks like is put together from what its declarations look like.
-/

instance : MulAction View Built where
  smul view built := ⟨view • built.elements, view • built.table⟩
  one_smul built := by
    change Built.mk _ _ = built
    simp only [one_smul]
  mul_smul view other built := by
    change Built.mk _ _ = Built.mk _ _
    simp only [mul_smul]
    rfl

@[simp] theorem Built.smul_mk (view : View) (elements : List StubElement) (table : BridgeTable) :
    view • Built.mk elements table = ⟨view • elements, view • table⟩ := rfl

/-- Native declarations look the same from everywhere. -/
instance : MulAction View Declaration where
  smul _ decl := decl
  one_smul _ := rfl
  mul_smul _ _ _ := rfl

namespace Library

instance : MulAction View Library where
  smul view library :=
    { library with stubs := view • library.stubs, table := view • library.table }
  one_smul library := by
    change Library.mk _ _ _ = library
    simp only [one_smul]
  mul_smul view other library := by
    change Library.mk _ _ _ = Library.mk _ _ _
    simp only [mul_smul]
    rfl

variable (view : View) (library : Library)

@[simp] theorem smul_mk (stubs : StubTree) (table : BridgeTable) (skipped : List Skipped) :
    view • Library.mk stubs table skipped = ⟨view • stubs, view • table, skipped⟩ := rfl

theorem smul_take (outcome : Outcome) :
    view • library.take outcome = (view • library).take (view • outcome) := by
  obtain ⟨decl, result⟩ := outcome
  cases result with
  | error error => rfl
  | ok built =>
      change view • library.add built = (view • library).add (view • built)
      rw [add, smul_mk, StubTree.smul_foldl_push, BridgeTable.smul_merge]
      rfl

theorem smul_ofOutcomes (outcomes : List Outcome) :
    view • ofOutcomes outcomes = ofOutcomes (view • outcomes) := by
  have folded (library : Library) :
      view • outcomes.foldl take library = (view • outcomes).foldl take (view • library) := by
    induction outcomes generalizing library with
    | nil => rfl
    | cons outcome rest ih =>
        rw [List.foldl_cons, ih, smul_take, View.smul_cons, List.foldl_cons]
  have nothing : view • ({} : Library) = {} := by
    change Library.mk _ _ _ = _
    rw [StubTree.smul_empty, BridgeTable.smul_empty]
  have whole := folded {}
  rwa [nothing] at whole

end Library

end NativeBindings
