namespace NativeBindings

/-! # Comparing texts -/

inductive Verdict where
  | same
  | different
  deriving DecidableEq

def Verdict.text : Verdict → String
  | .same => "same"
  | .different => "Comparison failed"

/-- Two texts have the same lines, with the same ends, exactly when they are equal. -/
def compareTexts (left right : String) : Verdict := if left = right then .same else .different

end NativeBindings
