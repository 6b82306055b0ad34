namespace NativeBindings

/-! # Names not used before

A name that is taken is numbered: `arg`, `arg0`, `arg1`, and so on.  Among one
more candidate than there are used names one is always free.
-/

def candidate (name : String) : Nat → String
  | 0 => name
  | n + 1 => name ++ toString n

/-- The first candidate for `name` that is not in `used`. -/
def freshName (used : List String) (name : String) : String :=
  (((List.range (used.length + 1)).map (candidate name)).find? (· ∉ used)).getD name

/-- Gives each name in turn a form not used before. -/
def freshNames (used : List String) : List String → List String
  | [] => []
  | name :: rest =>
      let fresh := freshName used name
      fresh :: freshNames (fresh :: used) rest

theorem freshName_of_not_mem {used : List String} {name : String} (free : name ∉ used) :
    freshName used name = name := by
  simp [freshName, List.range_succ_eq_map, candidate, free]

end NativeBindings
