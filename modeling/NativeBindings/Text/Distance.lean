namespace NativeBindings

/-! # Near names

The distance of two names is the least number of characters inserted, removed
or replaced that turns one into the other.
-/

/-- One row of the table of distances.  `above` holds the distances of a text to
all prefixes of `columns`, beginning at the corner `diagonal`; the result holds
those of the text followed by `c`, and `left` is its entry so far. -/
def nextDistances (c : Char) (diagonal left : Nat) : List Char → List Nat → List Nat
  | d :: columns, up :: above =>
      let here := if c = d then diagonal else min diagonal (min left up) + 1
      here :: nextDistances c up here columns above
  | _, _ => []

def editDistance (source target : List Char) : Nat :=
  let first := List.range (target.length + 1)
  let last := source.foldl (fun row c =>
    match row with
    | [] => []
    | corner :: above => (corner + 1) :: nextDistances c corner (corner + 1) target above) first
  last.getLast?.getD 0

/-- Up to three of the candidates, the nearest to `name` first; equally near ones
go by name. -/
def suggestNames (name : String) (candidates : List String) : List String :=
  let ranked := candidates.map fun c => (editDistance c.toList name.toList, c)
  let sorted := ranked.mergeSort fun a b => a.1 < b.1 || (a.1 == b.1 && decide (a.2 ≤ b.2))
  (sorted.take 3).map (·.2)

end NativeBindings
