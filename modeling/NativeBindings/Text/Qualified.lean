namespace NativeBindings

/-! # Qualified names

A qualified native name joins its components with `::`; a method selector ends
each of its parts with a colon.
-/

/-- What follows the last `::`, or `best` when there is none.  Occurrences may
overlap: of three colons the last two count. -/
def afterLastScope (best : List Char) : List Char → List Char
  | [] => best
  | c :: rest =>
      afterLastScope (if c = ':' ∧ rest.head? = some ':' then rest.tail else best) rest

def hasScope : List Char → Bool
  | [] => false
  | c :: rest => (c = ':' && rest.head? = some ':') || hasScope rest

/-- The last component: `Outer::Inner` gives `Inner`. -/
def simpleName (name : String) : String :=
  String.ofList (afterLastScope name.toList name.toList)

def isQualified (name : String) : Bool := hasScope name.toList

/-- The part of a selector before its first colon: `initWithFrame:style:` gives
`initWithFrame`. -/
def selectorName (selector : String) : String :=
  String.ofList (selector.toList.takeWhile (· ≠ ':'))

theorem afterLastScope_of_not_hasScope {best name : List Char} (plain : hasScope name = false) :
    afterLastScope best name = best := by
  induction name generalizing best with
  | nil => rfl
  | cons c rest ih =>
      simp only [hasScope, Bool.or_eq_false_iff] at plain
      have here : ¬(c = ':' ∧ rest.head? = some ':') := by
        have := plain.1
        simpa using this
      rw [afterLastScope, if_neg here]
      exact ih plain.2

theorem simpleName_of_not_isQualified {name : String} (plain : isQualified name = false) :
    simpleName name = name := by
  rw [simpleName, afterLastScope_of_not_hasScope plain, String.ofList_toList]

end NativeBindings
