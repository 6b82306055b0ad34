namespace NativeBindings

/-! # Names that can stand in a native symbol

A native symbol is made of ASCII letters, digits and underscores.  Any text
becomes such a name by writing one underscore for every maximal run of other
characters.
-/

def isSymbolChar (c : Char) : Bool := c.isAlphanum || c == '_'

/-- Writes one underscore for every maximal run of characters that `keep`
refuses.  `inRun` says that the character before was refused. -/
def squash (keep : Char → Bool) (inRun : Bool) : List Char → List Char
  | [] => []
  | c :: rest =>
      if keep c then c :: squash keep false rest
      else if inRun then squash keep true rest
      else '_' :: squash keep true rest

def symbolName (name : String) : String :=
  String.ofList (squash isSymbolChar false name.toList)

theorem squash_of_all {keep : Char → Bool} {text : List Char} {inRun : Bool}
    (kept : ∀ c ∈ text, keep c = true) : squash keep inRun text = text := by
  induction text generalizing inRun with
  | nil => rfl
  | cons c rest ih =>
      rw [squash, if_pos (kept c List.mem_cons_self)]
      exact congrArg (c :: ·) (ih fun d member => kept d (List.mem_cons_of_mem _ member))

theorem mem_squash {keep : Char → Bool} {text : List Char} {inRun : Bool} {c : Char}
    (member : c ∈ squash keep inRun text) : keep c = true ∨ c = '_' := by
  induction text generalizing inRun with
  | nil => simp [squash] at member
  | cons d rest ih =>
      simp only [squash] at member
      split at member
      · rename_i kept
        rcases List.mem_cons.mp member with rfl | later
        · exact .inl kept
        · exact ih later
      · split at member
        · exact ih member
        · rcases List.mem_cons.mp member with rfl | later
          · exact .inr rfl
          · exact ih later

end NativeBindings
