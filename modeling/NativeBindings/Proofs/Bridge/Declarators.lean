import Mathlib.Data.List.Infix
import NativeBindings.Bridge.Declarator

namespace NativeBindings

/-! # Declarators of function pointers

A pointer to a function is spelled with a star in parentheses, and a pointer to such a
pointer with one star more.  A name belongs behind the last of these stars.  It gets there
if the star is the only one; a group of more stars is passed over, and what follows the
group is declared as if it stood alone.
-/

/-- Stars in parentheses. -/
def starGroup (stars : Nat) : List Char := '(' :: (List.replicate stars '*' ++ [')'])

/-- Are there stars in parentheses anywhere in a text? -/
def HasStarGroup (text : String) : Prop := ∃ stars, 0 < stars ∧ starGroup stars <:+: text.toList

instance (text : String) : Decidable (HasStarGroup text) :=
  decidable_of_iff
    (∃ stars ∈ List.range text.toList.length, 0 < stars ∧ starGroup stars <:+: text.toList) <| by
    refine ⟨fun ⟨stars, _, group⟩ => ⟨stars, group⟩, fun ⟨stars, positive, group⟩ => ?_⟩
    have fits := group.length_le
    simp only [starGroup, List.length_cons, List.length_append, List.length_replicate] at fits
    exact ⟨stars, List.mem_range.mpr (by omega), positive, group⟩

/-- A name declared as a pointer to a function, or as a pointer to such pointers.  Without
a name this is how the type is spelled. -/
def functionDeclarator (result : String) (stars : Nat) (name arguments : String) : String :=
  result ++ " (" ++ String.ofList (List.replicate stars '*') ++ name ++ ")(" ++ arguments ++ ")"

section Insert

variable {name text rest : List Char} {c : Char}

theorem insertName_skip (other : ¬starGroup 1 <+: c :: rest) :
    insertName name (c :: rest) = (insertName name rest).map (c :: ·) := by
  rw [insertName]
  rintro after rfl rfl
  exact other ⟨after, rfl⟩

theorem insertName_none (plain : ¬starGroup 1 <:+: text) : insertName name text = none := by
  induction text with
  | nil => rfl
  | cons c rest ih =>
      rw [insertName_skip fun begins => plain begins.isInfix,
        ih fun later => plain (List.infix_cons later)]
      rfl

theorem insertName_other (notOpen : c ≠ '(') :
    insertName name (c :: rest) = (insertName name rest).map (c :: ·) :=
  insertName_skip fun begins => notOpen (List.cons_prefix_cons.mp begins).1.symm

/-- If a star stands alone in parentheses, the name is put behind the first one. -/
theorem insertName_first (name : List Char) (single : starGroup 1 <:+: text) : ∃ front back,
    text = front ++ starGroup 1 ++ back ∧ ¬starGroup 1 <:+: front ∧
      insertName name text = some (front ++ '(' :: '*' :: name ++ ')' :: back) := by
  induction text with
  | nil => exact absurd (List.eq_nil_of_infix_nil single) (by decide)
  | cons c rest ih =>
      by_cases begins : starGroup 1 <+: c :: rest
      · obtain ⟨back, whole⟩ := begins
        refine ⟨[], back, whole.symm, by decide, ?_⟩
        rw [← whole]
        rfl
      · obtain ⟨front, back, rfl, before, inserted⟩ :=
          ih ((List.infix_cons_iff.mp single).resolve_left begins)
        refine ⟨c :: front, back, rfl, fun early => ?_, ?_⟩
        · rcases List.infix_cons_iff.mp early with first | later
          · exact begins (first.trans ⟨starGroup 1 ++ back, by simp⟩)
          · exact before later
        · rw [insertName_skip begins, inserted]
          rfl

/-- No group reaches over a space. -/
theorem insertName_spaced (plain : ¬starGroup 1 <:+: text) :
    insertName name (text ++ ' ' :: rest) = (insertName name rest).map (text ++ ' ' :: ·) := by
  induction text with
  | nil => exact insertName_other (by decide)
  | cons c tail ih =>
      have other : ¬starGroup 1 <+: c :: (tail ++ ' ' :: rest) := by
        intro begins
        refine plain (List.IsPrefix.isInfix ?_)
        rcases tail with _ | ⟨second, _ | ⟨third, more⟩⟩
        · simp [starGroup, List.cons_prefix_cons] at begins
        · simp [starGroup, List.cons_prefix_cons] at begins
        · simpa [starGroup, List.cons_prefix_cons] using begins
      rw [List.cons_append, insertName_skip other, ih fun later => plain (List.infix_cons later),
        Option.map_map]
      rfl

theorem insertName_stars (stars : Nat) :
    insertName name (List.replicate stars '*' ++ rest) =
      (insertName name rest).map (List.replicate stars '*' ++ ·) := by
  induction stars with
  | zero => exact Option.map_id'.symm
  | succ stars ih =>
      rw [List.replicate_succ, List.cons_append, insertName_other (by decide), ih, Option.map_map]
      rfl

/-- A group of more than one star is passed over. -/
theorem insertName_group {stars : Nat} (several : 1 < stars) :
    insertName name (starGroup stars ++ rest) =
      (insertName name rest).map (starGroup stars ++ ·) := by
  obtain ⟨more, rfl⟩ : ∃ more, stars = more + 2 := ⟨stars - 2, by omega⟩
  have other : ¬starGroup 1 <+: starGroup (more + 2) ++ rest := by
    simp [starGroup, List.replicate_succ, List.cons_prefix_cons]
  have inside : starGroup (more + 2) ++ rest =
      '(' :: (List.replicate (more + 2) '*' ++ ')' :: rest) := by simp [starGroup]
  rw [inside] at other ⊢
  rw [insertName_skip other, insertName_stars, insertName_other (by decide), Option.map_map,
    Option.map_map]
  refine congrArg (Option.map · _) (funext fun back => ?_)
  simp [starGroup]

end Insert

variable {text name : String}

theorem HasStarGroup.of_single (single : starGroup 1 <:+: text.toList) : HasStarGroup text :=
  ⟨1, Nat.one_pos, single⟩

/-- A text that is passed over stays in front of what the rest declares. -/
theorem declare_passed {front : List Char} (name : String) (rest : String)
    (passed : insertName name.toList (front ++ rest.toList) =
      (insertName name.toList rest.toList).map (front ++ ·)) :
    declare (String.ofList front ++ rest) name = String.ofList front ++ declare rest name := by
  rw [declare, declare, String.toList_append, String.toList_ofList, passed]
  cases insertName name.toList rest.toList with
  | none => simp only [Option.map_none, String.append_assoc]
  | some declaration => exact String.ofList_append

/-- How a name is declared with a type: behind the spelling of the type, or behind the first
star that stands alone in parentheses. -/
inductive Declares (spelling name : String) : String → Prop
  | behind : ¬"(*)".toList <:+: spelling.toList →
      Declares spelling name (spelling ++ " " ++ name)
  | inside {front back} : spelling = front ++ "(*)" ++ back →
      ¬"(*)".toList <:+: front.toList →
      Declares spelling name (front ++ "(*" ++ name ++ ")" ++ back)

theorem declares_declare (spelling name : String) :
    Declares spelling name (declare spelling name) := by
  by_cases single : starGroup 1 <:+: spelling.toList
  · obtain ⟨front, back, split, before, inserted⟩ := insertName_first name.toList single
    have spelled : spelling = String.ofList front ++ "(*)" ++ String.ofList back := by
      apply String.toList_inj.mp
      simp [split, starGroup]
    have declared : declare spelling name =
        String.ofList front ++ "(*" ++ name ++ ")" ++ String.ofList back := by
      apply String.toList_inj.mp
      simp [declare, inserted]
    rw [declared]
    exact .inside spelled (by simpa [starGroup] using before)
  · rw [declare, insertName_none single]
    exact .behind single

/-- Without a group the name stands behind the type. -/
theorem declare_plain (name : String) (plain : ¬HasStarGroup text) :
    declare text name = text ++ " " ++ name := by
  rw [declare, insertName_none fun single => plain (.of_single single)]

theorem functionDeclarator_spelling (result arguments : String) (stars : Nat) :
    functionDeclarator result stars "" arguments =
      String.ofList (result.toList ++ [' ']) ++
        (String.ofList (starGroup stars) ++ ("(" ++ arguments ++ ")")) := by
  apply String.toList_inj.mp
  simp [functionDeclarator, starGroup]

/-- The first group is behind the result. -/
theorem declare_functionDeclarator (result arguments name : String) (stars : Nat)
    (plain : ¬HasStarGroup result) :
    declare (functionDeclarator result stars "" arguments) name =
      String.ofList (result.toList ++ [' ']) ++
        declare (String.ofList (starGroup stars) ++ ("(" ++ arguments ++ ")")) name := by
  have noSingle : ¬starGroup 1 <:+: result.toList := fun single => plain (.of_single single)
  rw [functionDeclarator_spelling]
  refine declare_passed name _ ?_
  rw [List.append_assoc, List.singleton_append, insertName_spaced noSingle]
  simp only [List.append_assoc, List.singleton_append]

theorem declare_single (rest name : String) :
    declare (String.ofList (starGroup 1) ++ rest) name = "(*" ++ name ++ ")" ++ rest := by
  apply String.toList_inj.mp
  simp [declare, starGroup, insertName]

theorem declare_several (rest name : String) {stars : Nat} (several : 1 < stars) :
    declare (String.ofList (starGroup stars) ++ rest) name =
      String.ofList (starGroup stars) ++ declare rest name :=
  declare_passed name rest (insertName_group several)

/-- Behind more than one star stands the closing parenthesis, and never the name. -/
theorem declare_several_ne (result arguments : String) {stars : Nat} (several : 1 < stars)
    (plain : ¬HasStarGroup result) {first : Char} (begins : name.toList.head? = some first)
    (notClose : first ≠ ')') :
    declare (functionDeclarator result stars "" arguments) name ≠
      functionDeclarator result stars name arguments := by
  intro same
  rw [declare_functionDeclarator _ _ _ _ plain, declare_several _ _ several] at same
  obtain ⟨rest, spelled⟩ := List.head?_eq_some_iff.mp begins
  have characters := congrArg String.toList same
  simp [functionDeclarator, starGroup, spelled] at characters
  exact notClose characters.1.symm

/-- A name is given to a type without groups behind its spelling, and to a pointer to a
function inside the parentheses.  To a pointer to such pointers it is given as if the spelling
ended with the stars, so it does not get behind the last of them. -/
theorem declare_places_name (name : String) :
    (∀ spelling, ¬HasStarGroup spelling → declare spelling name = spelling ++ " " ++ name) ∧
      ∀ (result arguments : String) (stars : Nat), ¬HasStarGroup result → 0 < stars →
        let declared := declare (functionDeclarator result stars "" arguments) name
        (stars = 1 → declared = functionDeclarator result stars name arguments) ∧
          (1 < stars → declared = result ++ " " ++ String.ofList (starGroup stars) ++
            declare ("(" ++ arguments ++ ")") name) ∧
          (1 < stars → ¬HasStarGroup ("(" ++ arguments ++ ")") →
            declared = functionDeclarator result stars "" arguments ++ " " ++ name) ∧
          ((∃ first, name.toList.head? = some first ∧ first ≠ ')') →
            (declared = functionDeclarator result stars name arguments ↔ stars = 1)) := by
  refine ⟨fun spelling plain => declare_plain name plain, ?_⟩
  intro result arguments stars plain positive declared
  have behind : declared = _ := declare_functionDeclarator result arguments name stars plain
  have single (one : stars = 1) : declared = functionDeclarator result stars name arguments := by
    subst one
    rw [behind, declare_single]
    apply String.toList_inj.mp
    simp [functionDeclarator]
  have several (more : 1 < stars) : declared = result ++ " " ++ String.ofList (starGroup stars) ++
      declare ("(" ++ arguments ++ ")") name := by
    rw [behind, declare_several _ _ more]
    apply String.toList_inj.mp
    simp
  refine ⟨single, several, fun more bare => ?_, fun ⟨first, begins, notClose⟩ => ⟨?_, single⟩⟩
  · rw [several more, declare_plain name bare, functionDeclarator_spelling]
    apply String.toList_inj.mp
    simp
  · intro same
    by_contra notOne
    exact declare_several_ne result arguments (by omega) plain begins notClose same

theorem declare_places_name_callback :
    ¬HasStarGroup "void" ∧ ¬HasStarGroup "(int)" ∧
      declare "void (*)(int)" "p0" = "void (*p0)(int)" ∧
      declare "void (**)(int)" "p0" = "void (**)(int) p0" := by
  have noGroup : ¬HasStarGroup "void" := by decide
  have noGroupBehind : ¬HasStarGroup "(int)" := by decide
  have law := (declare_places_name "p0").2 "void" "int"
  exact ⟨noGroup, noGroupBehind, (law 1 noGroup (by decide)).1 rfl,
    (law 2 noGroup (by decide)).2.2.1 (by decide) noGroupBehind⟩

end NativeBindings
