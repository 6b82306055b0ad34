import Mathlib.Data.List.Forall2
import NativeBindings.Proofs.Stub.Types

namespace NativeBindings

/-! # Types read back from their text

A type is written without a word too much: arguments stand in brackets only if there are
any, what a function gives stands behind its arrow without brackets, and a nullable type
ends with a question mark.  Still the text tells the whole type.  Behind a type can only
stand a comma or a closing bracket, so where a name ends, and with it the type, is seen
from the next character.  What the text does not tell is which of the dots in a name ends
its package.
-/

/-- A character that stands behind names, or in front of types that begin with none. -/
def isTypeMark (c : Char) : Bool := c ∈ ['<', '>', '(', ')', ',', '?', '*']

/-- A name with a text that is told from the notation around it. -/
def Classifier.Legible (classifier : Classifier) : Prop :=
  classifier.qualifiedName ≠ "" ∧ ∀ c ∈ classifier.qualifiedName.toList, isTypeMark c = false

/-- A letter, a digit, an underscore or a dot.  Letters of other alphabets are characters
beyond ASCII. -/
def isWordChar (c : Char) : Bool := c.isAlphanum || c == '_' || c == '.' || 127 < c.toNat

theorem Classifier.legible_of_words {classifier : Classifier}
    (nonempty : classifier.qualifiedName ≠ "")
    (plain : classifier.qualifiedName.toList.all isWordChar) : classifier.Legible := by
  refine ⟨nonempty, fun c member => ?_⟩
  have word := List.all_eq_true.mp plain c member
  rw [isTypeMark, decide_eq_false_iff_not]
  intro mark
  simp only [List.mem_cons, List.not_mem_nil, or_false] at mark
  rcases mark with rfl | rfl | rfl | rfl | rfl | rfl | rfl <;> revert word <;> decide

namespace TargetType

/-- The same type, but for where its names are split into package and name. -/
inductive Alike : TargetType → TargetType → Prop
  | named {classifier other : Classifier} {arguments others : List TargetType} {nullable : Bool} :
      classifier.qualifiedName = other.qualifiedName → List.Forall₂ Alike arguments others →
        Alike (.named classifier arguments nullable) (.named other others nullable)
  | function {parameters others : List TargetType} {result output : TargetType} :
      List.Forall₂ Alike parameters others → Alike result output →
        Alike (.function parameters result) (.function others output)
  | star : Alike .star .star

def characters (type : TargetType) : List Char := type.qualifiedText.toList

/-- Types with commas between them. -/
def listed : List TargetType → List Char
  | [] => []
  | [type] => type.characters
  | type :: next :: rest => type.characters ++ ',' :: ' ' :: listed (next :: rest)

/-- What stands behind the name: arguments, if there are any. -/
def bracketed (arguments : List TargetType) : List Char :=
  if arguments.isEmpty then [] else '<' :: (listed arguments ++ ['>'])

def questionMark (nullable : Bool) : List Char := if nullable then ['?'] else []

theorem renderAll_eq_map (qualified : Bool) (types : List TargetType) :
    renderAll qualified types = types.map (render qualified) := by
  induction types with
  | nil => rfl
  | cons type rest ih => rw [renderAll, ih, List.map_cons]

theorem toList_intercalate_qualifiedText (types : List TargetType) :
    (String.intercalate ", " (types.map qualifiedText)).toList = listed types := by
  induction types with
  | nil => rfl
  | cons type rest ih =>
      cases rest with
      | nil => simp [listed, characters]
      | cons next rest =>
          simp only [String.toList_intercalate, List.map_cons,
            List.intercalate_cons_cons] at ih ⊢
          rw [ih, listed, List.append_assoc]
          rfl

theorem characters_named (classifier : Classifier) (arguments : List TargetType)
    (nullable : Bool) :
    (named classifier arguments nullable).characters =
      classifier.qualifiedName.toList ++ (bracketed arguments ++ questionMark nullable) := by
  have inside := toList_intercalate_qualifiedText arguments
  unfold qualifiedText at inside
  cases given : arguments.isEmpty <;> cases nullable <;>
    simp [characters, qualifiedText, render, renderAll_eq_map, bracketed, questionMark, given,
      ← inside]

theorem characters_function (parameters : List TargetType) (result : TargetType) :
    (function parameters result).characters =
      '(' :: (listed parameters ++ (") -> ".toList ++ result.characters)) := by
  have inside := toList_intercalate_qualifiedText parameters
  unfold qualifiedText at inside
  simp [characters, qualifiedText, render, renderAll_eq_map, ← inside]

/-- Is a text empty, or does it begin with one of some characters? -/
def BeginsWith (marks text : List Char) : Prop := ∀ c ∈ text.head?, c ∈ marks

/-- How a type begins, which tells its form. -/
def Opens : TargetType → Char → Prop
  | .named .., c => isTypeMark c = false
  | .function .., c => c = '('
  | .star, c => c = '*'

section Ends

variable {front other back rest : List Char}

/-- A name ends in front of the first mark. -/
theorem split_at_mark (same : front ++ back = other ++ rest)
    (plain : ∀ c ∈ front, isTypeMark c = false) (alsoPlain : ∀ c ∈ other, isTypeMark c = false)
    (marked : ∀ c ∈ back.head?, isTypeMark c = true)
    (alsoMarked : ∀ c ∈ rest.head?, isTypeMark c = true) : front = other ∧ back = rest := by
  have cut {name behind : List Char} (plain : ∀ c ∈ name, isTypeMark c = false)
      (marked : ∀ c ∈ behind.head?, isTypeMark c = true) :
      (name ++ behind).takeWhile (fun c => !isTypeMark c) = name := by
    rw [List.takeWhile_append_of_pos fun c member => by simp [plain c member]]
    cases behind with
    | nil => simp
    | cons c _ => simp [marked c rfl]
  have fronts : front = other := by
    rw [← cut plain marked, same, cut alsoPlain alsoMarked]
  subst fronts
  exact ⟨rfl, List.append_cancel_left same⟩

theorem opens_characters {type : TargetType} (legible : type.All Classifier.Legible) :
    ∃ c tail, type.characters = c :: tail ∧ type.Opens c := by
  cases type with
  | named classifier arguments nullable =>
      obtain ⟨nonempty, plain⟩ := legible classifier List.mem_cons_self
      obtain ⟨c, tail, spelled⟩ :=
        List.exists_cons_of_ne_nil fun empty => nonempty (String.toList_eq_nil_iff.mp empty)
      have opens : isTypeMark c = false := plain c (by rw [spelled]; exact List.mem_cons_self)
      refine ⟨c, tail ++ (bracketed arguments ++ questionMark nullable), ?_, opens⟩
      rw [characters_named, spelled, List.cons_append]
  | function parameters result => exact ⟨'(', _, characters_function parameters result, rfl⟩
  | star => exact ⟨'*', [], rfl, rfl⟩

/-- Texts that begin with types begin the same way if they are equal. -/
theorem opens_of_append {first second : TargetType} (legible : first.All Classifier.Legible)
    (alsoLegible : second.All Classifier.Legible)
    (same : first.characters ++ back = second.characters ++ rest) :
    ∃ c, first.Opens c ∧ second.Opens c := by
  obtain ⟨c, tail, spelled, opens⟩ := opens_characters legible
  obtain ⟨d, others, alsoSpelled, alsoOpens⟩ := opens_characters alsoLegible
  rw [spelled, alsoSpelled, List.cons_append, List.cons_append] at same
  cases (List.cons.inj same).1
  exact ⟨c, opens, alsoOpens⟩

/-- Where a list is closed, no type begins. -/
theorem not_begins_of_closed {type : TargetType} (legible : type.All Classifier.Legible)
    (closed : BeginsWith ['>', ')'] (type.characters ++ rest)) : False := by
  obtain ⟨c, tail, spelled, opens⟩ := opens_characters legible
  have closing : c ∈ ['>', ')'] := closed c (by rw [spelled]; rfl)
  cases type with
  | named => simp_all [Opens, isTypeMark]
  | function => simp_all [Opens]
  | star => simp_all [Opens]

theorem bracketed_cancel {arguments others : List TargetType}
    (behind : ∀ c ∈ back.head?, c ≠ '<') (alsoBehind : ∀ c ∈ rest.head?, c ≠ '<')
    (same : bracketed arguments ++ back = bracketed others ++ rest) :
    listed arguments ++ '>' :: back = listed others ++ '>' :: rest := by
  cases arguments with
  | nil =>
      cases others with
      | nil => exact congrArg ('>' :: ·) same
      | cons type more =>
          cases same
          exact absurd rfl (behind '<' rfl)
  | cons type more =>
      cases others with
      | nil =>
          cases same
          exact absurd rfl (alsoBehind '<' rfl)
      | cons other others => simpa [bracketed] using same

theorem questionMark_cancel {nullable other : Bool}
    (ends : BeginsWith [',', '>', ')'] back) (alsoEnds : BeginsWith [',', '>', ')'] rest)
    (same : questionMark nullable ++ back = questionMark other ++ rest) :
    nullable = other ∧ back = rest := by
  cases nullable with
  | false =>
      cases other with
      | false => exact ⟨rfl, same⟩
      | true =>
          cases same
          exact absurd (ends '?' rfl) (by decide)
  | true =>
      cases other with
      | false =>
          cases same
          exact absurd (alsoEnds '?' rfl) (by decide)
      | true => exact ⟨rfl, (List.cons.inj same).2⟩

/-- What stands behind a name begins with a mark. -/
theorem mark_of_behindName {arguments : List TargetType} {nullable : Bool}
    (ends : BeginsWith [',', '>', ')'] back) :
    ∀ c ∈ (bracketed arguments ++ (questionMark nullable ++ back)).head?, isTypeMark c = true := by
  intro c first
  cases arguments with
  | nil =>
      cases nullable with
      | false =>
          have closing := ends c first
          revert closing
          simp +contextual [isTypeMark, or_imp]
      | true =>
          cases first
          rfl
  | cons type rest =>
      cases first
      rfl

theorem ne_bracket_of_behindArguments {nullable : Bool} (ends : BeginsWith [',', '>', ')'] back) :
    ∀ c ∈ (questionMark nullable ++ back).head?, c ≠ '<' := by
  rintro c first rfl
  cases nullable with
  | false => exact absurd (ends '<' first) (by decide)
  | true => cases first

end Ends

/-- What stands behind the first of some types in a list. -/
def continued (rest : List TargetType) : List Char :=
  if rest.isEmpty then [] else ',' :: ' ' :: listed rest

theorem listed_cons (type : TargetType) (rest : List TargetType) :
    listed (type :: rest) = type.characters ++ continued rest := by
  cases rest with
  | nil => exact (List.append_nil _).symm
  | cons => rfl

section Lists

variable {rest others : List TargetType} {back behind : List Char}

theorem begins_continued (closed : BeginsWith ['>', ')'] back) :
    BeginsWith [',', '>', ')'] (continued rest ++ back) := by
  intro c first
  cases rest with
  | nil => exact List.mem_cons_of_mem _ (closed c first)
  | cons =>
      cases first
      exact List.mem_cons_self

theorem continued_cancel (closed : BeginsWith ['>', ')'] back)
    (alsoClosed : BeginsWith ['>', ')'] behind)
    (same : continued rest ++ back = continued others ++ behind) :
    listed rest ++ back = listed others ++ behind := by
  cases rest with
  | nil =>
      cases others with
      | nil => exact same
      | cons =>
          cases same
          exact absurd (closed ',' rfl) (by decide)
  | cons =>
      cases others with
      | nil =>
          cases same
          exact absurd (alsoClosed ',' rfl) (by decide)
      | cons => exact (List.cons.inj (List.cons.inj same).2).2

end Lists

section Parts

variable {holds : Classifier → Prop} {classifier : Classifier} {types : List TargetType}
  {output : TargetType} {nullable : Bool}

theorem All.arguments (all : (TargetType.named classifier types nullable).All holds) :
    ∀ type ∈ types, type.All holds := by
  intro type listed other member
  apply all other
  rw [classifiers, classifiersOf_eq_flatMap]
  exact List.mem_cons_of_mem _ (List.mem_flatMap.mpr ⟨type, listed, member⟩)

theorem All.parameters (all : (TargetType.function types output).All holds) :
    ∀ type ∈ types, type.All holds := by
  intro type listed other member
  apply all other
  rw [classifiers, classifiersOf_eq_flatMap]
  exact List.mem_append_left _ (List.mem_flatMap.mpr ⟨type, listed, member⟩)

theorem All.result (all : (TargetType.function types output).All holds) : output.All holds :=
  fun other member => all other (List.mem_append_right _ member)

end Parts

mutual

/-- Texts that begin with a type, and end or go on as they can behind one, begin with the
same type if they are equal. -/
theorem alike_of_append : (first second : TargetType) → (back rest : List Char) →
    first.All Classifier.Legible → second.All Classifier.Legible →
    BeginsWith [',', '>', ')'] back → BeginsWith [',', '>', ')'] rest →
    first.characters ++ back = second.characters ++ rest → first.Alike second ∧ back = rest
  | .named classifier arguments nullable, .named other others alsoNullable, back, rest,
      legible, alsoLegible, ends, alsoEnds, same => by
      simp only [characters_named, List.append_assoc] at same
      obtain ⟨names, same⟩ := split_at_mark same (legible _ List.mem_cons_self).2
        (alsoLegible _ List.mem_cons_self).2 (mark_of_behindName ends) (mark_of_behindName alsoEnds)
      have bracketed := bracketed_cancel (ne_bracket_of_behindArguments ends)
        (ne_bracket_of_behindArguments alsoEnds) same
      obtain ⟨inside, closings⟩ := alikeAll_of_append arguments others _ _ legible.arguments
        alsoLegible.arguments (by simp [BeginsWith]) (by simp [BeginsWith]) bracketed
      obtain ⟨rfl, backs⟩ := questionMark_cancel ends alsoEnds (List.cons.inj closings).2
      exact ⟨.named (String.toList_inj.mp names) inside, backs⟩
  | .function parameters result, .function others output, back, rest,
      legible, alsoLegible, ends, alsoEnds, same => by
      simp only [characters_function, List.cons_append, List.append_assoc] at same
      obtain ⟨inputs, behind⟩ := alikeAll_of_append parameters others _ _ legible.parameters
        alsoLegible.parameters (by simp [BeginsWith]) (by simp [BeginsWith]) (List.cons.inj same).2
      obtain ⟨outputs, backs⟩ := alike_of_append result output back rest legible.result
        alsoLegible.result ends alsoEnds (List.append_cancel_left behind)
      exact ⟨.function inputs outputs, backs⟩
  | .star, .star, _, _, _, _, _, _, same => ⟨.star, (List.cons.inj same).2⟩
  | .named .., .function .., _, _, legible, alsoLegible, _, _, same
  | .named .., .star, _, _, legible, alsoLegible, _, _, same
  | .function .., .named .., _, _, legible, alsoLegible, _, _, same
  | .function .., .star, _, _, legible, alsoLegible, _, _, same
  | .star, .named .., _, _, legible, alsoLegible, _, _, same
  | .star, .function .., _, _, legible, alsoLegible, _, _, same => by
      obtain ⟨c, opens, alsoOpens⟩ := opens_of_append legible alsoLegible same
      simp_all [Opens, isTypeMark]

theorem alikeAll_of_append : (first second : List TargetType) → (back rest : List Char) →
    (∀ type ∈ first, type.All Classifier.Legible) →
    (∀ type ∈ second, type.All Classifier.Legible) →
    BeginsWith ['>', ')'] back → BeginsWith ['>', ')'] rest →
    listed first ++ back = listed second ++ rest → List.Forall₂ Alike first second ∧ back = rest
  | [], [], _, _, _, _, _, _, same => ⟨.nil, same⟩
  | [], type :: more, back, _, _, alsoLegible, closed, _, same => by
      rw [listed_cons, List.append_assoc] at same
      have spelled : back = type.characters ++ _ := same
      exact (not_begins_of_closed (alsoLegible type List.mem_cons_self) (spelled ▸ closed)).elim
  | type :: more, [], _, rest, legible, _, _, closed, same => by
      rw [listed_cons, List.append_assoc] at same
      have spelled : type.characters ++ _ = rest := same
      exact (not_begins_of_closed (legible type List.mem_cons_self) (spelled ▸ closed)).elim
  | type :: more, other :: others, _, _, legible, alsoLegible, closed, alsoClosed, same => by
      obtain ⟨here, later⟩ := List.forall_mem_cons.mp legible
      obtain ⟨alsoHere, alsoLater⟩ := List.forall_mem_cons.mp alsoLegible
      simp only [listed_cons, List.append_assoc] at same
      obtain ⟨head, behind⟩ := alike_of_append type other _ _ here alsoHere
        (begins_continued closed) (begins_continued alsoClosed) same
      obtain ⟨tail, backs⟩ := alikeAll_of_append more others _ _ later alsoLater
        closed alsoClosed (continued_cancel closed alsoClosed behind)
      exact ⟨.cons head tail, backs⟩

end

mutual

theorem Alike.characters_eq : {first second : TargetType} → first.Alike second →
    first.characters = second.characters
  | .named .., .named .., .named names inside => by
      rw [characters_named, characters_named, names, bracketed, bracketed,
        Alike.listed_eq inside]
      cases inside <;> rfl
  | .function .., .function .., .function inputs output => by
      rw [characters_function, characters_function, Alike.listed_eq inputs, output.characters_eq]
  | .star, .star, .star => rfl

theorem Alike.listed_eq : {first second : List TargetType} → List.Forall₂ Alike first second →
    listed first = listed second
  | [], [], .nil => rfl
  | [_], [_], .cons head .nil => head.characters_eq
  | _ :: _ :: _, _ :: _ :: _, .cons head (.cons next tail) => by
      rw [listed, listed, head.characters_eq, Alike.listed_eq (.cons next tail)]

end

section Read

variable {types others : List TargetType} {first second : TargetType}

theorem listed_eq_iff (legible : ∀ type ∈ types, type.All Classifier.Legible)
    (alsoLegible : ∀ type ∈ others, type.All Classifier.Legible) :
    listed types = listed others ↔ List.Forall₂ Alike types others := by
  have closed : BeginsWith ['>', ')'] [] := nofun
  constructor
  · intro same
    have texts : listed types ++ [] = listed others ++ [] := by rw [same]
    exact (alikeAll_of_append types others [] [] legible alsoLegible closed closed texts).1
  · exact Alike.listed_eq

/-- The text tells the type, but for where names are split. -/
theorem qualifiedText_eq_iff (legible : first.All Classifier.Legible)
    (alsoLegible : second.All Classifier.Legible) :
    first.qualifiedText = second.qualifiedText ↔ first.Alike second := by
  rw [← String.toList_inj]
  have alone := listed_eq_iff (List.forall_mem_singleton.mpr legible)
    (List.forall_mem_singleton.mpr alsoLegible)
  simp only [List.forall₂_cons, List.Forall₂.nil, and_true] at alone
  exact alone

end Read

end TargetType

end NativeBindings
