import Mathlib.Data.List.Basic
import NativeBindings.Proofs.Text.Runs
import NativeBindings.Text.PackageName

namespace NativeBindings

/-! # Packages and symbols

A package is made of segments with one dot between two of them, whatever the library is
called.  Making a package of a package, or a symbol of a symbol, changes nothing, and a
package is a symbol up to its dots.
-/

def isSegmentChar (c : Char) : Bool := c.isLower || c.isDigit || c == '_'

/-- Is a text one or more segments, none of them empty, with single dots between? -/
def IsPackage (text : String) : Prop :=
  ∃ segments : List (List Char), segments ≠ [] ∧
    (∀ segment ∈ segments, segment ≠ [] ∧ segment.all isSegmentChar) ∧
    text.toList = List.intercalate ['.'] segments

section Packages

variable {text segment : List Char} {segments : List (List Char)} {separator c : Char}

theorem isPackageChar_eq : isPackageChar c = (isSegmentChar c || c == '.') := rfl

theorem isSymbolChar_of_isSegmentChar (inSegment : isSegmentChar c) : isSymbolChar c := by
  simp only [isSegmentChar, Bool.or_eq_true, beq_iff_eq] at inSegment
  rw [isSymbolChar, Char.isAlphanum]
  rcases inSegment with (lower | digit) | rfl
  · have letter : c.isAlpha = true := Bool.or_eq_true_iff.mpr (.inr lower)
    rw [letter]
    rfl
  · rw [digit, Bool.or_true]
    rfl
  · rfl

theorem dot_notMem_segment (plain : segment.all isSegmentChar) : '.' ∉ segment := fun member =>
  absurd (List.all_eq_true.mp plain _ member) (by decide)

/-- No capital stands in a package. -/
theorem toLower_of_isPackageChar (inPackage : isPackageChar c) : c.toLower = c := by
  simp only [isPackageChar, Bool.or_eq_true, beq_iff_eq] at inPackage
  have small : ¬ ('A'.val ≤ c.val ∧ c.val ≤ 'Z'.val) := by
    rcases inPackage with ((lower | digit) | rfl) | rfl
    · have first : 'a'.val ≤ c.val := of_decide_eq_true (Bool.and_eq_true_iff.mp lower).1
      grind
    · have last : c.val ≤ '9'.val := of_decide_eq_true (Bool.and_eq_true_iff.mp digit).2
      grind
    · decide
    · decide
  exact dif_neg small

theorem lowerCase_of_isPackageChar (inPackage : isPackageChar c) : lowerCase c = [c] := by
  have notKelvin : c ≠ '\u212a' := by rintro rfl; revert inPackage; decide
  have notDotted : c ≠ '\u0130' := by rintro rfl; revert inPackage; decide
  rw [lowerCase, if_neg notKelvin, if_neg notDotted, toLower_of_isPackageChar inPackage]

theorem flatMap_lowerCase (plain : ∀ c ∈ text, isPackageChar c) : text.flatMap lowerCase = text := by
  rw [List.flatMap_congr fun c member => lowerCase_of_isPackageChar (plain c member),
    List.flatMap_singleton']

theorem pieces_eq_splitOn : pieces separator text = text.splitOn separator := by
  induction text with
  | nil => rw [pieces, List.splitOn_nil]
  | cons c rest ih =>
      rw [List.splitOn] at ih ⊢
      rw [List.splitOnP_cons_eq_if_modifyHead, pieces, ih]
      obtain ⟨first, others, split⟩ := List.exists_cons_of_ne_nil
        (List.splitOnP_ne_nil (fun d => d == separator) rest)
      simp only [split, beq_iff_eq, List.modifyHead_cons]

theorem mem_pieces (member : segment ∈ pieces separator text) (inside : c ∈ segment) :
    c ∈ text ∧ c ≠ separator := by
  induction text generalizing segment with
  | nil =>
      rw [pieces, List.mem_singleton] at member
      subst segment
      cases inside
  | cons d rest ih =>
      rw [pieces] at member
      split at member
      · rcases List.mem_cons.mp member with rfl | later
        · cases inside
        · exact (ih later inside).imp_left (List.mem_cons_of_mem _)
      · rename_i plain
        split at member
        · rw [List.mem_singleton] at member
          subst segment
          rw [List.mem_singleton] at inside
          subst inside
          exact ⟨List.mem_cons_self, plain⟩
        · rename_i first others split
          rw [split] at ih
          rcases List.mem_cons.mp member with rfl | later
          · rcases List.mem_cons.mp inside with rfl | behind
            · exact ⟨List.mem_cons_self, plain⟩
            · exact (ih List.mem_cons_self behind).imp_left (List.mem_cons_of_mem _)
          · exact (ih (List.mem_cons_of_mem _ later) inside).imp_left (List.mem_cons_of_mem _)

theorem mem_intercalate (member : c ∈ List.intercalate [separator] segments) :
    c = separator ∨ ∃ segment ∈ segments, c ∈ segment := by
  induction segments with
  | nil => cases member
  | cons first others ih =>
      cases others with
      | nil =>
          rw [List.intercalate_singleton] at member
          exact .inr ⟨first, List.mem_cons_self, member⟩
      | cons second others =>
          rw [List.intercalate_cons_cons, List.append_assoc, List.singleton_append,
            List.mem_append, List.mem_cons] at member
          rcases member with inFirst | between | later
          · exact .inr ⟨first, List.mem_cons_self, inFirst⟩
          · exact .inl between
          · exact (ih later).imp_right fun ⟨segment, among, inside⟩ =>
              ⟨segment, List.mem_cons_of_mem _ among, inside⟩

theorem isPackageChar_of_mem {package : String} (made : IsPackage package)
    (member : c ∈ package.toList) : isPackageChar c := by
  obtain ⟨segments, -, plain, spelled⟩ := made
  rw [spelled] at member
  rcases mem_intercalate member with rfl | ⟨segment, among, inside⟩
  · rfl
  · rw [isPackageChar_eq, List.all_eq_true.mp (plain segment among).2 c inside, Bool.true_or]

theorem isPackage_packageOfLibrary (library : String) : IsPackage (packageOfLibrary library) := by
  rw [packageOfLibrary]
  split
  · exact ⟨[fallbackPackage.toList], List.cons_ne_nil _ _, by decide, rfl⟩
  · rename_i nonempty
    refine ⟨_, nonempty, fun segment among => ?_, String.toList_ofList⟩
    obtain ⟨piece, filled⟩ := List.mem_filter.mp among
    refine ⟨by simpa using filled, List.all_eq_true.mpr fun c inside => ?_⟩
    obtain ⟨written, notDot⟩ := mem_pieces piece inside
    rcases mem_squash written with kept | rfl
    · simpa [isPackageChar_eq, notDot] using kept
    · rfl

example : packageOfLibrary "My lib++.core.." = "my_lib_.core" := by decide

theorem packageOfLibrary_of_isPackage {package : String} (made : IsPackage package) :
    packageOfLibrary package = package := by
  have characters : ∀ c ∈ package.toList, isPackageChar c := fun c => isPackageChar_of_mem made
  obtain ⟨segments, nonempty, plain, spelled⟩ := made
  have found : (pieces '.' package.toList).filter (fun segment => !segment.isEmpty) = segments := by
    rw [spelled, pieces_eq_splitOn, List.splitOn_intercalate '.'
      (fun segment among => dot_notMem_segment (plain segment among).2) nonempty]
    exact List.filter_eq_self.mpr fun segment among => by simp [(plain segment among).1]
  rw [packageOfLibrary, flatMap_lowerCase characters, squash_of_all characters, found]
  split
  · exact absurd rfl nonempty
  · rw [← spelled, String.ofList_toList]

theorem packageOfLibrary_eq_self_iff {library : String} :
    packageOfLibrary library = library ↔ IsPackage library :=
  ⟨fun same => same ▸ isPackage_packageOfLibrary library, packageOfLibrary_of_isPackage⟩

theorem all_symbolName (name : String) : (symbolName name).toList.all isSymbolChar :=
  List.all_eq_true.mpr fun _ => isSymbolChar_of_mem_symbolName

theorem symbolName_eq_self_iff {name : String} :
    symbolName name = name ↔ name.toList.all isSymbolChar := by
  constructor
  · intro same
    rw [← same]
    exact all_symbolName name
  · intro plain
    rw [symbolName, squash_of_all (List.all_eq_true.mp plain), String.ofList_toList]

/-- A separator that stands alone is one underscore.  `inRun` may have any value: the
first segment has a character, and that character is kept. -/
theorem squash_intercalate {keep : Char → Bool} {inRun : Bool} (refused : keep separator = false)
    (kept : ∀ segment ∈ segments, segment ≠ [] ∧ ∀ c ∈ segment, keep c = true) :
    squash keep inRun (List.intercalate [separator] segments) = List.intercalate ['_'] segments := by
  induction segments generalizing inRun with
  | nil => rfl
  | cons first others ih =>
      obtain ⟨⟨filled, plain⟩, rest⟩ := List.forall_mem_cons.mp kept
      cases others with
      | nil => rw [List.intercalate_singleton, List.intercalate_singleton, squash_of_all plain]
      | cons second others =>
          simp only [List.intercalate_cons_cons, List.append_assoc, List.singleton_append]
          rw [squash_append_kept plain filled, squash, if_neg (by simp [refused]),
            if_neg Bool.false_ne_true, ih rest]

theorem map_intercalate {f : Char → Char} (fixed : ∀ segment ∈ segments, ∀ c ∈ segment, f c = c) :
    (List.intercalate [separator] segments).map f = List.intercalate [f separator] segments := by
  induction segments with
  | nil => rfl
  | cons first others ih =>
      obtain ⟨here, rest⟩ := List.forall_mem_cons.mp fixed
      have same : first.map f = first := by rw [List.map_congr_left here, List.map_id']
      cases others with
      | nil => simp only [List.intercalate_singleton, same]
      | cons second others =>
          simp only [List.intercalate_cons_cons, List.append_assoc, List.singleton_append,
            List.map_append, List.map_cons, same, ih rest]

theorem symbolName_of_isPackage {package : String} (made : IsPackage package) :
    symbolName package = package.map fun c => if c = '.' then '_' else c := by
  obtain ⟨segments, -, plain, spelled⟩ := made
  have undotted : ∀ segment ∈ segments, ∀ c ∈ segment, (if c = '.' then '_' else c) = c := by
    intro segment among c inside
    exact if_neg (ne_of_mem_of_not_mem inside (dot_notMem_segment (plain segment among).2))
  have kept : ∀ segment ∈ segments, segment ≠ [] ∧ ∀ c ∈ segment, isSymbolChar c := by
    intro segment among
    obtain ⟨filled, characters⟩ := plain segment among
    exact ⟨filled, fun c inside =>
      isSymbolChar_of_isSegmentChar (List.all_eq_true.mp characters c inside)⟩
  rw [← String.toList_inj, symbolName, String.toList_ofList, String.toList_map, spelled,
    squash_intercalate rfl kept, map_intercalate undotted, if_pos rfl]

end Packages

/-- Packages and symbols are well formed and stay as they are.  A symbol is its text with
one underscore for each maximal run of characters that no symbol holds. -/
theorem packages_and_symbols_wellFormed :
    (∀ library, IsPackage (packageOfLibrary library)) ∧
    (∀ library, packageOfLibrary library = library ↔ IsPackage library) ∧
    (∀ library, packageOfLibrary (packageOfLibrary library) = packageOfLibrary library) ∧
    (∀ name, (symbolName name).toList.all isSymbolChar) ∧
    (∀ name, symbolName name = name ↔ name.toList.all isSymbolChar) ∧
    (∀ name, ∃ runs, (∀ other, Runs isSymbolChar name.toList other ↔ other = runs) ∧
      (symbolName name).toList = runs.flatMap (writeRun isSymbolChar)) ∧
    (∀ name, symbolName (symbolName name) = symbolName name) ∧
    ∀ library, symbolName (packageOfLibrary library) =
      (packageOfLibrary library).map fun c => if c = '.' then '_' else c := by
  refine ⟨isPackage_packageOfLibrary, fun _ => packageOfLibrary_eq_self_iff, fun library => ?_,
    all_symbolName, fun _ => symbolName_eq_self_iff, fun name => ?_, fun name => ?_,
    fun library => symbolName_of_isPackage (isPackage_packageOfLibrary library)⟩
  · exact packageOfLibrary_of_isPackage (isPackage_packageOfLibrary library)
  · refine ⟨name.toList.splitBy fun c d => isSymbolChar c == isSymbolChar d,
      fun other => runs_iff, ?_⟩
    rw [symbolName, String.toList_ofList, squash_of_runs (runs_iff.mpr rfl)]
  · exact symbolName_eq_self_iff.mpr (all_symbolName name)

end NativeBindings
