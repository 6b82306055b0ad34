import NativeBindings.Bridge.Module
import NativeBindings.Proofs.Text.Fresh

namespace NativeBindings

/-! # Names in native code

Names are put together from free text and numbers, so a name has to be taken apart
to see its number.  Free text may hold underscores and digits; what helps is that a
number holds no underscore, and that it stands before the first one or behind the
last.
-/

/-- Is a text an identifier of C? -/
structure IsIdentifier (name : String) : Prop where
  start : ∃ first, name.toList.head? = some first ∧ first.isDigit = false
  characters : ∀ c ∈ name.toList, isSymbolChar c

theorem isSymbolChar_of_mem_symbolName {name : String} {c : Char}
    (member : c ∈ (symbolName name).toList) : isSymbolChar c := by
  rw [symbolName, String.toList_ofList] at member
  rcases mem_squash member with kept | rfl
  · exact kept
  · rfl

theorem isSymbolChar_of_mem_digits {number : Nat} {c : Char}
    (member : c ∈ Nat.toDigits 10 number) : isSymbolChar c := by
  have digit : c.isDigit := Nat.isDigit_of_mem_toDigits (by decide) (by decide) member
  simp [isSymbolChar, Char.isAlphanum, digit]

/-- What stands before the first mark, and what stands behind it. -/
theorem split_at_first {α : Type} {mark : α} {front other back rest : List α}
    (same : front ++ mark :: back = other ++ mark :: rest)
    (plain : mark ∉ front) (alsoPlain : mark ∉ other) : front = other ∧ back = rest := by
  induction front generalizing other with
  | nil =>
      cases other with
      | nil => exact ⟨rfl, (List.cons.inj same).2⟩
      | cons head tail =>
          cases (List.cons.inj same).1
          exact absurd List.mem_cons_self alsoPlain
  | cons head tail ih =>
      cases other with
      | nil =>
          cases (List.cons.inj same).1
          exact absurd List.mem_cons_self plain
      | cons otherHead otherTail =>
          obtain ⟨rfl, tails⟩ := List.cons.inj same
          obtain ⟨rfl, backs⟩ := ih tails (fun inside => plain (List.mem_cons_of_mem _ inside))
            (fun inside => alsoPlain (List.mem_cons_of_mem _ inside))
          exact ⟨rfl, backs⟩

theorem split_at_last {α : Type} {mark : α} {front other back rest : List α}
    (same : front ++ mark :: back = other ++ mark :: rest)
    (plain : mark ∉ back) (alsoPlain : mark ∉ rest) : front = other ∧ back = rest := by
  have reversed := congrArg List.reverse same
  simp only [List.reverse_append, List.reverse_cons, List.append_assoc,
    List.singleton_append] at reversed
  obtain ⟨backs, fronts⟩ :=
    split_at_first reversed (by simpa using plain) (by simpa using alsoPlain)
  exact ⟨List.reverse_inj.mp fronts, List.reverse_inj.mp backs⟩

theorem toList_stubSymbol (package name access : String) (id : StubId) :
    (stubSymbol package name access id).toList =
      ("kni_".toList ++ (symbolName package).toList ++ '_' :: (symbolName name).toList ++
        access.toList) ++ '_' :: Nat.toDigits 10 id.number := by
  simp [stubSymbol]

theorem stubSymbol_split {package name access package' name' access' : String}
    {id id' : StubId}
    (same : stubSymbol package name access id = stubSymbol package' name' access' id') :
    id = id' ∧ ((symbolName package).toList ++ '_' :: (symbolName name).toList) ++ access.toList =
      ((symbolName package').toList ++ '_' :: (symbolName name').toList) ++ access'.toList := by
  have lists := congrArg String.toList same
  rw [toList_stubSymbol, toList_stubSymbol] at lists
  obtain ⟨fronts, numbers⟩ := split_at_last lists Nat.underscore_not_in_toDigits
    Nat.underscore_not_in_toDigits
  refine ⟨congrArg StubId.mk (toDigits_inj numbers), ?_⟩
  simpa only [List.append_assoc, List.append_cancel_left_eq] using fronts

/-- A stub's symbol for reading is not its symbol for writing. -/
theorem getter_ne_setter {package name package' name' : String} {id id' : StubId} :
    stubSymbol package name "_get" id ≠ stubSymbol package' name' "_set" id' := by
  intro same
  obtain ⟨-, ends⟩ := stubSymbol_split same
  have accesses := (List.append_inj' ends (by decide)).2
  revert accesses
  decide

theorem isIdentifier_stubSymbol (package name : String) {access : String}
    (plain : access.toList.all isSymbolChar) (id : StubId) :
    IsIdentifier (stubSymbol package name access id) where
  start := ⟨'k', by rw [toList_stubSymbol]; rfl, rfl⟩
  characters c member := by
    rw [toList_stubSymbol] at member
    simp only [List.mem_append, List.mem_cons] at member
    rcases member with (((ofPrefix | ofPackage) | rfl | ofName) | ofAccess) | rfl | ofNumber
    · exact List.all_eq_true.mp (rfl : "kni_".toList.all isSymbolChar = true) c ofPrefix
    · exact isSymbolChar_of_mem_symbolName ofPackage
    · rfl
    · exact isSymbolChar_of_mem_symbolName ofName
    · exact List.all_eq_true.mp plain c ofAccess
    · rfl
    · exact isSymbolChar_of_mem_digits ofNumber

theorem toList_wrapperName (package : String) (number : Nat) (base : String) :
    ((WrapperNames.mk package number).name wrapperRole base).toList =
      ("knifunptr_".toList ++ package.toList) ++ (Nat.toDigits 10 number ++
        '_' :: (symbolName base).toList) := by
  simp [WrapperNames.name, wrapperRole]

/-- In one package a wrapper's name holds its number. -/
theorem wrapperName_number {package base base' : String} {number number' : Nat}
    (same : (WrapperNames.mk package number).name wrapperRole base =
      (WrapperNames.mk package number').name wrapperRole base') : number = number' := by
  have lists := congrArg String.toList same
  rw [toList_wrapperName, toList_wrapperName] at lists
  have ends := split_at_first (List.append_cancel_left lists) Nat.underscore_not_in_toDigits
    Nat.underscore_not_in_toDigits
  exact toDigits_inj ends.1

theorem wrapperName_ne_stubSymbol {prefixPackage base package name access : String}
    {number : Nat} {id : StubId} :
    (WrapperNames.mk prefixPackage number).name wrapperRole base ≠
      stubSymbol package name access id := by
  intro same
  have fourth := congrArg (·.toList[3]?) same
  simp only [toList_wrapperName, toList_stubSymbol] at fourth
  have letters : some 'f' = some '_' := fourth
  revert letters
  decide

theorem isIdentifier_wrapperName {package : String} (number : Nat) (base : String)
    (plain : ∀ c ∈ package.toList, isSymbolChar c) :
    IsIdentifier ((WrapperNames.mk package number).name wrapperRole base) where
  start := ⟨'k', by rw [toList_wrapperName]; rfl, rfl⟩
  characters c member := by
    rw [toList_wrapperName] at member
    simp only [List.mem_append, List.mem_cons] at member
    rcases member with (ofPrefix | ofPackage) | ofNumber | rfl | ofBase
    · exact List.all_eq_true.mp (rfl : "knifunptr_".toList.all isSymbolChar = true) c ofPrefix
    · exact plain c ofPackage
    · exact isSymbolChar_of_mem_digits ofNumber
    · rfl
    · exact isSymbolChar_of_mem_symbolName ofBase

end NativeBindings
