import Mathlib.Data.List.Nodup
import NativeBindings.Proofs.Document.Reading

namespace NativeBindings.Json

/-! # Reading records

A record is read member by member.  What it is in the meantime depends only on which of
its fields have been read: each of them changes its own part, so their order does not
matter, and what was left out is what the record began with.
-/

/-- A field of a record, with what is written for it and what reading that changes. -/
structure Part {ρ : Type} (limit : Nat) (initial : ρ) where
  field : Decoder.Field ρ
  member : Member Schema
  encoded : Value
  change : ρ → ρ
  named : field.name = member.name
  conforms : Arranged member.schema encoded encoded
  decodes : ∀ {other}, Arranged member.schema encoded other → ∀ record stage depth,
    other.nesting ≤ depth → other.nesting ≤ limit →
    field.read record stage depth other.source = .ok (change record)
  needed : field.required = true → member.default? = none
  keeps : member.default? = some encoded → change initial = initial

namespace Part

variable {ρ : Type} {limit : Nat} {initial : ρ} {parts : List (Part limit initial)}
  {part other : Part limit initial}

def name (part : Part limit initial) : String := part.member.name

/-- What is written for a part. -/
def entry (part : Part limit initial) : String × Value := (part.name, part.encoded)

/-- Two parts of a record do not get in each other's way. -/
def Apart (part other : Part limit initial) : Prop :=
  part.name ≠ other.name ∧
  ∀ record, part.change (other.change record) = other.change (part.change record)

/-- What a record is once the parts with these names have been read. -/
def given (names : List String) : List (Part limit initial) → ρ
  | [] => initial
  | part :: rest =>
      if part.name ∈ names then part.change (given names rest) else given names rest

/-- What a record is once all parts have been read. -/
def whole (parts : List (Part limit initial)) : ρ :=
  parts.foldr (fun part record => part.change record) initial

theorem given_nil (parts : List (Part limit initial)) : given [] parts = initial := by
  induction parts with
  | nil => rfl
  | cons part rest ih => simp [given, ih]

theorem given_of_foreign {key : String} {names : List String}
    (foreign : ∀ part ∈ parts, part.name ≠ key) :
    given (key :: names) parts = given names parts := by
  induction parts with
  | nil => rfl
  | cons part rest ih =>
      have ⟨head, tail⟩ := List.forall_mem_cons.mp foreign
      simp only [given, List.mem_cons, head, false_or, ih tail]

/-- Reading one more part is its change, whichever were read before. -/
theorem given_change {names : List String} (apart : parts.Pairwise Apart) (known : part ∈ parts)
    (fresh : part.name ∉ names) :
    given (part.name :: names) parts = part.change (given names parts) := by
  induction parts with
  | nil => cases known
  | cons head rest ih =>
      have ⟨first, later⟩ := List.pairwise_cons.mp apart
      rcases List.mem_cons.mp known with rfl | known
      · have foreign : given (part.name :: names) rest = given names rest :=
          given_of_foreign fun other mem => (first other mem).1.symm
        simp only [given, List.mem_cons, true_or, if_true, fresh, if_false, foreign]
      · have ⟨differs, commute⟩ := first part known
        by_cases read : head.name ∈ names <;>
          simp only [given, List.mem_cons, differs, read, or_true, or_self, if_true, if_false,
            ih later known, commute]

theorem whole_of_keeps (apart : ∀ other ∈ parts, Apart part other)
    (keeps : part.change initial = initial) : part.change (whole parts) = whole parts := by
  induction parts with
  | nil => exact keeps
  | cons head rest ih =>
      have ⟨first, later⟩ := List.forall_mem_cons.mp apart
      simp only [whole, List.foldr_cons] at ih ⊢
      rw [first.2, ih later]

/-- A part that was not read does not matter if it is what the record began with. -/
theorem given_eq_whole {names : List String} (apart : parts.Pairwise Apart)
    (read : ∀ part ∈ parts, part.name ∈ names ∨ part.change initial = initial) :
    given names parts = whole parts := by
  induction parts with
  | nil => rfl
  | cons head rest ih =>
      have ⟨first, later⟩ := List.pairwise_cons.mp apart
      have ⟨readHead, readRest⟩ := List.forall_mem_cons.mp read
      have ih := ih later readRest
      by_cases mem : head.name ∈ names
      · simp only [given, mem, if_true, ih, whole, List.foldr_cons]
      · have keeps := readHead.resolve_left mem
        simp only [given, mem, if_false, ih]
        exact (whole_of_keeps first keeps).symm

/-- The members of an object that is a layout of a record. -/
structure Laid (parts : List (Part limit initial)) (others : List (String × Value)) : Prop where
  known : ∀ field ∈ others, ∀ part ∈ parts, field.1 = part.name →
    Arranged part.member.schema part.encoded field.2
  once : others.Pairwise fun first second =>
    (∃ part ∈ parts, first.1 = part.name) → first.1 ≠ second.1
  missing : ∀ part ∈ parts, part.name ∉ others.map Prod.fst →
    part.member.default? = some part.encoded

theorem arrangedFields (parts : List (Part limit initial)) :
    ArrangedFields (parts.map member) (parts.map entry) (parts.map entry) := by
  induction parts with
  | nil => exact .nil
  | cons part rest ih => exact .keep part.conforms ih

theorem names_kept {kept : List (String × Value)}
    (arranged : ArrangedFields (parts.map member) (parts.map entry) kept) :
    (kept.map Prod.fst).Sublist (parts.map name) := by
  induction parts generalizing kept with
  | nil => cases arranged; exact .slnil
  | cons part rest ih =>
      cases arranged with
      | keep _ later => exact (ih later).cons_cons _
      | drop _ later => exact (ih later).cons _

theorem known_of_kept {kept : List (String × Value)}
    (arranged : ArrangedFields (parts.map member) (parts.map entry) kept) :
    ∀ field ∈ kept, ∃ part ∈ parts, field.1 = part.name ∧
      Arranged part.member.schema part.encoded field.2 := by
  induction parts generalizing kept with
  | nil => cases arranged; nofun
  | cons part rest ih =>
      have known {kept} (later : ArrangedFields (rest.map member) (rest.map entry) kept) :
          ∀ field ∈ kept, ∃ other ∈ part :: rest, field.1 = other.name ∧
            Arranged other.member.schema other.encoded field.2 := by
        intro field mem
        obtain ⟨other, mem, holds⟩ := ih later field mem
        exact ⟨other, List.mem_cons_of_mem _ mem, holds⟩
      cases arranged with
      | keep first later =>
          exact List.forall_mem_cons.mpr ⟨⟨part, List.mem_cons_self, rfl, first⟩, known later⟩
      | drop _ later => exact known later

theorem default_of_dropped {kept : List (String × Value)}
    (arranged : ArrangedFields (parts.map member) (parts.map entry) kept) :
    ∀ part ∈ parts, part.name ∉ kept.map Prod.fst →
      part.member.default? = some part.encoded := by
  induction parts generalizing kept with
  | nil => nofun
  | cons part rest ih =>
      intro other mem dropped
      cases arranged with
      | keep _ later =>
          rw [List.map_cons, List.mem_cons, not_or] at dropped
          rcases List.mem_cons.mp mem with rfl | mem
          · exact absurd rfl dropped.1
          · exact ih later other mem dropped.2
      | drop default later =>
          rcases List.mem_cons.mp mem with rfl | mem
          · exact default
          · exact ih later other mem dropped

theorem nodup_names (apart : parts.Pairwise Apart) : (parts.map name).Nodup :=
  List.pairwise_map.mpr (apart.imp And.left)

theorem eq_of_name (apart : parts.Pairwise Apart) (known : part ∈ parts) (mem : other ∈ parts)
    (same : part.name = other.name) : part = other :=
  List.inj_on_of_nodup_map (nodup_names apart) known mem same

theorem laid_of_arranged {kept unknown others : List (String × Value)}
    (apart : parts.Pairwise Apart)
    (arranged : ArrangedFields (parts.map member) (parts.map entry) kept)
    (foreign : ∀ field ∈ unknown, ∀ part ∈ parts, field.1 ≠ part.name)
    (order : others.Perm (kept ++ unknown)) : Laid parts others where
  known := by
    intro field mem part partMem named
    rcases List.mem_append.mp (order.mem_iff.mp mem) with mem | mem
    · obtain ⟨other, otherMem, same, inner⟩ := known_of_kept arranged field mem
      rwa [eq_of_name apart partMem otherMem (named.symm.trans same)]
    · exact absurd named (foreign field mem part partMem)
  once := by
    have ordered : (kept ++ unknown).Pairwise fun first second =>
        (∃ part ∈ parts, first.1 = part.name) → first.1 ≠ second.1 := by
      refine List.pairwise_append.mpr ⟨?_, ?_, ?_⟩
      · have differ := List.pairwise_map.mp ((nodup_names apart).sublist (names_kept arranged))
        refine differ.imp ?_
        intro first second differs _
        exact differs
      · refine List.pairwise_of_forall_mem_list fun field mem _ _ ⟨part, known, named⟩ => ?_
        exact absurd named (foreign field mem part known)
      · rintro first - second mem ⟨part, known, named⟩ same
        exact foreign second mem part known (same.symm.trans named)
    refine (order.pairwise_iff ?_).mpr ordered
    intro first second differ ⟨part, known, named⟩ same
    exact differ ⟨part, known, same.symm.trans named⟩ same.symm
  missing := by
    intro part mem absent
    refine default_of_dropped arranged part mem fun kept => absent ?_
    obtain ⟨field, fieldMem, named⟩ := List.mem_map.mp kept
    exact List.mem_map.mpr ⟨field, order.mem_iff.mpr (List.mem_append_left _ fieldMem), named⟩

theorem find_field (apart : parts.Pairwise Apart) (known : part ∈ parts) :
    (parts.map field).find? (·.name = part.name) = some part.field := by
  induction parts with
  | nil => cases known
  | cons head rest ih =>
      have ⟨first, later⟩ := List.pairwise_cons.mp apart
      rw [List.map_cons, List.find?_cons]
      rcases List.mem_cons.mp known with rfl | known
      · simp [part.named, name]
      · have differs : head.field.name ≠ part.name := head.named ▸ (first part known).1
        simp [differs, ih later known]

theorem find_foreign {key : String} (foreign : ∀ part ∈ parts, key ≠ part.name) :
    (parts.map field).find? (·.name = key) = none := by
  rw [List.find?_eq_none]
  intro found mem
  obtain ⟨part, known, rfl⟩ := List.mem_map.mp mem
  rw [part.named, decide_eq_true_eq]
  exact (foreign part known).symm

/-- A member with the name of a part does to the record what reading the part does. -/
theorem members_part {value : Value} {seen : List String} {stage : Stage} {depth : Nat}
    (apart : parts.Pairwise Apart) (known : part ∈ parts) (unread : part.name ∉ seen)
    (arranged : Arranged part.member.schema part.encoded value) (fits : value.nesting ≤ depth)
    (within : value.nesting ≤ limit) (rest : List (String × Value)) :
    Decoder.members (parts.map field) stage depth (given seen parts) seen
        (fieldSources ((part.name, value) :: rest)) =
      Decoder.members (parts.map field) stage depth (given (part.name :: seen) parts)
        (part.name :: seen) (fieldSources rest) := by
  have decoded := part.decodes arranged (given seen parts) stage depth fits within
  rw [given_change apart known unread]
  simp only [fieldSources, Decoder.members, Source.key_string, lift_ok, ok_bind,
    find_field apart known, unread, if_false, decoded]

/-- A member that nobody asks for changes nothing. -/
theorem members_foreign {key : String} {value : Value} {record : ρ} {seen : List String}
    {stage : Stage} {depth : Nat} (foreign : ∀ part ∈ parts, key ≠ part.name)
    (rest : List (String × Value)) :
    Decoder.members (parts.map field) stage depth record seen
        (fieldSources ((key, value) :: rest)) =
      Decoder.members (parts.map field) stage depth record seen (fieldSources rest) := by
  simp only [fieldSources, Decoder.members, Source.key_string, lift_ok, ok_bind,
    find_foreign foreign, Decoder.skip_source]

/-- At every place among the members, the record is what the parts read so far make of it. -/
theorem members_laid {others : List (String × Value)} (stage : Stage) {depth : Nat}
    (apart : parts.Pairwise Apart)
    (known : ∀ field ∈ others, ∀ part ∈ parts, field.1 = part.name →
      Arranged part.member.schema part.encoded field.2)
    (once : others.Pairwise fun first second =>
      (∃ part ∈ parts, first.1 = part.name) → first.1 ≠ second.1)
    (fits : fieldsNesting others ≤ depth) (within : fieldsNesting others ≤ limit)
    (seen : List String)
    (fresh : ∀ field ∈ others, (∃ part ∈ parts, field.1 = part.name) → field.1 ∉ seen) :
    ∃ read, (∀ part ∈ parts, part.name ∈ seen ∨ part.name ∈ others.map Prod.fst →
        part.name ∈ read) ∧
      Decoder.members (parts.map field) stage depth (given seen parts) seen
        (fieldSources others) = .ok (given read parts, read) := by
  induction others generalizing seen with
  | nil => exact ⟨seen, by simp, rfl⟩
  | cons head rest ih =>
      obtain ⟨key, value⟩ := head
      have ⟨arranged, knownRest⟩ := List.forall_mem_cons.mp known
      have ⟨differs, onceRest⟩ := List.pairwise_cons.mp once
      have ⟨freshHead, freshRest⟩ := List.forall_mem_cons.mp fresh
      simp only [fieldsNesting, Nat.max_le] at fits within
      have ih := ih knownRest onceRest fits.2 within.2
      by_cases mine : ∃ part ∈ parts, key = part.name
      · obtain ⟨part, mem, rfl⟩ := mine
        have unread := freshHead ⟨part, mem, rfl⟩
        rw [members_part apart mem unread (arranged part mem rfl) fits.1 within.1]
        obtain ⟨read, complete, runs⟩ := ih (part.name :: seen) fun field fieldMem mine => by
          rw [List.mem_cons, not_or]
          exact ⟨(differs field fieldMem ⟨part, mem, rfl⟩).symm, freshRest field fieldMem mine⟩
        refine ⟨read, fun other otherMem named => complete other otherMem ?_, runs⟩
        simp only [List.map_cons, List.mem_cons] at named ⊢
        tauto
      · have foreign : ∀ part ∈ parts, key ≠ part.name := fun part mem same =>
          mine ⟨part, mem, same⟩
        rw [members_foreign foreign]
        obtain ⟨read, complete, runs⟩ := ih seen freshRest
        refine ⟨read, fun other otherMem named => complete other otherMem ?_, runs⟩
        rcases named with named | named
        · exact .inl named
        · exact .inr ((List.mem_cons.mp named).resolve_left (foreign other otherMem).symm)

/-- An object that is a layout of a record is read as that record. -/
theorem fromMembers_laid {others : List (String × Value)} (apart : parts.Pairwise Apart)
    (laid : Laid parts others) (stage : Stage) {depth : Nat}
    (fits : fieldsNesting others ≤ depth) (within : fieldsNesting others ≤ limit) :
    Decoder.fromMembers (parts.map field) stage depth initial (fieldSources others) .closed =
      .ok (whole parts) := by
  obtain ⟨read, complete, runs⟩ :=
    members_laid stage apart laid.known laid.once fits within [] fun _ _ _ => List.not_mem_nil
  have enough :
      (parts.map field).find? (fun field => field.required && field.name ∉ read) = none := by
    rw [List.find?_eq_none]
    intro found mem
    obtain ⟨part, partMem, rfl⟩ := List.mem_map.mp mem
    rw [Bool.and_eq_true, decide_eq_true_eq]
    rintro ⟨required, unread⟩
    have absent : part.name ∉ others.map Prod.fst := fun present =>
      unread (part.named ▸ complete part partMem (.inr present))
    have default := laid.missing part partMem absent
    rw [part.needed required] at default
    cases default
  have all : given read parts = whole parts := by
    apply given_eq_whole apart
    intro part mem
    by_cases present : part.name ∈ others.map Prod.fst
    · exact .inl (complete part mem (.inr present))
    · exact .inr (part.keeps (laid.missing part mem present))
  rw [given_nil] at runs
  simp only [Decoder.fromMembers, runs, Decoder.close, ok_bind, enough, all]
  rfl

section Kinds

variable {α : Type} {schema : Schema} {decoder : Decoder α} {encoded : Value} {value : α}
  {set : ρ → α → ρ}

def required (name : String) (reads : Reads limit schema decoder encoded value) :
    Part limit initial where
  field := Decoder.field name decoder set
  member := .required name schema
  encoded
  change := fun record => set record value
  named := rfl
  conforms := reads.conforms
  decodes := fun arranged record stage depth fits within =>
    congrArg (Except.map (set record)) (reads.decodes arranged stage depth fits within)
  needed := fun _ => rfl
  keeps := nofun

def defaulted (name : String) (default : Value)
    (reads : Reads limit schema decoder encoded value)
    (keeps : encoded = default → set initial value = initial) : Part limit initial where
  field := Decoder.defaulted name decoder set
  member := .defaulted name default schema
  encoded
  change := fun record => set record value
  named := rfl
  conforms := reads.conforms
  decodes := fun arranged record stage depth fits within =>
    congrArg (Except.map (set record)) (reads.decodes arranged stage depth fits within)
  needed := nofun
  keeps := fun same => keeps (Option.some.inj same).symm

def flag {set : ρ → Bool → ρ} (name : String) (value : Bool)
    (keeps : set initial false = initial) : Part limit initial :=
  defaulted name (.bool false) (.bool value) fun same => by cases same; exact keeps

def listing {encode : α → Value} {items : List α} {set : ρ → List α → ρ} (name : String)
    (each : ∀ item ∈ items, Reads limit schema decoder (encode item) item)
    (keeps : set initial [] = initial) : Part limit initial :=
  defaulted name (.array []) (.list each) fun same => by
    cases items with
    | nil => exact keeps
    | cons => simp at same

def possible {encode : α → Value} {set : ρ → Option α → ρ} (name : String) (value : Option α)
    (reads : ∀ value, Reads limit schema decoder (encode value) value)
    (filled : ∀ value, encode value ≠ .null) (keeps : set initial none = initial) :
    Part limit initial :=
  defaulted name .null (.optional filled reads value) fun same => by
    cases value with
    | none => exact keeps
    | some value => exact absurd same (filled value)

end Kinds

attribute [simp] Apart name required defaulted flag listing possible

end Part

namespace Reads

variable {ρ : Type} {limit : Nat} {initial value : ρ} {parts : List (Part limit initial)}

theorem record_succ (parts : List (Part limit initial)) (apart : parts.Pairwise Part.Apart)
    (all : Part.whole parts = value) :
    Reads (limit + 1) (.record (parts.map Part.member))
      (Decoder.record initial (parts.map Part.field)) (.object (parts.map Part.entry)) value where
  conforms := .record (Part.arrangedFields parts) (by simp) (.of_eq (List.append_nil _).symm)
  decodes := fun {other} arranged stage depth fits within => by
    cases arranged with
    | @record _ _ kept unknown others arranged foreign order =>
    simp only [Value.nesting] at fits within
    obtain ⟨depth, rfl⟩ : ∃ inner, depth = inner + 1 := ⟨depth - 1, by omega⟩
    have laid := Part.laid_of_arranged apart arranged (fun field mem part known same =>
      foreign field mem (by simpa using ⟨part, known, same.symm⟩)) order
    rw [← all]
    exact Part.fromMembers_laid apart laid stage (by omega) (by omega)

/-- A record of parts that are read one by one. -/
theorem record (parts : List (Part limit initial)) (apart : parts.Pairwise Part.Apart)
    (all : Part.whole parts = value) :
    Reads limit (.record (parts.map Part.member))
      (Decoder.record initial (parts.map Part.field)) (.object (parts.map Part.entry)) value :=
  (record_succ parts apart all).mono (Nat.le_succ limit)

end Reads

end NativeBindings.Json
