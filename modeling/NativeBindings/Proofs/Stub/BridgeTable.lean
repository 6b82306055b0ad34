import NativeBindings.Proofs.Data.SortedMap
import NativeBindings.Stub.BridgeTable

namespace NativeBindings

/-! # Merging is replaying

A table is filled entry by entry, and tables that were filled elsewhere are merged into
it.  Merging is the same as entering once more what the other table was filled with, so
only the order of the entries counts: the last one under a key is found.
-/

/-- One entry of a bridge table. -/
inductive TableEntry where
  | getter (property : StubId) (getter : Getter)
  | setter (property : StubId) (setter : Setter)
  | enumeration (stub : StubId) (representation : Representation)
  | mark (key : ParameterKey) (kind : StringKind)

/-- What is done to a table: an entry, or a merge with a table that was made by steps of
its own. -/
inductive TableStep where
  | enter (entry : TableEntry)
  | merge (steps : List TableStep)

namespace TableEntry

def getter? : TableEntry → Option (StubId × Getter)
  | .getter property content => some (property, content)
  | .setter .. | .enumeration .. | .mark .. => none

def setter? : TableEntry → Option (StubId × Setter)
  | .setter property content => some (property, content)
  | .getter .. | .enumeration .. | .mark .. => none

def enumeration? : TableEntry → Option (StubId × Representation)
  | .enumeration stub representation => some (stub, representation)
  | .getter .. | .setter .. | .mark .. => none

def mark? : TableEntry → Option (ParameterKey × StringKind)
  | .mark key kind => some (key, kind)
  | .getter .. | .setter .. | .enumeration .. => none

end TableEntry

namespace TableStep

mutual

/-- The entries of a step, those of merged tables in the place of the merge. -/
def entries : TableStep → List TableEntry
  | .enter entry => [entry]
  | .merge steps => entriesOf steps

def entriesOf : List TableStep → List TableEntry
  | [] => []
  | step :: rest => step.entries ++ entriesOf rest

end

end TableStep

namespace BridgeTable

def enter (table : BridgeTable) : TableEntry → BridgeTable
  | .getter property getter => table.addGetter property getter
  | .setter property setter => table.addSetter property setter
  | .enumeration stub representation => table.addEnumeration stub representation
  | .mark key kind => table.markString key kind

def enterAll (table : BridgeTable) (entries : List TableEntry) : BridgeTable :=
  entries.foldl enter table

mutual

def step (table : BridgeTable) : TableStep → BridgeTable
  | .enter entry => table.enter entry
  | .merge steps => table.merge (replay ∅ steps)

def replay (table : BridgeTable) : List TableStep → BridgeTable
  | [] => table
  | step :: rest => (table.step step).replay rest

end

theorem enterAll_eq (table : BridgeTable) (entries : List TableEntry) :
    table.enterAll entries = {
      getters := table.getters.insertAll (entries.filterMap (·.getter?))
      setters := table.setters.insertAll (entries.filterMap (·.setter?))
      enumerations := table.enumerations.insertAll (entries.filterMap (·.enumeration?))
      strings := table.strings.insertAll (entries.filterMap (·.mark?)) } := by
  induction entries generalizing table with
  | nil => rfl
  | cons entry rest ih =>
      have entered : table.enterAll (entry :: rest) = (table.enter entry).enterAll rest := rfl
      rw [entered, ih]
      cases entry <;> rfl

theorem enterAll_append (table : BridgeTable) (entries more : List TableEntry) :
    table.enterAll (entries ++ more) = (table.enterAll entries).enterAll more :=
  List.foldl_append

/-- Entries can be collected in a table of their own before they are entered. -/
theorem merge_enterAll (table : BridgeTable) (entries : List TableEntry) :
    table.merge ((∅ : BridgeTable).enterAll entries) = table.enterAll entries := by
  rw [enterAll_eq, enterAll_eq, merge]
  simp only [show (∅ : BridgeTable) = ⟨∅, ∅, ∅, ∅⟩ from rfl, SortedMap.union_insertAll]

mutual

theorem step_eq (table : BridgeTable) : (step : TableStep) →
    table.step step = table.enterAll step.entries
  | .enter _ => by rw [BridgeTable.step, TableStep.entries]; rfl
  | .merge steps => by
      rw [BridgeTable.step, TableStep.entries, replay_eq, merge_enterAll]

theorem replay_eq (table : BridgeTable) : (steps : List TableStep) →
    table.replay steps = table.enterAll (TableStep.entriesOf steps)
  | [] => by rw [replay, TableStep.entriesOf]; rfl
  | step :: rest => by
      rw [replay, TableStep.entriesOf, enterAll_append, step_eq, replay_eq]

end

theorem merge_assoc (first second third : BridgeTable) :
    (first.merge second).merge third = first.merge (second.merge third) := by
  simp only [merge, SortedMap.union_assoc]

theorem merge_empty (table : BridgeTable) : table.merge ∅ = table := rfl

theorem empty_merge (table : BridgeTable) : (∅ : BridgeTable).merge table = table := by
  simp only [merge, show (∅ : BridgeTable) = ⟨∅, ∅, ∅, ∅⟩ from rfl, SortedMap.empty_union]

theorem mem_stringsOf {table : BridgeTable} {kind : StringKind} {key : ParameterKey} :
    key ∈ table.stringsOf kind ↔ table.strings.get? key = some kind := by
  rw [stringsOf, List.mem_map]
  constructor
  · rintro ⟨entry, listed, rfl⟩
    obtain ⟨member, same⟩ := List.mem_filter.mp listed
    rw [← of_decide_eq_true same]
    exact valueOf?_of_mem table.strings.nodup_keys member
  · intro found
    exact ⟨(key, kind), List.mem_filter.mpr ⟨mem_of_valueOf? found, by simp⟩, rfl⟩

end BridgeTable

/-- The marks of a table, kept in two sets, one for each kind.  A mark takes its parameter out
of the other set.  Merging marks the narrow parameters of the other sets first and then the
wide ones, in whatever order they had been marked there; as no parameter is in both sets, that
makes no difference. -/
structure StringSets where
  narrow : SortedSet ParameterKey
  wide : SortedSet ParameterKey

namespace StringSets

instance : EmptyCollection StringSets := ⟨⟨∅, ∅⟩⟩

def of (sets : StringSets) : StringKind → SortedSet ParameterKey
  | .narrow => sets.narrow
  | .wide => sets.wide

def mark (sets : StringSets) (key : ParameterKey) : StringKind → StringSets
  | .narrow => ⟨SortedSet.add sets.narrow key, sets.wide.erase key⟩
  | .wide => ⟨sets.narrow.erase key, SortedSet.add sets.wide key⟩

def markAll (sets : StringSets) (keys : List ParameterKey) (kind : StringKind) : StringSets :=
  keys.foldl (·.mark · kind) sets

def merge (sets other : StringSets) : StringSets :=
  (sets.markAll other.narrow.keys .narrow).markAll other.wide.keys .wide

def enter (sets : StringSets) : TableEntry → StringSets
  | .mark key kind => sets.mark key kind
  | .getter .. | .setter .. | .enumeration .. => sets

def enterAll (sets : StringSets) (entries : List TableEntry) : StringSets :=
  entries.foldl enter sets

mutual

def step (sets : StringSets) : TableStep → StringSets
  | .enter entry => sets.enter entry
  | .merge steps => sets.merge (replay ∅ steps)

def replay (sets : StringSets) : List TableStep → StringSets
  | [] => sets
  | step :: rest => (sets.step step).replay rest

end

theorem ext_of {sets other : StringSets}
    (same : ∀ kind key, key ∈ (sets.of kind).keys ↔ key ∈ (other.of kind).keys) :
    sets = other := by
  have narrow : sets.narrow = other.narrow := SortedMap.ext_keys (same .narrow)
  have wide : sets.wide = other.wide := SortedMap.ext_keys (same .wide)
  cases sets
  cases other
  simp_all

theorem mem_mark {sets : StringSets} {key wanted : ParameterKey} {kind other : StringKind} :
    wanted ∈ ((sets.mark key kind).of other).keys ↔
      if wanted = key then other = kind else wanted ∈ (sets.of other).keys := by
  cases kind <;> cases other <;> by_cases same : wanted = key <;>
    simp [mark, of, SortedSet.add, SortedMap.mem_keys_insert, SortedMap.mem_keys_erase, same]

theorem mem_markAll {sets : StringSets} {keys : List ParameterKey} {wanted : ParameterKey}
    {kind other : StringKind} :
    wanted ∈ ((sets.markAll keys kind).of other).keys ↔
      if wanted ∈ keys then other = kind else wanted ∈ (sets.of other).keys := by
  induction keys generalizing sets with
  | nil => simp [markAll]
  | cons key rest ih =>
      have marked : sets.markAll (key :: rest) kind = (sets.mark key kind).markAll rest kind := rfl
      rw [marked, ih, mem_mark]
      by_cases later : wanted ∈ rest <;> by_cases same : wanted = key <;> simp [later, same]

end StringSets

namespace BridgeTable

/-- The marks of a table, kept in two sets. -/
def stringSets (table : BridgeTable) : StringSets where
  narrow := SortedSet.ofMembers (table.stringsOf .narrow)
  wide := SortedSet.ofMembers (table.stringsOf .wide)

theorem mem_stringSets {table : BridgeTable} (kind : StringKind) {key : ParameterKey} :
    key ∈ (table.stringSets.of kind).keys ↔ table.strings.get? key = some kind := by
  rw [← mem_stringsOf]
  cases kind <;> exact SortedSet.mem_ofMembers

theorem stringSets_enter (table : BridgeTable) (entry : TableEntry) :
    (table.enter entry).stringSets = table.stringSets.enter entry := by
  cases entry with
  | mark key kind =>
      refine StringSets.ext_of fun other wanted => ?_
      rw [mem_stringSets, StringSets.enter, StringSets.mem_mark, mem_stringSets]
      have marked : (table.enter (.mark key kind)).strings = table.strings.insert key kind := rfl
      rw [marked, SortedMap.get?_insert]
      by_cases same : key = wanted
      · simp [same, eq_comm]
      · simp [same, Ne.symm same]
  | getter | setter | enumeration => rfl

theorem stringSets_enterAll (table : BridgeTable) (entries : List TableEntry) :
    (table.enterAll entries).stringSets = table.stringSets.enterAll entries := by
  induction entries generalizing table with
  | nil => rfl
  | cons entry rest ih =>
      have entered := ih (table.enter entry)
      rw [stringSets_enter] at entered
      exact entered

theorem stringSets_merge (table other : BridgeTable) :
    (table.merge other).stringSets = table.stringSets.merge other.stringSets := by
  refine StringSets.ext_of fun kind key => ?_
  have narrow : key ∈ other.stringSets.narrow.keys ↔ other.strings.get? key = some .narrow :=
    mem_stringSets .narrow
  have wide : key ∈ other.stringSets.wide.keys ↔ other.strings.get? key = some .wide :=
    mem_stringSets .wide
  have merged : (table.merge other).strings = table.strings.union other.strings := rfl
  rw [mem_stringSets, merged, SortedMap.get?_union_eq, StringSets.merge, StringSets.mem_markAll,
    StringSets.mem_markAll, mem_stringSets]
  simp only [narrow, wide]
  -- A parameter of the other table has one kind there, so one of its two sets decides.
  cases found : other.strings.get? key with
  | none => simp
  | some last => cases last <;> simp [eq_comm]

mutual

theorem stringSets_step (table : BridgeTable) : (step : TableStep) →
    (table.step step).stringSets = table.stringSets.step step
  | .enter entry => by
      rw [BridgeTable.step, StringSets.step, stringSets_enter]
  | .merge steps => by
      have made : (replay ∅ steps).stringSets = StringSets.replay ∅ steps :=
        stringSets_replay ∅ steps
      rw [BridgeTable.step, StringSets.step, stringSets_merge, made]

/-- Two sets that are filled by the same steps stay those of the table. -/
theorem stringSets_replay (table : BridgeTable) : (steps : List TableStep) →
    (table.replay steps).stringSets = table.stringSets.replay steps
  | [] => by rw [replay, StringSets.replay]
  | step :: rest => by
      rw [replay, StringSets.replay, stringSets_replay, stringSets_step]

end

/-- The table that is made by some steps from nothing. -/
def made (steps : List TableStep) : BridgeTable := (∅ : BridgeTable).replay steps

/-- Merging tables that were made by steps is replaying the steps: no parameter is of two
kinds, merges may be grouped in any way, and what is found is what was entered last. -/
structure Replays (first second third : List TableStep) : Prop where
  oneKind : ∀ key, ¬(key ∈ (made first).stringsOf .narrow ∧ key ∈ (made first).stringsOf .wide)
  assoc : ((made first).merge (made second)).merge (made third) =
    (made first).merge ((made second).merge (made third))
  ofEmpty : (∅ : BridgeTable).merge (made first) = made first
  toEmpty : (made first).merge ∅ = made first
  replayed : (made first).merge (made second) =
    (made first).enterAll (TableStep.entriesOf second)
  flattened : made first = (∅ : BridgeTable).enterAll (TableStep.entriesOf first)
  getters : ∀ id, (made first).getters.get? id =
    valueOf? id ((TableStep.entriesOf first).filterMap (·.getter?)).reverse
  setters : ∀ id, (made first).setters.get? id =
    valueOf? id ((TableStep.entriesOf first).filterMap (·.setter?)).reverse
  enumerations : ∀ id, (made first).enumerations.get? id =
    valueOf? id ((TableStep.entriesOf first).filterMap (·.enumeration?)).reverse
  strings : ∀ key kind, key ∈ (made first).stringsOf kind ↔
    valueOf? key ((TableStep.entriesOf first).filterMap (·.mark?)).reverse = some kind
  /-- Two sets that exclude one another hold the marks of the table. -/
  sets : StringSets.replay ∅ first = (made first).stringSets
  setsApart : ∀ key, ¬(key ∈ (StringSets.replay ∅ first).narrow.keys ∧
    key ∈ (StringSets.replay ∅ first).wide.keys)
  setsReplayed : (StringSets.replay ∅ first).merge (StringSets.replay ∅ second) =
    (StringSets.replay ∅ first).enterAll (TableStep.entriesOf second)

theorem replays (first second third : List TableStep) : Replays first second third := by
  have flattened (steps : List TableStep) :
      made steps = (∅ : BridgeTable).enterAll (TableStep.entriesOf steps) := replay_eq ∅ steps
  have replayed : (made first).merge (made second) =
      (made first).enterAll (TableStep.entriesOf second) := by
    rw [flattened second, merge_enterAll]
  have sets (steps : List TableStep) : StringSets.replay ∅ steps = (made steps).stringSets :=
    (stringSets_replay ∅ steps).symm
  constructor
  case oneKind =>
    rintro key ⟨narrow, wide⟩
    cases (mem_stringsOf.mp narrow).symm.trans (mem_stringsOf.mp wide)
  case assoc => exact merge_assoc _ _ _
  case ofEmpty => exact empty_merge _
  case toEmpty => exact merge_empty _
  case replayed => exact replayed
  case flattened => exact flattened first
  case getters =>
    intro id
    rw [flattened, enterAll_eq]
    exact SortedMap.get?_empty_insertAll _ id
  case setters =>
    intro id
    rw [flattened, enterAll_eq]
    exact SortedMap.get?_empty_insertAll _ id
  case enumerations =>
    intro id
    rw [flattened, enterAll_eq]
    exact SortedMap.get?_empty_insertAll _ id
  case strings =>
    intro key kind
    rw [mem_stringsOf, flattened, enterAll_eq]
    exact Eq.congr_left (SortedMap.get?_empty_insertAll _ key)
  case sets => exact sets first
  case setsApart =>
    rintro key ⟨narrow, wide⟩
    rw [sets] at narrow wide
    have asNarrow := (mem_stringSets .narrow).mp narrow
    have asWide := (mem_stringSets .wide).mp wide
    cases asNarrow.symm.trans asWide
  case setsReplayed =>
    rw [sets, sets, ← stringSets_merge, replayed, stringSets_enterAll]

end BridgeTable

end NativeBindings
