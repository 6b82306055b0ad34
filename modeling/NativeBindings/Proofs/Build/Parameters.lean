import NativeBindings.Proofs.Build.Builders

namespace NativeBindings

/-! # The parameters of one function

A parameter asks for its own name, or for one made from its place.  Either may be taken
by a parameter in front of it, since made-up names look like any others; so every name is
the first form of what is asked for that no parameter in front of it bears.
-/

/-- The name that a parameter asks for. -/
def Parameter.wantedName (place : Nat) (parameter : Parameter) : String :=
  if parameter.name = "" then "arg" ++ toString place else parameter.name

/-- The names asked for by a function's parameters, in their order. -/
def wantedNames (parameters : List Parameter) (isVariadic : Bool) : List String :=
  parameters.mapIdx Parameter.wantedName ++ if isVariadic then [variadicParameter] else []

theorem parameterNames_eq (parameters : List Parameter) (isVariadic : Bool) :
    parameterNames parameters isVariadic = freshNames [] (wantedNames parameters isVariadic) := by
  cases isVariadic with
  | false => rw [wantedNames, if_neg Bool.false_ne_true, List.append_nil]; rfl
  | true => rfl

section Wanted

variable {parameters : List Parameter} {isVariadic : Bool}

theorem getElem?_wantedNames {place : Nat} {parameter : Parameter}
    (listed : parameters[place]? = some parameter) :
    (wantedNames parameters isVariadic)[place]? = some (parameter.wantedName place) := by
  have inside : place < (parameters.mapIdx Parameter.wantedName).length := by
    rw [List.length_mapIdx]
    exact (List.getElem?_eq_some_iff.mp listed).1
  rw [wantedNames, List.getElem?_append_left inside, List.getElem?_mapIdx, listed]
  rfl

theorem getElem?_wantedNames_last (parameters : List Parameter) :
    (wantedNames parameters true)[parameters.length]? = some variadicParameter := by
  have last : (parameters.mapIdx Parameter.wantedName).length = parameters.length :=
    List.length_mapIdx
  rw [wantedNames, List.getElem?_append_right (Nat.le_of_eq last), last, Nat.sub_self]
  rfl

end Wanted

/-- The parameters of a stub stand for native ones and bear names that keep them apart. -/
structure NamedApart (parameters : List Parameter) (isVariadic : Bool)
    (stubs : List ParameterStub) : Prop where
  length : stubs.length = parameters.length + if isVariadic then 1 else 0
  distinct : (stubs.map (·.name)).Nodup
  isVararg : ∀ (place : Nat) (stub : ParameterStub), stubs[place]? = some stub →
    (stub.isVararg ↔ place = parameters.length)
  /-- A name is numbered only if a parameter in front bears it. -/
  named : ∀ (place : Nat) (parameter : Parameter) (stub : ParameterStub),
    parameters[place]? = some parameter → stubs[place]? = some stub →
      FirstUnused ((stubs.take place).map (·.name)) (parameter.wantedName place) stub.name
  kept : ∀ (place : Nat) (parameter : Parameter) (stub : ParameterStub),
    parameters[place]? = some parameter → stubs[place]? = some stub → parameter.name ≠ "" →
      parameter.name ∉ (stubs.take place).map (·.name) → stub.name = parameter.name
  further : isVariadic → ∃ stub, stubs[parameters.length]? = some stub ∧
    FirstUnused ((stubs.take parameters.length).map (·.name)) variadicParameter stub.name

namespace Index

variable {index : Index} {run : Run}

/-- Each stub is given the name that was meant for it. -/
theorem leaves_parameterStubs_names {takesStrings isVariadic : Bool} {place : Nat}
    {names : List String} {parameters : List Parameter}
    (fit : names.length = parameters.length + if isVariadic then 1 else 0) :
    (index.parameterStubs (unmarked takesStrings) place names parameters).Leaves run
      fun _ stubs => stubs.map (·.name) = names := by
  induction parameters generalizing place names run with
  | nil =>
      cases isVariadic with
      | false =>
          cases List.eq_nil_of_length_eq_zero fit
          exact .pure rfl
      | true =>
          obtain ⟨name, rfl⟩ := List.length_eq_one_iff.mp fit
          exact .pure rfl
  | cons parameter parameters ih =>
      cases names with
      | nil =>
          simp only [List.length_nil, List.length_cons] at fit
          omega
      | cons name names =>
          have rest : names.length = parameters.length + if isVariadic then 1 else 0 := by
            simp only [List.length_cons] at fit
            omega
          unfold parameterStubs
          refine .bind (leaves_parameterType _ _ _ _) fun type mid _ _ => ?_
          exact .bind (ih rest) fun stubs after _ others => .pure (congrArg (name :: ·) others)

theorem ParametersGiven.isVararg_iff {takesStrings isVariadic : Bool} {parameters : List Parameter}
    {stubs : List ParameterStub}
    (given : index.ParametersGiven run takesStrings isVariadic parameters stubs) {place : Nat}
    {stub : ParameterStub} (listed : stubs[place]? = some stub) :
    stub.isVararg ↔ place = parameters.length := by
  induction given generalizing place with
  | nil => cases listed
  | further =>
      cases place with
      | zero => cases listed; exact iff_of_true rfl rfl
      | succ place => cases listed
  | cons _ _ ih =>
      cases place with
      | zero => cases listed; exact iff_of_false nofun nofun
      | succ place => simpa using ih listed

/-- Parameters built under the names meant for them are kept apart by these. -/
theorem ParametersGiven.namedApart {takesStrings isVariadic : Bool} {parameters : List Parameter}
    {stubs : List ParameterStub}
    (given : index.ParametersGiven run takesStrings isVariadic parameters stubs)
    (named : stubs.map (·.name) = parameterNames parameters isVariadic) :
    NamedApart parameters isVariadic stubs := by
  have length : stubs.length = parameters.length + if isVariadic then 1 else 0 := by
    rw [← length_parameterNames, ← named, List.length_map]
  rw [parameterNames_eq] at named
  have first {place : Nat} {name : String} {stub : ParameterStub}
      (wanted : (wantedNames parameters isVariadic)[place]? = some name)
      (listed : stubs[place]? = some stub) :
      FirstUnused ((stubs.take place).map (·.name)) name stub.name := by
    have handed : (freshNames [] (wantedNames parameters isVariadic))[place]? = some stub.name := by
      rw [← named, List.getElem?_map, listed]
      rfl
    rw [List.map_take, named]
    exact firstUnused_getElem_freshNames wanted handed
  refine {
    length
    distinct := named ▸ nodup_freshNames [] _
    isVararg := fun place stub listed => given.isVararg_iff listed
    named := fun place parameter stub atParameter listed =>
      first (getElem?_wantedNames atParameter) listed
    kept := ?_
    further := ?_ }
  · intro place parameter stub atParameter listed notEmpty free
    have handed := first (getElem?_wantedNames atParameter) listed
    rw [Parameter.wantedName, if_neg notEmpty, firstUnused_iff] at handed
    exact handed.trans (freshName_of_not_mem free)
  · rintro rfl
    have inside : parameters.length < stubs.length := by simp [length]
    have listed := List.getElem?_eq_getElem inside
    exact ⟨_, listed, first (getElem?_wantedNames_last parameters) listed⟩

/-- Whatever its parameters are called, those of a stub are kept apart: one stands for
each native parameter, and one more for any further arguments.  The search that keeps them
apart ends for any names used before, with the first form that is not among them, and adds
this form to them and no other. -/
theorem parameters_named_apart (index : Index) (isVariadic : Bool)
    (parameters : List Parameter) (run : Run) :
    (∀ stubs after, (index.parameterStubs none 0 (parameterNames parameters isVariadic)
        parameters : Attempt (List ParameterStub)).run.run run = (.ok stubs, after) →
      index.ParametersGiven after false isVariadic parameters stubs ∧
        NamedApart parameters isVariadic stubs) ∧
    (∀ function table stubs marked after,
      ((index.parameterStubs (some (Draft.markString function)) 0
        (parameterNames parameters isVariadic) parameters).run.run table).run run =
          ((.ok stubs, marked), after) →
      index.ParametersGiven after true isVariadic parameters stubs ∧
        NamedApart parameters isVariadic stubs) ∧
    (∀ used name found, Searches used name 0 found ↔ found = freshName used name) ∧
    (∀ used name, FirstUnused used name (freshName used name)) ∧
    ∀ used names, (freshNames used names).length = names.length ∧
      ∀ place name found, names[place]? = some name → (freshNames used names)[place]? = some found →
        FirstUnused (used ++ (freshNames used names).take place) name found := by
  have fit := length_parameterNames parameters isVariadic
  have given {takesStrings : Bool} {stubs : List ParameterStub} {after : Run}
      (built : (index.parameterStubs (unmarked takesStrings) 0
        (parameterNames parameters isVariadic) parameters).run run = (.ok stubs, after)) :
      index.ParametersGiven after takesStrings isVariadic parameters stubs ∧
        NamedApart parameters isVariadic stubs :=
    have given := (leaves_parameterStubs fit).of_ok built
    ⟨given, given.namedApart ((leaves_parameterStubs_names fit).of_ok built)⟩
  refine ⟨fun stubs after built => @given false stubs after built,
    fun function table stubs marked after built => given (parameterStubs_run index ?_ built),
    fun _ _ _ => searches_iff, firstUnused_freshName,
    fun used names => ⟨length_freshNames used names, fun _ _ _ => firstUnused_getElem_freshNames⟩⟩
  exact fit ▸ Nat.le_add_right _ _

/-- Parameters whose names look like made-up ones. -/
def crowded : List Parameter := [
  { name := "arg1", type := .int },
  { type := .pointerTo QualType.char.constant },
  { name := "arg1", type := .int },
  { name := "variadicArguments", type := .int }]

theorem parameters_named_apart_crowded :
    (∃ stubs after, (({} : Index).parameterStubs none 0 (parameterNames crowded true)
        crowded : Attempt (List ParameterStub)).run.run (.start {}) = (.ok stubs, after) ∧
      NamedApart crowded true stubs) ∧
    ∃ stubs marked after, ((({} : Index).parameterStubs (some (Draft.markString ⟨1⟩)) 0
        (parameterNames crowded true) crowded).run.run ∅).run (.start {}) =
          ((.ok stubs, marked), after) ∧
      NamedApart crowded true stubs ∧ marked.stringsOf .narrow = [(⟨1⟩, 1)] ∧
        stubs.map (·.name) =
          ["arg1", "arg10", "arg11", "variadicArguments", "variadicArguments0"] := by
  have apart := parameters_named_apart {} true crowded (.start {})
  exact ⟨⟨_, _, rfl, (apart.1 _ _ rfl).2⟩,
    ⟨_, _, _, rfl, (apart.2.1 ⟨1⟩ ∅ _ _ _ rfl).2, by decide, rfl⟩⟩

end Index

end NativeBindings
