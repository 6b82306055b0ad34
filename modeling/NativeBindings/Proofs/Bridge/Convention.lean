import NativeBindings.Proofs.Bridge.Lines
import NativeBindings.Proofs.Mapping.Canonical

namespace NativeBindings

/-! # Calling conventions

A stub passes its arguments by what the mapper says of their types, and a wrapper
takes them by what it finds when it looks through typedefs.  The two are the same:
what is marshalled by reference comes as an address and is handed on from behind it,
and all else is handed on as it comes.
-/

namespace Index

/-- How a type has to be passed by what represents it.  The address is that of the
memory behind a reference, and else that of the value. -/
inductive PassedAs (index : Index) (run : Run) (type : QualType) : Passing → Prop
  | value {representation} : index.Answers run type representation →
      representation.marshalling ≠ .byReference → PassedAs index run type (.value type.spelling)
  | address {representation} : index.Answers run type representation →
      representation.marshalling = .byReference →
      PassedAs index run type
        (.address ((index.canonicalType type).pointee?.getD type).spelling)

/-- How the result of a call is given back: its type, and the statement around the call. -/
inductive GivenBack (index : Index) (run : Run) (type : QualType) (call : String) :
    String → String → Prop
  | nothing : type.shape.isVoid → GivenBack index run type call "void" (call ++ ";")
  | value {spelling} : type.shape.isVoid = false → index.PassedAs run type (.value spelling) →
      GivenBack index run type call spelling ("return " ++ call ++ ";")
  | address {spelling} : type.shape.isVoid = false → index.PassedAs run type (.address spelling) →
      GivenBack index run type call (spelling ++ "*") ("return &(" ++ call ++ ");")

/-- How one argument is handed on: the declaration of the wrapper's parameter, and what
stands for it in the call.  An address is handed on from behind it. -/
inductive HandedOn (index : Index) (run : Run) (type : QualType) (name : String) :
    String → String → Prop
  | value {spelling declaration} : index.PassedAs run type (.value spelling) →
      Declares spelling name declaration → HandedOn index run type name declaration name
  | address {spelling} : index.PassedAs run type (.address spelling) →
      HandedOn index run type name (spelling ++ "* " ++ name) ("*" ++ name)

/-- All arguments from a place on are handed on in order, and their names are numbered
without gaps. -/
inductive HandsOn (index : Index) (run : Run) :
    Nat → List Parameter → List String → List String → Prop
  | nil {place} : HandsOn index run place [] [] []
  | cons {place parameter rest declaration argument declarations arguments} :
      index.HandedOn run parameter.type ("p" ++ toString place) declaration argument →
      HandsOn index run (place + 1) rest declarations arguments →
      HandsOn index run place (parameter :: rest) (declaration :: declarations)
        (argument :: arguments)

/-- A wrapper takes the arguments of a stub, hands each on in its place, and gives back
the result.  The object on which a method is called comes before the arguments. -/
def Agrees (index : Index) (run : Run) (callable : Callable) (stub : FunctionStub)
    (wrapper : Wrapper) : Prop :=
  ∃ receiver callee declarations arguments,
    callable.CalledAs receiver callee ∧
    callable.parameters.length = stub.parameters.length ∧
    index.HandsOn run receiver.length callable.parameters declarations arguments ∧
    wrapper.parameters = receiver ++ declarations ∧
    index.GivenBack run callable.result
      (callee ++ "(" ++ String.intercalate ", " arguments ++ ")") wrapper.result wrapper.statement

section Types

variable {index : Index} {run : Run} {type : QualType}

theorem passing_eq (index : Index) (type : QualType) : index.passing type =
    if (index.canonicalType type).shape.isRemote then
      .address ((index.canonicalType type).pointee?.getD type).spelling
    else .value type.spelling := by
  unfold passing QualType.pointee?
  cases (index.canonicalType type).shape <;> rfl

theorem Answers.passedAs (integral : index.hasIntegralEnums) {representation : Representation}
    (answers : index.Answers run type representation) :
    index.PassedAs run type (index.passing type) := by
  have agrees := (answers.represented.marshalledAs integral type rfl).isRemote_canonicalType
  rw [passing_eq]
  split
  · rename_i remote
    exact .address answers (agrees.mpr remote)
  · rename_i here
    exact .value answers (mt agrees.mp here)

theorem answers_pointerToChar {spelling : String} {isConst signed : Bool} {size : UInt32}
    (isPointer : type.shape = .pointer ⟨spelling, isConst, .char size signed⟩)
    {memory : Representation}
    (known : integerRepresentation? run.config.platform size signed = some memory) :
    index.Answers run type (.pointer (some memory.pointed)) := by
  have plain : index.forwardStruct? ⟨spelling, isConst, .char size signed⟩ = none := rfl
  have notVoid : TypeShape.char size signed ≠ .void := nofun
  have notFunction (spelling isConst result arguments variadic) :
      TypeShape.char size signed ≠ .function ⟨spelling, isConst, result⟩ arguments variadic := nofun
  have answers (follow : QualType → Represents Representation) :
      (index.representShape follow type.shape).run run =
        (some (.pointer (some memory.pointed)), run) := by
    have character : (index.representShape follow (.char size signed)).run run =
        (some memory, run) := by
      rw [representShape]
      change (integerRepresentation? run.config.platform size signed, run) = _
      rw [known]
    rw [isPointer, representShape_pointer index follow notVoid notFunction, plain]
    dsimp only
    rw [Represents.run_bind, character]
    rfl
  unfold Answers represent
  cases index.typedefs.size + index.enums.size with
  | zero => exact answers _
  | succ rounds => exact answers _

/-- A pointer to characters is represented, also where it is taken for a string. -/
theorem exists_answers_of_stringKind? (isString : type.stringKind?.isSome) :
    ∃ representation, index.Answers run type representation := by
  unfold QualType.stringKind? at isString
  split at isString
  · rename_i isPointer
    exact ⟨_, answers_pointerToChar isPointer rfl⟩
  · rename_i isPointer
    exact ⟨_, answers_pointerToChar isPointer rfl⟩
  · cases isString

theorem ParameterGiven.passedAs (integral : index.hasIntegralEnums) {takesStrings : Bool}
    {target : TargetType} (given : index.ParameterGiven run takesStrings type target) :
    index.PassedAs run type (index.passing type) := by
  cases given with
  | string _ isString =>
      obtain ⟨representation, answers⟩ := exists_answers_of_stringKind? isString
      exact answers.passedAs integral
  | value _ answers => exact answers.passedAs integral

theorem ParametersGiven.passedAs (integral : index.hasIntegralEnums) {takesStrings : Bool}
    {parameters : List Parameter} {stubs : List ParameterStub}
    (given : index.ParametersGiven run takesStrings false parameters stubs) :
    stubs.length = parameters.length ∧
      ∀ parameter ∈ parameters,
        index.PassedAs run parameter.type (index.passing parameter.type) := by
  induction given with
  | nil => exact ⟨rfl, nofun⟩
  | further variadic => cases variadic
  | cons first _ ih =>
      refine ⟨congrArg (· + 1) ih.1, fun parameter member => ?_⟩
      rcases List.mem_cons.mp member with rfl | later
      · exact first.passedAs integral
      · exact ih.2 parameter later

theorem ResultGiven.givenBack (integral : index.hasIntegralEnums) {target : TargetType}
    (given : index.ResultGiven run type target) (call : String) :
    index.GivenBack run type call (resultSpelling (index.resultPassing type))
      (callStatement call (index.resultPassing type)) := by
  unfold resultPassing
  cases given with
  | void isVoid =>
      have notTypedef (id : DeclId) (isNamed : type.shape = .named id) :
          index.typedefs.get? id = none := by
        rw [isNamed] at isVoid
        cases isVoid
      rw [(Unfolds.done notTypedef).canonicalType, if_pos isVoid]
      exact .nothing isVoid
  | value notVoid answers =>
      have marshalled := answers.represented.marshalledAs integral type rfl
      rw [marshalled.isVoid_canonicalType, if_neg (by decide)]
      have passed := answers.passedAs integral
      cases kind : index.passing type with
      | value spelling => exact .value notVoid (kind ▸ passed)
      | address spelling => exact .address notVoid (kind ▸ passed)

end Types

theorem PassedAs.handedOn {index : Index} {run : Run} {type : QualType} {passing : Passing}
    (passed : index.PassedAs run type passing) (name : String) :
    index.HandedOn run type name (passing.declaration name) (passing.argument name) := by
  cases passing with
  | value spelling => exact .value passed (declares_declare spelling name)
  | address spelling => exact .address passed

theorem handsOn_passedParameters {index : Index} {run : Run} {parameters : List Parameter}
    (passed : ∀ parameter ∈ parameters,
      index.PassedAs run parameter.type (index.passing parameter.type)) (place : Nat) :
    index.HandsOn run place parameters
      ((index.passedParameters place parameters).map fun (name, passing) =>
        passing.declaration name)
      ((index.passedParameters place parameters).map fun (name, passing) =>
        passing.argument name) := by
  induction parameters generalizing place with
  | nil => exact .nil
  | cons parameter rest ih =>
      obtain ⟨first, later⟩ := List.forall_mem_cons.mp passed
      exact .cons (first.handedOn _) (ih later (place + 1))

theorem SignatureGiven.agrees {index : Index} {run : Run} (integral : index.hasIntegralEnums)
    {takesStrings : Bool} {callable : Callable} {stub : FunctionStub}
    (given : index.SignatureGiven run takesStrings false callable.parameters callable.result
      stub.parameters stub.result) (name : String) :
    index.Agrees run callable stub (index.callWrapper callable name) := by
  obtain ⟨sameLength, passed⟩ := given.parameters.passedAs integral
  exact ⟨_, _, _, _, callable.calledAs, sameLength.symm, handsOn_passedParameters passed _, rfl,
    given.result.givenBack integral _⟩

theorem Builds.agrees {index : Index} {run after : Run} {outcomes : List Outcome}
    (builds : index.Builds run outcomes after) (integral : index.hasIntegralEnums)
    {stub : FunctionStub} (member : stub ∈ (Library.ofOutcomes outcomes).stubs.allFunctions)
    (bridged : stub.call = .bridged) : ∃ callable, index.resolve stub = .ok callable ∧
      (callable.isVariadic = false →
        ∀ name, index.Agrees after callable stub (index.callWrapper callable name)) := by
  obtain ⟨decl, declared, given⟩ := builds.functionGiven member
  obtain ⟨callable, found, -, takesStrings, signature⟩ := given.resolves declared bridged
  refine ⟨callable, found, fun fixed name => ?_⟩
  rw [fixed] at signature
  exact signature.agrees integral name

end Index

end NativeBindings
