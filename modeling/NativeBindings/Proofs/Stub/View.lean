import Mathlib.Algebra.Group.Action.Option
import Mathlib.Algebra.Group.Action.Prod
import Mathlib.Order.Monotone.Basic
import NativeBindings.Proofs.Data.SortedMap
import NativeBindings.Proofs.Stub.Elements
import NativeBindings.Stub.BridgeTable

namespace NativeBindings

/-! # Views of stubs

Two runs may give stubs that are alike but for their numbers, or alike but for what
types are called.  A view says what of a stub counts: it renumbers stubs, in order, and
a coarse view takes all names of types and all signs of numbers as one.  Views are
applied one after the other, so they act on everything that a build gives.
-/

structure View where
  number : Nat → Nat
  increasing : StrictMono number
  /-- Are names of types and signs of numbers not told apart? -/
  coarse : Bool

namespace View

instance : One View := ⟨⟨id, strictMono_id, false⟩⟩

instance : Mul View where
  mul view other :=
    ⟨view.number ∘ other.number, view.increasing.comp other.increasing,
      view.coarse || other.coarse⟩

@[simp] theorem coarse_mul (view other : View) :
    (view * other).coarse = (view.coarse || other.coarse) := rfl

theorem ext {view other : View} (number : view.number = other.number)
    (coarse : view.coarse = other.coarse) : view = other := by
  cases view
  cases other
  cases number
  cases coarse
  rfl

instance : Monoid View where
  one_mul _ := ext rfl rfl
  mul_one _ := ext rfl (Bool.or_false _)
  mul_assoc _ _ _ := ext rfl (Bool.or_assoc _ _ _)

/-- The view that leaves the numbers alone. -/
def unnumbered (view : View) : View := ⟨id, strictMono_id, view.coarse⟩

/-- The view that does nothing but renumber. -/
def numbering (view : View) : View := ⟨view.number, view.increasing, false⟩

theorem unnumbered_mul_numbering (view : View) : view.unnumbered * view.numbering = view :=
  ext rfl (Bool.or_false _)

@[simp] theorem coarse_unnumbered (view : View) : view.unnumbered.coarse = view.coarse := rfl

theorem unnumbered_of_fine {view : View} (fine : view.coarse = false) : view.unnumbered = 1 :=
  ext rfl fine

/-- The view that adds a constant to every number. -/
def shift (distance : Nat) : View :=
  ⟨(· + distance), fun _ _ before => Nat.add_lt_add_right before distance, false⟩

/-- Is `second` what `first` looks like?  A view renumbers the first of two things, and is
coarse to both. -/
def Same {α : Type} [MulAction View α] (view : View) (first second : α) : Prop :=
  view • first = view.unnumbered • second

theorem same_numbering {α : Type} [MulAction View α] (view : View) (value : α) :
    view.Same value (view.numbering • value) := by
  rw [Same, ← mul_smul, unnumbered_mul_numbering]

theorem same_none {α : Type} [MulAction View α] (view : View) :
    view.Same (none : Option α) none := rfl

theorem Same.one {α : Type} [MulAction View α] (value : α) :
    (1 : View).Same value value := rfl

/-- What no view changes is the same for things that look the same. -/
theorem Same.invariant {α β : Type} [MulAction View α] {view : View} {first second : α}
    (same : view.Same first second) (measure : α → β)
    (kept : ∀ (view : View) value, measure (view • value) = measure value) :
    measure first = measure second := by
  rw [← kept view, same, kept]

theorem same_iff_of_fine {α : Type} [MulAction View α] {view : View} (fine : view.coarse = false)
    {first second : α} : view.Same first second ↔ view • first = second := by
  rw [Same, unnumbered_of_fine fine, one_smul]

end View

section

variable {ε α : Type} [MulAction View α]

instance : MulAction View (List α) where
  smul view list := list.map (view • ·)
  one_smul list := by
    change list.map (fun item => (1 : View) • item) = list
    simp
  mul_smul view other list := by
    change list.map (fun item => (view * other) • item) = (list.map _).map _
    simp [mul_smul]

theorem View.smul_list (view : View) (list : List α) : view • list = list.map (view • ·) := rfl

@[simp] theorem View.smul_nil (view : View) : view • ([] : List α) = [] := rfl

@[simp] theorem View.smul_cons (view : View) (item : α) (list : List α) :
    view • (item :: list) = view • item :: view • list := rfl

@[simp] theorem View.smul_append (view : View) (list more : List α) :
    view • (list ++ more) = view • list ++ view • more := List.map_append

instance : MulAction View (Except ε α) where
  smul view result := result.map (view • ·)
  one_smul result := by
    cases result with
    | ok value => exact congrArg Except.ok (one_smul View value)
    | error error => rfl
  mul_smul view other result := by
    cases result with
    | ok value => exact congrArg Except.ok (mul_smul view other value)
    | error error => rfl

end

instance : MulAction View StubId where
  smul view id := ⟨view.number id.number⟩
  one_smul _ := rfl
  mul_smul _ _ _ := rfl

instance : MulAction View Classifier where
  smul view classifier := bif view.coarse then default else classifier
  one_smul _ := rfl
  mul_smul view other classifier := by
    change (bif view.coarse || other.coarse then _ else _) = bif view.coarse then _ else
      bif other.coarse then _ else _
    cases view.coarse <;> cases other.coarse <;> rfl

theorem Classifier.smul_def (view : View) (classifier : Classifier) :
    view • classifier = bif view.coarse then default else classifier := rfl

theorem Classifier.smul_of_fine {view : View} (fine : view.coarse = false)
    (classifier : Classifier) : view • classifier = classifier := by
  simp [smul_def, fine]

namespace TargetType

mutual

def seen (view : View) : TargetType → TargetType
  | .named classifier arguments nullable =>
      .named (view • classifier) (seenAll view arguments) nullable
  | .function parameters result => .function (seenAll view parameters) (seen view result)
  | .star => .star

def seenAll (view : View) : List TargetType → List TargetType
  | [] => []
  | type :: rest => seen view type :: seenAll view rest

end

mutual

theorem seen_of_fine {view : View} (fine : view.coarse = false) :
    (type : TargetType) → seen view type = type
  | .named classifier arguments nullable => by
      simp [seen, classifier.smul_of_fine fine, seenAll_of_fine fine arguments]
  | .function parameters result => by
      simp [seen, seenAll_of_fine fine parameters, seen_of_fine fine result]
  | .star => rfl

theorem seenAll_of_fine {view : View} (fine : view.coarse = false) :
    (types : List TargetType) → seenAll view types = types
  | [] => rfl
  | type :: rest => by simp [seenAll, seen_of_fine fine type, seenAll_of_fine fine rest]

end

mutual

theorem seen_mul (view other : View) :
    (type : TargetType) → seen (view * other) type = seen view (seen other type)
  | .named classifier arguments nullable => by
      simp [seen, mul_smul, seenAll_mul view other arguments]
  | .function parameters result => by
      simp [seen, seenAll_mul view other parameters, seen_mul view other result]
  | .star => rfl

theorem seenAll_mul (view other : View) :
    (types : List TargetType) → seenAll (view * other) types = seenAll view (seenAll other types)
  | [] => rfl
  | type :: rest => by simp [seenAll, seen_mul view other type, seenAll_mul view other rest]

end

instance : MulAction View TargetType where
  smul := seen
  one_smul := seen_of_fine rfl
  mul_smul := seen_mul

theorem smul_of_fine {view : View} (fine : view.coarse = false) (type : TargetType) :
    view • type = type := seen_of_fine fine type

variable (view : View)

theorem seenAll_eq (types : List TargetType) : seenAll view types = view • types := by
  induction types with
  | nil => rfl
  | cons type rest ih => rw [seenAll, ih]; rfl

@[simp] theorem smul_named (classifier : Classifier) (arguments : List TargetType)
    (nullable : Bool) : view • TargetType.named classifier arguments nullable =
      .named (view • classifier) (view • arguments) nullable := by
  rw [← seenAll_eq]
  rfl

@[simp] theorem smul_function (parameters : List TargetType) (result : TargetType) :
    view • TargetType.function parameters result =
      .function (view • parameters) (view • result) := by
  rw [← seenAll_eq]
  rfl

@[simp] theorem smul_star : view • TargetType.star = .star := rfl

@[simp] theorem smul_withNullable (nullable : Bool) (type : TargetType) :
    view • type.withNullable nullable = (view • type).withNullable nullable := by
  cases type <;> simp [withNullable]

@[simp] theorem isNullable_smul (type : TargetType) :
    (view • type).isNullable = type.isNullable := by
  cases type <;> simp [isNullable]

end TargetType

def TypeInfo.seen (view : View) : TypeInfo → TypeInfo
  | .primitive size signed floating =>
      .primitive size (signed || (view.coarse && !floating)) floating
  | .enumeration classifier strict => .enumeration (view • classifier) strict
  | info => info

theorem TypeInfo.seen_of_fine {view : View} (fine : view.coarse = false) (info : TypeInfo) :
    info.seen view = info := by
  cases info <;> simp [seen, fine, Classifier.smul_of_fine]

instance : MulAction View TypeInfo where
  smul := TypeInfo.seen
  one_smul := TypeInfo.seen_of_fine rfl
  mul_smul view other info := by
    change info.seen (view * other) = (info.seen other).seen view
    cases info with
    | primitive size signed floating =>
        cases signed <;> cases floating <;> simp [TypeInfo.seen, Bool.or_comm]
    | enumeration classifier strict => simp [TypeInfo.seen, mul_smul]
    | _ => rfl

namespace TypeInfo

theorem smul_of_fine {view : View} (fine : view.coarse = false) (info : TypeInfo) :
    view • info = info := seen_of_fine fine info

variable (view : View)

@[simp] theorem smul_primitive (size : UInt32) (signed floating : Bool) :
    view • TypeInfo.primitive size signed floating =
      .primitive size (signed || (view.coarse && !floating)) floating := rfl

@[simp] theorem smul_enumeration (classifier : Classifier) (strict : Bool) :
    view • TypeInfo.enumeration classifier strict = .enumeration (view • classifier) strict := rfl

@[simp] theorem isRecord_smul (info : TypeInfo) : (view • info).isRecord = info.isRecord := by
  cases info <;> rfl

@[simp] theorem isArray_smul (info : TypeInfo) : (view • info).isArray = info.isArray := by
  cases info <;> rfl

end TypeInfo

namespace Representation

instance : MulAction View Representation where
  smul view representation := {
    representation with
    target := view • representation.target
    pointed := view • representation.pointed
    info := view • representation.info }
  one_smul representation := by
    obtain ⟨target, pointed, marshalling, info⟩ := representation
    change Representation.mk _ _ _ _ = _
    simp only [one_smul]
  mul_smul view other representation := by
    change Representation.mk _ _ _ _ = Representation.mk _ _ _ _
    simp only [mul_smul]
    rfl

variable (view : View) (representation : Representation)

@[simp] theorem smul_mk (target pointed : TargetType) (marshalling : Marshalling)
    (info : TypeInfo) : view • Representation.mk target pointed marshalling info =
      ⟨view • target, view • pointed, marshalling, view • info⟩ := rfl

@[simp] theorem info_smul : (view • representation).info = view • representation.info := rfl

@[simp] theorem placed_smul : (view • representation).placed = view • representation.placed := by
  unfold placed
  rw [info_smul, TypeInfo.isRecord_smul, TypeInfo.isArray_smul]
  split
  · rfl
  · split
    · exact (TargetType.smul_withNullable view false _).symm
    · rfl

@[simp] theorem isAggregate_smul :
    (view • representation).isAggregate = representation.isAggregate := by
  simp [isAggregate]

end Representation

def Constant.seen (view : View) : Constant → Constant
  | .integer value size signed => .integer value size (signed || view.coarse)
  | constant => constant

theorem Constant.seen_of_fine {view : View} (fine : view.coarse = false) (constant : Constant) :
    constant.seen view = constant := by
  cases constant <;> simp [seen, fine]

instance : MulAction View Constant where
  smul := Constant.seen
  one_smul := Constant.seen_of_fine rfl
  mul_smul view other constant := by
    change constant.seen (view * other) = (constant.seen other).seen view
    cases constant <;> simp [Constant.seen, Bool.or_comm, Bool.or_left_comm]

@[simp] theorem Constant.smul_integer (view : View) (value : Int64) (size : UInt32)
    (signed : Bool) : view • Constant.integer value size signed =
      .integer value size (signed || view.coarse) := rfl

instance : MulAction View EnumEntry where
  smul view entry := { entry with constant := view • entry.constant }
  one_smul entry := congrArg (EnumEntry.mk entry.name) (one_smul View entry.constant)
  mul_smul view other entry :=
    congrArg (EnumEntry.mk entry.name) (mul_smul view other entry.constant)

@[simp] theorem EnumEntry.smul_mk (view : View) (name : String) (constant : Constant) :
    view • EnumEntry.mk name constant = ⟨name, view • constant⟩ := rfl

def ClassKind.seen (view : View) : ClassKind → ClassKind
  | .enumeration entries base => .enumeration (view • entries) (view • base)
  | kind => kind

instance : MulAction View ClassKind where
  smul := ClassKind.seen
  one_smul kind := by
    change kind.seen 1 = kind
    cases kind <;> simp [ClassKind.seen]
  mul_smul view other kind := by
    change kind.seen (view * other) = (kind.seen other).seen view
    cases kind <;> simp [ClassKind.seen, mul_smul]

namespace ClassKind

variable (view : View)

@[simp] theorem smul_enumeration (entries : List EnumEntry) (base : TargetType) :
    view • enumeration entries base = enumeration (view • entries) (view • base) := rfl

@[simp] theorem smul_struct (size align : UInt64) (isUnion : Bool) :
    view • struct size align isUnion = struct size align isUnion := rfl

@[simp] theorem smul_forwardStruct : view • forwardStruct = forwardStruct := rfl

@[simp] theorem smul_nativeClass : view • nativeClass = nativeClass := rfl

@[simp] theorem smul_objcClass : view • objcClass = objcClass := rfl

@[simp] theorem smul_objcProtocol : view • objcProtocol = objcProtocol := rfl

end ClassKind

instance : MulAction View ParameterStub where
  smul view stub := { stub with type := view • stub.type }
  one_smul stub := by
    change ParameterStub.mk _ _ _ = stub
    simp only [one_smul]
  mul_smul view other stub := by
    change ParameterStub.mk _ _ _ = ParameterStub.mk _ _ _
    simp only [mul_smul]
    rfl

@[simp] theorem ParameterStub.smul_mk (view : View) (name : String) (type : TargetType)
    (isVararg : Bool) :
    view • ParameterStub.mk name type isVararg = ⟨name, view • type, isVararg⟩ := rfl

instance : MulAction View FunctionStub where
  smul view stub := {
    stub with
    id := view • stub.id
    parameters := view • stub.parameters
    result := view • stub.result
    receiver := view • stub.receiver }
  one_smul stub := by
    change FunctionStub.mk _ _ _ _ _ _ _ _ = stub
    simp only [one_smul]
  mul_smul view other stub := by
    change FunctionStub.mk _ _ _ _ _ _ _ _ = FunctionStub.mk _ _ _ _ _ _ _ _
    simp only [mul_smul]
    rfl

@[simp] theorem FunctionStub.smul_mk (view : View) (id : StubId) (name : String)
    (parameters : List ParameterStub) (result : TargetType) (origin : FunctionOrigin)
    (call : CallKind) (receiver : Option TargetType) (isStatic : Bool) :
    view • FunctionStub.mk id name parameters result origin call receiver isStatic =
      ⟨view • id, name, view • parameters, view • result, origin, call, view • receiver,
        isStatic⟩ := rfl

@[simp] theorem FunctionStub.id_smul (view : View) (stub : FunctionStub) :
    (view • stub).id = view • stub.id := rfl

def PropertyKind.seen (view : View) : PropertyKind → PropertyKind
  | .constant literal => .constant (view • literal)
  | kind => kind

instance : MulAction View PropertyKind where
  smul := PropertyKind.seen
  one_smul kind := by
    change kind.seen 1 = kind
    cases kind <;> simp [PropertyKind.seen]
  mul_smul view other kind := by
    change kind.seen (view * other) = (kind.seen other).seen view
    cases kind <;> simp [PropertyKind.seen, mul_smul]

@[simp] theorem PropertyKind.smul_constant (view : View) (constant : Constant) :
    view • PropertyKind.constant constant = .constant (view • constant) := rfl

@[simp] theorem PropertyKind.smul_val (view : View) (getter : Accessor) :
    view • PropertyKind.val getter = .val getter := rfl

@[simp] theorem PropertyKind.smul_var (view : View) (getter setter : Accessor) :
    view • PropertyKind.var getter setter = .var getter setter := rfl

instance : MulAction View PropertyStub where
  smul view stub := {
    stub with
    id := view • stub.id
    type := view • stub.type
    kind := view • stub.kind
    receiver := view • stub.receiver }
  one_smul stub := by
    change PropertyStub.mk _ _ _ _ _ = stub
    simp only [one_smul]
  mul_smul view other stub := by
    change PropertyStub.mk _ _ _ _ _ = PropertyStub.mk _ _ _ _ _
    simp only [mul_smul]
    rfl

@[simp] theorem PropertyStub.smul_mk (view : View) (id : StubId) (name : String)
    (type : TargetType) (kind : PropertyKind) (receiver : Option TargetType) :
    view • PropertyStub.mk id name type kind receiver =
      ⟨view • id, name, view • type, view • kind, view • receiver⟩ := rfl

@[simp] theorem PropertyStub.id_smul (view : View) (stub : PropertyStub) :
    (view • stub).id = view • stub.id := rfl

instance : MulAction View TypealiasStub where
  smul view stub := ⟨view • stub.id, view • stub.classifier, view • stub.aliasee⟩
  one_smul stub := by
    change TypealiasStub.mk _ _ _ = stub
    simp only [one_smul]
  mul_smul view other stub := by
    change TypealiasStub.mk _ _ _ = TypealiasStub.mk _ _ _
    simp only [mul_smul]
    rfl

@[simp] theorem TypealiasStub.smul_mk (view : View) (id : StubId) (classifier : Classifier)
    (aliasee : TargetType) : view • TypealiasStub.mk id classifier aliasee =
      ⟨view • id, view • classifier, view • aliasee⟩ := rfl

instance : MulAction View ClassStub where
  smul view stub := {
    id := view • stub.id
    classifier := view • stub.classifier
    kind := view • stub.kind
    supertypes := view • stub.supertypes
    properties := view • stub.properties
    functions := view • stub.functions }
  one_smul stub := by
    change ClassStub.mk _ _ _ _ _ _ = stub
    simp only [one_smul]
  mul_smul view other stub := by
    change ClassStub.mk _ _ _ _ _ _ = ClassStub.mk _ _ _ _ _ _
    simp only [mul_smul]
    rfl

@[simp] theorem ClassStub.smul_mk (view : View) (id : StubId) (classifier : Classifier)
    (kind : ClassKind) (supertypes : List TargetType) (properties : List PropertyStub)
    (functions : List FunctionStub) :
    view • ClassStub.mk id classifier kind supertypes properties functions =
      ⟨view • id, view • classifier, view • kind, view • supertypes, view • properties,
        view • functions⟩ := rfl

namespace StubTree

mutual

def seen (view : View) : StubTree → StubTree
  | ⟨classes, functions, properties, typealiases, groups⟩ =>
      ⟨view • classes, view • functions, view • properties, view • typealiases,
        seenGroups view groups⟩

def seenGroups (view : View) : List StubGroup → List StubGroup
  | [] => []
  | ⟨id, name, members⟩ :: rest => ⟨view • id, name, members.seen view⟩ :: seenGroups view rest

end

mutual

theorem seen_one : (tree : StubTree) → tree.seen 1 = tree
  | ⟨classes, functions, properties, typealiases, groups⟩ => by
      simp [seen, seenGroups_one groups]

theorem seenGroups_one : (groups : List StubGroup) → seenGroups 1 groups = groups
  | [] => rfl
  | ⟨id, name, members⟩ :: rest => by simp [seenGroups, seen_one members, seenGroups_one rest]

end

mutual

theorem seen_mul (view other : View) :
    (tree : StubTree) → tree.seen (view * other) = (tree.seen other).seen view
  | ⟨classes, functions, properties, typealiases, groups⟩ => by
      simp [seen, mul_smul, seenGroups_mul view other groups]

theorem seenGroups_mul (view other : View) : (groups : List StubGroup) →
    seenGroups (view * other) groups = seenGroups view (seenGroups other groups)
  | [] => rfl
  | ⟨id, name, members⟩ :: rest => by
      simp [seenGroups, mul_smul, seen_mul view other members, seenGroups_mul view other rest]

end

instance : MulAction View StubTree where
  smul view tree := tree.seen view
  one_smul := seen_one
  mul_smul := seen_mul

end StubTree

instance : MulAction View StubGroup where
  smul view stub := ⟨view • stub.id, stub.name, view • stub.members⟩
  one_smul stub := by
    obtain ⟨id, name, members⟩ := stub
    change StubGroup.mk _ _ _ = _
    simp only [one_smul]
  mul_smul view other stub := by
    change StubGroup.mk _ _ _ = StubGroup.mk _ _ _
    simp only [mul_smul]
    rfl

@[simp] theorem StubGroup.smul_mk (view : View) (id : StubId) (name : String)
    (members : StubTree) :
    view • StubGroup.mk id name members = ⟨view • id, name, view • members⟩ := rfl

namespace StubTree

variable (view : View)

theorem seenGroups_eq (groups : List StubGroup) : seenGroups view groups = view • groups := by
  induction groups with
  | nil => rfl
  | cons stub rest ih =>
      obtain ⟨id, name, members⟩ := stub
      rw [seenGroups, ih]
      rfl

@[simp] theorem smul_mk (classes : List ClassStub) (functions : List FunctionStub)
    (properties : List PropertyStub) (typealiases : List TypealiasStub)
    (groups : List StubGroup) :
    view • StubTree.mk classes functions properties typealiases groups =
      ⟨view • classes, view • functions, view • properties, view • typealiases,
        view • groups⟩ := by
  rw [← seenGroups_eq]
  rfl

@[simp] theorem smul_empty : view • (∅ : StubTree) = ∅ := smul_mk view [] [] [] [] []

end StubTree

def StubElement.seen (view : View) : StubElement → StubElement
  | .ofClass stub => .ofClass (view • stub)
  | .ofFunction stub => .ofFunction (view • stub)
  | .ofProperty stub => .ofProperty (view • stub)
  | .ofTypealias stub => .ofTypealias (view • stub)
  | .ofGroup stub => .ofGroup (view • stub)

instance : MulAction View StubElement where
  smul := StubElement.seen
  one_smul element := by
    change element.seen 1 = element
    cases element <;> simp [StubElement.seen]
  mul_smul view other element := by
    change element.seen (view * other) = (element.seen other).seen view
    cases element <;> simp [StubElement.seen, mul_smul]

namespace StubElement

variable (view : View)

@[simp] theorem smul_ofClass (stub : ClassStub) : view • ofClass stub = ofClass (view • stub) := rfl

@[simp] theorem smul_ofFunction (stub : FunctionStub) :
    view • ofFunction stub = ofFunction (view • stub) := rfl

@[simp] theorem smul_ofProperty (stub : PropertyStub) :
    view • ofProperty stub = ofProperty (view • stub) := rfl

@[simp] theorem smul_ofTypealias (stub : TypealiasStub) :
    view • ofTypealias stub = ofTypealias (view • stub) := rfl

@[simp] theorem smul_ofGroup (stub : StubGroup) : view • ofGroup stub = ofGroup (view • stub) := rfl

end StubElement

theorem StubTree.smul_push (view : View) (tree : StubTree) (element : StubElement) :
    view • tree.push element = (view • tree).push (view • element) := by
  cases tree
  cases element <;> simp [push]

theorem StubTree.smul_foldl_push (view : View) (elements : List StubElement) (tree : StubTree) :
    view • elements.foldl push tree = (view • elements).foldl push (view • tree) := by
  induction elements generalizing tree with
  | nil => rfl
  | cons element rest ih => rw [List.foldl_cons, ih, smul_push, View.smul_cons, List.foldl_cons]

instance : MulAction View Getter where
  smul view getter := { getter with representation := view • getter.representation }
  one_smul getter := by
    change Getter.mk _ _ _ _ = getter
    simp only [one_smul]
  mul_smul view other getter := by
    change Getter.mk _ _ _ _ = Getter.mk _ _ _ _
    simp only [mul_smul]
    rfl

@[simp] theorem Getter.smul_mk (view : View) (name : String) (type : QualType)
    (representation : Representation) (isAggregate : Bool) :
    view • Getter.mk name type representation isAggregate =
      ⟨name, type, view • representation, isAggregate⟩ := rfl

instance : MulAction View Setter where
  smul view setter := { setter with representation := view • setter.representation }
  one_smul setter := by
    change Setter.mk _ _ _ = setter
    simp only [one_smul]
  mul_smul view other setter := by
    change Setter.mk _ _ _ = Setter.mk _ _ _
    simp only [mul_smul]
    rfl

@[simp] theorem Setter.smul_mk (view : View) (name : String) (type : QualType)
    (representation : Representation) :
    view • Setter.mk name type representation = ⟨name, type, view • representation⟩ := rfl

theorem View.ascends_id (view : View) {first second : StubId}
    (before : SortKey.lt first second = true) :
    SortKey.lt (view • first) (view • second) = true :=
  decide_eq_true (view.increasing (of_decide_eq_true before))

def ParameterKey.seen (view : View) (key : ParameterKey) : ParameterKey := (view • key.1, key.2)

theorem View.ascends_parameter (view : View) {first second : ParameterKey}
    (before : SortKey.lt first second = true) :
    SortKey.lt (first.seen view) (second.seen view) = true := by
  simp only [SortKey.lt, ParameterKey.seen, Bool.or_eq_true, Bool.and_eq_true, beq_iff_eq]
    at before ⊢
  rcases before with before | ⟨same, before⟩
  · exact .inl (view.ascends_id before)
  · exact .inr ⟨congrArg (view • ·) same, before⟩

namespace BridgeTable

def seen (view : View) (table : BridgeTable) : BridgeTable where
  getters := table.getters.relabel view.ascends_id (view • ·)
  setters := table.setters.relabel view.ascends_id (view • ·)
  enumerations := table.enumerations.relabel view.ascends_id (view • ·)
  strings := table.strings.relabel view.ascends_parameter id

instance : MulAction View BridgeTable where
  smul view table := table.seen view
  one_smul table := by
    change BridgeTable.mk _ _ _ _ = table
    congr 1 <;> exact SortedMap.relabel_of_same _ (fun _ => rfl) (fun _ => by simp) _
  mul_smul view other table := by
    have entries {α : Type} [MulAction View α] (map : SortedMap StubId α) :
        map.relabel (view * other).ascends_id ((view * other) • ·) =
          (map.relabel other.ascends_id (other • ·)).relabel view.ascends_id (view • ·) :=
      SortedMap.relabel_relabel other.ascends_id _ view.ascends_id (view * other).ascends_id
        (fun _ => rfl) (mul_smul view other) map
    have strings : table.strings.relabel (view * other).ascends_parameter id =
        (table.strings.relabel other.ascends_parameter id).relabel view.ascends_parameter id :=
      SortedMap.relabel_relabel other.ascends_parameter _ view.ascends_parameter
        (view * other).ascends_parameter (fun _ => rfl) (fun _ => rfl) table.strings
    change BridgeTable.mk _ _ _ _ = BridgeTable.mk _ _ _ _
    rw [entries, entries, entries, strings]
    rfl

variable (view : View) (table : BridgeTable)

@[simp] theorem smul_empty : view • (∅ : BridgeTable) = ∅ := rfl

theorem smul_addGetter (property : StubId) (getter : Getter) :
    view • table.addGetter property getter =
      (view • table).addGetter (view • property) (view • getter) :=
  congrArg (fun getters => { view • table with getters }) (SortedMap.relabel_insert _ _ _ _ _)

theorem smul_addSetter (property : StubId) (setter : Setter) :
    view • table.addSetter property setter =
      (view • table).addSetter (view • property) (view • setter) :=
  congrArg (fun setters => { view • table with setters }) (SortedMap.relabel_insert _ _ _ _ _)

theorem smul_addEnumeration (enumeration : StubId) (representation : Representation) :
    view • table.addEnumeration enumeration representation =
      (view • table).addEnumeration (view • enumeration) (view • representation) :=
  congrArg (fun enumerations => { view • table with enumerations })
    (SortedMap.relabel_insert _ _ _ _ _)

theorem smul_markString (key : ParameterKey) (kind : StringKind) :
    view • table.markString key kind = (view • table).markString (key.seen view) kind :=
  congrArg (fun strings => { view • table with strings }) (SortedMap.relabel_insert _ _ _ _ _)

theorem smul_merge (other : BridgeTable) :
    view • table.merge other = (view • table).merge (view • other) := by
  change BridgeTable.mk _ _ _ _ = BridgeTable.mk _ _ _ _
  congr 1 <;> exact SortedMap.relabel_union _ _ _ _

end BridgeTable

end NativeBindings
