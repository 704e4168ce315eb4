import GuestScript.Proofs.Compile.Growth
import GuestScript.Proofs.Syntax.PlainNames

/-!
# Findings in bodies

Whatever is compiled, each finding is an error, or a warning of a kind that is never more than one, and
its message is put together from fixed words, numbers and names that occur in the file or in the
signatures of the modules. `Maintains` says of an action that it keeps what holds of the state and what
holds of its result; the walk shows of every action on a body that it keeps `Body.IsPlain`. The
vocabulary is left open: over that of everything, the walk says how grave findings are, and over that
of texts on one line it says that messages are on one line.
-/

namespace GuestScript

/-- The types in the signature of a function of a module are plain. -/
structure HostFunction.IsPlain (words : Vocabulary) (function : HostFunction) : Prop where
  parameters : ∀ type ∈ function.parameters, type.IsPlain words
  result : function.result.IsPlain words

/-- The types in the signatures of all functions that may be used are plain. -/
def ReferenceSet.IsPlain (words : Vocabulary) (references : ReferenceSet) : Prop :=
  ∀ binding ∈ references.entries, ∀ function ∈ binding.host.functions, function.IsPlain words

theorem ReferenceSet.isPlain_everything (references : ReferenceSet) :
    references.IsPlain .everything :=
  fun _ _ _ _ ↦ ⟨fun type _ ↦ type.isPlain_everything, Ty.isPlain_everything _⟩

namespace Compile

open Bytecode (Import Op)
open Syntax

/-- An action on a state on which something holds leaves such a state and gives what is wanted. -/
def Maintains {State Value : Type} (invariant : State → Prop) (action : StateM State Value)
    (holds : Value → Prop) : Prop :=
  ∀ state, invariant state → holds (action state).1 ∧ invariant (action state).2

namespace Maintains

variable {State Value Other : Type} {invariant : State → Prop} {action : StateM State Value}
  {holds wanted : Value → Prop} {others : Other → Prop}

protected theorem pure {value : Value} (here : holds value) :
    Maintains invariant (Pure.pure value) holds :=
  fun _ kept ↦ ⟨here, kept⟩

protected theorem bind {next : Value → StateM State Other} (first : Maintains invariant action holds)
    (second : ∀ value, holds value → Maintains invariant (next value) others) :
    Maintains invariant (action >>= next) others := fun state kept ↦
  have ⟨value, after⟩ := first state kept
  second _ value _ after

protected theorem map {make : Value → Other} (first : Maintains invariant action holds)
    (second : ∀ value, holds value → others (make value)) :
    Maintains invariant (action >>= fun value ↦ Pure.pure (make value)) others :=
  first.bind fun value here ↦ .pure (second value here)

protected theorem ite {condition : Prop} [Decidable condition] {action other : StateM State Value}
    (first : Maintains invariant action holds) (second : Maintains invariant other holds) :
    Maintains invariant (if condition then action else other) holds := by
  split
  · exact first
  · exact second

/-- What comes next needs nothing of what has been given. -/
theorem andThen {next : Value → StateM State Other} (first : Maintains invariant action fun _ ↦ True)
    (second : ∀ value, Maintains invariant (next value) others) :
    Maintains invariant (action >>= next) others :=
  first.bind fun value _ ↦ second value

/-- What is made of what has been given is of no interest. -/
theorem forget {make : Value → Other} (first : Maintains invariant action fun _ ↦ True) :
    Maintains invariant (action >>= fun value ↦ Pure.pure (make value)) fun _ ↦ True :=
  first.map fun _ _ ↦ trivial

theorem imp (first : Maintains invariant action holds) (weaker : ∀ value, holds value → wanted value) :
    Maintains invariant action wanted := fun state kept ↦
  have ⟨value, after⟩ := first state kept
  ⟨weaker _ value, after⟩

end Maintains

variable (words : Vocabulary)

/-- A finding is an error, or a warning that is only worth one, and says something plain. -/
structure IsFinding (finding : Diagnostic Span) : Prop where
  severity : finding.severity = .error ∨ finding.severity = .warning ∧ finding.category = .lint
  escalated : finding.escalated = false
  message : words.plain finding.message

/-- The findings of a draft are findings. -/
def Draft.IsPlain (draft : Draft) : Prop :=
  ∀ finding ∈ draft.findings, IsFinding words finding

/-- The name and the type of a variable are plain. -/
structure Local.IsPlain (present : Local) : Prop where
  name : words.plain present.name
  type : present.type.IsPlain words

/-- The findings so far are findings, and the variables in scope are plain. -/
structure Body.IsPlain (body : Body) : Prop where
  draft : body.draft.IsPlain words
  scopes : ∀ scope ∈ body.scopes, ∀ present ∈ scope, present.IsPlain words

/-- The name of a declared type is plain. -/
structure TypeName.IsPlain (name : TypeName) : Prop where
  namespaceName : words.plain name.namespaceName
  name : words.plain name.name

/-- The names in a field are plain. -/
structure FieldInfo.IsPlain (field : FieldInfo) : Prop where
  name : words.plain field.name
  type : field.type.IsPlain words
  value : ∀ value ∈ field.value, value.IsPlain words

/-- The names in a function are plain. -/
structure MethodInfo.IsPlain (method : MethodInfo) : Prop where
  name : words.plain method.name
  parameters : ∀ type ∈ method.parameters, type.IsPlain words
  result : method.result.IsPlain words
  declaration : method.declaration.IsPlain words

/-- The names in a type are plain. -/
structure TypeInfo.IsPlain (info : TypeInfo) : Prop where
  name : info.name.IsPlain words
  fields : ∀ field ∈ info.fields, field.IsPlain words
  methods : ∀ method ∈ info.methods, method.IsPlain words

/-- What a body may use is plain. -/
structure Setting.IsPlain (setting : Setting) : Prop where
  references : setting.references.IsPlain words
  types : ∀ info ∈ setting.types, info.IsPlain words
  ownerName : setting.ownerName.IsPlain words
  result : setting.result.IsPlain words

/-- A type that may be there or not is plain. -/
abbrev IsPlain? (type : Option Ty) : Prop :=
  ∀ present ∈ type, present.IsPlain words

/-- An action on a draft makes findings, and what it gives holds. -/
abbrev Draft.Says {Value : Type} (action : Drafting Value) (holds : Value → Prop) : Prop :=
  Maintains (Draft.IsPlain words) action holds

/-- An action on a body makes findings and keeps variables plain, and what it gives holds. -/
abbrev Lowering.Says {Value : Type} (action : Lowering Value) (holds : Value → Prop) : Prop :=
  Maintains (Body.IsPlain words) action holds

/-- A pending expression has a plain type if it is wanted for one. -/
def Pending.IsPlain (value : Pending) : Prop :=
  ∀ expected, IsPlain? words expected → ∀ start,
    Lowering.Says words (value expected start) fun typed ↦ typed.type.IsPlain words

/-- Pending arguments bind an open type to a plain one if the parameters are plain. -/
def PendingArguments.IsPlain (arguments : PendingArguments) : Prop :=
  ∀ parameters, (∀ type ∈ parameters, type.IsPlain words) → ∀ callee, words.plain callee →
    ∀ number bound, IsPlain? words bound → ∀ before start,
      Lowering.Says words (arguments parameters callee number bound before start) fun result ↦
        IsPlain? words result.2

variable {words}

/-! ## Names of what is declared -/

theorem TypeName.IsPlain.full {name : TypeName} (plain : name.IsPlain words) :
    words.plain name.full := by
  rw [TypeName.full, Bytecode.qualifiedName]
  split
  · exact plain.name
  · exact words.plain_append
      (words.plain_append plain.namespaceName (words.plain_of_lineFree (by decide))) plain.name

section Names

variable {types : List TypeInfo} (plain : ∀ info ∈ types, info.IsPlain words)

include plain

theorem plain_fullNameOf (index : Bytecode.TypeIndex) : words.plain (fullNameOf types index) := by
  unfold fullNameOf
  split
  · next info found => exact (plain info (List.mem_of_getElem? found)).name.full
  · exact words.plain_of_lineFree (by decide)

theorem isPlain_methodOf? {owner : Bytecode.TypeIndex} {name : String} {method : MethodInfo}
    (found : methodOf? types owner name = some method) : method.IsPlain words := by
  rw [methodOf?, Option.bind_eq_bind, Option.bind_eq_some_iff] at found
  obtain ⟨info, here, found⟩ := found
  exact (plain info (List.mem_of_getElem? here)).methods method (List.mem_of_find?_eq_some found)

theorem isPlain_fieldOf? {fullName name : String} {position : Nat} {type : Ty}
    (found : fieldOf? types fullName name = some (position, type)) : type.IsPlain words := by
  simp only [fieldOf?, Option.bind_eq_bind, Option.bind_eq_some_iff] at found
  obtain ⟨index, -, info, here, position', -, field, there, same⟩ := found
  obtain ⟨-, rfl⟩ := Prod.mk.inj (Option.some.inj same)
  exact ((plain info (List.mem_of_getElem? here)).fields field (List.mem_of_getElem? there)).type

end Names

theorem plain_pathText {segments : List Identifier} (plain : ∀ name ∈ segments, name.IsPlain words) :
    words.plain (pathText segments) :=
  words.plain_intercalate (words.plain_of_lineFree (by decide)) (List.forall_mem_map.mpr plain)

theorem plain_unarySymbol (operator : UnaryOperator) : words.plain operator.symbol := by
  cases operator <;> exact words.plain_of_lineFree (by decide)

theorem plain_binarySymbol (operator : BinaryOperator) : words.plain operator.symbol := by
  cases operator <;> exact words.plain_of_lineFree (by decide)

/-! ## Actions on drafts -/

namespace Draft

theorem says_report {code : Code} {message : String} {span : Span} (plain : words.plain message) :
    Says words (report code message span) fun _ ↦ True := fun _ kept ↦
  ⟨trivial, List.forall_mem_cons.mpr ⟨⟨.inl rfl, rfl, plain⟩, kept⟩⟩

theorem says_warn {code : Code} {message : String} {span : Span} (lint : code.category = .lint)
    (plain : words.plain message) : Says words (warn code message span) fun _ ↦ True := fun _ kept ↦
  ⟨trivial, List.forall_mem_cons.mpr ⟨⟨.inr ⟨rfl, lint⟩, rfl, plain⟩, kept⟩⟩

theorem says_importIndex (wanted : Import) :
    Says words (importIndex wanted) fun _ ↦ True := by
  intro draft kept
  rw [importIndex_apply]
  cases draft.imports.findIdx? (isImport wanted) <;> exact ⟨trivial, kept⟩

theorem says_reserve (routine : Bytecode.Routine) :
    Says words (reserve routine) fun _ ↦ True := fun _ kept ↦
  ⟨trivial, kept⟩

theorem says_complete (index : Bytecode.RoutineIndex) (code : List Op) (locals : Nat) :
    Says words (complete index code locals) fun _ ↦ True := fun _ kept ↦
  ⟨trivial, kept⟩

theorem says_nextLambda : Says words nextLambda fun _ ↦ True := fun _ kept ↦
  ⟨trivial, kept⟩

mutual

theorem says_resolveType {references : ReferenceSet} {names : List TypeName} {namespaceName : String}
    (declared : ∀ name ∈ names, name.IsPlain words) : (written : TypeExpression) →
    written.IsPlain words →
    Says words (resolveType references names namespaceName written) fun type ↦ type.IsPlain words
  | .int _, _ | .str _, _ | .bool _, _ | .unit _, _ => .pure trivial
  | .dyn span, _ => by
      rw [resolveType]
      refine .ite (.pure trivial) ((says_report ?_).map fun _ _ ↦ trivial)
      exact words.plain_of_lineFree (by decide)
  | .array element _, plain => by
      rw [resolveType]
      exact (says_resolveType declared element plain).map fun _ here ↦ here
  | .seq element _, plain => by
      rw [resolveType]
      exact (says_resolveType declared element plain).map fun _ here ↦ here
  | .function parameters result _, plain => by
      rw [resolveType]
      exact (says_resolveTypes declared parameters plain.1).bind fun _ parameters' ↦
        (says_resolveType declared result plain.2).map fun _ result' ↦
          ⟨Ty.arePlain_iff.mpr parameters', result'⟩
  | .named name span, plain => by
      rw [resolveType]
      split
      · next index found =>
          refine .pure ?_
          change words.plain ((names[index]?.map TypeName.full).getD "")
          cases here : names[index]? with
          | some name => exact (declared name (List.mem_of_getElem? here)).full
          | none => exact words.plain_of_lineFree (by decide)
      · exact (says_report (words.plain_between (by decide) plain (by decide))).map
          fun _ _ ↦ trivial

theorem says_resolveTypes {references : ReferenceSet} {names : List TypeName}
    {namespaceName : String} (declared : ∀ name ∈ names, name.IsPlain words) :
    (written : List TypeExpression) → typesArePlain words written →
    Says words (resolveTypes references names namespaceName written) fun types ↦
      ∀ type ∈ types, type.IsPlain words
  | [], _ => .pure (List.forall_mem_nil _)
  | first :: rest, plain => by
      rw [resolveTypes]
      exact (says_resolveType declared first plain.1).bind fun _ here ↦
        (says_resolveTypes declared rest plain.2).map fun _ others ↦
          List.forall_mem_cons.mpr ⟨here, others⟩

end

end Draft

/-! ## Actions on bodies -/

namespace Lowering

theorem says_onDraft {Value : Type} {action : Drafting Value} {holds : Value → Prop}
    (inner : Draft.Says words action holds) : Says words (onDraft action) holds := fun body kept ↦
  have ⟨value, after⟩ := inner body.draft kept.draft
  ⟨value, after, kept.scopes⟩

theorem says_report {code : Code} {message : String} {span : Span} (plain : words.plain message) :
    Says words (report code message span) fun _ ↦ True :=
  says_onDraft (Draft.says_report plain)

theorem says_mistake {code : Code} {message : String} {span : Span} (plain : words.plain message) :
    Says words (mistake code message span) fun type ↦ type.IsPlain words :=
  (says_report plain).map fun _ _ ↦ trivial

theorem says_check {expected actual : Ty} {span : Span} (plain : expected.IsPlain words)
    (plain' : actual.IsPlain words) : Says words (check expected actual span) fun _ ↦ True :=
  .ite (.pure trivial) (says_report (words.plain_append
    (words.plain_between (by decide) (Ty.plain_text expected plain) (by decide))
    (Ty.plain_text actual plain')))

theorem says_resolve {setting : Setting} (plain : setting.IsPlain words) {written : TypeExpression}
    (plain' : written.IsPlain words) :
    Says words (resolve setting written) fun type ↦ type.IsPlain words :=
  says_onDraft (Draft.says_resolveType
    (List.forall_mem_map.mpr fun info inside ↦ (plain.types info inside).name) written plain')

theorem says_allocate : Says words allocate fun _ ↦ True := fun _ kept ↦
  ⟨trivial, kept.draft, kept.scopes⟩

theorem says_declareLocal {name : String} {type : Ty} (lint : Option Span) (plain : words.plain name)
    (plain' : type.IsPlain words) : Says words (declareLocal name type lint) fun _ ↦ True := by
  refine says_allocate.bind fun slot _ ↦ Maintains.forget ?_
  intro body kept
  obtain ⟨draft, scopes, nextSlot⟩ := body
  cases scopes with
  | nil => exact ⟨trivial, kept⟩
  | cons scope outer =>
      obtain ⟨inner, others⟩ := List.forall_mem_cons.mp kept.scopes
      exact ⟨trivial, kept.draft, List.forall_mem_cons.mpr
        ⟨List.forall_mem_cons.mpr ⟨⟨plain, plain'⟩, inner⟩, others⟩⟩

theorem says_openScope : Says words openScope fun _ ↦ True := fun _ kept ↦
  ⟨trivial, kept.draft, List.forall_mem_cons.mpr ⟨List.forall_mem_nil _, kept.scopes⟩⟩

theorem isFinding_unusedWarning? {candidate : Local} {finding : Diagnostic Span}
    (plain : candidate.IsPlain words) (found : unusedWarning? candidate = some finding) :
    IsFinding words finding := by
  unfold unusedWarning? at found
  split at found
  · exact absurd found nofun
  · split at found
    · exact absurd found nofun
    · exact Option.some.inj found ▸
        ⟨.inr ⟨rfl, rfl⟩, rfl, words.plain_between (by decide) plain.name (by decide)⟩

theorem says_closeScope : Says words closeScope fun _ ↦ True := by
  intro body kept
  obtain ⟨draft, scopes, nextSlot⟩ := body
  cases scopes with
  | nil => exact ⟨trivial, kept⟩
  | cons scope outer =>
      obtain ⟨inner, others⟩ := List.forall_mem_cons.mp kept.scopes
      refine ⟨trivial, List.forall_mem_append.mpr ⟨fun finding inside ↦ ?_, kept.draft⟩, others⟩
      obtain ⟨candidate, present, found⟩ := List.mem_filterMap.mp inside
      exact isFinding_unusedWarning? (inner candidate present) found

/-! ### Looking up variables -/

theorem isPlain_markIn {scope : List Local} (name : String)
    (plain : ∀ present ∈ scope, present.IsPlain words) :
    ∀ present ∈ markIn name scope, present.IsPlain words := by
  induction scope with
  | nil => exact nofun
  | cons first rest ih =>
      obtain ⟨here, others⟩ := List.forall_mem_cons.mp plain
      rw [markIn]
      split
      · exact List.forall_mem_cons.mpr ⟨⟨here.name, here.type⟩, others⟩
      · exact List.forall_mem_cons.mpr ⟨here, ih others⟩

theorem isPlain_findAndMark {name : String} {found : Local} : {scopes marked : List (List Local)} →
    (∀ scope ∈ scopes, ∀ present ∈ scope, present.IsPlain words) →
    findAndMark name scopes = some (found, marked) →
    (found.name = name ∧ found.IsPlain words) ∧
      ∀ scope ∈ marked, ∀ present ∈ scope, present.IsPlain words
  | [], _, _, same => by cases same
  | scope :: outer, marked, plain, same => by
      obtain ⟨inner, others⟩ := List.forall_mem_cons.mp plain
      rw [findAndMark] at same
      split at same
      · next present here =>
          obtain ⟨rfl, rfl⟩ := Prod.mk.inj (Option.some.inj same)
          have named := List.find?_some here
          exact ⟨⟨of_decide_eq_true named, inner _ (List.mem_of_find?_eq_some here)⟩,
            List.forall_mem_cons.mpr ⟨isPlain_markIn name inner, others⟩⟩
      · split at same
        · next deeper =>
            obtain ⟨rfl, rfl⟩ := Prod.mk.inj (Option.some.inj same)
            obtain ⟨found, marked⟩ := isPlain_findAndMark others deeper
            exact ⟨found, List.forall_mem_cons.mpr ⟨inner, marked⟩⟩
        · cases same

theorem says_lookup (name : String) : Says words (lookup name) fun found ↦
    ∀ present ∈ found, present.name = name ∧ present.IsPlain words := by
  intro body kept
  rw [lookup_eq]
  cases looked : findAndMark name body.scopes with
  | none => exact ⟨nofun, kept⟩
  | some result =>
      obtain ⟨found, marked⟩ := isPlain_findAndMark kept.scopes looked
      exact ⟨fun present same ↦ Option.some.inj same ▸ found, kept.draft, marked⟩

theorem says_lookupTarget (name : String) : Says words (lookupTarget name) fun found ↦
    ∀ present ∈ found, present.IsPlain words := by
  refine fun body kept ↦ ⟨fun present same ↦ ?_, kept⟩
  obtain ⟨scope, inside, found⟩ := List.exists_of_findSome?_eq_some same
  exact kept.scopes scope inside present (List.mem_of_find?_eq_some found)

/-! ### Routines inside routines -/

theorem says_alone {Value : Type} {action : Lowering Value} {holds : Value → Prop}
    (inner : Says words action holds) :
    Draft.Says words (alone action) fun result ↦ holds result.1 := fun draft kept ↦
  have ⟨value, after⟩ := inner ⟨draft, [[]], 0⟩
    ⟨kept, List.forall_mem_singleton.mpr (List.forall_mem_nil _)⟩
  ⟨value, after.draft⟩

theorem says_addRoutine {Value : Type} {action : Lowering Value} {holds : Value → Prop}
    (routine : Bytecode.Routine) (code : Value → List Op) (inner : Says words action holds) :
    Draft.Says words (addRoutine routine code action) fun result ↦ holds result.2 :=
  (Draft.says_reserve routine).bind fun _ _ ↦ (says_alone inner).bind fun _ value ↦
    (Draft.says_complete _ _ _).map fun _ _ ↦ value

end Lowering

/-! ## Expressions -/

section Expressions

open Lowering

variable {setting : Setting} {start : Nat} {span : Span}

/-- The type of a value is plain. -/
abbrev Typed.IsPlain (words : Vocabulary) (typed : Typed) : Prop :=
  typed.type.IsPlain words

theorem says_noValue {code : Code} {message : String} (plain : words.plain message) :
    Says words (noValue code message span) (Typed.IsPlain words) :=
  (says_mistake plain).map fun _ here ↦ here

theorem says_receiverValue (plain : setting.IsPlain words) :
    Says words (receiverValue setting span) (Typed.IsPlain words) := by
  unfold receiverValue
  split
  · exact .pure plain.ownerName.full
  · exact says_noValue (words.plain_of_lineFree (by decide))

theorem says_pathValue {segments : List Identifier}
    (plain : ∀ name ∈ segments, name.IsPlain words) :
    Says words (pathValue segments span) (Typed.IsPlain words) := by
  unfold pathValue
  split
  · refine (says_lookup _).bind fun found here ↦ ?_
    cases found with
    | some found => exact .pure (here found rfl).2.type
    | none =>
        exact says_noValue (words.plain_between (by decide) (plain _ List.mem_cons_self) (by decide))
  · exact says_noValue (words.plain_between (by decide) (plain_pathText plain) (by decide))

theorem isPlain_wantedElement {expected : Option Ty} (plain : IsPlain? words expected) :
    IsPlain? words (wantedElement expected) := by
  unfold wantedElement
  split
  · next element =>
      have here : (Ty.array element).IsPlain words := plain _ rfl
      exact fun type same ↦ Option.some.inj same ▸ here
  · next element =>
      have here : (Ty.seq element).IsPlain words := plain _ rfl
      exact fun type same ↦ Option.some.inj same ▸ here
  · exact nofun

theorem says_fieldValue (plain : setting.IsPlain words) {target : Typed} (target' : target.IsPlain words)
    {name : Identifier} (named : name.IsPlain words) :
    Says words (fieldValue setting target name) (Typed.IsPlain words) := by
  unfold fieldValue
  split
  · next fullName same =>
      have owner : words.plain fullName := by rwa [Typed.IsPlain, same] at target'
      split
      · next found => exact .pure (isPlain_fieldOf? plain.types found)
      · exact (says_mistake (words.plain_between_two (by decide) owner (by decide) named
          (by decide))).map fun _ here ↦ here
  · exact .pure trivial
  · exact (says_mistake (words.plain_between (by decide) (Ty.plain_text _ target')
      (by decide))).map fun _ here ↦ here

theorem says_checkedType {wanted : Option Ty} {found : Ty} (plain : IsPlain? words wanted)
    (plain' : found.IsPlain words) :
    Says words (checkedType wanted found span) fun type ↦ type.IsPlain words := by
  cases wanted with
  | some wanted => exact (says_check (plain wanted rfl) plain').map fun _ _ ↦ plain wanted rfl
  | none => exact .pure plain'

theorem says_itemType {target : Ty} (plain : target.IsPlain words) :
    Says words (itemType target span) fun type ↦ type.IsPlain words := by
  unfold itemType
  split
  · exact .pure plain
  · exact .pure trivial
  · exact .pure trivial
  · exact says_mistake (words.plain_append (words.plain_of_lineFree (by decide))
      (Ty.plain_text _ plain))

theorem says_newObject (plain : setting.IsPlain words) {name : Identifier}
    (named : name.IsPlain words) : Says words (newObject setting name) (Typed.IsPlain words) := by
  unfold newObject
  dsimp only
  split
  · exact .pure (plain_fullNameOf plain.types _)
  · exact says_noValue (words.plain_between (by decide) named (by decide))

theorem isPlain_unaryType (operator : UnaryOperator) : (unaryType operator).IsPlain words := by
  cases operator <;> trivial

theorem says_unaryValue (operator : UnaryOperator) {operand : Typed}
    (plain : operand.IsPlain words) :
    Says words (unaryValue operator operand span) (Typed.IsPlain words) := by
  refine .ite (.pure (isPlain_unaryType operator)) ((says_mistake ?_).map fun _ here ↦ here)
  exact words.plain_append
    (words.plain_between (by decide) (plain_unarySymbol operator) (by decide))
    (Ty.plain_text _ plain)

theorem says_badOperands (operator : BinaryOperator) {left right : Ty} (plain : left.IsPlain words)
    (plain' : right.IsPlain words) :
    Says words (badOperands operator left right span) fun type ↦ type.IsPlain words :=
  says_mistake (words.plain_append
    (words.plain_between_two (by decide) (plain_binarySymbol operator) (by decide)
      (Ty.plain_text _ plain) (by decide))
    (Ty.plain_text _ plain'))

theorem says_shortCircuit (operator : BinaryOperator) (code : List Op) {left right : Ty}
    (plain : left.IsPlain words) (plain' : right.IsPlain words) :
    Says words (shortCircuit operator code left right span) (Typed.IsPlain words) :=
  .ite (.pure trivial) ((says_badOperands operator plain plain').map fun _ here ↦ here)

theorem isPlain_binaryType? {operator : BinaryOperator} {left right type : Ty}
    (same : binaryType? operator left right = some type) : type.IsPlain words := by
  have sum (same : sumType? left right = some type) : type.IsPlain words := by
    unfold sumType? at same
    split at same
    · exact Option.some.inj same ▸ trivial
    · exact Option.some.inj same ▸ trivial
    · split at same
      · exact Option.some.inj same ▸ trivial
      · exact absurd same nofun
  unfold binaryType? at same
  split at same
  · exact Option.some.inj same ▸ trivial
  · split at same
    case h_7 => exact sum same
    case h_12 | h_13 => exact Option.some.inj same ▸ trivial
    all_goals
      split at same
      · exact Option.some.inj same ▸ trivial
      · exact absurd same nofun

theorem says_strictOperator (operator : BinaryOperator) (code : List Op) {left right : Ty}
    (plain : left.IsPlain words) (plain' : right.IsPlain words) :
    Says words (strictOperator operator code left right span) (Typed.IsPlain words) := by
  unfold strictOperator
  split
  · next found => exact .pure (isPlain_binaryType? found)
  · exact (says_badOperands operator plain plain').map fun _ here ↦ here

variable {left right : Pending} {arguments : PendingArguments}

theorem says_binaryValue (operator : BinaryOperator) (first : left.IsPlain words)
    (second : right.IsPlain words) :
    Says words (binaryValue operator left right span start) (Typed.IsPlain words) := by
  have bool : IsPlain? words (some .bool) := fun type same ↦ Option.some.inj same ▸ trivial
  unfold binaryValue
  split
  · exact (first _ bool _).bind fun _ here ↦ (second _ bool _).bind fun _ there ↦
      says_shortCircuit _ _ here there
  · exact (first _ bool _).bind fun _ here ↦ (second _ bool _).bind fun _ there ↦
      says_shortCircuit _ _ here there
  · exact (first none (fun _ same ↦ by cases same) _).bind fun _ here ↦
      (second none (fun _ same ↦ by cases same) _).bind fun _ there ↦
      says_strictOperator _ _ here there

/-! ### Calls -/

theorem says_checkArgument (accepted : Bool) (number : Nat) {callee : String} {wanted found : Ty}
    (named : words.plain callee) (plain : wanted.IsPlain words) (plain' : found.IsPlain words) :
    Says words (checkArgument accepted number callee wanted found span) fun _ ↦ True := by
  refine .ite (says_report ?_) (.pure trivial)
  exact words.plain_append (words.plain_append (words.plain_append (words.plain_append
    (words.plain_append
      (words.plain_between (by decide) (words.plain_toString number) (by decide)) named)
    (words.plain_of_lineFree (by decide))) (Ty.plain_text _ plain))
    (words.plain_of_lineFree (by decide))) (Ty.plain_text _ plain')

theorem says_checkedArguments (total : Nat) {parameters : List Ty} {callee : String}
    (before : List Op) (each : arguments.IsPlain words)
    (plain : ∀ type ∈ parameters, type.IsPlain words) (named : words.plain callee) :
    Says words (checkedArguments arguments total parameters callee span before start) fun result ↦
      IsPlain? words result.2 := by
  have rest := each parameters plain callee named 1 none nofun before.reverse
    (start + before.length)
  simp only [checkedArguments]
  refine .ite ((says_report ?_).bind fun _ _ ↦ rest) rest
  exact words.plain_append (words.plain_append (words.plain_of_lineFree (by decide)) named)
    (words.plain_between_two (by decide) (words.plain_toString _) (by decide)
      (words.plain_toString _) (by decide))

theorem says_uncheckedArguments (before : List Op) (each : arguments.IsPlain words) :
    Says words (uncheckedArguments arguments before start) fun _ ↦ True :=
  (each [] (List.forall_mem_nil _) "" (words.plain_of_lineFree (by decide)) 1 none nofun _ _).map
    fun _ _ ↦ trivial

theorem says_badCall (before : List Op) {code : Code} {message : String}
    (each : arguments.IsPlain words) (plain : words.plain message) :
    Says words (badCall arguments before start code message span) (Typed.IsPlain words) :=
  (says_uncheckedArguments before each).bind fun _ _ ↦ (says_mistake plain).map fun _ here ↦ here

theorem says_callValue {callee : Typed} (total : Nat) {what : String} (each : arguments.IsPlain words)
    (plain : callee.IsPlain words) (named : words.plain what) :
    Says words (callValue callee arguments total what span start) (Typed.IsPlain words) := by
  unfold callValue
  split
  · next parameters result same =>
      rw [Typed.IsPlain, same] at plain
      exact (says_checkedArguments _ _ each (Ty.arePlain_iff.mp plain.1) named).map
        fun _ _ ↦ plain.2
  · exact (says_uncheckedArguments _ each).map fun _ _ ↦ trivial
  · exact (says_uncheckedArguments _ each).map fun _ _ ↦ trivial
  · exact says_badCall _ each (words.plain_between_two (by decide) named (by decide)
      (Ty.plain_text _ plain) (by decide))

theorem says_implicitReceiver {method : MethodInfo} (plain : method.IsPlain words) :
    Says words (implicitReceiver setting method span) fun _ ↦ True := by
  unfold implicitReceiver
  refine .ite (.pure trivial) ?_
  split
  · exact .pure trivial
  · exact (says_report (words.plain_between (by decide) plain.name (by decide))).map
      fun _ _ ↦ trivial

theorem says_callMethod {method : MethodInfo} (receiver : List Op) (total : Nat)
    (each : arguments.IsPlain words) (plain : method.IsPlain words) :
    Says words (callMethod method receiver arguments total span start) (Typed.IsPlain words) :=
  (says_checkedArguments _ _ each plain.parameters plain.name).map fun _ _ ↦ plain.result

theorem says_checkVisible (plain : setting.IsPlain words) (type : Bytecode.TypeIndex)
    {method : MethodInfo} (plain' : method.IsPlain words) :
    Says words (checkVisible setting type method span) fun _ ↦ True :=
  .ite (says_report (words.plain_between_two (by decide) plain'.name (by decide)
    (plain_fullNameOf plain.types type) (by decide))) (.pure trivial)

theorem says_callName (plain : setting.IsPlain words) {name : Identifier}
    (named : name.IsPlain words) (total : Nat) (each : arguments.IsPlain words) :
    Says words (callName setting name arguments total span start) (Typed.IsPlain words) := by
  unfold callName
  refine (says_lookup _).bind fun found here ↦ ?_
  cases found with
  | some found => exact says_callValue _ each (here found rfl).2.type named
  | none =>
      dsimp only
      split
      · next method found =>
          have plain' := isPlain_methodOf? plain.types found
          exact (says_implicitReceiver plain').bind fun _ _ ↦ says_callMethod _ _ each plain'
      · exact says_badCall _ each (words.plain_between (by decide) named (by decide))

theorem says_callStatic (plain : setting.IsPlain words) (type : Bytecode.TypeIndex) {path : String}
    (called : words.plain path) (function : Identifier) (total : Nat)
    (each : arguments.IsPlain words) :
    Says words (callStatic setting type path function arguments total span start)
      (Typed.IsPlain words) := by
  unfold callStatic
  split
  · next method found =>
      have plain' := isPlain_methodOf? plain.types found
      exact .ite
        ((says_checkVisible plain type plain').bind fun _ _ ↦ says_callMethod _ _ each plain')
        (says_badCall _ each (words.plain_between (by decide) called (by decide)))
  · exact says_badCall _ each (words.plain_between (by decide) called (by decide))

theorem says_callHostFunction {binding : ModuleBinding} {path : String} (called : words.plain path)
    (function : Identifier) (total : Nat)
    (signatures : ∀ function ∈ binding.host.functions, function.IsPlain words)
    (each : arguments.IsPlain words) :
    Says words (callHostFunction binding path function arguments total span start)
      (Typed.IsPlain words) := by
  unfold callHostFunction
  split
  · next host found =>
      have plain := signatures host (List.mem_of_find?_eq_some found)
      refine (says_checkedArguments _ _ each plain.parameters called).bind fun result bound ↦ ?_
      exact (says_onDraft (Draft.says_importIndex _)).map fun _ _ ↦
        Ty.isPlain_substitute bound _ plain.result
  · exact says_badCall _ each (words.plain_between (by decide) called (by decide))

theorem says_callPath (plain : setting.IsPlain words) {qualifier function : Identifier}
    (qualified : qualifier.IsPlain words) (named : function.IsPlain words) (total : Nat)
    (each : arguments.IsPlain words) :
    Says words (callPath setting qualifier function arguments total span start)
      (Typed.IsPlain words) := by
  have path : words.plain (qualifier.name ++ "::" ++ function.name) :=
    words.plain_append (words.plain_append qualified (words.plain_of_lineFree (by decide))) named
  unfold callPath
  dsimp only
  split
  · exact says_callStatic plain _ path _ _ each
  · split
    · next binding found =>
        exact says_callHostFunction path _ _
          (plain.references binding (List.mem_of_find?_eq_some found)) each
    · exact says_badCall _ each
        (words.plain_between_two (by decide) qualified (by decide) path (by decide))

theorem says_callNamed (plain : setting.IsPlain words) {segments : List Identifier}
    (named : ∀ name ∈ segments, name.IsPlain words) (calleeSpan : Span) (total : Nat)
    (each : arguments.IsPlain words) :
    Says words (callNamed setting segments calleeSpan arguments total span start)
      (Typed.IsPlain words) := by
  unfold callNamed
  split
  · exact says_callName plain (named _ List.mem_cons_self) _ each
  · exact says_callPath plain (named _ List.mem_cons_self)
      (named _ (List.mem_cons_of_mem _ List.mem_cons_self)) _ each
  · exact says_badCall _ each
      (words.plain_between (by decide) (plain_pathText named) (by decide))

theorem says_callOnTarget (plain : setting.IsPlain words) {target : Typed}
    (target' : target.IsPlain words) {method : Identifier} (named : method.IsPlain words)
    (total : Nat) (each : arguments.IsPlain words) :
    Says words (callOnTarget setting target method arguments total span start)
      (Typed.IsPlain words) := by
  unfold callOnTarget
  split
  · next fullName same =>
      have owner : words.plain fullName := by rwa [Typed.IsPlain, same] at target'
      dsimp only
      split
      · next type info found =>
          have plain' : info.IsPlain words := by
            rw [Option.bind_eq_bind, Option.bind_eq_some_iff] at found
            obtain ⟨_, -, found⟩ := found
            rw [Option.bind_eq_bind, Option.bind_eq_some_iff] at found
            obtain ⟨_, here, same⟩ := found
            obtain ⟨-, rfl⟩ := Prod.mk.inj (Option.some.inj same)
            exact isPlain_methodOf? plain.types here
          refine .ite (says_badCall _ each ?_) ((says_checkVisible plain type plain').bind
            fun _ _ ↦ says_callMethod _ _ each plain')
          exact words.plain_append (words.plain_append
            (words.plain_between_two (by decide) named (by decide) owner (by decide)) named)
            (words.plain_of_lineFree (by decide))
      · exact says_badCall _ each
          (words.plain_between_two (by decide) owner (by decide) named (by decide))
  · exact (says_uncheckedArguments _ each).map fun _ _ ↦ trivial
  · exact says_badCall _ each (words.plain_between_two (by decide) (Ty.plain_text _ target')
      (by decide) named (by decide))

/-! ### Lambdas -/

/-- The name and the type of a captured variable are plain. -/
structure Capture.IsPlain (words : Vocabulary) (capture : Capture) : Prop where
  name : words.plain capture.name
  type : capture.type.IsPlain words

theorem says_captureOf (plain : setting.IsPlain words) (parameters : List Identifier)
    (name : String) : Says words (captureOf setting parameters name) fun found ↦
      ∀ capture ∈ found.toList, capture.IsPlain words := by
  unfold captureOf
  split
  · next same =>
      refine .pure fun capture inside ↦ ?_
      obtain ⟨slot, -, rfl⟩ := Option.map_eq_some_iff.mp (Option.mem_toList.mp inside)
      have receiver : words.plain Mentions.receiverName := words.plain_of_lineFree (by decide)
      exact ⟨same.symm ▸ receiver, plain.ownerName.full⟩
  · refine .ite (.pure (List.forall_mem_nil _)) ((says_lookup name).bind fun found here ↦ .pure ?_)
    intro capture inside
    obtain ⟨present, rfl, rfl⟩ := Option.map_eq_some_iff.mp (Option.mem_toList.mp inside)
    obtain ⟨rfl, plain'⟩ := here present rfl
    exact ⟨plain'.name, plain'.type⟩

theorem says_capturesOf (plain : setting.IsPlain words) (parameters : List Identifier) :
    (mentioned : List String) → Says words (capturesOf setting parameters mentioned) fun captures ↦
      ∀ capture ∈ captures, capture.IsPlain words
  | [] => .pure (List.forall_mem_nil _)
  | name :: rest => by
      rw [capturesOf_cons]
      exact (says_captureOf plain parameters name).bind fun _ here ↦
        (says_capturesOf plain parameters rest).bind fun _ there ↦
          .pure (List.forall_mem_append.mpr ⟨here, there⟩)

theorem isPlain_lambdaSignature (count : Nat) {expected : Option Ty}
    (plain : IsPlain? words expected) :
    (∀ type ∈ (lambdaSignature count expected).1, type.IsPlain words) ∧
      (lambdaSignature count expected).2.IsPlain words := by
  have open' : ∀ type ∈ List.replicate count Ty.dyn, type.IsPlain words :=
    fun type inside ↦ List.eq_of_mem_replicate inside ▸ trivial
  unfold lambdaSignature
  split
  · next parameters result =>
      have here : (Ty.function parameters result).IsPlain words := plain _ rfl
      split
      · exact ⟨Ty.arePlain_iff.mp here.1, here.2⟩
      · exact ⟨open', trivial⟩
  · exact ⟨open', trivial⟩

theorem says_declareCaptures : {captures : List Capture} →
    (∀ capture ∈ captures, capture.IsPlain words) →
    Says words (declareCaptures captures) fun _ ↦ True
  | [], _ => .pure trivial
  | capture :: rest, plain => by
      obtain ⟨here, others⟩ := List.forall_mem_cons.mp plain
      rw [declareCaptures]
      exact (says_declareLocal none here.name here.type).bind fun _ _ ↦ says_declareCaptures others

theorem says_declareParameter {name : Identifier} {type : Ty} (named : name.IsPlain words)
    (plain : type.IsPlain words) : Says words (declareParameter name type) fun _ ↦ True := by
  have local' : Says words (declareLocal name.name type none >>= fun _ ↦ Pure.pure ()) fun _ ↦ True :=
    (says_declareLocal none named plain).map fun _ _ ↦ trivial
  simp only [declareParameter]
  refine Maintains.andThen (fun body kept ↦ ⟨trivial, kept⟩) fun body ↦ ?_
  exact .ite ((says_report (words.plain_between (by decide) named (by decide))).bind
    fun _ _ ↦ local') local'

theorem says_declareParameters : {parameters : List (Identifier × Ty)} →
    (∀ parameter ∈ parameters, parameter.1.IsPlain words ∧ parameter.2.IsPlain words) →
    Says words (declareParameters parameters) fun _ ↦ True
  | [], _ => .pure trivial
  | (name, type) :: rest, plain => by
      obtain ⟨here, others⟩ := List.forall_mem_cons.mp plain
      rw [declareParameters]
      exact (says_declareParameter here.1 here.2).bind fun _ _ ↦ says_declareParameters others

/-- Names and types of parameters that are plain are plain side by side. -/
theorem isPlain_zip {names : List Identifier} {types : List Ty}
    (named : ∀ name ∈ names, name.IsPlain words) (plain : ∀ type ∈ types, type.IsPlain words) :
    ∀ parameter ∈ names.zip types, parameter.1.IsPlain words ∧ parameter.2.IsPlain words :=
  fun _ inside ↦ ⟨named _ (List.of_mem_zip inside).1, plain _ (List.of_mem_zip inside).2⟩

theorem says_lambdaValue (plain : setting.IsPlain words) {parameters : List Identifier}
    (named : ∀ name ∈ parameters, name.IsPlain words) (mentioned : List String)
    {expected : Option Ty} (wanted : IsPlain? words expected)
    {inside : Setting → Lowering Typed}
    (body : ∀ {setting : Setting}, setting.IsPlain words →
      Says words (inside setting) (Typed.IsPlain words)) :
    Says words (lambdaValue setting parameters mentioned inside expected) (Typed.IsPlain words) := by
  obtain ⟨types, result⟩ := isPlain_lambdaSignature parameters.length wanted
  refine (says_capturesOf plain parameters mentioned).bind fun captures captured ↦ ?_
  unfold closureValue
  generalize lambdaSignature parameters.length expected = signature at types result
  refine (says_onDraft Draft.says_nextLambda).bind fun number _ ↦ ?_
  have inner : (setting.inside number captures signature.2).IsPlain words :=
    ⟨plain.references, plain.types, plain.ownerName, result⟩
  have within : Says words (lambdaInside captures (parameters.zip signature.1)
      (inside (setting.inside number captures signature.2))) (Typed.IsPlain words) :=
    (says_declareCaptures captured).bind fun _ _ ↦
      (says_declareParameters (isPlain_zip named types)).bind fun _ _ ↦ body inner
  exact (says_onDraft (says_addRoutine _ _ within)).map fun _ here ↦
    ⟨Ty.arePlain_iff.mpr types, here⟩

end Expressions

/-! ## Statements -/

section Statements

open Lowering

variable {setting : Setting} {start : Nat} {span : Span} {value : Pending}

theorem says_declareValue {name : Identifier} {declared : Option Ty} {value : Typed}
    (named : name.IsPlain words) (plain : IsPlain? words declared) (plain' : value.IsPlain words) :
    Says words (declareValue name declared value span) fun _ ↦ True :=
  (says_checkedType plain plain').bind fun _ here ↦
    (says_declareLocal _ named here).map fun _ _ ↦ trivial

theorem isPlain?_some {type : Ty} (plain : type.IsPlain words) : IsPlain? words (some type) :=
  fun _ same ↦ Option.some.inj same ▸ plain

theorem says_assignVariable {name : Identifier} (named : name.IsPlain words)
    (each : value.IsPlain words) : Says words (assignVariable name value span start) fun _ ↦ True := by
  unfold assignVariable
  refine (says_lookupTarget _).bind fun found here ↦ ?_
  cases found with
  | some found =>
      have plain := (here found rfl).type
      exact (each _ (isPlain?_some plain) _).bind fun _ there ↦
        (says_check plain there).map fun _ _ ↦ trivial
  | none =>
      exact (says_report (words.plain_between (by decide) named (by decide))).bind fun _ _ ↦
        (each none nofun _).map fun _ _ ↦ trivial

theorem says_assignField (plain : setting.IsPlain words) {name : Identifier}
    (named : name.IsPlain words) (valueSpan : Span) (each : value.IsPlain words) :
    Says words (assignField setting name value valueSpan span start) fun _ ↦ True := by
  unfold assignField
  split
  · exact (says_report (words.plain_of_lineFree (by decide))).bind fun _ _ ↦
      (each none nofun _).map fun _ _ ↦ trivial
  · split
    · exact (says_report (words.plain_between_two (by decide) plain.ownerName.full (by decide) named
        (by decide))).bind fun _ _ ↦ (each none nofun _).map fun _ _ ↦ trivial
    · next found =>
        have here := isPlain_fieldOf? plain.types found
        exact (each _ (isPlain?_some here) _).bind fun _ there ↦
          (says_check here there).map fun _ _ ↦ trivial

theorem says_condition (each : value.IsPlain words) :
    Says words (condition value span start) fun _ ↦ True :=
  have bool : Ty.bool.IsPlain words := trivial
  (each _ (isPlain?_some bool) _).bind fun _ here ↦ (says_check bool here).map fun _ _ ↦ trivial

theorem says_discard (each : value.IsPlain words) :
    Says words (discard value span start) fun _ ↦ True := by
  refine (each none nofun _).bind fun typed _ ↦ Maintains.forget ?_
  unfold warnDiscarded
  split
  · exact says_onDraft (Draft.says_warn rfl (words.plain_of_lineFree (by decide)))
  · exact .pure trivial

theorem says_returnNothing (plain : setting.IsPlain words) :
    Says words (returnNothing setting span) fun _ ↦ True := by
  simp only [returnNothing]
  refine .ite ((says_report ?_).map fun _ _ ↦ trivial) (.pure trivial)
  exact words.plain_append (words.plain_of_lineFree (by decide)) (Ty.plain_text _ plain.result)

theorem says_returnValue (plain : setting.IsPlain words) (each : value.IsPlain words) :
    Says words (returnValue setting value span start) fun _ ↦ True :=
  (each _ (isPlain?_some plain.result) _).bind fun _ here ↦
    (says_check plain.result here).map fun _ _ ↦ trivial

theorem says_elementType {iterated : Ty} (plain : iterated.IsPlain words) :
    Says words (elementType iterated span) fun type ↦ type.IsPlain words := by
  unfold elementType
  split
  · next element found =>
      refine .pure ?_
      unfold Ty.element? at found
      split at found
      case h_5 => exact absurd found nofun
      all_goals exact Option.some.inj found ▸ plain
  · exact says_mistake (words.plain_append (words.plain_of_lineFree (by decide))
      (Ty.plain_text _ plain))

theorem says_forEachLoop {binding : Identifier} (named : binding.IsPlain words) (iterableSpan : Span)
    {inside : Nat → Lowering (List Op)} (each : value.IsPlain words)
    (body : ∀ start, Says words (inside start) fun _ ↦ True) :
    Says words (forEachLoop binding value iterableSpan inside start) fun _ ↦ True := by
  refine (each none nofun _).bind fun _ here ↦ (says_elementType here).bind fun _ element ↦ ?_
  exact says_allocate.bind fun _ _ ↦ says_openScope.bind fun _ _ ↦
    (says_declareLocal none named element).bind fun _ _ ↦ (body _).bind fun _ _ ↦
      says_closeScope.map fun _ _ ↦ trivial

end Statements

/-! ## The walk -/

section Walk

open Lowering

mutual

theorem says_expression : (value : Expression) → {setting : Setting} → setting.IsPlain words →
    value.IsPlain words → Pending.IsPlain words (expression setting value)
  | .int .., _, _, _, _, _, _ | .str .., _, _, _, _, _, _ | .bool .., _, _, _, _, _, _ =>
      .pure trivial
  | .array values _, setting, plain, named, expected, wanted, start => by
      rw [expression]
      refine (says_items values plain named (isPlain_wantedElement wanted) [] start).map
        fun result here ↦ ?_
      cases element : result.2 with
      | none => trivial
      | some type => exact here type element
  | .receiver _, _, plain, _, _, _, _ => says_receiverValue plain
  | .path segments _, _, _, named, _, _, _ => says_pathValue named
  | .call callee values span, setting, plain, named, expected, wanted, start => by
      have each := says_arguments values plain named.2
      cases callee with
      | path segments calleeSpan =>
          rw [expression]
          exact says_callNamed plain named.1 _ _ each
      | _ =>
          rw [expression]
          · exact (says_expression _ plain named.1 none nofun _).bind fun _ here ↦
              says_callValue _ each here (words.plain_of_lineFree (by decide))
          · exact nofun
  | .method target name values span, setting, plain, named, expected, wanted, start => by
      rw [expression]
      exact (says_expression target plain named.1 none nofun _).bind fun _ here ↦
        says_callOnTarget plain here named.2.1 _ (says_arguments values plain named.2.2)
  | .field target name _, setting, plain, named, expected, wanted, start => by
      rw [expression]
      exact (says_expression target plain named.1 none nofun _).bind fun _ here ↦
        says_fieldValue plain here named.2
  | .element target index _, setting, plain, named, expected, wanted, start => by
      have int : Ty.int.IsPlain words := trivial
      rw [expression]
      exact (says_expression target plain named.1 none nofun _).bind fun _ here ↦
        (says_expression index plain named.2 _ (isPlain?_some int) _).bind fun _ there ↦
          (says_check int there).bind fun _ _ ↦ (says_itemType here).map fun _ type ↦ type
  | .construct name _, _, plain, named, _, _, _ => says_newObject plain named
  | .lambda parameters body _, setting, plain, named, expected, wanted, start => by
      rw [expression]
      exact says_lambdaValue plain named.1 _ wanted fun inner ↦ says_lambdaBody body inner named.2
  | .unary operator operand _, setting, plain, named, expected, wanted, start => by
      rw [expression]
      exact (says_expression operand plain named _
        (isPlain?_some (isPlain_unaryType operator)) _).bind fun _ here ↦
          says_unaryValue operator here
  | .binary operator left right _, setting, plain, named, expected, wanted, start => by
      rw [expression]
      exact says_binaryValue operator (says_expression left plain named.1)
        (says_expression right plain named.2)

theorem says_items : (values : List Expression) → {setting : Setting} → setting.IsPlain words →
    arePlain words values → {element : Option Ty} → IsPlain? words element → (before : List Op) →
    (start : Nat) →
    Says words (items setting values element before start) fun result ↦ IsPlain? words result.2
  | [], _, _, _, _, wanted, _, _ => .pure wanted
  | item :: rest, setting, plain, named, element, wanted, before, start => by
      rw [items]
      exact (says_expression item plain named.1 _ wanted _).bind fun _ here ↦
        (says_checkedType wanted here).bind fun _ there ↦
          says_items rest plain named.2 (isPlain?_some there) _ _

theorem says_arguments : (values : List Expression) → {setting : Setting} → setting.IsPlain words →
    arePlain words values → PendingArguments.IsPlain words (arguments setting values)
  | [], _, _, _ => fun _ _ _ _ _ _ bound _ _ ↦ .pure bound
  | argument :: rest, setting, plain, named => by
      intro parameters plain' callee called number binding bound before start
      have others (parameters : List Ty) (plain' : ∀ type ∈ parameters, type.IsPlain words) :=
        says_arguments rest plain named.2 parameters plain' callee called (number + 1)
      cases parameters with
      | nil =>
          rw [arguments]
          exact (says_expression argument plain named.1 none nofun _).bind fun _ _ ↦
            others [] plain' _ bound _ _
      | cons wanted parameters =>
          obtain ⟨here, further⟩ := List.forall_mem_cons.mp plain'
          have substituted := Ty.isPlain_substitute bound wanted here
          rw [arguments]
          refine (says_expression argument plain named.1 _ (isPlain?_some substituted) _).bind
            fun typed there ↦ ?_
          have after := Ty.isPlain_accepts wanted typed.type binding here there bound
          generalize wanted.accepts typed.type binding = compared at after ⊢
          obtain ⟨accepted, bound'⟩ := compared
          exact (says_checkArgument accepted number called
            (Ty.isPlain_substitute after wanted here) there).bind fun _ _ ↦
              others parameters further _ after _ _

theorem says_lambdaBody : (body : LambdaBody) → {setting : Setting} → setting.IsPlain words →
    body.IsPlain words → Says words (lambdaBody setting body) (Typed.IsPlain words)
  | .expression value, setting, plain, named => by
      rw [lambdaBody]
      refine (says_expression value plain named _ (isPlain?_some plain.result) _).bind fun _ here ↦
        (says_check plain.result here).map fun _ _ ↦ ?_
      dsimp only [Typed.IsPlain]
      split
      · exact here
      · exact plain.result
  | .block body, setting, plain, named => by
      rw [lambdaBody]
      exact (says_block body plain named 0).map fun _ _ ↦ plain.result

theorem says_block : (body : Block) → {setting : Setting} → setting.IsPlain words →
    body.IsPlain words → (start : Nat) → Says words (block setting body start) fun _ ↦ True
  | .mk inside _, setting, plain, named, start => by
      rw [block]
      exact says_openScope.bind fun _ _ ↦ (says_statements inside plain named _ _).bind fun _ _ ↦
        says_closeScope.map fun _ _ ↦ trivial

theorem says_statements : (body : List Statement) → {setting : Setting} → setting.IsPlain words →
    statementsArePlain words body → (before : List Op) → (start : Nat) →
    Says words (statements setting body before start) fun _ ↦ True
  | [], _, _, _, _, _ => .pure trivial
  | first :: rest, setting, plain, named, before, start => by
      rw [statements]
      exact (says_statement first plain named.1 start).bind fun _ _ ↦
        says_statements rest plain named.2 _ _

theorem says_statement : (one : Statement) → {setting : Setting} → setting.IsPlain words →
    one.IsPlain words → (start : Nat) → Says words (statement setting one start) fun _ ↦ True
  | .declare name none value _, setting, plain, named, start => by
      rw [statement]
      exact Maintains.bind (.pure rfl) fun declared same ↦
        (says_expression value plain named.2 _ (same ▸ nofun) _).bind fun _ here ↦
          says_declareValue named.1 (same ▸ nofun) here
  | .declare name (some written) value _, setting, plain, named, start => by
      rw [statement]
      refine (says_resolve plain named.2.1).bind fun type there ↦
        Maintains.bind (.pure rfl) fun declared same ↦ ?_
      have wanted : IsPlain? words declared := same ▸ isPlain?_some there
      exact (says_expression value plain named.2.2 _ wanted _).bind fun _ here ↦
        says_declareValue named.1 wanted here
  | .assign (.binding name) value _, setting, plain, named, start => by
      rw [statement]
      exact says_assignVariable named.1 (says_expression value plain named.2)
  | .assign (.field name) value _, setting, plain, named, start => by
      rw [statement]
      exact says_assignField plain named.1 _ (says_expression value plain named.2)
  | .forEach binding iterable body _, setting, plain, named, start => by
      rw [statement]
      exact says_forEachLoop named.1 _ (says_expression iterable plain named.2.1)
        (says_block body plain named.2.2)
  | .whileLoop test body _, setting, plain, named, start => by
      rw [statement]
      exact (says_condition (says_expression test plain named.1)).bind fun _ _ ↦
        (says_block body plain named.2 _).map fun _ _ ↦ trivial
  | .conditional test body other _, setting, plain, named, start => by
      have tested (start : Nat) :
          Says words (condition (expression setting test) test.span start) fun _ ↦ True :=
        says_condition (says_expression test plain named.1)
      cases other with
      | absent =>
          rw [statement]
          exact (tested _).bind fun _ _ ↦ (says_block body plain named.2.1 _).map fun _ _ ↦ trivial
      | block | chain =>
          rw [statement]
          · exact (tested _).bind fun _ _ ↦ (says_block body plain named.2.1 _).bind fun _ _ ↦
              (says_alternative _ plain named.2.2 _).map fun _ _ ↦ trivial
          · exact nofun
  | .returns none _, setting, plain, _, _ => by
      rw [statement]
      exact says_returnNothing plain
  | .returns (some value) _, setting, plain, named, start => by
      rw [statement]
      exact says_returnValue plain (says_expression value plain named)
  | .evaluate value, setting, plain, named, start => by
      rw [statement]
      exact says_discard (says_expression value plain named)

theorem says_alternative : (other : Alternative) → {setting : Setting} → setting.IsPlain words →
    other.IsPlain words → (start : Nat) → Says words (alternative setting other start) fun _ ↦ True
  | .absent, _, _, _, _ => .pure trivial
  | .block body, setting, plain, named, start => by
      rw [alternative]
      exact says_block body plain named start
  | .chain conditional, setting, plain, named, start => by
      rw [alternative]
      exact says_statement conditional plain named start

end

end Walk

end Compile

end GuestScript
