import GuestScript.Compile.Unit
import GuestScript.Meaning.Static

/-!
# Compiling only adds

While a body is compiled, the draft only grows: findings, imports and routines are added and those
that are there stay as they are. `Grows count` says this of an action, and that it numbers `count`
lambdas. An expression also leaves the variables in scope and the next free slot as they are, which
is `Steady count`. Both hold of what is compiled to code that is never used, too, so a mistake that
is found later on says nothing about what was compiled before.
-/

namespace GuestScript.Compile

open Bytecode (Import Op Routine)
open Meaning (Scope Variable)
open Syntax

/-! ## Drafts -/

namespace Draft

/-- One draft has all that another one has. -/
structure Extends (before after : Draft) : Prop where
  findings : ∃ added, after.findings = added ++ before.findings
  imports : ∀ {index : Nat} {imported : Import}, before.imports[index]? = some imported →
    after.imports[index]? = some imported
  size : before.routines.size ≤ after.routines.size
  routines : ∀ {index : Nat}, index < before.routines.size →
    after.routines[index]? = before.routines[index]?

variable {before middle after : Draft}

theorem Extends.refl (draft : Draft) : draft.Extends draft :=
  ⟨⟨[], rfl⟩, id, Nat.le_refl _, fun _ ↦ rfl⟩

theorem Extends.trans (first : before.Extends middle) (second : middle.Extends after) :
    before.Extends after := by
  obtain ⟨added, same⟩ := first.findings
  obtain ⟨more, same'⟩ := second.findings
  refine ⟨⟨more ++ added, by rw [same', same, List.append_assoc]⟩,
    fun known ↦ second.imports (first.imports known), Nat.le_trans first.size second.size, ?_⟩
  intro index inside
  rw [second.routines (Nat.lt_of_lt_of_le inside first.size), first.routines inside]

/-- One draft differs from another one in findings alone, which are added. -/
def Notes (before after : Draft) : Prop :=
  ∃ added, after = { before with findings := added ++ before.findings }

namespace Notes

theorem refl (draft : Draft) : draft.Notes draft :=
  ⟨[], rfl⟩

theorem trans (first : before.Notes middle) (second : middle.Notes after) :
    before.Notes after := by
  obtain ⟨added, rfl⟩ := first
  obtain ⟨more, rfl⟩ := second
  exact ⟨more ++ added, by rw [List.append_assoc]⟩

theorem note (finding : Diagnostic Span) (draft : Draft) :
    draft.Notes (Draft.note finding draft).2 :=
  ⟨[finding], rfl⟩

theorem imports (notes : before.Notes after) : after.imports = before.imports := by
  obtain ⟨_, rfl⟩ := notes
  rfl

theorem routines (notes : before.Notes after) : after.routines = before.routines := by
  obtain ⟨_, rfl⟩ := notes
  rfl

theorem lambdas (notes : before.Notes after) : after.lambdas = before.lambdas := by
  obtain ⟨_, rfl⟩ := notes
  rfl

theorem extends' (notes : before.Notes after) : before.Extends after := by
  obtain ⟨added, rfl⟩ := notes
  exact ⟨⟨added, rfl⟩, id, Nat.le_refl _, fun _ ↦ rfl⟩

end Notes

/-- No error has been found. -/
def Quiet (draft : Draft) : Prop :=
  ∀ finding ∈ draft.findings, finding.severity ≠ .error

/-- What has not been found in the end has not been found before. -/
theorem Quiet.of_extends (quiet : after.Quiet) (extends' : before.Extends after) :
    before.Quiet := by
  obtain ⟨added, same⟩ := extends'.findings
  intro finding inside
  exact quiet finding (same ▸ List.mem_append_right added inside)

theorem extends_note (finding : Diagnostic Span) (draft : Draft) :
    draft.Extends (note finding draft).2 :=
  ⟨⟨[finding], rfl⟩, id, Nat.le_refl _, fun _ ↦ rfl⟩

/-- After an error has been reported, a draft is not quiet. -/
theorem not_quiet_report (code : Code) (message : String) (span : Span) (draft : Draft) :
    ¬ (report code message span draft).2.Quiet := by
  intro quiet
  exact quiet (.error code message span) List.mem_cons_self rfl

/-- Whether an import is the wanted one, in whatever version. -/
def isImport (wanted present : Import) : Bool :=
  present.moduleName = wanted.moduleName && present.function = wanted.function

/-- An import that is there is found, and any other is added. -/
theorem importIndex_apply (wanted : Import) (draft : Draft) :
    importIndex wanted draft = match draft.imports.findIdx? (isImport wanted) with
      | some index => (index, draft)
      | none => (draft.imports.size, { draft with imports := draft.imports.push wanted }) := by
  change (match draft.imports.findIdx? (isImport wanted) with
    | some index => (pure index : Drafting _)
    | none => do
        set { draft with imports := draft.imports.push wanted }
        pure draft.imports.size) draft = _
  cases draft.imports.findIdx? (isImport wanted) <;> rfl

theorem extends_importIndex (wanted : Import) (draft : Draft) :
    draft.Extends (importIndex wanted draft).2 ∧
      (importIndex wanted draft).2.lambdas = draft.lambdas := by
  rw [importIndex_apply]
  cases draft.imports.findIdx? (isImport wanted) with
  | some index => exact ⟨.refl draft, rfl⟩
  | none =>
      refine ⟨⟨⟨[], rfl⟩, ?_, Nat.le_refl _, fun _ ↦ rfl⟩, rfl⟩
      intro index imported known
      have inside := (Array.getElem?_eq_some_iff.mp known).1
      change (draft.imports.push wanted)[index]? = some imported
      rw [Array.getElem?_push_lt inside, ← Array.getElem?_eq_getElem inside, known]

theorem extends_reserve (routine : Routine) (draft : Draft) :
    draft.Extends (reserve routine draft).2 := by
  refine ⟨⟨[], rfl⟩, id, ?_, ?_⟩
  · change draft.routines.size ≤ (draft.routines.push routine).size
    rw [Array.size_push]
    exact Nat.le_succ _
  · intro index inside
    change (draft.routines.push routine)[index]? = _
    rw [Array.getElem?_push_lt inside, Array.getElem?_eq_getElem inside]

/-- Completing a routine that came later leaves what was there before as it is. -/
theorem Extends.complete {index : Nat} (grown : before.Extends after)
    (later : before.routines.size ≤ index) (code : List Op) (locals : Nat) :
    before.Extends (complete index code locals after).2 := by
  refine ⟨grown.findings, grown.imports, ?_, ?_⟩
  · change _ ≤ (after.routines.modify index _).size
    rw [Array.size_modify]
    exact grown.size
  · intro other inside
    change (after.routines.modify index _)[other]? = _
    rw [Array.getElem?_modify, if_neg (by omega), grown.routines inside]

end Draft

/-! ## Bodies -/

/-- What the code of a body can tell of a local variable. -/
def Local.variable (present : Local) : Variable Nat :=
  ⟨present.name, present.type, present.slot⟩

/-- The variables in scope by their scopes, the innermost first. -/
def Body.view (body : Body) : List (Scope Nat) :=
  body.scopes.map (List.map Local.variable)

/-- The variables in scope. -/
def Body.scope (body : Body) : Scope Nat :=
  body.view.flatten

namespace Lowering

variable {Value Other : Type} {count more total : Nat}

/-- An action only adds to the draft, and it numbers so many lambdas. -/
def Grows (count : Nat) (action : Lowering Value) : Prop :=
  ∀ body, body.draft.Extends (action body).2.draft ∧
    (action body).2.draft.lambdas = body.draft.lambdas + count

/-- An action that grows leaves the variables in scope and the next free slot as they are. -/
def Steady (count : Nat) (action : Lowering Value) : Prop :=
  Grows count action ∧
    ∀ body, (action body).2.view = body.view ∧ (action body).2.nextSlot = body.nextSlot

/-! ### Composition -/

theorem bind_apply (action : Lowering Value) (next : Value → Lowering Other) (body : Body) :
    (action >>= next) body = next (action body).1 (action body).2 :=
  rfl

theorem Grows.pure (value : Value) : Grows 0 (Pure.pure value : Lowering Value) :=
  fun body ↦ ⟨.refl body.draft, rfl⟩

theorem Grows.bind {action : Lowering Value} {next : Value → Lowering Other}
    (first : Grows count action) (second : ∀ value, Grows more (next value))
    (sum : count + more = total) : Grows total (action >>= next) := by
  intro body
  obtain ⟨extends', numbered⟩ := first body
  obtain ⟨extends'', numbered'⟩ := second (action body).1 (action body).2
  rw [bind_apply, ← sum]
  exact ⟨extends'.trans extends'', by rw [numbered', numbered, Nat.add_assoc]⟩

theorem Grows.ite {condition : Prop} [Decidable condition] {action other : Lowering Value}
    (first : Grows count action) (second : Grows count other) :
    Grows count (if condition then action else other) := by
  split
  · exact first
  · exact second

theorem Steady.pure (value : Value) : Steady 0 (Pure.pure value : Lowering Value) :=
  ⟨.pure value, fun _ ↦ ⟨rfl, rfl⟩⟩

theorem Steady.bind {action : Lowering Value} {next : Value → Lowering Other}
    (first : Steady count action) (second : ∀ value, Steady more (next value))
    (sum : count + more = total) : Steady total (action >>= next) := by
  refine ⟨first.1.bind (fun value ↦ (second value).1) sum, fun body ↦ ?_⟩
  obtain ⟨view, slot⟩ := first.2 body
  obtain ⟨view', slot'⟩ := (second (action body).1).2 (action body).2
  exact ⟨view'.trans view, slot'.trans slot⟩

theorem Steady.ite {condition : Prop} [Decidable condition] {action other : Lowering Value}
    (first : Steady count action) (second : Steady count other) :
    Steady count (if condition then action else other) := by
  split
  · exact first
  · exact second

/-- A result is computed from that of an action that does all the work. -/
theorem Steady.map {action : Lowering Value} {make : Value → Other}
    (first : Steady count action) :
    Steady count (action >>= fun value ↦ Pure.pure (make value)) :=
  first.bind (fun value ↦ .pure (make value)) (Nat.add_zero count)

theorem Grows.map {action : Lowering Value} {make : Value → Other} (first : Grows count action) :
    Grows count (action >>= fun value ↦ Pure.pure (make value)) :=
  first.bind (fun value ↦ .pure (make value)) (Nat.add_zero count)

/-- Something is done before an action that does all the work. -/
theorem Steady.after {action : Lowering Value} {next : Value → Lowering Other}
    (first : Steady 0 action) (second : ∀ value, Steady count (next value)) :
    Steady count (action >>= next) :=
  first.bind second (Nat.zero_add count)

theorem Grows.after {action : Lowering Value} {next : Value → Lowering Other}
    (first : Grows 0 action) (second : ∀ value, Grows count (next value)) :
    Grows count (action >>= next) :=
  first.bind second (Nat.zero_add count)

/-- Something is done after an action that does all the work. -/
theorem Steady.before {action : Lowering Value} {next : Value → Lowering Other}
    (first : Steady count action) (second : ∀ value, Steady 0 (next value)) :
    Steady count (action >>= next) :=
  first.bind second (Nat.add_zero count)

theorem Grows.before {action : Lowering Value} {next : Value → Lowering Other}
    (first : Grows count action) (second : ∀ value, Grows 0 (next value)) :
    Grows count (action >>= next) :=
  first.bind second (Nat.add_zero count)

/-! ### Primitive actions -/

theorem steady_report (code : Code) (message : String) (span : Span) :
    Steady 0 (report code message span) :=
  ⟨fun body ↦ ⟨Draft.extends_note _ body.draft, rfl⟩, fun _ ↦ ⟨rfl, rfl⟩⟩

theorem steady_mistake (code : Code) (message : String) (span : Span) :
    Steady 0 (mistake code message span) :=
  (steady_report code message span).map

theorem steady_check (expected actual : Ty) (span : Span) : Steady 0 (check expected actual span) :=
  .ite (.pure ()) (steady_report _ _ span)

theorem steady_importIndex (wanted : Import) : Steady 0 (onDraft (Draft.importIndex wanted)) :=
  ⟨fun body ↦ Draft.extends_importIndex wanted body.draft, fun _ ↦ ⟨rfl, rfl⟩⟩

theorem grows_allocate : Grows 0 allocate :=
  fun body ↦ ⟨.refl body.draft, rfl⟩

theorem grows_declareLocal (name : String) (type : Ty) (lint : Option Span) :
    Grows 0 (declareLocal name type lint) := by
  refine grows_allocate.after fun slot ↦ Grows.map ?_
  intro body
  obtain ⟨draft, scopes, nextSlot⟩ := body
  cases scopes <;> exact ⟨.refl draft, rfl⟩

theorem grows_openScope : Grows 0 openScope :=
  fun body ↦ ⟨.refl body.draft, rfl⟩

theorem grows_closeScope : Grows 0 closeScope := by
  intro body
  obtain ⟨draft, scopes, nextSlot⟩ := body
  cases scopes with
  | nil => exact ⟨.refl draft, rfl⟩
  | cons scope outer => exact ⟨⟨⟨_, rfl⟩, id, Nat.le_refl _, fun _ ↦ rfl⟩, rfl⟩

mutual

/-- Finding out what a written type means only reports mistakes. -/
theorem notes_resolveType (references : ReferenceSet) (names : List TypeName)
    (namespaceName : String) : (written : TypeExpression) → (draft : Draft) →
    draft.Notes (resolveType references names namespaceName written draft).2
  | .int _, draft | .str _, draft | .bool _, draft | .unit _, draft => .refl draft
  | .dyn span, draft => by
      rw [resolveType]
      split
      · exact .refl draft
      · exact .note _ draft
  | .array element _, draft | .seq element _, draft => by
      rw [resolveType]
      exact notes_resolveType references names namespaceName element draft
  | .function parameters result _, draft => by
      rw [resolveType]
      exact (notes_resolveTypes references names namespaceName parameters draft).trans
        (notes_resolveType references names namespaceName result _)
  | .named name span, draft => by
      rw [resolveType]
      cases TypeName.find? names name namespaceName with
      | some index => exact .refl draft
      | none => exact .note _ draft

/-- Finding out what written types mean only reports mistakes. -/
theorem notes_resolveTypes (references : ReferenceSet) (names : List TypeName)
    (namespaceName : String) : (written : List TypeExpression) → (draft : Draft) →
    draft.Notes (resolveTypes references names namespaceName written draft).2
  | [], draft => .refl draft
  | first :: rest, draft => by
      rw [resolveTypes]
      exact (notes_resolveType references names namespaceName first draft).trans
        (notes_resolveTypes references names namespaceName rest _)

end

theorem steady_resolve (setting : Setting) (written : TypeExpression) :
    Steady 0 (resolve setting written) :=
  have notes (body : Body) : body.draft.Notes (resolve setting written body).2.draft :=
    notes_resolveType _ _ _ written body.draft
  ⟨fun body ↦ ⟨(notes body).extends', (notes body).lambdas⟩, fun _ ↦ ⟨rfl, rfl⟩⟩

/-! ### Looking up variables -/

theorem findIn_variable (name : String) (scope : List Local) :
    (findIn name scope).map Local.variable = Scope.named? (scope.map Local.variable) name := by
  simp only [findIn, Scope.named?, List.find?_map]
  rfl

theorem markIn_variable (name : String) (scope : List Local) :
    (markIn name scope).map Local.variable = scope.map Local.variable := by
  induction scope with
  | nil => rfl
  | cons first rest ih =>
      rw [markIn]
      split
      · rfl
      · rw [List.map_cons, ih, List.map_cons]

/-- Looking for a variable in scopes finds the newest one of its name, and marking it as used does
not show. -/
theorem findAndMark_variable (name : String) (scopes : List (List Local)) :
    match findAndMark name scopes with
    | some (found, marked) =>
        Scope.named? (scopes.map (List.map Local.variable)).flatten name = some found.variable ∧
          marked.map (List.map Local.variable) = scopes.map (List.map Local.variable)
    | none => Scope.named? (scopes.map (List.map Local.variable)).flatten name = none := by
  induction scopes with
  | nil => rfl
  | cons scope outer ih =>
      have here := findIn_variable name scope
      simp only [Scope.named?] at here ih ⊢
      rw [findAndMark, List.map_cons, List.flatten_cons, List.find?_append, ← here]
      cases findIn name scope with
      | some found => exact ⟨rfl, by rw [List.map_cons, markIn_variable]⟩
      | none =>
          cases deeper : findAndMark name outer with
          | some result =>
              rw [deeper] at ih
              exact ⟨ih.1, by rw [List.map_cons, ih.2]⟩
          | none =>
              rw [deeper] at ih
              exact ih

/-- A variable that is there is found and marked, and otherwise nothing changes. -/
theorem lookup_eq (name : String) (body : Body) :
    lookup name body = match findAndMark name body.scopes with
      | some (found, scopes) => (some found, { body with scopes })
      | none => (none, body) := by
  change (match findAndMark name body.scopes with
    | some (found, scopes) => do
        set { body with scopes }
        Pure.pure (some found)
    | none => (Pure.pure none : Lowering _)) body = _
  cases findAndMark name body.scopes <;> rfl

theorem lookup_apply (name : String) (body : Body) :
    ((lookup name body).1.map Local.variable = body.scope.named? name) ∧
      (lookup name body).2.view = body.view ∧
      (lookup name body).2.draft = body.draft ∧
      (lookup name body).2.nextSlot = body.nextSlot := by
  have found := findAndMark_variable name body.scopes
  rw [lookup_eq]
  cases looked : findAndMark name body.scopes with
  | some result =>
      rw [looked] at found
      exact ⟨found.1.symm, found.2, rfl, rfl⟩
  | none =>
      rw [looked] at found
      exact ⟨found.symm, rfl, rfl, rfl⟩

theorem lookupTarget_apply (name : String) (body : Body) :
    (lookupTarget name body).1.map Local.variable = body.scope.named? name ∧
      (lookupTarget name body).2 = body := by
  refine ⟨?_, rfl⟩
  change (body.scopes.findSome? (findIn name)).map Local.variable = _
  rw [Body.scope, Body.view]
  induction body.scopes with
  | nil => rfl
  | cons scope outer ih =>
      have here := findIn_variable name scope
      simp only [Scope.named?] at here ih ⊢
      rw [List.map_cons, List.flatten_cons, List.find?_append, ← here, List.findSome?_cons]
      cases findIn name scope with
      | some found => rfl
      | none => exact ih

theorem steady_lookup (name : String) : Steady 0 (lookup name) := by
  refine ⟨fun body ↦ ?_, fun body ↦ ?_⟩
  · rw [(lookup_apply name body).2.2.1]
    exact ⟨.refl body.draft, rfl⟩
  · exact ⟨(lookup_apply name body).2.1, (lookup_apply name body).2.2.2⟩

theorem steady_lookupTarget (name : String) : Steady 0 (lookupTarget name) :=
  ⟨fun body ↦ ⟨.refl body.draft, rfl⟩, fun _ ↦ ⟨rfl, rfl⟩⟩

/-! ### Routines inside routines -/

/-- A routine that is reserved, compiled and completed is added to the draft. -/
theorem extends_addRoutine {action : Lowering Value} (routine : Routine) (code : Value → List Op)
    (inner : Grows count action) (draft : Draft) :
    draft.Extends (addRoutine routine code action draft).2 ∧
      (addRoutine routine code action draft).2.lambdas = draft.lambdas + count := by
  have reserved := Draft.extends_reserve routine draft
  obtain ⟨grown, numbered⟩ := inner ⟨(Draft.reserve routine draft).2, [[]], 0⟩
  exact ⟨(reserved.trans grown).complete (Nat.le_refl _) _ _, numbered⟩

theorem steady_addRoutine {action : Lowering Value} (routine : Routine) (code : Value → List Op)
    (inner : Grows count action) : Steady count (onDraft (addRoutine routine code action)) :=
  ⟨fun body ↦ extends_addRoutine routine code inner body.draft, fun _ ↦ ⟨rfl, rfl⟩⟩

theorem steady_nextLambda : Steady 1 (onDraft Draft.nextLambda) :=
  ⟨fun _ ↦ ⟨⟨⟨[], rfl⟩, id, Nat.le_refl _, fun _ ↦ rfl⟩, rfl⟩, fun _ ↦ ⟨rfl, rfl⟩⟩

end Lowering

/-! ## Expressions -/

section Expressions

open Lowering

variable {setting : Setting} {count more : Nat} {start : Nat} {span : Span}

theorem steady_noValue (code : Code) (message : String) (span : Span) :
    Steady 0 (noValue code message span) :=
  (steady_mistake code message span).map

theorem steady_receiverValue : Steady 0 (receiverValue setting span) := by
  unfold receiverValue
  split
  · exact .pure _
  · exact steady_noValue _ _ _

theorem steady_pathValue (segments : List Identifier) : Steady 0 (pathValue segments span) := by
  unfold pathValue
  split
  · refine (steady_lookup _).after fun found ↦ ?_
    cases found with
    | some found => exact .pure _
    | none => exact steady_noValue _ _ _
  · exact steady_noValue _ _ _

theorem steady_fieldValue (target : Typed) (name : Identifier) :
    Steady 0 (fieldValue setting target name) := by
  unfold fieldValue
  split
  · split
    · exact .pure _
    · exact (steady_mistake _ _ _).map
  · exact .pure _
  · exact (steady_mistake _ _ _).map

theorem steady_checkedType (wanted : Option Ty) (found : Ty) :
    Steady 0 (checkedType wanted found span) := by
  cases wanted with
  | some wanted => exact (steady_check _ _ _).map
  | none => exact .pure _

theorem steady_itemType (target : Ty) : Steady 0 (itemType target span) := by
  unfold itemType
  split
  iterate 3 exact .pure _
  exact steady_mistake _ _ _

theorem steady_newObject (name : Identifier) : Steady 0 (newObject setting name) := by
  unfold newObject
  simp only
  split
  · exact .pure _
  · exact steady_noValue _ _ _

theorem steady_unaryValue (operator : UnaryOperator) (operand : Typed) :
    Steady 0 (unaryValue operator operand span) := by
  unfold unaryValue
  exact .ite (.pure _) (steady_mistake _ _ _).map

theorem steady_shortCircuit (operator : BinaryOperator) (code : List Op) (left right : Ty) :
    Steady 0 (shortCircuit operator code left right span) := by
  unfold shortCircuit
  exact .ite (.pure _) (steady_mistake _ _ _).map

theorem steady_strictOperator (operator : BinaryOperator) (code : List Op) (left right : Ty) :
    Steady 0 (strictOperator operator code left right span) := by
  unfold strictOperator
  split
  · exact .pure _
  · exact (steady_mistake _ _ _).map

variable {left right : Pending} {arguments : PendingArguments}

theorem steady_binaryValue (operator : BinaryOperator)
    (first : ∀ expected start, Steady count (left expected start))
    (second : ∀ expected start, Steady more (right expected start)) :
    Steady (count + more) (binaryValue operator left right span start) := by
  unfold binaryValue
  split
  · exact (first _ _).bind (fun _ ↦ (second _ _).before fun _ ↦ steady_shortCircuit _ _ _ _) rfl
  · exact (first _ _).bind (fun _ ↦ (second _ _).before fun _ ↦ steady_shortCircuit _ _ _ _) rfl
  · exact (first _ _).bind (fun _ ↦ (second _ _).before fun _ ↦ steady_strictOperator _ _ _ _) rfl

/-! ### Calls -/

theorem steady_checkArgument (accepted : Bool) (number : Nat) (callee : String)
    (wanted found : Ty) : Steady 0 (checkArgument accepted number callee wanted found span) :=
  .ite (steady_report _ _ _) (.pure ())

theorem steady_checkedArguments (total : Nat) (parameters : List Ty) (callee : String)
    (before : List Op)
    (each : ∀ parameters callee number bound before start,
      Steady count (arguments parameters callee number bound before start)) :
    Steady count (checkedArguments arguments total parameters callee span before start) := by
  simp only [checkedArguments]
  exact .ite ((steady_report _ _ _).after fun _ ↦ each _ _ _ _ _ _) (each _ _ _ _ _ _)

theorem steady_uncheckedArguments (before : List Op)
    (each : ∀ parameters callee number bound before start,
      Steady count (arguments parameters callee number bound before start)) :
    Steady count (uncheckedArguments arguments before start) :=
  (each _ _ _ _ _ _).map

theorem steady_badCall (before : List Op) (code : Code) (message : String)
    (each : ∀ parameters callee number bound before start,
      Steady count (arguments parameters callee number bound before start)) :
    Steady count (badCall arguments before start code message span) :=
  (steady_uncheckedArguments before each).before fun _ ↦ (steady_mistake _ _ _).map

theorem steady_callValue (callee : Typed) (total : Nat) (what : String)
    (each : ∀ parameters callee number bound before start,
      Steady count (arguments parameters callee number bound before start)) :
    Steady count (callValue callee arguments total what span start) := by
  unfold callValue
  split
  · exact (steady_checkedArguments _ _ _ _ each).map
  · exact (steady_uncheckedArguments _ each).map
  · exact (steady_uncheckedArguments _ each).map
  · exact steady_badCall _ _ _ each

theorem steady_implicitReceiver (method : MethodInfo) :
    Steady 0 (implicitReceiver setting method span) := by
  unfold implicitReceiver
  refine .ite (.pure _) ?_
  split
  · exact .pure _
  · exact (steady_report _ _ _).map

theorem steady_callMethod (method : MethodInfo) (receiver : List Op) (total : Nat)
    (each : ∀ parameters callee number bound before start,
      Steady count (arguments parameters callee number bound before start)) :
    Steady count (callMethod method receiver arguments total span start) :=
  (steady_checkedArguments _ _ _ _ each).map

theorem steady_checkVisible (type : Bytecode.TypeIndex) (method : MethodInfo) :
    Steady 0 (checkVisible setting type method span) :=
  .ite (steady_report _ _ _) (.pure ())

theorem steady_callName (name : Identifier) (total : Nat)
    (each : ∀ parameters callee number bound before start,
      Steady count (arguments parameters callee number bound before start)) :
    Steady count (callName setting name arguments total span start) := by
  unfold callName
  refine (steady_lookup _).after fun found ↦ ?_
  cases found with
  | some found => exact steady_callValue _ _ _ each
  | none =>
      simp only
      split
      · exact (steady_implicitReceiver _).after fun _ ↦ steady_callMethod _ _ _ each
      · exact steady_badCall _ _ _ each

theorem steady_callStatic (type : Bytecode.TypeIndex) (path : String) (function : Identifier)
    (total : Nat)
    (each : ∀ parameters callee number bound before start,
      Steady count (arguments parameters callee number bound before start)) :
    Steady count (callStatic setting type path function arguments total span start) := by
  unfold callStatic
  split
  · exact .ite ((steady_checkVisible _ _).after fun _ ↦ steady_callMethod _ _ _ each)
      (steady_badCall _ _ _ each)
  · exact steady_badCall _ _ _ each

theorem steady_callHostFunction (binding : ModuleBinding) (path : String) (function : Identifier)
    (total : Nat)
    (each : ∀ parameters callee number bound before start,
      Steady count (arguments parameters callee number bound before start)) :
    Steady count (callHostFunction binding path function arguments total span start) := by
  unfold callHostFunction
  split
  · exact (steady_checkedArguments _ _ _ _ each).before fun _ ↦ (steady_importIndex _).map
  · exact steady_badCall _ _ _ each

theorem steady_callNamed (segments : List Identifier) (calleeSpan : Span) (total : Nat)
    (each : ∀ parameters callee number bound before start,
      Steady count (arguments parameters callee number bound before start)) :
    Steady count (callNamed setting segments calleeSpan arguments total span start) := by
  unfold callNamed
  split
  · exact steady_callName _ _ each
  · unfold callPath
    simp only
    split
    · exact steady_callStatic _ _ _ _ each
    · split
      · exact steady_callHostFunction _ _ _ _ each
      · exact steady_badCall _ _ _ each
  · exact steady_badCall _ _ _ each

theorem steady_callOnTarget (target : Typed) (method : Identifier) (total : Nat)
    (each : ∀ parameters callee number bound before start,
      Steady count (arguments parameters callee number bound before start)) :
    Steady count (callOnTarget setting target method arguments total span start) := by
  unfold callOnTarget
  split
  · simp only
    split
    · exact .ite (steady_badCall _ _ _ each)
        ((steady_checkVisible _ _).after fun _ ↦ steady_callMethod _ _ _ each)
    · exact steady_badCall _ _ _ each
  · exact (steady_uncheckedArguments _ each).map
  · exact steady_badCall _ _ _ each

/-! ### Lambdas -/

/-- What a lambda copies because it mentions this name. -/
def captureOf (setting : Setting) (parameters : List Identifier) (name : String) :
    Lowering (Option Capture) :=
  if name = Mentions.receiverName then
    Pure.pure (setting.receiver.map fun slot ↦ ⟨name, slot, setting.ownerType⟩)
  else if parameters.any fun parameter ↦ parameter.name = name then Pure.pure none
  else do
    let found ← lookup name
    Pure.pure (found.map fun found ↦ ⟨name, found.slot, found.type⟩)

/-- What is copied for the first name does not change how the others are looked up. -/
theorem capturesOf_cons (parameters : List Identifier) (name : String) (rest : List String) :
    capturesOf setting parameters (name :: rest) = (do
      let found ← captureOf setting parameters name
      let others ← capturesOf setting parameters rest
      Pure.pure (found.toList ++ others)) := by
  funext body
  simp only [capturesOf, captureOf]
  split
  · cases setting.receiver <;> rfl
  split
  · rfl
  · simp only [bind, StateT.bind]
    rcases lookup name body with ⟨_ | found, looked⟩ <;> rfl

theorem steady_captureOf (parameters : List Identifier) (name : String) :
    Steady 0 (captureOf setting parameters name) :=
  .ite (.pure _) (.ite (.pure _) (steady_lookup name).map)

theorem steady_capturesOf (parameters : List Identifier) :
    (mentioned : List String) → Steady 0 (capturesOf setting parameters mentioned)
  | [] => .pure []
  | name :: rest => by
      rw [capturesOf_cons]
      exact (steady_captureOf parameters name).after fun _ ↦ (steady_capturesOf parameters rest).map

theorem grows_declareCaptures : (captures : List Capture) → Grows 0 (declareCaptures captures)
  | [] => .pure ()
  | capture :: rest => by
      rw [declareCaptures]
      exact (grows_declareLocal _ _ _).after fun _ ↦ grows_declareCaptures rest

theorem grows_declareParameters :
    (parameters : List (Identifier × Ty)) → Grows 0 (declareParameters parameters)
  | [] => .pure ()
  | (name, type) :: rest => by
      have local' : Grows 0 (declareLocal name.name type none >>= fun _ ↦ Pure.pure ()) :=
        (grows_declareLocal _ _ _).map
      have one : Grows 0 (declareParameter name type) := by
        simp only [declareParameter]
        refine Grows.after (fun body ↦ ⟨.refl body.draft, rfl⟩) fun body ↦ ?_
        exact .ite ((steady_report _ _ _).1.after fun _ ↦ local') local'
      rw [declareParameters]
      exact one.after fun _ ↦ grows_declareParameters rest

theorem steady_closureValue (parameters : List Identifier) (captures : List Capture)
    (expected : Option Ty) {inside : Setting → Lowering Typed}
    (body : ∀ setting, Grows count (inside setting)) :
    Steady (count + 1) (closureValue setting parameters captures inside expected) := by
  unfold closureValue
  rcases lambdaSignature parameters.length expected with ⟨types, result⟩
  refine steady_nextLambda.bind (fun number ↦ ?_) (Nat.add_comm 1 count)
  exact Steady.map (steady_addRoutine _ _ ((grows_declareCaptures _).after fun _ ↦
    (grows_declareParameters _).after fun _ ↦ body _))

theorem steady_lambdaValue (parameters : List Identifier) (mentioned : List String)
    (expected : Option Ty) {inside : Setting → Lowering Typed}
    (body : ∀ setting, Grows count (inside setting)) :
    Steady (count + 1) (lambdaValue setting parameters mentioned inside expected) :=
  (steady_capturesOf parameters mentioned).after fun captures ↦
    steady_closureValue parameters captures expected body

end Expressions

/-! ## Statements -/

section Statements

open Lowering

variable {setting : Setting} {count more : Nat} {start : Nat} {span : Span}

theorem grows_declareValue (name : Identifier) (declared : Option Ty) (value : Typed) :
    Grows 0 (declareValue name declared value span) :=
  (steady_checkedType _ _).1.after fun _ ↦ (grows_declareLocal _ _ _).map

variable {value : Pending}

theorem steady_assignVariable (name : Identifier)
    (each : ∀ expected start, Steady count (value expected start)) :
    Steady count (assignVariable name value span start) := by
  unfold assignVariable
  refine (steady_lookupTarget _).after fun found ↦ ?_
  cases found with
  | some found => exact (each _ _).before fun _ ↦ (steady_check _ _ _).map
  | none => exact (steady_report _ _ _).after fun _ ↦ (each _ _).map

theorem steady_assignField (name : Identifier) (valueSpan : Span)
    (each : ∀ expected start, Steady count (value expected start)) :
    Steady count (assignField setting name value valueSpan span start) := by
  unfold assignField
  split
  · exact (steady_report _ _ _).after fun _ ↦ (each _ _).map
  · split
    · exact (steady_report _ _ _).after fun _ ↦ (each _ _).map
    · exact (each _ _).before fun _ ↦ (steady_check _ _ _).map

theorem steady_condition (each : ∀ expected start, Steady count (value expected start)) :
    Steady count (condition value span start) :=
  (each _ _).before fun _ ↦ (steady_check _ _ _).map

theorem steady_warnDiscarded (type : Ty) : Steady 0 (warnDiscarded type span) := by
  unfold warnDiscarded
  split
  · exact ⟨fun body ↦ ⟨Draft.extends_note _ body.draft, rfl⟩, fun _ ↦ ⟨rfl, rfl⟩⟩
  · exact .pure ()

theorem steady_discard (each : ∀ expected start, Steady count (value expected start)) :
    Steady count (discard value span start) :=
  (each _ _).before fun _ ↦ (steady_warnDiscarded _).map

theorem steady_returnNothing : Steady 0 (returnNothing setting span) := by
  simp only [returnNothing]
  exact .ite ((steady_report _ _ _).map) (.pure _)

theorem steady_returnValue (each : ∀ expected start, Steady count (value expected start)) :
    Steady count (returnValue setting value span start) :=
  (each _ _).before fun _ ↦ (steady_check _ _ _).map

theorem steady_elementType (iterated : Ty) : Steady 0 (elementType iterated span) := by
  unfold elementType
  split
  · exact .pure _
  · exact steady_mistake _ _ _

theorem grows_loopOver (binding : Identifier) (element : Ty) (iterated : List Op)
    {inside : Nat → Lowering (List Op)} (body : ∀ start, Grows more (inside start)) :
    Grows more (loopOver binding element iterated inside start) :=
  grows_allocate.after fun _ ↦ grows_openScope.after fun _ ↦
    (grows_declareLocal _ _ _).after fun _ ↦ (body _).before fun _ ↦ grows_closeScope.map

theorem grows_forEachLoop (binding : Identifier) (iterableSpan : Span)
    {inside : Nat → Lowering (List Op)}
    (each : ∀ expected start, Steady count (value expected start))
    (body : ∀ start, Grows more (inside start)) :
    Grows (count + more) (forEachLoop binding value iterableSpan inside start) :=
  (each _ _).1.bind (fun _ ↦ (steady_elementType _).1.after fun _ ↦
    grows_loopOver _ _ _ body) rfl

variable {test body other : Nat → Lowering (List Op)}

theorem grows_whileTrue (first : ∀ start, Grows count (test start))
    (second : ∀ start, Grows more (body start)) :
    Grows (count + more) (whileTrue test body start) :=
  (first _).bind (fun _ ↦ (second _).map) rfl

theorem grows_ifTrue (first : ∀ start, Grows count (test start))
    (second : ∀ start, Grows more (body start)) :
    Grows (count + more) (ifTrue test body start) :=
  (first _).bind (fun _ ↦ (second _).map) rfl

theorem grows_ifElse {last : Nat} (first : ∀ start, Grows count (test start))
    (second : ∀ start, Grows more (body start)) (third : ∀ start, Grows last (other start)) :
    Grows (count + more + last) (ifElse test body other start) :=
  (first _).bind (fun _ ↦ (second _).bind (fun _ ↦ (third _).map) rfl) (Nat.add_assoc _ _ _).symm

end Statements

/-! ## The walk -/

section Walk

open Lowering
open Meaning

mutual

/-- Compiling an expression only adds, and leaves the variables as they are. -/
theorem steady_expression (setting : Setting) : (value : Expression) → (expected : Option Ty) →
    (start : Nat) → Steady (lambdasIn value) (expression setting value expected start)
  | .int .., _, _ | .str .., _, _ | .bool .., _, _ => .pure _
  | .array values _, expected, start => by
      rw [lambdasIn, expression]
      exact (steady_items setting values _ _ _).map
  | .receiver _, _, _ => steady_receiverValue
  | .path segments _, _, _ => steady_pathValue segments
  | .call callee values span, expected, start => by
      rw [lambdasIn]
      have each := steady_arguments setting values
      cases callee with
      | path segments calleeSpan =>
          rw [lambdasIn, Nat.zero_add, expression]
          exact steady_callNamed _ _ _ each
      | _ =>
          rw [expression]
          · exact (steady_expression setting _ _ _).bind
              (fun _ ↦ steady_callValue _ _ _ each) rfl
          · exact nofun
  | .method target name values span, expected, start => by
      rw [lambdasIn, expression]
      exact (steady_expression setting target _ _).bind
        (fun _ ↦ steady_callOnTarget _ _ _ (steady_arguments setting values)) rfl
  | .field target name _, expected, start => by
      rw [lambdasIn, expression]
      exact (steady_expression setting target _ _).before fun _ ↦ steady_fieldValue _ _
  | .element target index _, expected, start => by
      rw [lambdasIn, expression]
      exact (steady_expression setting target _ _).bind (fun _ ↦
        (steady_expression setting index _ _).before fun _ ↦
          (steady_check _ _ _).after fun _ ↦ (steady_itemType _).map) rfl
  | .construct name _, _, _ => steady_newObject name
  | .lambda parameters body _, expected, start => by
      rw [lambdasIn, expression]
      exact steady_lambdaValue _ _ _ fun setting ↦ grows_lambdaBody setting body
  | .unary operator operand _, expected, start => by
      rw [lambdasIn, expression]
      exact (steady_expression setting operand _ _).before fun _ ↦ steady_unaryValue _ _
  | .binary operator left right _, expected, start => by
      rw [lambdasIn, expression]
      exact steady_binaryValue operator (steady_expression setting left)
        (steady_expression setting right)

/-- Compiling the items of an array only adds, and leaves the variables as they are. -/
theorem steady_items (setting : Setting) : (values : List Expression) → (element : Option Ty) →
    (before : List Op) → (start : Nat) →
    Steady (lambdasInAll values) (items setting values element before start)
  | [], _, _, _ => .pure _
  | item :: rest, element, before, start => by
      rw [lambdasInAll, items]
      exact (steady_expression setting item _ _).bind (fun _ ↦
        (steady_checkedType _ _).after fun _ ↦ steady_items setting rest _ _ _) rfl

/-- Compiling arguments only adds, and leaves the variables as they are. -/
theorem steady_arguments (setting : Setting) : (values : List Expression) →
    (parameters : List Ty) → (callee : String) → (number : Nat) → (bound : Option Ty) →
    (before : List Op) → (start : Nat) →
    Steady (lambdasInAll values)
      (arguments setting values parameters callee number bound before start)
  | [], _, _, _, _, _, _ => .pure _
  | argument :: rest, [], callee, number, bound, before, start => by
      rw [lambdasInAll, arguments]
      exact (steady_expression setting argument _ _).bind
        (fun _ ↦ steady_arguments setting rest _ _ _ _ _ _) rfl
  | argument :: rest, wanted :: others, callee, number, bound, before, start => by
      rw [lambdasInAll, arguments]
      exact (steady_expression setting argument _ _).bind (fun _ ↦
        (steady_checkArgument _ _ _ _ _).after fun _ ↦
          steady_arguments setting rest _ _ _ _ _ _) rfl

/-- Compiling the body of a lambda only adds. -/
theorem grows_lambdaBody (setting : Setting) : (body : LambdaBody) →
    Grows (lambdasInBody body) (lambdaBody setting body)
  | .expression value => by
      rw [lambdasInBody, lambdaBody]
      exact ((steady_expression setting value _ _).before fun _ ↦ (steady_check _ _ _).map).1
  | .block body => by
      rw [lambdasInBody, lambdaBody]
      exact (grows_block setting body 0).map

/-- Compiling a block only adds. -/
theorem grows_block (setting : Setting) : (body : Block) → (start : Nat) →
    Grows (lambdasInBlock body) (block setting body start)
  | .mk inside _, start => by
      rw [lambdasInBlock, block]
      exact grows_openScope.after fun _ ↦
        (grows_statements setting inside _ _).before fun _ ↦ grows_closeScope.map

/-- Compiling statements only adds. -/
theorem grows_statements (setting : Setting) : (body : List Statement) → (before : List Op) →
    (start : Nat) → Grows (lambdasInStatements body) (statements setting body before start)
  | [], _, _ => .pure _
  | first :: rest, before, start => by
      rw [lambdasInStatements, statements]
      exact (grows_statement setting first start).bind
        (fun _ ↦ grows_statements setting rest _ _) rfl

/-- Compiling a statement only adds. -/
theorem grows_statement (setting : Setting) : (one : Statement) → (start : Nat) →
    Grows (lambdasInStatement one) (statement setting one start)
  | .declare name written value _, start => by
      have rest (declared : Option Ty) : Grows (lambdasIn value) (do
          let typed ← expression setting value declared start
          declareValue name declared typed value.span) :=
        (steady_expression setting value _ _).1.before fun _ ↦ grows_declareValue _ _ _
      rw [lambdasInStatement]
      cases written with
      | some written =>
          rw [statement]
          exact (steady_resolve _ _).1.after fun _ ↦ Grows.after (.pure _) rest
      | none =>
          rw [statement]
          exact Grows.after (.pure _) rest
  | .assign (.binding name) value _, start => by
      rw [lambdasInStatement, statement]
      exact (steady_assignVariable name (steady_expression setting value)).1
  | .assign (.field name) value _, start => by
      rw [lambdasInStatement, statement]
      exact (steady_assignField name _ (steady_expression setting value)).1
  | .forEach binding iterable body _, start => by
      rw [lambdasInStatement, statement]
      exact grows_forEachLoop binding _ (steady_expression setting iterable)
        (grows_block setting body)
  | .whileLoop test body _, start => by
      rw [lambdasInStatement, statement]
      exact grows_whileTrue (fun _ ↦ (steady_condition (steady_expression setting test)).1)
        (grows_block setting body)
  | .conditional test body other _, start => by
      have tested (start : Nat) :
          Grows (lambdasIn test) (condition (expression setting test) test.span start) :=
        (steady_condition (steady_expression setting test)).1
      rw [lambdasInStatement]
      cases other with
      | absent =>
          rw [lambdasInAlternative, Nat.add_zero, statement]
          exact grows_ifTrue tested (grows_block setting body)
      | block | chain =>
          rw [statement]
          · exact grows_ifElse tested (grows_block setting body) (grows_alternative setting _)
          · exact nofun
  | .returns none _, _ => by
      rw [lambdasInStatement, statement]
      exact steady_returnNothing.1
  | .returns (some value) _, start => by
      rw [lambdasInStatement, statement]
      exact (steady_returnValue (steady_expression setting value)).1
  | .evaluate value, start => by
      rw [lambdasInStatement, statement]
      exact (steady_discard (steady_expression setting value)).1

/-- Compiling an alternative only adds. -/
theorem grows_alternative (setting : Setting) : (other : Alternative) → (start : Nat) →
    Grows (lambdasInAlternative other) (alternative setting other start)
  | .absent, _ => .pure _
  | .block body, start => by
      rw [lambdasInAlternative, alternative]
      exact grows_block setting body start
  | .chain conditional, start => by
      rw [lambdasInAlternative, alternative]
      exact grows_statement setting conditional start

end

end Walk

end GuestScript.Compile
