import GuestScript.Proofs.Compile.Accepted
import GuestScript.Proofs.Compile.Reserved
import GuestScript.Proofs.Compile.UnitCalls
import GuestScript.Proofs.Compile.Visibility

/-!
# Private functions stay in their types

Nothing at run time keeps a routine from calling another one, so it is the compiler that keeps private
functions to their types. `Image.Encapsulates` says of an image that a call of a private function stands
in a routine of its own type, that no call goes to a lambda or to the routine that gives fields their
first values, and that closures are made of lambdas of the same type. Every image of a compilation that
succeeds is such, whatever the syntax tree, which is `encapsulates_of_success`.
-/

namespace GuestScript

open Bytecode (Binding Image Op Routine RoutineIndex TypeIndex Visibility)

/-- Routines refer to others only as the types of the image allow: each belongs to a type; what it calls
is a function, and one of its own type if it is private; and the closures that it makes are of lambdas of
its own type. -/
structure Bytecode.Image.Encapsulates (image : Image) : Prop where
  owned : ∀ routine ∈ image.routines, ∃ owner < image.types.size, routine.owner = some owner
  calls : ∀ routine ∈ image.routines, ∀ callee count, .call callee count ∈ routine.code →
    ∃ target, image.routines[callee]? = some target ∧
      (target.visibility = .owner → target.owner = routine.owner) ∧
      (∀ copies, target.binding ≠ .closure copies) ∧
      ∀ type ∈ image.types, type.initializer ≠ some callee
  closures : ∀ routine ∈ image.routines, ∀ index copies, .makeClosure index copies ∈ routine.code →
    ∃ lambda, image.routines[index]? = some lambda ∧ lambda.binding = .closure copies ∧
      lambda.owner = routine.owner

namespace Compile

open Lowering
open Meaning (settingOf typesOf)
open Syntax

/-! ## Statements -/

section Statements

variable {setting : Setting} {types : List TypeInfo} {owner : TypeIndex} {start : Nat} {span : Span}

theorem stays_declareValue (name : Identifier) (declared : Option Ty) (value : Typed) :
    Stays types owner id (routineOps value.code) (declareValue name declared value span) :=
  .after (spares_checkedType _ _) fun _ ↦ .after (spares_declareLocal _ _ _) fun _ ↦
    .pure (by simp [routineOps, namesRoutine])

variable {value : Pending}

theorem stays_assignVariable (name : Identifier)
    (each : ∀ expected start, Stays types owner Typed.code [] (value expected start)) :
    Stays types owner id [] (assignVariable name value span start) := by
  unfold assignVariable
  refine .after (spares_lookupTarget _) fun found ↦ ?_
  cases found with
  | some found =>
      exact (each _ _).bind fun _ ↦ .after (spares_check _ _ _) fun _ ↦
        .pure (by simp [routineOps, namesRoutine])
  | none => exact .after (spares_report _ _ _) fun _ ↦ (each _ _).map fun _ ↦ rfl

theorem stays_assignField (name : Identifier) (valueSpan : Span)
    (each : ∀ expected start, Stays types owner Typed.code [] (value expected start)) :
    Stays types owner id [] (assignField setting name value valueSpan span start) := by
  unfold assignField
  split
  · exact .after (spares_report _ _ _) fun _ ↦ (each _ _).map fun _ ↦ rfl
  · split
    · exact .after (spares_report _ _ _) fun _ ↦ (each _ _).map fun _ ↦ rfl
    · exact (each _ _).bind fun _ ↦ .after (spares_check _ _ _) fun _ ↦
        .pure (by simp [routineOps, namesRoutine])

theorem stays_condition
    (each : ∀ expected start, Stays types owner Typed.code [] (value expected start)) :
    Stays types owner id [] (condition value span start) :=
  (each _ _).bind fun _ ↦ .after (spares_check _ _ _) fun _ ↦ .pure rfl

theorem stays_discard
    (each : ∀ expected start, Stays types owner Typed.code [] (value expected start)) :
    Stays types owner id [] (discard value span start) :=
  (each _ _).bind fun _ ↦ .after (spares_warnDiscarded _) fun _ ↦
    .pure (by simp [routineOps, namesRoutine])

theorem stays_returnNothing : Stays types owner id [] (returnNothing setting span) := by
  simp only [returnNothing]
  exact .ite (.after (spares_report _ _ _) fun _ ↦ .pure rfl) (.pure rfl)

theorem stays_returnValue
    (each : ∀ expected start, Stays types owner Typed.code [] (value expected start)) :
    Stays types owner id [] (returnValue setting value span start) :=
  (each _ _).bind fun _ ↦ .after (spares_check _ _ _) fun _ ↦
    .pure (by simp [routineOps, namesRoutine])

variable {inside test body other : Nat → Lowering (List Op)}

theorem stays_loopOver (binding : Identifier) (element : Ty) (iterated : List Op)
    (each : ∀ start, Stays types owner id [] (inside start)) :
    Stays types owner id (routineOps iterated)
      (loopOver binding element iterated inside start) :=
  .after spares_allocate fun _ ↦ .after spares_openScope fun _ ↦
    .after (spares_declareLocal _ _ _) fun _ ↦ ((each _).behind iterated).bind fun _ ↦
      .after spares_closeScope fun _ ↦ .pure (by simp [routineOps, namesRoutine])

theorem stays_forEachLoop (binding : Identifier) (iterableSpan : Span)
    (each : ∀ expected start, Stays types owner Typed.code [] (value expected start))
    (body : ∀ start, Stays types owner id [] (inside start)) :
    Stays types owner id [] (forEachLoop binding value iterableSpan inside start) :=
  (each _ _).bind fun _ ↦ .after (spares_elementType _) fun _ ↦ stays_loopOver _ _ _ body

theorem stays_whileTrue (first : ∀ start, Stays types owner id [] (test start))
    (second : ∀ start, Stays types owner id [] (body start)) :
    Stays types owner id [] (whileTrue test body start) :=
  (first _).bind fun tested ↦ ((second _).behind tested).map fun _ ↦ by
    simp [routineOps, namesRoutine]

theorem stays_ifTrue (first : ∀ start, Stays types owner id [] (test start))
    (second : ∀ start, Stays types owner id [] (body start)) :
    Stays types owner id [] (ifTrue test body start) :=
  (first _).bind fun tested ↦ ((second _).behind tested).map fun _ ↦ by
    simp [routineOps, namesRoutine]

theorem stays_ifElse (first : ∀ start, Stays types owner id [] (test start))
    (second : ∀ start, Stays types owner id [] (body start))
    (third : ∀ start, Stays types owner id [] (other start)) :
    Stays types owner id [] (ifElse test body other start) :=
  (first _).bind fun tested ↦ ((second _).behind tested).bind fun inside ↦
    ((third _).behind (tested ++ id inside)).map fun _ ↦ by simp [routineOps, namesRoutine]

end Statements

/-! ## The walk -/

section Walk

mutual

/-- The code of an expression only refers to what is open to its type. -/
theorem stays_expression (setting : Setting) : (value : Expression) → (expected : Option Ty) →
    (start : Nat) → Stays setting.types setting.owner Typed.code []
      (expression setting value expected start)
  | .int .., _, _ | .str .., _, _ | .bool .., _, _ => .pure rfl
  | .array values _, expected, start => by
      rw [expression]
      exact (stays_items setting values _ [] _).map fun _ ↦ by simp [routineOps, namesRoutine]
  | .receiver _, _, _ => stays_receiverValue
  | .path segments _, _, _ => stays_pathValue segments
  | .call callee values span, expected, start => by
      have each := stays_arguments setting values
      cases callee with
      | path segments calleeSpan =>
          rw [expression]
          exact stays_callNamed _ _ _ each
      | _ =>
          rw [expression]
          · exact (stays_expression setting _ _ _).bind fun _ ↦ stays_callValue _ _ _ each
          · exact nofun
  | .method target name values span, expected, start => by
      rw [expression]
      exact (stays_expression setting target _ _).bind fun _ ↦
        stays_callOnTarget _ _ _ (stays_arguments setting values)
  | .field target name _, expected, start => by
      rw [expression]
      exact (stays_expression setting target _ _).bind fun _ ↦ stays_fieldValue _ _
  | .element target index _, expected, start => by
      rw [expression]
      exact (stays_expression setting target _ _).bind fun typed ↦
        ((stays_expression setting index _ _).behind typed.code).bind fun _ ↦
          .after (spares_check _ _ _) fun _ ↦ .after (spares_itemType _) fun _ ↦
            .pure (by simp [routineOps, namesRoutine])
  | .construct name _, _, _ => stays_newObject name
  | .lambda parameters body _, expected, start => by
      rw [expression]
      exact stays_lambdaValue _ _ _ fun number captures result ↦
        stays_lambdaBody (setting.inside number captures result) body
  | .unary operator operand _, expected, start => by
      rw [expression]
      exact (stays_expression setting operand _ _).bind fun _ ↦ stays_unaryValue _ _
  | .binary operator left right _, expected, start => by
      rw [expression]
      exact stays_binaryValue operator (stays_expression setting left)
        (stays_expression setting right)

/-- The code of the items of an array only refers to what is open to their type. -/
theorem stays_items (setting : Setting) : (values : List Expression) → (element : Option Ty) →
    (before : List Op) → (start : Nat) → Stays setting.types setting.owner Prod.fst
      (routineOps before.reverse) (items setting values element before start)
  | [], _, _, _ => .pure rfl
  | item :: rest, element, before, start => by
      rw [items]
      refine ((stays_expression setting item _ _).behind before.reverse).bind fun typed ↦
        .after (spares_checkedType _ _) fun type ↦ ?_
      have others := stays_items setting rest (some type) (typed.code.reverse ++ before)
        (start + typed.code.length)
      rwa [List.reverse_append, List.reverse_reverse] at others

/-- The code of arguments only refers to what is open to their type. -/
theorem stays_arguments (setting : Setting) : (values : List Expression) →
    StaysArguments setting.types setting.owner (arguments setting values)
  | [], _, _, _, _, _, _ => .pure rfl
  | argument :: rest, [], callee, number, bound, before, start => by
      rw [arguments]
      refine ((stays_expression setting argument _ _).behind before.reverse).bind fun typed ↦ ?_
      have others := stays_arguments setting rest [] callee (number + 1) bound
        (typed.code.reverse ++ before) (start + typed.code.length)
      rwa [List.reverse_append, List.reverse_reverse] at others
  | argument :: rest, wanted :: parameters, callee, number, bound, before, start => by
      rw [arguments]
      refine ((stays_expression setting argument _ _).behind before.reverse).bind fun typed ↦
        .after (spares_checkArgument _ _ _ _ _) fun _ ↦ ?_
      have others := stays_arguments setting rest parameters callee (number + 1)
        (wanted.accepts typed.type bound).2 (typed.code.reverse ++ before)
        (start + typed.code.length)
      rwa [List.reverse_append, List.reverse_reverse] at others

/-- The code of the body of a lambda only refers to what is open to its type. -/
theorem stays_lambdaBody (setting : Setting) : (body : LambdaBody) →
    Stays setting.types setting.owner Typed.code [] (lambdaBody setting body)
  | .expression value => by
      rw [lambdaBody]
      exact (stays_expression setting value _ _).bind fun _ ↦
        .after (spares_check _ _ _) fun _ ↦ .pure (by simp [routineOps, namesRoutine])
  | .block body => by
      rw [lambdaBody]
      exact (stays_block setting body 0).map fun _ ↦ rfl

/-- The code of a block only refers to what is open to its type. -/
theorem stays_block (setting : Setting) : (body : Block) → (start : Nat) →
    Stays setting.types setting.owner id [] (block setting body start)
  | .mk inside _, start => by
      rw [block]
      exact .after spares_openScope fun _ ↦
        (stays_statements setting inside [] _).bind fun _ ↦
          .after spares_closeScope fun _ ↦ .pure rfl

/-- The code of statements only refers to what is open to their type. -/
theorem stays_statements (setting : Setting) : (body : List Statement) → (before : List Op) →
    (start : Nat) → Stays setting.types setting.owner id (routineOps before.reverse)
      (statements setting body before start)
  | [], _, _ => .pure rfl
  | first :: rest, before, start => by
      rw [statements]
      refine ((stays_statement setting first start).behind before.reverse).bind fun code ↦ ?_
      have others := stays_statements setting rest (code.reverse ++ before) (start + code.length)
      rwa [List.reverse_append, List.reverse_reverse] at others

/-- The code of a statement only refers to what is open to its type. -/
theorem stays_statement (setting : Setting) : (one : Statement) → (start : Nat) →
    Stays setting.types setting.owner id [] (statement setting one start)
  | .declare name written value _, start => by
      have rest (declared : Option Ty) : Stays setting.types setting.owner id [] (do
          let typed ← expression setting value declared start
          declareValue name declared typed value.span) :=
        (stays_expression setting value _ _).bind fun _ ↦ stays_declareValue _ _ _
      cases written with
      | some written =>
          rw [statement]
          exact .after (spares_resolve _ _) fun _ ↦ .after (.pure _) rest
      | none =>
          rw [statement]
          exact .after (.pure _) rest
  | .assign (.binding name) value _, start => by
      rw [statement]
      exact stays_assignVariable name (stays_expression setting value)
  | .assign (.field name) value _, start => by
      rw [statement]
      exact stays_assignField name _ (stays_expression setting value)
  | .forEach binding iterable body _, start => by
      rw [statement]
      exact stays_forEachLoop binding _ (stays_expression setting iterable)
        (stays_block setting body)
  | .whileLoop test body _, start => by
      rw [statement]
      exact stays_whileTrue (fun _ ↦ stays_condition (stays_expression setting test))
        (stays_block setting body)
  | .conditional test body other _, start => by
      have tested (start : Nat) : Stays setting.types setting.owner id []
          (condition (expression setting test) test.span start) :=
        stays_condition (stays_expression setting test)
      cases other with
      | absent =>
          rw [statement]
          exact stays_ifTrue tested (stays_block setting body)
      | block | chain =>
          rw [statement]
          · exact stays_ifElse tested (stays_block setting body) (stays_alternative setting _)
          · exact nofun
  | .returns none _, _ => by
      rw [statement]
      exact stays_returnNothing
  | .returns (some value) _, start => by
      rw [statement]
      exact stays_returnValue (stays_expression setting value)
  | .evaluate value, start => by
      rw [statement]
      exact stays_discard (stays_expression setting value)

/-- The code of an alternative only refers to what is open to its type. -/
theorem stays_alternative (setting : Setting) : (other : Alternative) → (start : Nat) →
    Stays setting.types setting.owner id [] (alternative setting other start)
  | .absent, _ => .pure rfl
  | .block body, start => by
      rw [alternative]
      exact stays_block setting body start
  | .chain conditional, start => by
      rw [alternative]
      exact stays_statement setting conditional start

end

end Walk

/-! ## Fields and functions -/

section Routines

variable (setting : Setting)

theorem stays_firstValueCode (field : FieldInfo) (start : Nat) :
    Stays setting.types setting.owner id [] (firstValueCode setting field start) := by
  rw [firstValueCode]
  cases field.value with
  | some value =>
      exact (stays_expression setting value _ _).bind fun _ ↦
        .after (spares_check _ _ _) fun _ ↦ .pure rfl
  | none =>
      refine .pure ?_
      rw [defaultValue.eq_def]
      split <;> rfl

theorem stays_initializeFields (receiver : Nat) : (fields : List FieldInfo) → (position : Nat) →
    (before : List Op) → (start : Nat) →
    Stays setting.types setting.owner id (routineOps before.reverse)
      (initializeFields setting receiver fields position before start)
  | [], _, _, _ => .pure rfl
  | field :: rest, position, before, start => by
      rw [initializeFields]
      refine ((stays_firstValueCode setting field (start + 1)).behind before.reverse).bind
        fun value ↦ ?_
      let code := [Op.load receiver] ++ value ++ [.storeField position]
      have others := stays_initializeFields receiver rest (position + 1) (code.reverse ++ before)
        (start + code.length)
      have same : routineOps (code.reverse ++ before).reverse
          = routineOps (before.reverse ++ id value) := by
        simp [code, routineOps, namesRoutine]
      rwa [same] at others

theorem stays_initializerInside (fields : List FieldInfo) :
    Stays setting.types setting.owner id [] (initializerInside setting fields) :=
  .after spares_allocate fun receiver ↦
    stays_initializeFields { setting with receiver := some receiver } receiver fields 0 [] 0

theorem stays_methodInside (method : MethodInfo) :
    Stays setting.types setting.owner id [] (methodInside setting method) := by
  have rest (receiver : Option Nat) : Stays setting.types setting.owner id [] (do
      declareParameters
        ((method.declaration.parameters.map Syntax.Parameter.name).zip method.parameters)
      block { setting with receiver } method.declaration.body 0) :=
    .after (spares_declareParameters _) fun _ ↦ stays_block { setting with receiver } _ _
  unfold methodInside
  split
  · exact .after (.pure _) rest
  · exact .after spares_allocate fun _ ↦ .after (.pure _) rest

end Routines

/-! ## Units -/

namespace Draft

variable {types : List TypeInfo} {owner : TypeIndex} {index : RoutineIndex}
  {before middle after : Draft} {filled others : List RoutineIndex}

/-- A routine belongs to a type. -/
def Owns (draft : Draft) (owner : TypeIndex) (index : RoutineIndex) : Prop :=
  ∃ routine, draft.routines[index]? = some routine ∧ routine.owner = some owner

theorem Owns.keeps (owned : before.Owns owner index) (keeps : before.Keeps after) :
    after.Owns owner index := by
  obtain ⟨routine, found, same⟩ := owned
  obtain ⟨_, _, found⟩ := keeps index routine found
  exact ⟨_, found, same⟩

theorem Holds.owns {method : MethodInfo} (held : before.Holds owner method) :
    before.Owns owner method.routine :=
  ⟨_, held, rfl⟩

/-- Between two drafts, some routines were given their code, and others were added: if no mistake has
been found, they all only refer to what is open to their types. -/
structure Settles (types : List TypeInfo) (filled : List RoutineIndex) (before after : Draft) :
    Prop where
  fills : before.Fills filled after
  keeps : before.Keeps after
  confined : after.Quiet → ∀ index < after.routines.size,
    index ∈ filled ∨ before.routines.size ≤ index →
    ∃ owner < types.length, after.IsConfined types index owner

theorem Settles.trans (first : Settles types filled before middle)
    (second : Settles types others middle after) :
    Settles types (filled ++ others) before after := by
  refine ⟨first.fills.trans second.fills, first.keeps.trans second.keeps, ?_⟩
  intro quiet index inside part
  by_cases later : index ∈ others ∨ middle.routines.size ≤ index
  · exact second.confined quiet index inside later
  -- what was settled before is not touched again
  · obtain ⟨apart, early⟩ := not_or.mp later
    have early := Nat.lt_of_not_le early
    have quiet' : middle.Quiet := by
      obtain ⟨added, same⟩ := second.fills.findings
      exact fun finding inside ↦ quiet finding (same ▸ List.mem_append_right added inside)
    have part' : index ∈ filled ∨ before.routines.size ≤ index :=
      part.imp_left fun listed ↦ (List.mem_append.mp listed).resolve_right apart
    obtain ⟨owner, known, confined⟩ := first.confined quiet' index early part'
    exact ⟨owner, known, confined.keeps second.keeps (second.fills.routines early apart)⟩

theorem settles_refl (draft : Draft) : Settles types [] draft draft where
  fills := (Extends.refl draft).fills
  keeps := (Extends.refl draft).keeps
  confined _ _ inside part :=
    absurd inside (Nat.not_lt.mpr (part.resolve_left List.not_mem_nil))

theorem Confines.settles {ops : List Op} (confines : Confines types owner before after ops)
    (known : owner < types.length) : Settles types [] before after where
  fills := confines.grown.fills
  keeps := confines.grown.keeps
  confined quiet index inside part :=
    ⟨owner, known, confines.added quiet index (part.resolve_left List.not_mem_nil) inside⟩

end Draft

section Units

variable {references : ReferenceSet} {types : List TypeInfo} {setting : Setting}
  (known : setting.owner < setting.types.length)

include known

/-- Compiling a function settles its routine. -/
theorem settles_defineMethod (method : MethodInfo) {draft : Draft}
    (owned : draft.Owns setting.owner method.routine) :
    Draft.Settles setting.types [method.routine] draft (defineMethod setting method draft).2 := by
  obtain ⟨ops, made, confines⟩ := stays_methodInside setting method ⟨draft, [[]], 0⟩
  let compiled := alone (methodInside setting method) draft
  let checked := (checkReturns method compiled.2).2
  let code := compiled.1.1 ++ epilogue
  let after := (defineMethod setting method draft).2
  have confines : Draft.Confines setting.types setting.owner draft compiled.2 ops := confines
  have made : routineOps compiled.1.1 = ops := made
  have notes : compiled.2.Notes checked := leaves_checkReturns method compiled.2
  have checks : Draft.Confines setting.types setting.owner draft checked (ops ++ []) :=
    confines.trans (notes.extends'.confines notes.routines)
  have completes : checked.Keeps after := Draft.keeps_complete _ _ _ _
  have keeps : draft.Keeps after := checks.grown.keeps.trans completes
  obtain ⟨routine, found, same⟩ := owned.keeps checks.grown.keeps
  have completed : after.routines[method.routine]?
      = some { routine with code := code.toArray, locals := compiled.1.2 } :=
    Draft.complete_routine found
  refine ⟨checks.grown.fills.trans (Draft.fills_complete _ _ _ _), keeps, ?_⟩
  intro quiet index inside part
  have quiet : checked.Quiet := quiet
  refine ⟨setting.owner, known, ?_⟩
  by_cases here : index = method.routine
  · subst here
    refine ⟨_, completed, same, fun op listed ↦ (checks.own quiet op ?_).keeps completes⟩
    rw [List.append_nil, ← made]
    simpa [code, epilogue, routineOps, namesRoutine] using listed
  · have inside : index < checked.routines.size := by
      have same : after.routines.size = checked.routines.size := Array.size_modify
      exact same ▸ inside
    have later := part.resolve_left fun listed ↦ here (List.mem_singleton.mp listed)
    exact (checks.added quiet index later inside).keeps completes
      (Array.getElem?_modify.trans (if_neg (Ne.symm here)))

theorem settles_defineMethods : (methods : List MethodInfo) → {draft : Draft} →
    (∀ method ∈ methods, draft.Owns setting.owner method.routine) →
    Draft.Settles setting.types (methods.map MethodInfo.routine) draft
      (defineMethods setting methods draft).2
  | [], draft, _ => Draft.settles_refl draft
  | first :: rest, draft, owned => by
      obtain ⟨here, others⟩ := List.forall_mem_cons.mp owned
      have one : Draft.Settles setting.types [first.routine] draft
          (defineMethod (setting.ofMethod first) first draft).2 := by
        have known' : (setting.ofMethod first).owner < (setting.ofMethod first).types.length := known
        exact settles_defineMethod known' first here
      exact one.trans (settles_defineMethods rest fun method inside ↦
        (others method inside).keeps one.keeps)

/-- The routine that gives fields their first values is added behind the others. -/
theorem settles_defineInitializer (fields : List FieldInfo) (draft : Draft) :
    Draft.Settles setting.types [] draft (defineInitializer setting fields draft).2 ∧
      ∀ index, (defineInitializer setting fields draft).1 = some index →
        draft.routines.size ≤ index := by
  cases fields with
  | nil => exact ⟨Draft.settles_refl draft, nofun⟩
  | cons first rest =>
      have owned : (initializerRoutine setting.owner).owner = some setting.owner := rfl
      have silent : routineOps epilogue = [] := rfl
      obtain ⟨confines, -⟩ :=
        confines_addRoutine (stays_initializerInside setting (first :: rest)) owned silent draft
      exact ⟨confines.settles known, fun index same ↦ Nat.le_of_eq (Option.some.inj same)⟩

omit known

/-- Compiling types settles the routines of their functions, and those for their fields come behind
them. -/
theorem settles_defineTypes : (rest : List TypeInfo) → (owner : Nat) → {draft : Draft} →
    owner + rest.length = types.length →
    (∀ {position : Nat} {info : TypeInfo}, rest[position]? = some info →
      ∀ method ∈ info.methods, draft.Owns (owner + position) method.routine) →
    Draft.Settles types (routinesOf rest) draft (defineTypes references types owner rest draft).2 ∧
      ∀ definition ∈ (defineTypes references types owner rest draft).1, ∀ index,
        definition.initializer = some index → draft.routines.size ≤ index
  | [], _, draft, _, _ => ⟨Draft.settles_refl draft, nofun⟩
  | info :: rest, owner, draft, length, owned => by
      let setting := settingOf references types owner info
      let initialized := (defineInitializer setting info.fields draft).2
      let middle := (defineType references types owner info draft).2
      rw [List.length_cons] at length
      have known : setting.owner < setting.types.length := by
        change owner < types.length
        omega
      obtain ⟨fields, behind⟩ := settles_defineInitializer known info.fields draft
      have here : ∀ method ∈ info.methods, draft.Owns owner method.routine := by
        have found : (info :: rest)[0]? = some info := rfl
        exact owned found
      have methods : Draft.Settles types (info.methods.map MethodInfo.routine) initialized middle :=
        settles_defineMethods known info.methods fun method inside ↦
          (here method inside).keeps fields.keeps
      have first : Draft.Settles types (info.methods.map MethodInfo.routine) draft middle :=
        fields.trans methods
      have later {position : Nat} {other : TypeInfo} (found : rest[position]? = some other) :
          ∀ method ∈ other.methods, middle.Owns (owner + 1 + position) method.routine := by
        intro method inside
        have found' : (info :: rest)[position + 1]? = some other := found
        have owned := (owned found' method inside).keeps first.keeps
        rwa [← Nat.add_assoc, Nat.add_right_comm] at owned
      have length' : owner + 1 + rest.length = types.length := by omega
      obtain ⟨others, behind'⟩ := settles_defineTypes rest (owner + 1) length' later
      refine ⟨first.trans others, List.forall_mem_cons.mpr ⟨behind, ?_⟩⟩
      exact fun definition inside index same ↦
        Nat.le_trans first.fills.size (behind' definition inside index same)

variable {kind : OutputKind} {unitName : String} {file : File}

/-- The image of a unit without errors keeps private functions to their types. -/
theorem encapsulates_of_quiet (quiet : (compileFile references kind file .empty).2.Quiet) :
    (compileUnit references kind unitName file).image.Encapsulates := by
  let types := typesOf references file
  let drafted := (declare references file .empty).2
  let defined := (defineTypes references types 0 types drafted).2
  let image := (compileUnit references kind unitName file).image
  obtain ⟨definitions, notes⟩ := notes_compileFile references kind file
  have quiet' : defined.Quiet := quiet.of_extends notes.extends'
  have owned {position : Nat} {info : TypeInfo} (here : types[position]? = some info) :
      ∀ method ∈ info.methods, drafted.Owns (0 + position) method.routine := by
    intro method inside
    rw [Nat.zero_add]
    exact (reserved_declare here inside).owns
  have ⟨settles, behind⟩ : Draft.Settles types (routinesOf types) drafted defined ∧
      ∀ definition ∈ (defineTypes references types 0 types drafted).1, ∀ index,
        definition.initializer = some index → drafted.routines.size ≤ index :=
    settles_defineTypes types 0 (Nat.zero_add _) owned
  have routines : image.routines = defined.routines := notes.routines
  have typesAre : image.types = (defineTypes references types 0 types drafted).1.toArray :=
    congrArg _ definitions
  have size : image.types.size = types.length := by
    rw [typesAre, List.size_toArray]
    exact (defineTypes_definitions types 0 drafted).length_eq.symm
  -- a routine has been reserved for a function, or was added behind those
  have confined {routine : Routine} (listed : routine ∈ image.routines) :
      ∃ owner < types.length, routine.owner = some owner ∧
        ∀ op ∈ routine.code, namesRoutine op = true → defined.Permits types owner op := by
    obtain ⟨index, bound, rfl⟩ := Array.mem_iff_getElem.mp (routines ▸ listed)
    have part : index ∈ routinesOf types ∨ drafted.routines.size ≤ index := by
      by_cases reserved : index < drafted.routines.size
      · exact .inl (mem_routinesOf_iff.mpr reserved)
      · exact .inr (Nat.le_of_not_lt reserved)
    obtain ⟨owner, known, routine, found, owned, permits⟩ :=
      settles.confined quiet' index bound part
    obtain rfl := Option.some.inj ((Array.getElem?_eq_getElem bound).symm.trans found)
    exact ⟨owner, known, owned, fun op inside names ↦
      permits op (List.mem_filter.mpr ⟨Array.mem_toList_iff.mpr inside, names⟩)⟩
  refine ⟨fun routine listed ↦ ?_, fun routine listed callee count inside ↦ ?_,
    fun routine listed index copies inside ↦ ?_⟩
  · obtain ⟨owner, known, owned, -⟩ := confined listed
    exact ⟨owner, size ▸ known, owned⟩
  · obtain ⟨owner, -, owned, permits⟩ := confined listed
    obtain ⟨type, info, method, here, member, rfl, callable⟩ := permits _ inside rfl
    have held : drafted.Holds type method := reserved_declare here member
    obtain ⟨code, locals, found⟩ := settles.keeps _ _ held
    refine ⟨_, routines ▸ found, fun hidden ↦ ?_, fun copies same ↦ ?_, fun definition listed same ↦ ?_⟩
    · obtain rfl | isPublic := callable
      · exact owned.symm
      · have isPublic : method.declaration.isPublic = true := isPublic
        simp [routineOf, isPublic] at hidden
    · have binding : (if method.declaration.isStatic then Binding.static else .onInstance)
          = .closure copies := same
      split at binding <;> exact absurd binding nofun
    · have listed : definition ∈ (defineTypes references types 0 types drafted).1 :=
        List.mem_toArray.mp (typesAre ▸ listed)
      have reserved := (Array.getElem?_eq_some_iff.mp held).1
      exact Nat.not_lt.mpr (behind definition listed _ same) reserved
  · obtain ⟨owner, -, owned, permits⟩ := confined listed
    obtain ⟨lambda, found, same, binding⟩ := permits _ inside rfl
    exact ⟨lambda, routines ▸ found, binding, same.trans owned.symm⟩

end Units

/-- Whatever syntax tree a compilation accepts, private functions are only called from their own types in
the image that it gives. -/
theorem encapsulates_of_success {options : CompileOptions} {unitName : String} {source : SourceUnit}
    {file : File} {references : ReferenceSet} {result : CompilationResult}
    (compiled : Compilation.compile options unitName source file references = .ok result)
    (success : result.success = true) :
    let image := (compileUnit references options.kind unitName file).image
    result.image = image.encode ∧ image.Encapsulates := by
  obtain rfl | ⟨quiet, -, rfl⟩ := outcome_of_compile compiled
  · exact absurd success nofun
  · exact ⟨rfl, encapsulates_of_quiet quiet⟩

/-- A program in which a lambda calls a private function of its type. -/
def privateSource : SourceUnit :=
  ⟨"type P {
      static fn twice(n: int) -> int { return n + n; }
      pub static fn main(args: [str]) { let f = |x| P::twice(2); f(0); }
    }", .v2⟩

/-- A routine of an image is that of a lambda, and calls a private function. -/
def callsPrivately (image : Image) (routine : Routine) : Bool :=
  routine.binding = .closure 0 && routine.code.any fun
    | .call callee _ => image.routines[callee]?.any fun target ↦ target.visibility = .owner
    | _ => false

theorem encapsulates_of_success_private : ∃ options file result,
    Compilation.compile options "unit" privateSource file (Resolver.ofTable .standard [])
        = .ok result ∧ result.success = true ∧
      let image := (compileUnit (Resolver.ofTable .standard []) options.kind "unit" file).image
      image.routines.any (callsPrivately image) = true ∧ result.image = image.encode ∧
        image.Encapsulates := by
  let references := Resolver.ofTable .standard []
  have passes : (Syntax.parse privateSource).toOption.any (fun file ↦
      let image := (compileUnit references .executable "unit" file).image
      image.routines.any (callsPrivately image) &&
        (Compilation.compile {} "unit" privateSource file references).toOption.any
          CompilationResult.success) = true := by
    decide +kernel
  obtain ⟨file, -, both⟩ := (Option.any_eq_true _ _).mp passes
  obtain ⟨calls, compiles⟩ := Bool.and_eq_true_iff.mp both
  obtain ⟨result, compiled, success⟩ := (Option.any_eq_true _ _).mp compiles
  have compiled := eq_ok_of_toOption compiled
  exact ⟨{}, file, result, compiled, success, calls, encapsulates_of_success compiled success⟩

end Compile

end GuestScript
