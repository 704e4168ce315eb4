import GuestScript.Proofs.Compile.HostCalls
import GuestScript.Proofs.Compile.Entries

/-!
# The routines that bodies refer to

A body refers to other routines where it calls a function and where it makes a closure. `Stays` says of
an action that compiles a part of a body that, if no mistake is reported, the code of the part only calls
functions of its own type and public ones, and only makes closures of lambdas of its own type; and that
the same holds of the lambdas that are added on the way. The walk shows it of every expression and
statement: a mistake is reported where the text asks for more.
-/

namespace GuestScript.Compile

open Bytecode (Op Routine RoutineIndex TypeIndex)
open Syntax

/-- An instruction refers to a routine. -/
def namesRoutine : Op → Bool
  | .call .. | .makeClosure .. => true
  | _ => false

/-- The instructions of code that refer to routines. -/
def routineOps (code : List Op) : List Op :=
  code.filter namesRoutine

@[simp]
theorem routineOps_nil : routineOps [] = [] :=
  rfl

@[simp]
theorem routineOps_append (first second : List Op) :
    routineOps (first ++ second) = routineOps first ++ routineOps second :=
  List.filter_append _ _

/-- The routine of a function that a type may call: it is its own, or public. -/
def IsCallable (types : List TypeInfo) (owner : TypeIndex) (callee : RoutineIndex) : Prop :=
  ∃ type info method, types[type]? = some info ∧ method ∈ info.methods ∧
    method.routine = callee ∧ (type = owner ∨ method.isPublic = true)

/-! ## Drafts -/

namespace Draft

variable {types : List TypeInfo} {owner : TypeIndex} {before middle after : Draft}
  {ops more : List Op}

/-- A routine is that of a lambda of a type, which takes so many copies. -/
def HasLambda (draft : Draft) (owner : TypeIndex) (index : RoutineIndex) (copies : Nat) : Prop :=
  ∃ routine, draft.routines[index]? = some routine ∧ routine.owner = some owner ∧
    routine.binding = .closure copies

/-- What an instruction in the code of a type refers to is open to the type. -/
def Permits (draft : Draft) (types : List TypeInfo) (owner : TypeIndex) : Op → Prop
  | .call callee _ => IsCallable types owner callee
  | .makeClosure index copies => draft.HasLambda owner index copies
  | _ => True

/-- The routine at a position belongs to a type and only refers to what is open to the type. -/
def IsConfined (draft : Draft) (types : List TypeInfo) (index : RoutineIndex) (owner : TypeIndex) :
    Prop :=
  ∃ routine, draft.routines[index]? = some routine ∧ routine.owner = some owner ∧
    ∀ op ∈ routineOps routine.code.toList, draft.Permits types owner op

theorem HasLambda.keeps {index : RoutineIndex} {copies : Nat}
    (has : before.HasLambda owner index copies) (keeps : before.Keeps after) :
    after.HasLambda owner index copies := by
  obtain ⟨routine, found, owned, binding⟩ := has
  obtain ⟨_, _, found⟩ := keeps index routine found
  exact ⟨_, found, owned, binding⟩

theorem Permits.keeps {op : Op} (permits : before.Permits types owner op)
    (keeps : before.Keeps after) : after.Permits types owner op := by
  cases op with
  | makeClosure => exact HasLambda.keeps permits keeps
  | _ => exact permits

/-- A routine that stays as it is stays confined. -/
theorem IsConfined.keeps {index : Nat} (confined : before.IsConfined types index owner)
    (keeps : before.Keeps after)
    (same : after.routines[index]? = before.routines[index]?) :
    after.IsConfined types index owner := by
  obtain ⟨routine, found, owned, permits⟩ := confined
  exact ⟨routine, same.trans found, owned, fun op inside ↦ (permits op inside).keeps keeps⟩

/-- What one draft has more than another one, where code of a type with these instructions has been
compiled: if no mistake has been found, they only refer to what is open to the type, and so do the
routines that have been added, which belong to the type. -/
structure Confines (types : List TypeInfo) (owner : TypeIndex) (before after : Draft)
    (ops : List Op) : Prop where
  grown : before.Extends after
  own : after.Quiet → ∀ op ∈ ops, after.Permits types owner op
  added : after.Quiet → ∀ index, before.routines.size ≤ index → index < after.routines.size →
    after.IsConfined types index owner

theorem Confines.trans (first : Confines types owner before middle ops)
    (second : Confines types owner middle after more) :
    Confines types owner before after (ops ++ more) where
  grown := first.grown.trans second.grown
  own quiet := by
    have quiet' := quiet.of_extends second.grown
    exact List.forall_mem_append.mpr
      ⟨fun op inside ↦ (first.own quiet' op inside).keeps second.grown.keeps, second.own quiet⟩
  added quiet index later inside := by
    by_cases early : index < middle.routines.size
    · exact (first.added (quiet.of_extends second.grown) index later early).keeps
        second.grown.keeps (second.grown.routines early)
    · exact second.added quiet index (Nat.le_of_not_lt early) inside

/-- Nothing is added but findings and imports. -/
theorem Extends.confines (grown : before.Extends after)
    (same : after.routines = before.routines) : Confines types owner before after [] where
  grown := grown
  own _ := nofun
  added _ _ later inside := absurd (same ▸ inside) (Nat.not_lt.mpr later)

end Draft

/-! ## Parts of bodies -/

namespace Lowering

variable {Value Other : Type} {types : List TypeInfo} {owner : TypeIndex}

/-- An action compiles a part of a body of a type, behind the code that it is given: if no mistake is
found, it only refers to what is open to the type. -/
def Stays (types : List TypeInfo) (owner : TypeIndex) (code : Value → List Op) (given : List Op)
    (action : Lowering Value) : Prop :=
  ∀ body, ∃ ops, routineOps (code (action body).1) = given ++ ops ∧
    Draft.Confines types owner body.draft (action body).2.draft ops

namespace Stays

variable {code : Value → List Op} {code' : Other → List Op} {action : Lowering Value}
  {next : Value → Lowering Other} {value : Value} {given : List Op}

theorem pure (same : routineOps (code value) = given) :
    Stays types owner code given (Pure.pure value) :=
  fun body ↦ ⟨[], by rw [List.append_nil]; exact same, (Draft.Extends.refl body.draft).confines rfl⟩

/-- What is compiled next is given the code of what is compiled first. -/
theorem bind (first : Stays types owner code given action)
    (second : ∀ value, Stays types owner code' (routineOps (code value)) (next value)) :
    Stays types owner code' given (action >>= next) := by
  intro body
  obtain ⟨ops, made, confines⟩ := first body
  obtain ⟨more, made', confines'⟩ := second (action body).1 (action body).2
  exact ⟨ops ++ more, by rw [← List.append_assoc, ← made]; exact made', confines.trans confines'⟩

theorem ite {condition : Prop} [Decidable condition] {action other : Lowering Value}
    (first : Stays types owner code given action) (second : Stays types owner code given other) :
    Stays types owner code given (if condition then action else other) := by
  split
  · exact first
  · exact second

/-- Something that adds no routine is done before. -/
theorem after (first : Spares action)
    (second : ∀ value, Stays types owner code' given (next value)) :
    Stays types owner code' given (action >>= next) := by
  intro body
  obtain ⟨grown, -, routines⟩ := first body
  obtain ⟨ops, made, confines⟩ := second (action body).1 (action body).2
  exact ⟨ops, made, (grown.confines routines).trans confines⟩

/-- A result is computed from that of an action that does all the work. -/
theorem map {make : Value → Other} (first : Stays types owner code given action)
    (same : ∀ value, routineOps (code' (make value)) = routineOps (code value)) :
    Stays types owner code' given (action >>= fun value ↦ Pure.pure (make value)) :=
  first.bind fun value ↦ .pure (same value)

/-- What is compiled on its own may stand behind other code. -/
theorem behind (first : Stays types owner code [] action) (earlier : List Op) :
    Stays types owner (fun value ↦ earlier ++ code value) (routineOps earlier) action := by
  intro body
  obtain ⟨ops, made, confines⟩ := first body
  exact ⟨ops, by rw [routineOps_append, made, List.nil_append], confines⟩

end Stays

/-- A routine of the type is added, with the lambdas in it behind it. -/
theorem confines_addRoutine {action : Lowering Value} {code : Value → List Op}
    (inner : Stays types owner code [] action) {routine : Routine}
    (owned : routine.owner = some owner) {ending : List Op} (silent : routineOps ending = [])
    (draft : Draft) :
    let after := (addRoutine routine (fun value ↦ code value ++ ending) action draft).2
    Draft.Confines types owner draft after [] ∧
      ∃ code locals, after.routines[draft.routines.size]? = some { routine with code, locals } := by
  intro after
  let reserved := (Draft.reserve routine draft).2
  let compiled := action ⟨reserved, [[]], 0⟩
  obtain ⟨ops, made, confines⟩ := inner ⟨reserved, [[]], 0⟩
  have made : routineOps (code compiled.1) = ops := made
  have confines : Draft.Confines types owner reserved compiled.2.draft ops := confines
  have first : draft.Extends reserved := Draft.extends_reserve routine draft
  have size : reserved.routines.size = draft.routines.size + 1 := Array.size_push _
  have there : compiled.2.draft.routines[draft.routines.size]? = some routine :=
    (confines.grown.routines (size ▸ Nat.lt_succ_self _)).trans Array.getElem?_push_size
  have completed : after.routines[draft.routines.size]? = some
      { routine with code := (code compiled.1 ++ ending).toArray, locals := compiled.2.nextSlot } :=
    Draft.complete_routine there
  have keeps : compiled.2.draft.Keeps after := Draft.keeps_complete _ _ _ _
  refine ⟨⟨(first.trans confines.grown).complete (Nat.le_refl _) _ _, fun _ ↦ nofun, ?_⟩,
    _, _, completed⟩
  intro quiet index later inside
  have quiet : compiled.2.draft.Quiet := quiet
  obtain rfl | later := Nat.eq_or_lt_of_le later
  · refine ⟨_, completed, owned, fun op listed ↦ (confines.own quiet op ?_).keeps keeps⟩
    rw [← made]
    simpa [silent] using listed
  · have inside : index < compiled.2.draft.routines.size := by
      have same : after.routines.size = compiled.2.draft.routines.size := Array.size_modify
      exact same ▸ inside
    exact (confines.added quiet index (size ▸ later) inside).keeps keeps
      (Array.getElem?_modify.trans (if_neg (Nat.ne_of_lt later)))

end Lowering

/-! ## Expressions -/

section Expressions

open Lowering

variable {setting : Setting} {types : List TypeInfo} {owner : TypeIndex} {start : Nat} {span : Span}
  {given : List Op}

theorem stays_noValue (code : Code) (message : String) :
    Stays types owner Typed.code [] (noValue code message span) :=
  .after (spares_mistake _ _ _) fun _ ↦ .pure rfl

theorem stays_receiverValue : Stays types owner Typed.code [] (receiverValue setting span) := by
  unfold receiverValue
  split
  · exact .pure rfl
  · exact stays_noValue _ _

theorem stays_pathValue (segments : List Identifier) :
    Stays types owner Typed.code [] (pathValue segments span) := by
  unfold pathValue
  split
  · refine .after (spares_lookup _) fun found ↦ ?_
    cases found with
    | some found => exact .pure rfl
    | none => exact stays_noValue _ _
  · exact stays_noValue _ _

/-- A part that was compiled before, and that a mistake may be reported about. -/
theorem stays_mistaken (emitted : List Op) (code : Code) (message : String) (span : Span) :
    Stays types owner Typed.code (routineOps emitted) (do
      let type ← mistake code message span
      Pure.pure ⟨emitted, type⟩) :=
  .after (spares_mistake _ _ _) fun _ ↦ .pure rfl

theorem stays_fieldValue (target : Typed) (name : Identifier) :
    Stays types owner Typed.code (routineOps target.code) (fieldValue setting target name) := by
  unfold fieldValue
  split
  · split
    · exact .pure (by simp [routineOps, namesRoutine])
    · exact stays_mistaken _ _ _ _
  · exact .pure rfl
  · exact stays_mistaken _ _ _ _

theorem stays_newObject (name : Identifier) :
    Stays types owner Typed.code [] (newObject setting name) := by
  unfold newObject
  simp only
  split
  · exact .pure rfl
  · exact stays_noValue _ _

theorem stays_unaryValue (operator : UnaryOperator) (operand : Typed) :
    Stays types owner Typed.code (routineOps operand.code)
      (unaryValue operator operand span) := by
  have same : routineOps operand.code = routineOps (operand.code ++ [.unary operator]) := by
    simp [routineOps, namesRoutine]
  unfold unaryValue
  rw [same]
  exact .ite (.pure rfl) (stays_mistaken _ _ _ _)

theorem stays_shortCircuit (operator : BinaryOperator) (code : List Op) (left right : Ty)
    (same : routineOps code = given) :
    Stays types owner Typed.code given (shortCircuit operator code left right span) := by
  subst same
  exact .ite (.pure rfl) (stays_mistaken _ _ _ _)

theorem stays_strictOperator (operator : BinaryOperator) (code : List Op) (left right : Ty)
    (same : routineOps code = given) :
    Stays types owner Typed.code given (strictOperator operator code left right span) := by
  subst same
  unfold strictOperator
  split
  · exact .pure rfl
  · exact stays_mistaken _ _ _ _

variable {left right : Pending} {arguments : PendingArguments}

theorem stays_binaryValue (operator : BinaryOperator)
    (first : ∀ expected start, Stays types owner Typed.code [] (left expected start))
    (second : ∀ expected start, Stays types owner Typed.code [] (right expected start)) :
    Stays types owner Typed.code [] (binaryValue operator left right span start) := by
  unfold binaryValue
  split
  · refine (first _ _).bind fun typed ↦ ((second _ _).behind typed.code).bind fun typed' ↦ ?_
    exact stays_shortCircuit _ _ _ _ (by simp [routineOps, namesRoutine])
  · refine (first _ _).bind fun typed ↦ ((second _ _).behind typed.code).bind fun typed' ↦ ?_
    exact stays_shortCircuit _ _ _ _ (by simp [routineOps, namesRoutine])
  · refine (first _ _).bind fun typed ↦ ((second _ _).behind typed.code).bind fun typed' ↦ ?_
    exact stays_strictOperator _ _ _ _ (by simp [routineOps, namesRoutine])

/-! ### Calls -/

/-- Arguments behind other code, which comes in reverse, only refer to what is open to the type. -/
def StaysArguments (types : List TypeInfo) (owner : TypeIndex) (arguments : PendingArguments) :
    Prop :=
  ∀ parameters callee number bound before start, Stays types owner Prod.fst
    (routineOps before.reverse) (arguments parameters callee number bound before start)

theorem stays_checkedArguments (total : Nat) (parameters : List Ty) (callee : String)
    (before : List Op) (each : StaysArguments types owner arguments) :
    Stays types owner Prod.fst (routineOps before)
      (checkedArguments arguments total parameters callee span before start) := by
  have given (start : Nat) : Stays types owner Prod.fst (routineOps before)
      (arguments parameters callee 1 none before.reverse start) := by
    have given := each parameters callee 1 none before.reverse start
    rwa [List.reverse_reverse] at given
  simp only [checkedArguments]
  exact .ite (.after (spares_report _ _ _) fun _ ↦ given _) (given _)

theorem stays_uncheckedArguments (before : List Op) (each : StaysArguments types owner arguments) :
    Stays types owner id (routineOps before) (uncheckedArguments arguments before start) := by
  have given := each [] "" 1 none before.reverse (start + before.length)
  rw [List.reverse_reverse] at given
  exact given.map fun _ ↦ rfl

theorem stays_badCall (before : List Op) (code : Code) (message : String)
    (each : StaysArguments types owner arguments) :
    Stays types owner Typed.code (routineOps before)
      (badCall arguments before start code message span) :=
  (stays_uncheckedArguments before each).bind fun _ ↦ stays_mistaken _ _ _ _

theorem stays_callValue (callee : Typed) (total : Nat) (what : String)
    (each : StaysArguments types owner arguments) :
    Stays types owner Typed.code (routineOps callee.code)
      (callValue callee arguments total what span start) := by
  have called (code : List Op) : routineOps (code ++ [.callClosure total]) = routineOps code := by
    simp [routineOps, namesRoutine]
  unfold callValue
  split
  · exact (stays_checkedArguments _ _ _ _ each).map fun _ ↦ called _
  · exact (stays_uncheckedArguments _ each).map fun _ ↦ called _
  · exact (stays_uncheckedArguments _ each).map fun _ ↦ rfl
  · exact stays_badCall _ _ _ each

theorem stays_implicitReceiver (method : MethodInfo) :
    Stays types owner id [] (implicitReceiver setting method span) := by
  unfold implicitReceiver
  refine .ite (.pure rfl) ?_
  split
  · exact .pure rfl
  · exact .after (spares_report _ _ _) fun _ ↦ .pure rfl

/-- A call of a function that is open to the type, unless a mistake has been found before. -/
theorem exists_ops_callMethod (method : MethodInfo) (receiver : List Op) (total : Nat)
    (each : StaysArguments types owner arguments) {body : Body}
    (callable : body.draft.Quiet → IsCallable types owner method.routine) :
    ∃ ops,
      routineOps (callMethod method receiver arguments total span start body).1.code
          = routineOps receiver ++ ops ∧
        Draft.Confines types owner body.draft
          (callMethod method receiver arguments total span start body).2.draft ops := by
  let compiled := checkedArguments arguments total method.parameters method.name span receiver start
  let taken := if method.isStatic then total else total + 1
  obtain ⟨ops, made, confines⟩ : ∃ ops, routineOps (compiled body).1.1 = routineOps receiver ++ ops ∧
      Draft.Confines types owner body.draft (compiled body).2.draft ops :=
    stays_checkedArguments total method.parameters method.name receiver each body
  refine ⟨ops ++ [.call method.routine taken], ?_, confines.grown, fun quiet ↦ ?_, confines.added⟩
  · change routineOps ((compiled body).1.1 ++ [.call method.routine taken]) = _
    rw [routineOps_append, made, List.append_assoc]
    rfl
  · refine List.forall_mem_append.mpr ⟨confines.own quiet, List.forall_mem_singleton.mpr ?_⟩
    exact callable (quiet.of_extends confines.grown)

theorem stays_callMethod (method : MethodInfo) (receiver : List Op) (total : Nat)
    (each : StaysArguments types owner arguments)
    (callable : IsCallable types owner method.routine) :
    Stays types owner Typed.code (routineOps receiver)
      (callMethod method receiver arguments total span start) :=
  fun _ ↦ exists_ops_callMethod method receiver total each fun _ ↦ callable

/-- The function of a name belongs to the type. -/
theorem exists_info_of_methodOf? {name : String} {method : MethodInfo}
    (found : methodOf? types owner name = some method) :
    ∃ info, types[owner]? = some info ∧ method ∈ info.methods := by
  rw [methodOf?, Option.bind_eq_bind, Option.bind_eq_some_iff] at found
  obtain ⟨info, here, found⟩ := found
  exact ⟨info, here, List.mem_of_find?_eq_some found⟩

/-- If the check of a call reports nothing, the function is open to the type. -/
theorem callable_of_checkVisible {type : TypeIndex} {name : String} {method : MethodInfo}
    (found : methodOf? setting.types type name = some method) {body : Body}
    (quiet : (checkVisible setting type method span body).2.draft.Quiet) :
    IsCallable setting.types setting.owner method.routine := by
  obtain ⟨info, here, inside⟩ := exists_info_of_methodOf? found
  refine ⟨type, info, method, here, inside, rfl, ?_⟩
  by_contra hidden
  obtain ⟨foreign, notPublic⟩ := not_or.mp hidden
  have refused : (type ≠ setting.owner && !method.isPublic) = true := by
    simp [foreign, notPublic]
  simp only [checkVisible, refused, if_true] at quiet
  exact Draft.not_quiet_report _ _ span body.draft quiet

/-- A call that is checked only refers to a function that is open to the type. -/
theorem stays_visibleCall {type : TypeIndex} {name : String} {method : MethodInfo}
    (found : methodOf? setting.types type name = some method) (receiver : List Op) (total : Nat)
    (each : StaysArguments setting.types setting.owner arguments) :
    Stays setting.types setting.owner Typed.code (routineOps receiver) (do
      checkVisible setting type method span
      callMethod method receiver arguments total span start) := by
  intro body
  let checked := (checkVisible setting type method span body).2
  have spares : Spares (checkVisible setting type method span) := spares_checkVisible type method
  have callable : checked.draft.Quiet → IsCallable setting.types setting.owner method.routine :=
    callable_of_checkVisible found
  obtain ⟨grown, -, routines⟩ := spares body
  obtain ⟨ops, made, confines⟩ := exists_ops_callMethod method receiver total each callable
  exact ⟨ops, made, (grown.confines routines).trans confines⟩

theorem stays_callName (name : Identifier) (total : Nat)
    (each : StaysArguments setting.types setting.owner arguments) :
    Stays setting.types setting.owner Typed.code []
      (callName setting name arguments total span start) := by
  unfold callName
  refine .after (spares_lookup _) fun found ↦ ?_
  cases found with
  | some found => exact stays_callValue _ _ _ each
  | none =>
      simp only
      split
      · next method found =>
          obtain ⟨info, here, inside⟩ := exists_info_of_methodOf? found
          refine (stays_implicitReceiver _).bind fun receiver ↦ stays_callMethod _ receiver _ each ?_
          exact ⟨setting.owner, info, method, here, inside, rfl, .inl rfl⟩
      · exact stays_badCall [] _ _ each

theorem stays_callStatic (type : TypeIndex) (path : String) (function : Identifier) (total : Nat)
    (each : StaysArguments setting.types setting.owner arguments) :
    Stays setting.types setting.owner Typed.code []
      (callStatic setting type path function arguments total span start) := by
  unfold callStatic
  split
  · next found => exact .ite (stays_visibleCall found [] _ each) (stays_badCall [] _ _ each)
  · exact stays_badCall [] _ _ each

/-- An import is no routine. -/
theorem stays_imported (code : List Op) (total : Nat) (type : Ty) (imported : Bytecode.Import) :
    Stays types owner Typed.code (routineOps code) (do
      let index ← onDraft (Draft.importIndex imported)
      Pure.pure ⟨code ++ [.callHost index total], type⟩) := by
  intro body
  refine ⟨[], ?_, (Draft.extends_importIndex imported body.draft).1.confines ?_⟩
  · change routineOps (code ++ [.callHost _ total]) = _
    simp [routineOps, namesRoutine]
  · rw [Draft.importIndex_apply]
    cases body.draft.imports.findIdx? (Draft.isImport imported) <;> rfl

theorem stays_callHostFunction (binding : ModuleBinding) (path : String) (function : Identifier)
    (total : Nat) (each : StaysArguments types owner arguments) :
    Stays types owner Typed.code []
      (callHostFunction binding path function arguments total span start) := by
  unfold callHostFunction
  split
  · next host found =>
      have checked : Stays types owner Prod.fst []
          (checkedArguments arguments total host.parameters path span [] start) :=
        stays_checkedArguments total host.parameters path [] each
      exact checked.bind fun result ↦ stays_imported result.1 total _ _
  · exact stays_badCall [] _ _ each

theorem stays_callNamed (segments : List Identifier) (calleeSpan : Span) (total : Nat)
    (each : StaysArguments setting.types setting.owner arguments) :
    Stays setting.types setting.owner Typed.code []
      (callNamed setting segments calleeSpan arguments total span start) := by
  unfold callNamed
  split
  · exact stays_callName _ _ each
  · unfold callPath
    simp only
    split
    · exact stays_callStatic _ _ _ _ each
    · split
      · exact stays_callHostFunction _ _ _ _ each
      · exact stays_badCall [] _ _ each
  · exact stays_badCall [] _ _ each

theorem stays_callOnTarget (target : Typed) (name : Identifier) (total : Nat)
    (each : StaysArguments setting.types setting.owner arguments) :
    Stays setting.types setting.owner Typed.code (routineOps target.code)
      (callOnTarget setting target name arguments total span start) := by
  unfold callOnTarget
  split
  · next fullName =>
      simp only
      split
      · next type method found =>
          have found : methodOf? setting.types type name.name = some method := by
            simp only [Option.bind_eq_bind, Option.bind_eq_some_iff, Option.pure_def,
              Option.some.injEq, Prod.mk.injEq] at found
            obtain ⟨_, -, _, found, rfl, rfl⟩ := found
            exact found
          exact .ite (stays_badCall _ _ _ each) (stays_visibleCall found _ _ each)
      · exact stays_badCall _ _ _ each
  · exact (stays_uncheckedArguments _ each).map fun _ ↦ rfl
  · exact stays_badCall _ _ _ each

/-! ### Lambdas -/

theorem stays_closureValue (parameters : List Identifier) (captures : List Capture)
    (expected : Option Ty) {inside : Setting → Lowering Typed}
    (body : ∀ number result, Stays setting.types setting.owner Typed.code []
      (inside (setting.inside number captures result))) :
    Stays setting.types setting.owner Typed.code []
      (closureValue setting parameters captures inside expected) := by
  have numbered : Spares (onDraft Draft.nextLambda) :=
    fun _ ↦ ⟨⟨⟨[], rfl⟩, id, Nat.le_refl _, fun _ ↦ rfl⟩, rfl, rfl⟩
  let loads := captures.map fun capture ↦ Op.load capture.slot
  have silent : routineOps loads = [] := by
    simp [routineOps, loads, namesRoutine]
  unfold closureValue
  rcases lambdaSignature parameters.length expected with ⟨types, result⟩
  refine .after numbered fun number ↦ ?_
  let inner := setting.inside number captures result
  let routine := closureRoutine inner captures.length parameters.length
  have own : Stays setting.types setting.owner Typed.code []
      (lambdaInside captures (parameters.zip types) (inside inner)) :=
    .after (spares_declareCaptures _) fun _ ↦ .after (spares_declareParameters _) fun _ ↦
      body number result
  intro before
  have owned : routine.owner = some inner.owner := rfl
  have silent' : routineOps epilogue = [] := rfl
  obtain ⟨confines, code, locals, added⟩ := confines_addRoutine own owned silent' before.draft
  let op := Op.makeClosure before.draft.routines.size captures.length
  refine ⟨[op], ?_, confines.grown, fun _ ↦ ?_, confines.added⟩
  · change routineOps (loads ++ [op]) = _
    rw [routineOps_append, silent]
    rfl
  · exact List.forall_mem_singleton.mpr ⟨_, added, rfl, rfl⟩

theorem stays_lambdaValue (parameters : List Identifier) (mentioned : List String)
    (expected : Option Ty) {inside : Setting → Lowering Typed}
    (body : ∀ number captures result, Stays setting.types setting.owner Typed.code []
      (inside (setting.inside number captures result))) :
    Stays setting.types setting.owner Typed.code []
      (lambdaValue setting parameters mentioned inside expected) :=
  .after (spares_capturesOf parameters mentioned) fun captures ↦
    stays_closureValue parameters captures expected fun number ↦ body number captures

end Expressions

end GuestScript.Compile
