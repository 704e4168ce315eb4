import GuestScript.Proofs.Compile.Scopes
import GuestScript.Proofs.Machine.Codes
import GuestScript.Proofs.Meaning.Holders
import GuestScript.Proofs.Simulation.Meets

/-!
# Evaluations that have an answer

`Yields allowed evaluation fits` says that an evaluation has an answer in every world whose closures
run what is allowed: it ends with a fault, or with a result that fits, and the closures of the world
it leaves still run what is allowed. An evaluation is put together from others, and so is this. What
values do at work comes down to calls, and these are answered if the caller `Serves` what is good.
-/

namespace GuestScript.Meaning

open Bytecode (TypeIndex)
open Compile
open Evaluation (settled converted making)
open Machine

/-- An evaluation has an answer in each of these worlds. -/
structure Yields {Result : Type} (allowed : Lambda → Prop) (evaluation : Evaluation Result)
    (fits : Result → Prop) : Prop where
  answers : ∀ {world : WorldOver Lambda}, world.Over allowed →
    ∃ outcome after, evaluation world = some (outcome, after) ∧ after.Over allowed ∧
      ∀ result, outcome = .ok result → fits result

variable {Result Other : Type} {allowed : Lambda → Prop}

namespace Yields

variable {evaluation : Evaluation Result} {fits : Result → Prop} {others : Other → Prop}

theorem pure {result : Result} (here : fits result) :
    Yields allowed (Pure.pure result) fits :=
  ⟨fun kept ↦ ⟨.ok result, _, rfl, kept, fun _ same ↦ Except.ok.inj same ▸ here⟩⟩

/-- One evaluation after another. -/
theorem bind {next : Result → Evaluation Other} (first : Yields allowed evaluation fits)
    (second : ∀ result, fits result → Yields allowed (next result) others) :
    Yields allowed (evaluation >>= next) others := by
  refine ⟨fun kept ↦ ?_⟩
  obtain ⟨outcome, after, answered, kept', fitting⟩ := first.answers kept
  cases outcome with
  | error fault => exact ⟨.error fault, after, Evaluation.bind_eq_error answered, kept', nofun⟩
  | ok result =>
      obtain ⟨outcome, last, answered', rest⟩ := (second result (fitting result rfl)).answers kept'
      exact ⟨outcome, last, (Evaluation.bind_eq_of_ok answered).trans answered', rest⟩

theorem settled {outcome : Except Fault Result} (here : ∀ result, outcome = .ok result → fits result) :
    Yields allowed (Evaluation.settled outcome) fits :=
  ⟨fun kept ↦ ⟨outcome, _, rfl, kept, here⟩⟩

theorem fault (fault : Fault) : Yields allowed (Evaluation.settled (.error fault)) fits :=
  settled nofun

theorem converted {conversion : Except Mismatch Result}
    (here : ∀ result, conversion = .ok result → fits result) :
    Yields allowed (Evaluation.converted conversion) fits := by
  refine settled fun result same ↦ ?_
  cases conversion with
  | error mismatch => exact absurd same nofun
  | ok value => exact here result (congrArg Except.ok (Except.ok.inj same))

/-- A condition is true or false. -/
theorem condition (value : Datum) :
    Yields allowed (Evaluation.converted value.toBool) fun _ ↦ True :=
  converted fun _ _ ↦ trivial

end Yields

/-! ## Values at work -/

/-- The lambdas that it is good to call. -/
abbrev Lambdas (good : Callee → Prop) : Lambda → Prop :=
  fun code ↦ good (.lambda code)

/-- A caller answers each call of what is good on values whose closures run what is good. -/
structure Serves (good : Callee → Prop) (call : Caller) : Prop where
  answers : ∀ {callee : Callee} {arguments : List Datum}, good callee →
    (∀ argument ∈ arguments, argument.Over (Lambdas good)) →
    Yields (Lambdas good) (call callee arguments) fun answer ↦ answer.Over (Lambdas good)

/-- Every closure in these values runs what is good. -/
abbrev AllOver (good : Callee → Prop) (values : List Datum) : Prop :=
  ∀ value ∈ values, value.Over (Lambdas good)

variable {good : Callee → Prop} {call : Caller}

namespace Serves

theorem callClosure (serves : Serves good call) {closure : ClosureOver Lambda}
    {arguments : List Datum} (runs : closure.Over (Lambdas good))
    (given : AllOver good arguments) :
    Yields (Lambdas good) (Meaning.callClosure call closure arguments)
      fun answer ↦ answer.Over (Lambdas good) := by
  obtain ⟨code, captures⟩ := ClosureOver.over_iff.mp runs
  exact serves.answers code (List.forall_mem_append.mpr ⟨captures, given⟩)

theorem callDatum (serves : Serves good call) {callee : Datum} {arguments : List Datum}
    (runs : callee.Over (Lambdas good)) (given : AllOver good arguments) :
    Yields (Lambdas good) (Meaning.callDatum call callee arguments)
      fun answer ↦ answer.Over (Lambdas good) :=
  .bind (.converted fun _ same ↦ toClosure_over runs same) fun _ runs ↦
    serves.callClosure runs given

/-- A stage passes on answers, or elements that it has been given. -/
theorem runStage (serves : Serves good call) {stage : StageOver Lambda}
    (runs : stage.Over (Lambdas good)) : (elements : List Datum) → AllOver good elements →
    Yields (Lambdas good) (Meaning.runStage call stage elements) (AllOver good)
  | [], _ => .pure nofun
  | element :: rest, given => by
      obtain ⟨here, given⟩ := List.forall_mem_cons.mp given
      have one : AllOver good [element] := List.forall_mem_singleton.mpr here
      have others (kept : List Datum) (kept' : AllOver good kept) : Yields (Lambdas good) (do
          let passed ← Meaning.runStage call stage rest
          pure (kept ++ passed)) (AllOver good) :=
        .bind (serves.runStage runs rest given) fun _ passed ↦
          .pure (List.forall_mem_append.mpr ⟨kept', passed⟩)
      rw [Meaning.runStage]
      refine .bind (serves.callClosure (StageOver.over_iff.mp runs) one) fun answer answer' ↦ ?_
      cases stage with
      | map mapper => exact others [answer] (List.forall_mem_singleton.mpr answer')
      | filter predicate =>
          refine .bind (.condition answer) fun keeps _ ↦ ?_
          cases keeps with
          | true => exact others [element] one
          | false => exact others [] nofun

theorem runStages (serves : Serves good call) : (stages : List (StageOver Lambda)) →
    (elements : List Datum) → (∀ stage ∈ stages, stage.Over (Lambdas good)) →
    AllOver good elements →
    Yields (Lambdas good) (Meaning.runStages call stages elements) (AllOver good)
  | [], _, _, given => .pure given
  | _ :: later, elements, run, given => by
      obtain ⟨here, run⟩ := List.forall_mem_cons.mp run
      exact .bind (serves.runStage here elements given) fun passed passed' ↦
        serves.runStages later passed run passed'

/-- What a loop visits is settled before it visits the first of it. -/
theorem elementsOf (serves : Serves good call) {iterable : Datum}
    (kept : iterable.Over (Lambdas good)) :
    Yields (Lambdas good) (Meaning.elementsOf call iterable) (AllOver good) := by
  cases iterable with
  | array items => exact .pure (ValueOver.over_array.mp kept)
  | seq identity source stages =>
      obtain ⟨source', run⟩ := ValueOver.over_seq.mp kept
      exact serves.runStages stages source run source'
  | _ => exact .fault _

theorem answerReply (serves : Serves good call) (name : String) {reply : ReplyOver Lambda}
    (kept : reply.Over (Lambdas good)) :
    Yields (Lambdas good) (Meaning.answerReply call name reply)
      fun answer ↦ answer.Over (Lambdas good) := by
  cases reply with
  | value answer world =>
      exact ⟨fun _ ↦ ⟨.ok answer, world, rfl, kept.2, fun _ same ↦ Except.ok.inj same ▸ kept.1⟩⟩
  | refuse error => exact .fault _
  | fault fault => exact .fault fault
  | enumerate source stages goal =>
      exact .bind (serves.runStages stages source kept.2 kept.1) fun _ passed ↦
        .pure (Goal.deliver_over passed)

/-- A host function replies at once, or once it has run the stages of a sequence. -/
theorem callHost (serves : Serves good call) (name : String) (action : HostAction)
    {arguments : List Datum} (given : AllOver good arguments) :
    Yields (Lambdas good) (Meaning.callHost call name action arguments)
      fun answer ↦ answer.Over (Lambdas good) :=
  ⟨fun kept ↦ (serves.answerReply name (action.reply_over given kept)).answers kept⟩

/-- An object is made, and its fields are given their first values if it has some. -/
theorem construct (serves : Serves good call) {types : List TypeInfo} {type : TypeIndex}
    {info : TypeInfo} (found : types[type]? = some info)
    (initializes : info.fields ≠ [] → good (.initializer type)) :
    Yields (Lambdas good) (Meaning.construct call types type)
      fun answer ↦ answer.Over (Lambdas good) := by
  rw [Meaning.construct, found]
  have makes : Yields (Lambdas good)
      (making fun world ↦ world.allocate type info.name.full (info.fields.map fun _ ↦ .unit))
      fun _ ↦ True := by
    refine ⟨fun {world} kept ↦ ?_⟩
    let fields : List Datum := info.fields.map fun _ ↦ .unit
    have after : (world.allocate type info.name.full fields).2.Over (Lambdas good) :=
      WorldOver.allocate_over kept (List.forall_mem_map.mpr fun _ _ ↦ ValueOver.over_unit)
    exact ⟨_, _, rfl, after, fun _ _ ↦ trivial⟩
  refine .bind makes fun reference _ ↦ ?_
  cases fields : info.fields.isEmpty with
  | true => exact .pure (ValueOver.over_object reference)
  | false =>
      have initializer := initializes (List.isEmpty_eq_false_iff.mp fields)
      have one : AllOver good [.object reference] :=
        List.forall_mem_singleton.mpr (ValueOver.over_object reference)
      exact .bind (serves.answers initializer one) fun _ _ ↦ .pure (ValueOver.over_object reference)

end Serves

theorem yields_readField {target : Datum} (kept : target.Over allowed) (field : Nat) :
    Yields allowed (readField target field) fun value ↦ value.Over allowed :=
  ⟨fun kept' ↦ ⟨_, _, rfl, kept', fun _ read ↦ WorldOver.readField_over kept' kept read⟩⟩

theorem yields_writeField {target value : Datum} (kept : target.Over allowed) (field : Nat)
    (kept' : value.Over allowed) :
    Yields allowed (writeField target field value) fun _ ↦ True := by
  refine ⟨fun {world} closed ↦ ?_⟩
  rw [writeField]
  cases wrote : world.writeField target field value with
  | error fault => exact ⟨_, _, rfl, closed, nofun⟩
  | ok after =>
      exact ⟨_, _, rfl, WorldOver.writeField_over closed kept kept' wrote, fun _ _ ↦ trivial⟩

theorem yields_makeClosure {code : Lambda} {captures : List Datum} (permitted : allowed code)
    (given : ∀ value ∈ captures, value.Over allowed) :
    Yields allowed (making fun world ↦ world.makeClosure code captures)
      fun closure ↦ closure.Over allowed := by
  refine ⟨fun kept ↦ ?_⟩
  obtain ⟨closure, after⟩ := WorldOver.makeClosure_over kept permitted given
  exact ⟨_, _, rfl, after, fun _ same ↦ Except.ok.inj same ▸ closure⟩

/-! ## Environments -/

/-- A body finds the instance that it works on if its code does: it has been given, or is the value of
a variable in scope. -/
inductive Receiver.Fits (allowed : Lambda → Prop) (scope : Scope Nat) :
    Receiver → Option Nat → Prop where
  | absent : Fits allowed scope .absent none
  | given {value : Datum} {slot : Nat} : value.Over allowed →
      Fits allowed scope (.given value) (some slot)
  | copied {held : Variable Nat} {slot : Nat} : held ∈ scope →
      held.name = Mentions.receiverName → Fits allowed scope .copied (some slot)

/-- An environment has values for the variables in scope. -/
structure Suits (allowed : Lambda → Prop) (receiver : Receiver) (place : Option Nat)
    (scope : Scope Nat) (environment : Environment) : Prop where
  typing : Scope.typing environment = Scope.typing scope
  kept : ∀ held ∈ environment, held.holder.Over allowed
  receiver : receiver.Fits allowed scope place

namespace Suits

variable {receiver : Receiver} {place : Option Nat} {scope inner : Scope Nat}
  {environment later : Environment}

theorem length (suits : Suits allowed receiver place scope environment) :
    environment.length = scope.length := by
  have same := congrArg List.length suits.typing
  rwa [Scope.typing, Scope.typing, List.length_map, List.length_map] at same

/-- A variable that the code finds has a value. -/
theorem named? (suits : Suits allowed receiver place scope environment) {name : String}
    {held : Variable Nat} (found : scope.named? name = some held) :
    ∃ value, environment.named? name = some ⟨held.name, held.type, value⟩ ∧ value.Over allowed := by
  have same := Scope.named?_hold (fun _ ↦ ()) environment name
  rw [← Scope.typing, suits.typing, Scope.typing, Scope.named?_hold, found] at same
  obtain ⟨other, here, same⟩ := Option.map_eq_some_iff.mp same.symm
  obtain ⟨name', type', value⟩ := other
  obtain ⟨rfl, rfl, -⟩ := Variable.mk.inj same
  exact ⟨value, here, suits.kept _ (Scope.mem_of_named? here).1⟩

/-- An instance that the code finds is found. -/
theorem find? (suits : Suits allowed receiver place scope environment) {slot : Nat}
    (found : place = some slot) :
    ∃ value, receiver.find? environment = some value ∧ value.Over allowed := by
  subst found
  cases suits.receiver with
  | given kept => exact ⟨_, rfl, kept⟩
  | @copied held _ inside name =>
      have inside' : held.hold (fun _ ↦ ()) ∈ Scope.typing environment :=
        suits.typing ▸ List.mem_map_of_mem inside
      obtain ⟨own, member, same⟩ := List.mem_map.mp inside'
      have named : own.name = Mentions.receiverName :=
        (congrArg Variable.name same).trans name
      obtain ⟨oldest, first⟩ : ∃ oldest, environment.oldest? Mentions.receiverName = some oldest :=
        Option.isSome_iff_exists.mp
          (List.find?_isSome.mpr ⟨own, List.mem_reverse.mpr member, decide_eq_true named⟩)
      refine ⟨oldest.holder, congrArg (Option.map Variable.holder) first, ?_⟩
      exact suits.kept oldest (List.mem_reverse.mp (List.mem_of_find?_eq_some first))

/-- An instance is found exactly if the code finds one. -/
theorem map_find? (suits : Suits allowed receiver place scope environment) :
    (receiver.find? environment).map (fun _ ↦ ()) = place.map fun _ ↦ () := by
  cases found : place with
  | none =>
      subst found
      cases suits.receiver
      rfl
  | some slot =>
      obtain ⟨value, here, -⟩ := suits.find? found
      rw [here]
      rfl

/-- What a call refers to is what it refers to for the code. -/
theorem callable? (suits : Suits allowed receiver place scope environment) (site : Site)
    (segments : List Syntax.Identifier) :
    (Meaning.callable? site environment segments).map (Callable.hold fun _ ↦ ())
      = (Meaning.callable? site scope segments).map (Callable.hold fun _ ↦ ()) := by
  rw [← callable?_hold, ← callable?_hold]
  exact congrArg (Meaning.callable? site · segments) suits.typing

/-- A variable that the code calls has a value. -/
theorem callable?_value (suits : Suits allowed receiver place scope environment) {site : Site}
    {segments : List Syntax.Identifier} {held : Variable Nat}
    (found : Meaning.callable? site scope segments = some (.value held)) :
    ∃ value, Meaning.callable? site environment segments
        = some (.value ⟨held.name, held.type, value⟩) ∧ value.Over allowed := by
  have same := suits.callable? site segments
  rw [found] at same
  obtain ⟨other, here, same⟩ := Option.map_eq_some_iff.mp same
  cases other with
  | value own =>
      obtain ⟨name, type, value⟩ := own
      obtain ⟨rfl, rfl, -⟩ := Variable.mk.inj (Callable.value.inj same)
      exact ⟨value, here, suits.kept _ (mem_of_callable here)⟩
  | function | host => exact absurd same nofun

/-- A function that the code calls is called. -/
theorem callable?_function (suits : Suits allowed receiver place scope environment) {site : Site}
    {segments : List Syntax.Identifier} {owner : TypeIndex} {method : MethodInfo}
    (found : Meaning.callable? site scope segments = some (.function owner method)) :
    Meaning.callable? site environment segments = some (.function owner method) := by
  have same := suits.callable? site segments
  rw [found] at same
  obtain ⟨other, here, same⟩ := Option.map_eq_some_iff.mp same
  cases other with
  | function =>
      obtain ⟨rfl, rfl⟩ := Callable.function.inj same
      exact here
  | value | host => exact absurd same nofun

/-- A host function that the code calls is called. -/
theorem callable?_host (suits : Suits allowed receiver place scope environment) {site : Site}
    {segments : List Syntax.Identifier} {name : String} {function : HostFunction}
    (found : Meaning.callable? site scope segments = some (.host name function)) :
    Meaning.callable? site environment segments = some (.host name function) := by
  have same := suits.callable? site segments
  rw [found] at same
  obtain ⟨other, here, same⟩ := Option.map_eq_some_iff.mp same
  cases other with
  | host =>
      obtain ⟨rfl, rfl⟩ := Callable.host.inj same
      exact here
  | value | function => exact absurd same nofun

/-- A lambda copies the variables that its code copies. -/
theorem typing_captures (suits : Suits allowed receiver place scope environment) (ownerType : Ty)
    (parameters : List Syntax.Identifier) (body : Syntax.LambdaBody) :
    Scope.typing (captures ownerType (receiver.find? environment) parameters environment body)
      = Scope.typing (captures ownerType place parameters scope body) := by
  rw [Scope.typing, Scope.typing, ← captures_hold, ← captures_hold, suits.map_find?]
  exact congrArg (captures ownerType _ parameters · body) suits.typing

/-- The copies of a lambda are the instance and variables in scope. -/
theorem over_captures (suits : Suits allowed receiver place scope environment) {ownerType : Ty}
    {parameters : List Syntax.Identifier} {body : Syntax.LambdaBody} {copy : Variable Datum}
    (inside : copy ∈ captures ownerType (receiver.find? environment) parameters environment body) :
    copy.holder.Over allowed := by
  obtain ⟨name, -, taken⟩ := List.mem_filterMap.mp inside
  unfold capture? at taken
  split at taken
  · obtain ⟨value, found, rfl⟩ := Option.map_eq_some_iff.mp taken
    cases present : place with
    | none =>
        have none := suits.map_find?
        rw [found, present] at none
        exact absurd none nofun
    | some slot =>
        obtain ⟨other, found', kept⟩ := suits.find? present
        obtain rfl := Option.some.inj (found.symm.trans found')
        exact kept
  · split at taken
    · exact absurd taken nofun
    · exact suits.kept copy (Scope.mem_of_named? taken).1

/-- A variable joins. -/
theorem declare (suits : Suits allowed receiver place scope environment) (name : String) (type : Ty)
    (slot : Nat) {value : Datum} (kept : value.Over allowed) :
    Suits allowed receiver place (⟨name, type, slot⟩ :: scope)
      (⟨name, type, value⟩ :: environment) := by
  refine ⟨congrArg (_ :: ·) suits.typing, List.forall_mem_cons.mpr ⟨kept, suits.kept⟩, ?_⟩
  cases suits.receiver with
  | absent => exact .absent
  | given kept => exact .given kept
  | copied inside name => exact .copied (List.mem_cons_of_mem _ inside) name

theorem typing_assign (name : String) (value : Datum) : (environment : Environment) →
    Scope.typing (assign name value environment) = Scope.typing environment
  | [] => rfl
  | first :: rest => by
      rw [assign]
      split
      · rfl
      · exact congrArg (_ :: ·) (typing_assign name value rest)

theorem over_assign {name : String} {value : Datum} (kept : value.Over allowed) :
    {environment : Environment} → (∀ held ∈ environment, held.holder.Over allowed) →
    ∀ held ∈ Meaning.assign name value environment, held.holder.Over allowed
  | [], given => given
  | first :: rest, given => by
      obtain ⟨here, given⟩ := List.forall_mem_cons.mp given
      rw [Meaning.assign]
      split
      · exact List.forall_mem_cons.mpr ⟨kept, given⟩
      · exact List.forall_mem_cons.mpr ⟨here, over_assign kept given⟩

/-- A variable is given another value. -/
theorem assign (suits : Suits allowed receiver place scope environment) (name : String)
    {value : Datum} (kept : value.Over allowed) :
    Suits allowed receiver place scope (Meaning.assign name value environment) :=
  ⟨(typing_assign name value environment).trans suits.typing, over_assign kept suits.kept,
    suits.receiver⟩

/-- The variables that an inner scope has added are forgotten. -/
theorem leave {next middle : Nat} (suits : Suits allowed receiver place scope environment)
    (extended : scope.Extends next inner middle)
    (suits' : Suits allowed receiver place inner later) :
    Suits allowed receiver place scope (later.drop (later.length - environment.length)) := by
  obtain ⟨⟨added, rfl, -⟩, -⟩ := extended
  refine ⟨?_, fun held inside ↦ suits'.kept held (List.mem_of_mem_drop inside), suits.receiver⟩
  have typing := suits'.typing
  rw [suits'.length, suits.length, List.length_append, Nat.add_sub_cancel, Scope.typing,
    List.map_drop, ← Scope.typing, typing, Scope.typing, List.map_append,
    List.drop_left' (List.length_map _), Scope.typing]

end Suits

/-- How a statement ends: with values for the variables that are in scope behind it, or with an
answer. -/
def Flow.Fits (allowed : Lambda → Prop) (receiver : Receiver) (place : Option Nat)
    (scope : Scope Nat) : Flow → Prop
  | .next environment => Suits allowed receiver place scope environment
  | .left value => value.Over allowed

namespace Flow.Fits

variable {receiver : Receiver} {place : Option Nat} {scope inner : Scope Nat}
  {environment : Environment} {flow : Flow}

theorem leaveScope {next middle : Nat} (fits : flow.Fits allowed receiver place inner)
    (suits : Suits allowed receiver place scope environment)
    (extended : scope.Extends next inner middle) :
    (flow.leaveScope environment.length).Fits allowed receiver place scope := by
  cases flow with
  | next later => exact suits.leave extended fits
  | left value => exact fits

theorem answer (fits : flow.Fits allowed receiver place scope) : flow.answer.Over allowed := by
  cases flow with
  | next later => exact ValueOver.over_unit
  | left value => exact fits

end Flow.Fits

/-- A loop visits one element after the other, so it ends if its body does. -/
theorem yields_visit {receiver : Receiver} {place : Option Nat} {scope : Scope Nat}
    {binding : String} {type : Ty} {slot : Nat} {body : Environment → Evaluation Flow}
    (inside : ∀ {environment : Environment},
      Suits allowed receiver place (⟨binding, type, slot⟩ :: scope) environment →
      Yields allowed (body environment)
        (Flow.Fits allowed receiver place (⟨binding, type, slot⟩ :: scope))) :
    (elements : List Datum) → (∀ element ∈ elements, element.Over allowed) →
    {environment : Environment} → Suits allowed receiver place scope environment →
    Yields allowed (visit binding type body elements environment)
      (Flow.Fits allowed receiver place scope)
  | [], _, _, suits => .pure suits
  | element :: rest, given, environment, suits => by
      obtain ⟨here, given⟩ := List.forall_mem_cons.mp given
      rw [visit]
      refine .bind (inside (suits.declare binding type slot here)) fun flow fits ↦ ?_
      have extended : scope.Extends slot (⟨binding, type, slot⟩ :: scope) (slot + 1) :=
        .declare _ (Nat.le_refl slot) (Nat.lt_succ_self slot)
      have fits' := fits.leaveScope suits extended
      generalize flow.leaveScope environment.length = ended at fits'
      cases ended with
      | next later => exact yields_visit inside rest given fits'
      | left value => exact .pure fits'

end GuestScript.Meaning
