import GuestScript.Proofs.Compile.Expressions

/-!
# The code of lambdas

A lambda is compiled to a routine of its own, whose first slots take the copies and the parameters.
-/

namespace GuestScript

namespace Meaning

/-! ## Variables in slots -/

theorem inSlots_cons (first : Variable Unit) (rest : List (Variable Unit)) (slot : Nat) :
    inSlots (first :: rest) slot = inSlots rest (slot + 1) ++ [first.hold fun _ ↦ slot] := by
  rw [inSlots, List.zipIdx_cons, List.reverse_cons, List.map_append, inSlots]
  rfl

theorem inSlots_append (first second : List (Variable Unit)) (slot : Nat) :
    inSlots (first ++ second) slot
      = inSlots second (slot + first.length) ++ inSlots first slot := by
  induction first generalizing slot with
  | nil => rw [List.nil_append, List.length_nil, Nat.add_zero, inSlots, inSlots]; simp
  | cons held rest ih =>
      rw [List.cons_append, inSlots_cons, ih, inSlots_cons, List.length_cons,
        List.append_assoc, Nat.add_right_comm, Nat.add_assoc]

theorem typing_inSlots (binders : List (Variable Unit)) (slot : Nat) :
    Scope.typing (inSlots binders slot) = binders.reverse := by
  induction binders generalizing slot with
  | nil => rfl
  | cons held rest ih =>
      have same := ih (slot + 1)
      rw [Scope.typing] at same ⊢
      rw [inSlots_cons, List.map_append, same, List.reverse_cons]
      rfl

/-- Variables in slots have slots of their own, one after the other. -/
theorem holders_inSlots (binders : List (Variable Unit)) (first : Nat) :
    (inSlots binders first).map Variable.holder
      = (List.range' first binders.length).reverse := by
  rw [inSlots, List.map_map, ← List.zipIdx_map_snd, ← List.map_reverse]
  exact List.map_congr_left fun _ _ ↦ rfl

theorem le_of_mem_inSlots {binders : List (Variable Unit)} {first : Nat} {held : Variable Nat}
    (inside : held ∈ inSlots binders first) :
    first ≤ held.holder ∧ held.holder < first + binders.length := by
  have holder : held.holder ∈ (inSlots binders first).map Variable.holder :=
    List.mem_map.mpr ⟨held, inside, rfl⟩
  rw [holders_inSlots, List.mem_reverse, List.mem_range'_1] at holder
  exact holder

/-- A function has a variable for each parameter. -/
theorem length_parametersOf {method : Compile.MethodInfo}
    (named : method.declaration.parameters.length = method.parameters.length) :
    (parametersOf method).length = method.parameters.length := by
  rw [parametersOf, declared, List.length_map, List.length_zip, List.length_map, named,
    Nat.min_self]

/-- What a closed type may be asked of. -/
theorem isClosed_inSlots {binders : List (Variable Unit)} (slot : Nat)
    (closed : ∀ held ∈ binders, held.type.IsClosed) : (inSlots binders slot).IsClosed := by
  induction binders generalizing slot with
  | nil => exact nofun
  | cons first rest ih =>
      intro held inside
      rw [inSlots_cons, List.mem_append, List.mem_singleton] at inside
      obtain inside | rfl := inside
      · exact ih (slot + 1) (fun held inside ↦ closed held (List.mem_cons_of_mem _ inside)) held
          inside
      · exact closed first List.mem_cons_self

theorem isClosed_captures {Holder : Type} {ownerType : Ty} {receiver : Option Holder}
    {parameters : List Syntax.Identifier} {scope : Scope Holder} {body : Syntax.LambdaBody}
    (closed : scope.IsClosed) (owner : ownerType.IsClosed) :
    Scope.IsClosed (captures ownerType receiver parameters scope body) := by
  intro held inside
  obtain ⟨name, -, same⟩ := List.mem_filterMap.mp inside
  rw [capture?] at same
  split at same
  · obtain ⟨_, -, rfl⟩ := Option.map_eq_some_iff.mp same
    exact owner
  · split at same
    · cases same
    · exact closed held (Scope.mem_of_named? same).1

theorem isClosed_declared {names : List Syntax.Identifier} {types : List Ty}
    (closed : ∀ type ∈ types, type.IsClosed) : Scope.IsClosed (declared names types) := by
  intro held inside
  obtain ⟨⟨name, type⟩, paired, rfl⟩ := List.mem_map.mp inside
  exact closed type (List.of_mem_zip paired).2

end Meaning

namespace Compile

open Bytecode (Op)
open Lowering
open Machine (Program)
open Meaning
open Syntax

variable {program : Program} {setting : Setting} {scope : Scope Nat} {number start : Nat}
  {expected : Option Ty} {span : Span}

/-! ## Copies and parameters -/

/-- What a lambda may tell of a local that it copies. -/
def Capture.variable (capture : Capture) : Variable Nat :=
  ⟨capture.name, capture.type, capture.slot⟩

theorem gives_captureOf (parameters : List Identifier) (name : String) :
    Gives program setting.home scope number (captureOf setting parameters name) fun found ↦
      found.map Capture.variable
        = capture? setting.ownerType setting.receiver parameters scope name := by
  unfold captureOf
  split
  · next isReceiver =>
      refine .pure ?_
      rw [capture?, if_pos isReceiver]
      cases setting.receiver <;> rfl
  · next notReceiver =>
      split
      · next hidden =>
          refine .pure ?_
          rw [capture?, if_neg notReceiver, if_pos hidden]
          rfl
      · next visible =>
          refine .lookup_bind fun found same ↦ .pure ?_
          rw [capture?, if_neg notReceiver, if_neg visible, ← same]
          cases found with
          | some found =>
              have ownName : found.name = name := (Scope.mem_of_named? same.symm).2
              rw [← ownName]
              rfl
          | none => rfl

theorem gives_capturesOf (parameters : List Identifier) :
    (mentioned : List String) → Gives program setting.home scope number
      (capturesOf setting parameters mentioned) fun found ↦ found.map Capture.variable
        = mentioned.filterMap (capture? setting.ownerType setting.receiver parameters scope)
  | [] => .pure rfl
  | name :: rest => by
      rw [capturesOf_cons]
      refine .bind (gives_captureOf parameters name) (steady_captureOf parameters name)
        (fun _ ↦ (steady_capturesOf parameters rest).map.1) fun found same ↦ ?_
      refine .bind (gives_capturesOf parameters rest) (steady_capturesOf parameters rest)
        (fun _ ↦ (Steady.pure _).1) fun others same' ↦ .pure ?_
      rw [List.map_append, List.filterMap_cons, ← same, ← same']
      cases found <;> rfl

variable {home : Home} {outer : List (Scope Nat)} {slot : Nat} {Value : Type}
  {next : Unit → Lowering Value} {holds : Value → List (Scope Nat) → Nat → Prop} {count more : Nat}

theorem leads_declareCaptures {captures : List Capture}
    (rest : Leads program home
      ((inSlots (Scope.typing (captures.map Capture.variable)) slot ++ scope) :: outer)
      (slot + captures.length) number (next ()) holds) :
    Leads program home (scope :: outer) slot number (declareCaptures captures >>= next)
      holds := by
  induction captures generalizing slot scope with
  | nil => exact rest
  | cons first others ih =>
      rw [declareCaptures, bind_assoc]
      refine .declareLocal_bind (ih ?_)
      simp only [List.map_cons, Scope.typing, inSlots_cons, List.append_assoc, List.length_cons,
        List.cons_append, List.nil_append, Nat.add_assoc, Nat.add_comm 1] at rest ⊢
      exact rest

theorem leads_declareParameter {name : Identifier} {type : Ty} (grown : Grows more (next ()))
    (rest : Leads program home ((⟨name.name, type, slot⟩ :: scope) :: outer) (slot + 1) number
      (next ()) holds) :
    Leads program home (scope :: outer) slot number (declareParameter name type >>= next)
      holds := by
  have declared : Leads program home (scope :: outer) slot number (do
      let _ ← declareLocal name.name type none
      next ()) holds := .declareLocal_bind rest
  have either (taken : Bool) : Leads program home (scope :: outer) slot number ((do
      if taken then
        report .duplicateDefinition ("parameter `" ++ name.name ++ "` is declared more than once")
          name.span
      let _ ← declareLocal name.name type none) >>= next) holds := by
    cases taken with
    | true => exact .report_bind fun _ ↦ (grows_declareLocal _ _ _).after fun _ ↦ grown
    | false => exact declared
  intro body
  rw [declareParameter, bind_assoc, bind_apply]
  exact either _ body

/-- Names with the types they are declared with. -/
def declaredPairs (parameters : List (Identifier × Ty)) : List (Variable Unit) :=
  parameters.map fun (name, type) ↦ ⟨name.name, type, ()⟩

theorem leads_declareParameters {parameters : List (Identifier × Ty)}
    (grown : Grows more (next ()))
    (rest : Leads program home
      ((inSlots (declaredPairs parameters) slot ++ scope) :: outer)
      (slot + parameters.length) number (next ()) holds) :
    Leads program home (scope :: outer) slot number (declareParameters parameters >>= next)
      holds := by
  induction parameters generalizing slot scope with
  | nil => exact rest
  | cons first others ih =>
      rw [declareParameters, bind_assoc]
      refine leads_declareParameter ((grows_declareParameters others).after fun _ ↦ grown) (ih ?_)
      simp only [declaredPairs, List.map_cons, inSlots_cons, List.append_assoc, List.length_cons,
        List.cons_append, List.nil_append, Nat.add_assoc, Nat.add_comm 1] at rest ⊢
      exact rest

/-! ## The routine of a lambda -/

theorem length_lambdaSignature (count : Nat) (expected : Option Ty) :
    (lambdaSignature count expected).1.length = count := by
  unfold lambdaSignature
  split
  · split
    · assumption
    · exact List.length_replicate
  · exact List.length_replicate

theorem isClosed_lambdaSignature (count : Nat) {expected : Option Ty}
    (closed : ∀ wanted ∈ expected, wanted.IsClosed) :
    (∀ type ∈ (lambdaSignature count expected).1, type.IsClosed) ∧
      (lambdaSignature count expected).2.IsClosed := by
  have dynamic : ∀ type ∈ List.replicate count Ty.dyn, type.IsClosed := fun type inside ↦
    (List.eq_of_mem_replicate inside) ▸ rfl
  unfold lambdaSignature
  split
  · next parameters result =>
      split
      · exact Ty.isWhole_function.mp (closed _ rfl)
      · exact ⟨dynamic, rfl⟩
  · exact ⟨dynamic, rfl⟩

/-- What is pending is the body of a lambda. -/
structure TranslatesBody (program : Program) (setting : Setting) (body : LambdaBody)
    (pending : Lowering Typed) : Prop where
  grows : Grows (lambdasInBody body) pending
  leads : ∀ {scope slot number}, scope.IsClosed →
    Leads program setting.home [scope] slot number pending fun typed _ after ↦
      BodyCode program setting scope slot number body typed.code after ∧
        typed.type = bodyType setting.site scope.typing body ∧ typed.type.IsClosed

/-- Parameters are declared with their types. -/
theorem declaredPairs_zip (parameters : List Identifier) (types : List Ty) :
    declaredPairs (parameters.zip types) = declared parameters types :=
  rfl

section

variable (captured : List Capture) (parameters : List Identifier) (body : LambdaBody)
  (expected : Option Ty)

theorem setting_lambdaCode (setting : Setting) (number : Nat) :
    (lambdaCode setting.site setting.routineName number
      (Scope.typing (captured.map Capture.variable)) parameters body expected).setting
      = setting.inside number captured (lambdaSignature parameters.length expected).2 := by
  have receiver : (Scope.typing (captured.map Capture.variable)).findIdx?
      (fun copy ↦ copy.name = Mentions.receiverName)
      = captured.findIdx? fun capture ↦ capture.name = Mentions.receiverName := by
    rw [Scope.typing, List.findIdx?_map, List.findIdx?_map]
    rfl
  rw [Lambda.setting, lambdaCode, receiver]
  rfl

theorem arity_lambdaCode (setting : Setting) (number : Nat) :
    (lambdaCode setting.site setting.routineName number
      (Scope.typing (captured.map Capture.variable)) parameters body expected).arity
      = captured.length + parameters.length := by
  have count := length_lambdaSignature parameters.length expected
  rw [Lambda.arity, lambdaCode]
  simp only [Scope.typing, declared, List.length_map, List.length_zip, count, Nat.min_self]

end

/-- The routine that a lambda has been compiled to is that of its code. -/
theorem lambdaCode_of_added {captured : List Capture} {parameters : List Identifier}
    {body : LambdaBody} {types : List Ty} {result : Ty}
    (signature : lambdaSignature parameters.length expected = (types, result))
    {index locals : Nat} {code : List Op}
    (added : program.image.routines[index]? = some
      { closureRoutine (setting.inside number captured result) captured.length parameters.length with
        code := (code ++ epilogue).toArray, locals })
    (inside : BodyCode program (setting.inside number captured result)
      (inSlots (Scope.typing (captured.map Capture.variable) ++ declared parameters types) 0)
      (captured.length + parameters.length) number body code locals) :
    LambdaCode program index (lambdaCode setting.site setting.routineName number
      (Scope.typing (captured.map Capture.variable)) parameters body expected) := by
  have arity := arity_lambdaCode captured parameters body expected setting number
  have settled := setting_lambdaCode captured parameters body expected setting number
  rw [signature] at settled
  have scope : (lambdaCode setting.site setting.routineName number
      (Scope.typing (captured.map Capture.variable)) parameters body expected).scope
      = inSlots (Scope.typing (captured.map Capture.variable) ++ declared parameters types) 0 := by
    rw [Lambda.scope, lambdaCode, signature]
  have routine : program.image.routines[index]? = some
      ((lambdaCode setting.site setting.routineName number
        (Scope.typing (captured.map Capture.variable)) parameters body expected).routine code
        locals) := by
    rw [Lambda.routine, arity, lambdaCode]
    simp only [Scope.typing, List.length_map]
    exact added
  refine .mk routine ?_
  rw [settled, arity, scope]
  exact inside

theorem site_inside (captured : List Capture) (result : Ty) (setting : Setting) (number : Nat) :
    (setting.inside number captured result).site
      = setting.site.inLambda (Scope.typing (captured.map Capture.variable)) result := by
  have receiver : includesReceiver (Scope.typing (captured.map Capture.variable))
      = (captured.findIdx? fun capture ↦ capture.name = Mentions.receiverName).isSome := by
    rw [List.findIdx?_isSome, includesReceiver, Scope.typing, List.any_map, List.any_map]
    rfl
  rw [Site.inLambda, receiver]
  rfl

/-- The copies that the checker takes are those of the code. -/
theorem captures_typing (parameters : List Identifier) (body : LambdaBody) :
    captures setting.site.ownerType (if setting.site.hasReceiver then some () else none) parameters
      scope.typing body
      = Scope.typing (captures setting.ownerType setting.receiver parameters scope body) := by
  have receiver : (if setting.site.hasReceiver then some () else none)
      = setting.receiver.map fun _ ↦ () := by
    change (if setting.receiver.isSome then some () else none) = _
    cases setting.receiver <;> rfl
  rw [receiver]
  exact captures_hold _ setting.ownerType setting.receiver parameters scope body

theorem leads_lambdaInside {captures : List Capture} {parameters : List (Identifier × Ty)}
    {body : LambdaBody} {inside : Lowering Typed} (given : TranslatesBody program setting body inside)
    (closed : ∀ held ∈ Scope.typing (captures.map Capture.variable) ++ declaredPairs parameters,
      held.type.IsClosed) :
    Leads program setting.home [[]] 0 number (lambdaInside captures parameters inside)
      fun typed _ after ↦
        BodyCode program setting
          (inSlots (Scope.typing (captures.map Capture.variable) ++ declaredPairs parameters) 0)
          (captures.length + parameters.length) number body typed.code after ∧
        typed.type = bodyType setting.site
          (Scope.typing (captures.map Capture.variable) ++ declaredPairs parameters).reverse body ∧
        typed.type.IsClosed := by
  have length : (Scope.typing (captures.map Capture.variable)).length = captures.length := by
    rw [Scope.typing, List.length_map, List.length_map]
  refine leads_declareCaptures (leads_declareParameters given.grows ?_)
  rw [List.append_nil, Nat.zero_add, ← length, ← Nat.zero_add (Scope.typing _).length,
    ← inSlots_append, Nat.zero_add, length, ← typing_inSlots _ 0]
  exact given.leads (isClosed_inSlots 0 closed)

/-- The copies and the parameters of a lambda have closed types. -/
theorem isClosed_inside (closed : scope.IsClosed) {types : List Ty}
    (closedTypes : ∀ type ∈ types, type.IsClosed) {parameters : List Identifier}
    {body : LambdaBody} {captured : List Capture}
    (same : captured.map Capture.variable
      = captures setting.ownerType setting.receiver parameters scope body) :
    ∀ held ∈ Scope.typing (captured.map Capture.variable) ++ declared parameters types,
      held.type.IsClosed := by
  intro held inside
  rw [same] at inside
  obtain inside | inside := List.mem_append.mp inside
  · obtain ⟨copy, copied, rfl⟩ := List.mem_map.mp inside
    exact isClosed_captures closed (rfl : setting.ownerType.IsClosed) copy copied
  · exact isClosed_declared closedTypes held inside

/-- The code of a lambda that copies the locals it has to copy: its routine is in the program, and
the copies are loaded for it. -/
theorem gives_closureValue (proper : setting.IsProper) (closed : scope.IsClosed)
    (closed' : ∀ wanted ∈ expected, wanted.IsClosed) {parameters : List Identifier}
    {body : LambdaBody} {captured : List Capture}
    (same : captured.map Capture.variable
      = captures setting.ownerType setting.receiver parameters scope body)
    {inside : Setting → Lowering Typed}
    (given : ∀ inner : Setting, inner.IsProper → TranslatesBody program inner body (inside inner))
    (grown : ∀ inner : Setting, Grows count (inside inner)) :
    Gives program setting.home scope number
      (closureValue setting parameters captured inside expected)
      (IsTranslated program setting scope number (.lambda parameters body span) expected start) := by
  obtain ⟨closedTypes, closedResult⟩ := isClosed_lambdaSignature parameters.length closed'
  have length := length_lambdaSignature parameters.length expected
  unfold closureValue
  rcases signature : lambdaSignature parameters.length expected with ⟨types, result⟩
  rw [signature] at closedTypes closedResult length
  have grown' (setting : Setting) : Grows count
      (lambdaInside captured (parameters.zip types) (inside setting)) :=
    (grows_declareCaptures _).after fun _ ↦ (grows_declareParameters _).after fun _ ↦ grown setting
  refine .bind .nextLambda steady_nextLambda
    (fun _ ↦ (Steady.map (steady_addRoutine _ _ (grown' _))).1) ?_
  rintro _ rfl
  -- a lambda is numbered before its body, whose own lambdas come behind it
  let inner := setting.inside (number + 1) captured result
  have proper' : inner.IsProper := { proper with result := closedResult }
  have count : (parameters.zip types).length = parameters.length := by
    rw [List.length_zip, length, Nat.min_self]
  refine .map ((Gives.addRoutine (leads_lambdaInside (given inner proper')
    (isClosed_inside closed closedTypes same)) (grown' inner) ?_).mono ?_)
  · rintro index typed locals added ⟨code, -, -⟩
    rw [count] at code
    exact ⟨_, lambdaCode_of_added signature added code, rfl, rfl, proper.owner⟩
  rintro ⟨index, typed⟩ ⟨locals, added, code, type, whole⟩
  rw [count] at code
  refine ⟨?_, ?_, Ty.isWhole_function.mpr ⟨closedTypes, whole⟩⟩
  · have emitted : captured.map (fun capture ↦ Op.load capture.slot)
          ++ [.makeClosure index captured.length]
        = (captured.map Capture.variable).map (fun copy ↦ .load copy.holder)
          ++ [.makeClosure index (captured.map Capture.variable).length] := by
      rw [List.map_map, List.length_map]
      rfl
    rw [emitted]
    exact .lambda same (lambdaCode_of_added signature added code)
  · rw [typeOf, signature]
    simp only
    rw [captures_typing, ← same, ← site_inside captured result setting (number + 1),
      ← declaredPairs_zip, ← List.reverse_append, ← type]

end Compile

end GuestScript
