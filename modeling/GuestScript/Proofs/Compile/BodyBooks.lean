import GuestScript.Proofs.Compile.Bookkeeping
import GuestScript.Proofs.Compile.Lambdas

/-!
# The books of bodies

The walk through the expressions and statements of a body, with one lemma for each kind: a ledger can be
kept of every part of a body, and the variables that it binds are those of its text. The body of a lambda
is compiled to a routine of its own, which is in the books of the part that the lambda is in.
-/

namespace GuestScript.Compile

open Bytecode (Op Routine RoutineIndex)
open Lowering
open Meaning (LetVariable Lets letsIn letsInAll letsInAlternative letsInBlock letsInBody letsInStatement
  letsInStatements unusedIn unusedWarnings bindersInAlternative bindersInBlock bindersInStatement
  bindersInStatements)
open Syntax

/-- The receiver of a setting is in the slot of an argument. -/
def Setting.Fits (base : Nat) (setting : Setting) : Prop :=
  ∀ slot, setting.receiver = some slot → slot < base

/-! ## Expressions -/

section Expressions

variable {base next start : Nat} {setting : Setting} {lets others : Lets} {span : Span}
  {given : List Op}

theorem low_load {slot : Nat} (low : slot < base) :
    ∀ other, Op.load other ∈ [Op.load slot] → other < base := fun _ loaded ↦
  Op.load.inj (List.mem_singleton.mp loaded) ▸ low

theorem books_noValue {code : Code} (other : code ≠ .unusedLocal) (message : String) (span : Span) :
    Books base next Typed.code [] 0 .none (noValue code message span) :=
  .after (silent_mistake other _ _) fun _ ↦ .pure rfl

theorem books_receiverValue (fits : setting.Fits base) :
    Books base next Typed.code [] 0 .none (receiverValue setting span) := by
  unfold receiverValue
  split
  · next slot here => exact .of_low rfl (low_load (fits slot here))
  · exact books_noValue (by decide) _ _

theorem books_pathValue (segments : List Identifier) :
    Books base next Typed.code [] 0 .none (pathValue segments span) := by
  unfold pathValue
  split
  · refine (books_lookup _).lead fun found ↦ ?_
    cases found with
    | some found => exact .pure rfl
    | none => exact books_noValue (by decide) _ _
  · exact books_noValue (by decide) _ _

/-- A part that was compiled before, and that a mistake may be reported about. -/
theorem books_mistaken (emitted : List Op) {code : Code} (other : code ≠ .unusedLocal)
    (message : String) (span : Span) :
    Books base next Typed.code (slotOps emitted) 0 .none (do
      let type ← mistake code message span
      Pure.pure ⟨emitted, type⟩) :=
  .after (silent_mistake other _ _) fun _ ↦ .pure rfl

theorem books_fieldValue (target : Typed) (name : Identifier) :
    Books base next Typed.code (slotOps target.code) 0 .none (fieldValue setting target name) := by
  unfold fieldValue
  split
  · split
    · exact .pure (by simp [slotOps])
    · exact books_mistaken _ (by decide) _ _
  · exact .pure rfl
  · exact books_mistaken _ (by decide) _ _

theorem silent_checkedType (wanted : Option Ty) (found : Ty) :
    Silent (checkedType wanted found span) := by
  cases wanted with
  | some wanted => exact (silent_check _ _ _).bind fun _ ↦ .pure _
  | none => exact .pure _

theorem silent_itemType (target : Ty) : Silent (itemType target span) := by
  unfold itemType
  split
  iterate 3 exact .pure _
  exact silent_mistake (by decide) _ _

theorem books_newObject (name : Identifier) :
    Books base next Typed.code [] 0 .none (newObject setting name) := by
  unfold newObject
  simp only
  split
  · exact .pure rfl
  · exact books_noValue (by decide) _ _

theorem books_unaryValue (operator : UnaryOperator) (operand : Typed) :
    Books base next Typed.code (slotOps operand.code) 0 .none (unaryValue operator operand span) := by
  have same : slotOps operand.code = slotOps (operand.code ++ [.unary operator]) := by
    simp [slotOps]
  unfold unaryValue
  rw [same]
  exact .ite (.pure rfl) (books_mistaken _ (by decide) _ _)

theorem books_shortCircuit (operator : BinaryOperator) (code : List Op) (left right : Ty)
    (same : slotOps code = given) :
    Books base next Typed.code given 0 .none (shortCircuit operator code left right span) := by
  subst same
  exact .ite (.pure rfl) (books_mistaken _ (by decide) _ _)

theorem books_strictOperator (operator : BinaryOperator) (code : List Op) (left right : Ty)
    (same : slotOps code = given) :
    Books base next Typed.code given 0 .none (strictOperator operator code left right span) := by
  subst same
  unfold strictOperator
  split
  · exact .pure rfl
  · exact books_mistaken _ (by decide) _ _

variable {left right : Pending} {arguments : PendingArguments}

theorem books_binaryValue (operator : BinaryOperator)
    (first : ∀ expected start, Books base next Typed.code [] 0 lets (left expected start))
    (second : ∀ expected start, Books base next Typed.code [] 0 others (right expected start)) :
    Books base next Typed.code [] 0 (lets ++ others)
      (binaryValue operator left right span start) := by
  unfold binaryValue
  split
  · refine (first _ _).bind (fun typed ↦ ((second _ _).behind typed.code).before fun typed' ↦ ?_) rfl
    exact books_shortCircuit _ _ _ _ (by simp [slotOps])
  · refine (first _ _).bind (fun typed ↦ ((second _ _).behind typed.code).before fun typed' ↦ ?_) rfl
    exact books_shortCircuit _ _ _ _ (by simp [slotOps])
  · refine (first _ _).bind (fun typed ↦ ((second _ _).behind typed.code).before fun typed' ↦ ?_) rfl
    exact books_strictOperator _ _ _ _ (by simp [slotOps])

/-! ### Calls -/

/-- The books are kept of arguments behind other code, which comes in reverse. -/
def BooksArguments (base next : Nat) (lets : Lets) (arguments : PendingArguments) : Prop :=
  ∀ parameters callee number bound before start, Books base next Prod.fst (slotOps before.reverse) 0
    lets (arguments parameters callee number bound before start)

theorem silent_checkArgument (accepted : Bool) (number : Nat) (callee : String) (wanted found : Ty) :
    Silent (checkArgument accepted number callee wanted found span) :=
  .ite (silent_report (by decide) _ _) (.pure ())

theorem books_checkedArguments (total : Nat) (parameters : List Ty) (callee : String)
    (before : List Op) (each : BooksArguments base next lets arguments) :
    Books base next Prod.fst (slotOps before) 0 lets
      (checkedArguments arguments total parameters callee span before start) := by
  have given (start : Nat) : Books base next Prod.fst (slotOps before) 0 lets
      (arguments parameters callee 1 none before.reverse start) := by
    have given := each parameters callee 1 none before.reverse start
    rwa [List.reverse_reverse] at given
  simp only [checkedArguments]
  exact .ite (.after (silent_report (by decide) _ _) fun _ ↦ given _) (given _)

theorem books_uncheckedArguments (before : List Op)
    (each : BooksArguments base next lets arguments) :
    Books base next id (slotOps before) 0 lets (uncheckedArguments arguments before start) := by
  have given := each [] "" 1 none before.reverse (start + before.length)
  rw [List.reverse_reverse] at given
  exact given.map fun _ ↦ rfl

theorem books_badCall (before : List Op) {code : Code} (other : code ≠ .unusedLocal)
    (message : String) (each : BooksArguments base next lets arguments) :
    Books base next Typed.code (slotOps before) 0 lets
      (badCall arguments before start code message span) :=
  (books_uncheckedArguments before each).before fun _ ↦ books_mistaken _ other _ _

theorem books_callValue (callee : Typed) (total : Nat) (what : String)
    (each : BooksArguments base next lets arguments) :
    Books base next Typed.code (slotOps callee.code) 0 lets
      (callValue callee arguments total what span start) := by
  have called (code : List Op) : slotOps (code ++ [.callClosure total]) = slotOps code := by
    simp [slotOps]
  unfold callValue
  split
  · exact (books_checkedArguments _ _ _ _ each).map fun _ ↦ called _
  · exact (books_uncheckedArguments _ each).map fun _ ↦ called _
  · exact (books_uncheckedArguments _ each).map fun _ ↦ rfl
  · exact books_badCall _ (by decide) _ each

theorem books_implicitReceiver (fits : setting.Fits base) (method : MethodInfo) :
    Books base next id [] 0 .none (implicitReceiver setting method span) := by
  unfold implicitReceiver
  refine .ite (.pure rfl) ?_
  split
  · next slot here => exact .of_low rfl (low_load (fits slot here))
  · exact .after (silent_report (by decide) _ _) fun _ ↦ .pure rfl

theorem books_callMethod (method : MethodInfo) (receiver : List Op) (total : Nat)
    (each : BooksArguments base next lets arguments) :
    Books base next Typed.code (slotOps receiver) 0 lets
      (callMethod method receiver arguments total span start) :=
  (books_checkedArguments _ _ _ _ each).map fun _ ↦ by simp [slotOps]

theorem silent_checkVisible (type : Bytecode.TypeIndex) (method : MethodInfo) :
    Silent (checkVisible setting type method span) :=
  .ite (silent_report (by decide) _ _) (.pure ())

theorem books_callName (fits : setting.Fits base) (name : Identifier) (total : Nat)
    (each : BooksArguments base next lets arguments) :
    Books base next Typed.code [] 0 lets (callName setting name arguments total span start) := by
  unfold callName
  refine (books_lookup _).lead fun found ↦ ?_
  cases found with
  | some found => exact books_callValue _ _ _ each
  | none =>
      simp only
      split
      · exact (books_implicitReceiver fits _).lead fun receiver ↦ books_callMethod _ receiver _ each
      · exact books_badCall [] (by decide) _ each

theorem books_callStatic (type : Bytecode.TypeIndex) (path : String) (function : Identifier)
    (total : Nat) (each : BooksArguments base next lets arguments) :
    Books base next Typed.code [] 0 lets
      (callStatic setting type path function arguments total span start) := by
  unfold callStatic
  split
  · exact .ite (.after (silent_checkVisible _ _) fun _ ↦ books_callMethod _ [] _ each)
      (books_badCall [] (by decide) _ each)
  · exact books_badCall [] (by decide) _ each

theorem books_callHostFunction (binding : ModuleBinding) (path : String) (function : Identifier)
    (total : Nat) (each : BooksArguments base next lets arguments) :
    Books base next Typed.code [] 0 lets
      (callHostFunction binding path function arguments total span start) := by
  unfold callHostFunction
  split
  · exact (books_checkedArguments _ _ _ [] each).before fun _ ↦
      .after (silent_importIndex _) fun _ ↦ .pure (by simp [slotOps])
  · exact books_badCall [] (by decide) _ each

theorem books_callNamed (fits : setting.Fits base) (segments : List Identifier) (calleeSpan : Span)
    (total : Nat) (each : BooksArguments base next lets arguments) :
    Books base next Typed.code [] 0 lets
      (callNamed setting segments calleeSpan arguments total span start) := by
  unfold callNamed
  split
  · exact books_callName fits _ _ each
  · simp only [callPath]
    split
    · exact books_callStatic _ _ _ _ each
    · split
      · exact books_callHostFunction _ _ _ _ each
      · exact books_badCall [] (by decide) _ each
  · exact books_badCall [] (by decide) _ each

theorem books_callOnTarget (target : Typed) (method : Identifier) (total : Nat)
    (each : BooksArguments base next lets arguments) :
    Books base next Typed.code (slotOps target.code) 0 lets
      (callOnTarget setting target method arguments total span start) := by
  unfold callOnTarget
  split
  · simp only
    split
    · exact .ite (books_badCall _ (by decide) _ each)
        (.after (silent_checkVisible _ _) fun _ ↦ books_callMethod _ _ _ each)
    · exact books_badCall _ (by decide) _ each
  · exact (books_uncheckedArguments _ each).map fun _ ↦ rfl
  · exact books_badCall _ (by decide) _ each

/-! ### Captures -/

/-- The code that reads the variables that are copied. -/
def loadsOf (captures : List Capture) : List Op :=
  captures.map fun capture ↦ Op.load capture.slot

theorem slotOps_loadsOf (captures : List Capture) : slotOps (loadsOf captures) = loadsOf captures := by
  refine List.filter_eq_self.mpr fun op inside ↦ ?_
  obtain ⟨capture, -, rfl⟩ := List.mem_map.mp inside
  rfl

/-- What is found is read in any case, by the code that copies it. -/
theorem books_captureOf (fits : setting.Fits base) (parameters : List Identifier) (name : String) :
    Books base next (fun found ↦ loadsOf found.toList) [] 0 .none
      (captureOf setting parameters name) := by
  refine .ite ?_ (.ite (.pure rfl) ((books_lookup name).lead fun found ↦ ?_))
  · cases receiver : setting.receiver with
    | none => exact .pure rfl
    | some slot =>
        exact .of_low (slotOps_loadsOf [_]) (low_load (fits slot receiver))
  · cases found <;> exact .pure rfl

theorem books_capturesOf (fits : setting.Fits base) (parameters : List Identifier) :
    (mentioned : List String) →
    Books base next loadsOf [] 0 .none (capturesOf setting parameters mentioned)
  | [] => .pure rfl
  | name :: rest => by
      rw [capturesOf_cons]
      refine (books_captureOf fits parameters name).lead fun found ↦ ?_
      refine ((books_capturesOf fits parameters rest).behind (loadsOf found.toList)).before
        fun others ↦ .pure ?_
      rw [loadsOf, List.map_append]
      rfl

/-! ### Routines -/

/-- So many slots have been taken for the arguments of a routine, and nothing else has been done. -/
structure Body.IsReady (arity : Nat) (draft : Draft) (body : Body) : Prop where
  passes : draft.Passes body.draft
  next : body.nextSlot = arity
  tidy : body.IsTidy 0
  read : ∀ present ∈ body.locals.flatten, present.used = true

theorem Body.isReady_nil (draft : Draft) : Body.IsReady 0 draft ⟨draft, [[]], 0⟩ where
  passes := .refl draft
  next := rfl
  tidy :=
    { inScope := List.cons_ne_nil _ _
      arity := Nat.le_refl 0
      distinct := List.nodup_nil
      taken := nofun
      arguments := nofun }
  read := nofun

section Ready

variable {arity : Nat} {draft : Draft} {body : Body}

/-- What is in scope are arguments, none of which has to be read. -/
theorem Body.IsReady.isTidy (ready : body.IsReady arity draft) : body.IsTidy arity :=
  { ready.tidy with
    arity := Nat.le_of_eq ready.next.symm
    arguments := fun present inside _ ↦ ready.read present inside }

theorem Body.IsReady.allocate (ready : body.IsReady arity draft) :
    (Lowering.allocate body).2.IsReady (arity + 1) draft := by
  have taken : Ledger 0 body (Lowering.allocate body).2 [] 1 .none := .of_allocated rfl rfl rfl
  exact ⟨ready.passes, congrArg (· + 1) ready.next, taken.isTidy ready.tidy, ready.read⟩

theorem Body.IsReady.report (ready : body.IsReady arity draft) {code : Code}
    (other : code ≠ .unusedLocal) (message : String) (span : Span) :
    (report code message span body).2.IsReady arity draft := by
  have passes : body.draft.Passes (Lowering.report code message span body).2.draft :=
    .report other message span body.draft
  have nothing : Ledger 0 body (Lowering.report code message span body).2 [] 0 .none :=
    .of_passes ready.tidy passes rfl rfl nofun
  exact ⟨ready.passes.trans passes, ready.next, nothing.isTidy ready.tidy, ready.read⟩

/-- An argument comes into scope. -/
theorem Body.IsReady.declareLocal (ready : body.IsReady arity draft) (name : String) (type : Ty) :
    (Lowering.declareLocal name type none body).2.IsReady (arity + 1) draft := by
  have books : Books 0 arity (fun _ ↦ []) [] 1 .none (Lowering.declareLocal name type none) :=
    books_declareHidden name type (fun _ ↦ rfl) fun _ _ ↦ List.not_mem_nil
  obtain ⟨ops, -, ledger⟩ := books body ready.tidy (ready.next.trans (Nat.zero_add arity).symm)
  have tidy := ledger.isTidy ready.tidy
  rw [declareLocal_apply] at tidy ⊢
  refine ⟨ready.passes, congrArg (· + 1) ready.next, tidy, ?_⟩
  rw [Body.locals, locals_widen]
  change ∀ present ∈ (widen _ body.locals).flatten, _
  rw [widen_flatten ready.tidy.inScope]
  exact List.forall_mem_append.mpr ⟨List.forall_mem_singleton.mpr rfl, ready.read⟩

theorem Body.IsReady.declareCaptures : (captures : List Capture) → {arity : Nat} → {body : Body} →
    body.IsReady arity draft →
    (Compile.declareCaptures captures body).2.IsReady (arity + captures.length) draft
  | [], _, _, ready => ready
  | capture :: rest, arity, body, ready => by
      have others := declareCaptures rest (ready.declareLocal capture.name capture.type)
      rwa [Nat.add_right_comm] at others

theorem Body.IsReady.declareParameters : (parameters : List (Identifier × Ty)) → {arity : Nat} →
    {body : Body} → body.IsReady arity draft →
    (Compile.declareParameters parameters body).2.IsReady (arity + parameters.length) draft
  | [], _, _, ready => ready
  | (name, type) :: rest, arity, body, ready => by
      let declared : Lowering Unit := do
        let _ ← Lowering.declareLocal name.name type none
      let message := "parameter `" ++ name.name ++ "` is declared more than once"
      have either (taken : Bool) : ((if taken then do
            Lowering.report .duplicateDefinition message name.span
            declared
          else declared : Lowering Unit) body).2.IsReady (arity + 1) draft := by
        cases taken with
        | true =>
            have duplicate : Code.duplicateDefinition ≠ .unusedLocal := by decide
            have reported := ready.report duplicate message name.span
            exact reported.declareLocal name.name type
        | false => exact ready.declareLocal name.name type
      have one : (declareParameter name type body).2.IsReady (arity + 1) draft := either _
      have others := declareParameters rest one
      rwa [Nat.add_right_comm] at others

end Ready

/-- The code of a routine has been compiled: it stores the values of the variables that it binds, what is
to be said about them by this code has been said, and the lambdas in it have been added. -/
structure Draft.Compiles (before after : Draft) (arity : Nat) (code : List Op) (lets : Lets) :
    Prop where
  grown : before.Extends after
  size : after.routines.size = before.routines.size + lets.lambdas.length
  numbers : (lets.own.map LetVariable.index).Nodup
  stores : ∀ each ∈ lets.own, .store (each.slot arity) ∈ code
  placed : ∀ entry ∈ lets.lambdas.zipIdx before.routines.size, after.Places entry
  unused : after.unused = before.unused + (unusedIn arity code lets.own : List (Diagnostic Span))
    + (unusedWarnings after.routines (lets.lambdas.zipIdx before.routines.size) :
        List (Diagnostic Span))

/-- A routine that only has its arguments in scope around it is compiled. -/
theorem compiles_of_ready {Value : Type} {action : Lowering Value} {code : Value → List Op}
    {arity binders : Nat} {draft : Draft} {body : Body} (ready : body.IsReady arity draft)
    (inside : Settles arity 0 code [] binders lets action) {ending : List Op}
    (silent : slotOps ending = []) :
    draft.Compiles (action body).2.draft arity (code (action body).1 ++ ending) lets := by
  obtain ⟨ops, made, ledger, locals⟩ := inside body ready.isTidy ready.next
  have slots : slotOps (code (action body).1 ++ ending) = ops := by
    rw [slotOps_append, silent, List.append_nil, made, List.nil_append]
  have size := congrArg Array.size ready.passes.routines
  have placed := ledger.placed
  have balance := ledger.balance [] nofun
  have settled : due (marked ops body.locals) = 0 := by
    refine dueFor_eq_zero ?_
    rw [marked_flatten]
    refine List.forall_mem_map.mpr fun present inside ↦ ?_
    simp [Local.reading, ready.read present inside]
  have own : unusedIn arity (code (action body).1 ++ ending) lets.own = unusedIn arity ops lets.own :=
    unusedIn_congr fun each _ ↦ slots ▸ load_mem_slotOps.symm
  rw [size] at placed balance
  rw [marked_nil, locals, List.append_nil, settled, add_zero, add_zero, ready.passes.unused] at balance
  exact
    { grown := ready.passes.grown.trans ledger.grown
      size := ledger.size.trans (congrArg (· + _) size)
      numbers := ledger.numbers
      stores := fun each inside ↦ store_mem_slotOps.mp (slots ▸ ledger.stores each inside)
      placed := placed
      unused := own ▸ balance }

/-- Routines have been added behind those that are there, and what is to be said about their variables has
been said. -/
structure Draft.Enters (before after : Draft) (added : List (List LetVariable)) : Prop where
  grown : before.Extends after
  size : after.routines.size = before.routines.size + added.length
  placed : ∀ entry ∈ added.zipIdx before.routines.size, after.Places entry
  unused : after.unused = before.unused
    + (unusedWarnings after.routines (added.zipIdx before.routines.size) : List (Diagnostic Span))

theorem Draft.Enters.refl (draft : Draft) : draft.Enters draft [] where
  grown := .refl draft
  size := rfl
  placed := nofun
  unused := (add_zero _).symm

/-- A routine of its own is added, with the lambdas in it behind it. -/
theorem enters_addRoutine {Value : Type} {action : Lowering Value} {code : Value → List Op}
    {routine : Routine} {draft : Draft}
    (inside : (Draft.reserve routine draft).2.Compiles
      (action ⟨(Draft.reserve routine draft).2, [[]], 0⟩).2.draft routine.arity
      (code (action ⟨(Draft.reserve routine draft).2, [[]], 0⟩).1) lets) :
    draft.Enters (addRoutine routine code action draft).2 lets.enclosed.lambdas := by
  let reserved := (Draft.reserve routine draft).2
  let compiled := action ⟨reserved, [[]], 0⟩
  let after := (addRoutine routine code action draft).2
  have inside : reserved.Compiles compiled.2.draft routine.arity (code compiled.1) lets := inside
  have first : draft.Extends reserved := Draft.extends_reserve routine draft
  have size : reserved.routines.size = draft.routines.size + 1 := Array.size_push _
  have own : compiled.2.draft.routines[draft.routines.size]? = some routine := by
    rw [inside.grown.routines (size ▸ Nat.lt_succ_self _)]
    exact Array.getElem?_push_size
  have completed : after.routines[draft.routines.size]? =
      some { routine with code := (code compiled.1).toArray, locals := compiled.2.nextSlot } :=
    Draft.complete_routine own
  have kept : ∀ entry ∈ lets.lambdas.zipIdx (draft.routines.size + 1),
      after.routines[entry.2]? = compiled.2.draft.routines[entry.2]? := by
    intro entry listed
    have later := List.le_snd_of_mem_zipIdx listed
    exact Array.getElem?_modify.trans (if_neg (Nat.ne_of_lt later))
  have placed := inside.placed
  have unused := inside.unused
  rw [size] at placed unused
  have entries : lets.enclosed.lambdas.zipIdx draft.routines.size
      = (lets.own, draft.routines.size) :: lets.lambdas.zipIdx (draft.routines.size + 1) := rfl
  refine
    { grown := (first.trans inside.grown).complete (Nat.le_refl _) _ _
      size := ?_
      placed := ?_
      unused := ?_ }
  · change (compiled.2.draft.routines.modify _ _).size = _
    rw [Array.size_modify, inside.size, size, Nat.add_right_comm]
    rfl
  · rw [entries]
    refine List.forall_mem_cons.mpr
      ⟨⟨inside.numbers, _, completed, inside.stores⟩, fun entry listed ↦ ?_⟩
    exact (placed entry listed).kept (kept entry listed)
  · have same : after.unused = compiled.2.draft.unused := rfl
    have before : reserved.unused = draft.unused := rfl
    rw [entries, unusedWarnings_cons completed, unusedWarnings_congr kept, ← Multiset.coe_add,
      ← add_assoc, ← before]
    exact same.trans unused

theorem Draft.Enters.ledger {before after : Body} {added : List (List LetVariable)}
    (enters : before.draft.Enters after.draft added) (scopes : after.scopes = before.scopes)
    (slot : after.nextSlot = before.nextSlot) :
    Body.Ledger base before after [] 0 ⟨[], added⟩ := by
  have locals : after.locals = before.locals := congrArg (List.map (List.map Local.watched)) scopes
  refine
    { grown := enters.grown
      size := enters.size
      next := slot
      locals := ⟨[], by rw [widen_nil, marked_nil, locals], List.nodup_nil, nofun⟩
      loads := nofun
      own := nofun
      numbers := List.nodup_nil
      stores := nofun
      placed := enters.placed
      balance := fun code _ ↦ ?_ }
  rw [locals, enters.unused, List.nil_append]
  change _ = _ + (0 : Multiset _) + _
  abel

theorem books_closureValue (parameters : List Identifier) (captures : List Capture)
    (expected : Option Ty) {inside : Setting → Lowering Typed} {binders : Nat}
    (body : ∀ number result, Settles (captures.length + parameters.length) 0 Typed.code [] binders lets
      (inside (setting.inside number captures result))) :
    Books base next Typed.code (loadsOf captures) 0 lets.enclosed
      (closureValue setting parameters captures inside expected) := by
  have count := length_lambdaSignature parameters.length expected
  unfold closureValue
  rcases signature : lambdaSignature parameters.length expected with ⟨types, result⟩
  rw [signature] at count
  refine .after silent_nextLambda fun number ↦ ?_
  let inner := setting.inside number captures result
  let routine := closureRoutine inner captures.length parameters.length
  let action := lambdaInside captures (parameters.zip types) (inside inner)
  have length : (parameters.zip types).length = parameters.length := by
    rw [List.length_zip, count, Nat.min_self]
  have added (draft : Draft) : draft.Enters
      (addRoutine routine (fun body ↦ body.code ++ epilogue) action draft).2
      lets.enclosed.lambdas := by
    let reserved := (Draft.reserve routine draft).2
    have captured := (Body.isReady_nil reserved).declareCaptures captures
    have ready := captured.declareParameters (parameters.zip types)
    rw [length, Nat.zero_add] at ready
    exact enters_addRoutine (compiles_of_ready ready (body number result) rfl)
  have books : Books base next (fun _ ↦ loadsOf captures) (loadsOf captures) 0 lets.enclosed
      (onDraft (addRoutine routine (fun body ↦ body.code ++ epilogue) action)) := fun body _ _ ↦
    ⟨[], by rw [slotOps_loadsOf, List.append_nil], (added body.draft).ledger rfl rfl⟩
  exact books.map fun added ↦ by
    rw [slotOps_append]
    exact List.append_nil _

theorem books_lambdaValue (fits : setting.Fits base) (parameters : List Identifier)
    (mentioned : List String) (expected : Option Ty) {inside : Setting → Lowering Typed} {binders : Nat}
    (body : ∀ number captures result, Settles (captures.length + parameters.length) 0 Typed.code []
      binders lets (inside (setting.inside number captures result))) :
    Books base next Typed.code [] 0 lets.enclosed
      (lambdaValue setting parameters mentioned inside expected) := by
  refine (books_capturesOf fits parameters mentioned).lead fun captures ↦ ?_
  rw [slotOps_loadsOf]
  exact books_closureValue parameters captures expected fun number ↦ body number captures

end Expressions

/-! ## Statements -/

section Statements

variable {base next start binders more : Nat} {setting : Setting} {lets others : Lets} {span : Span}

theorem books_declareValue (name : Identifier) (declared : Option Ty) (value : Typed) :
    Books base next id (slotOps value.code) 1 ⟨[⟨name, next⟩], []⟩
      (declareValue name declared value span) := by
  refine .after (silent_checkedType _ _) fun type ↦ ?_
  have books : Books base next (fun slot ↦ value.code ++ [.store slot]) (slotOps value.code) 1
      ⟨[⟨name, next⟩], []⟩ (declareLocal name.name type (some name.span)) :=
    books_declareLet name type fun _ ↦ slotOps_append _ _
  exact books.map fun _ ↦ rfl

variable {value : Pending}

theorem books_assignVariable (name : Identifier)
    (each : ∀ expected start, Books base next Typed.code [] 0 lets (value expected start)) :
    Books base next id [] 0 lets (assignVariable name value span start) := by
  unfold assignVariable
  refine .after (silent_lookupTarget _) fun found ↦ ?_
  cases found with
  | some found =>
      refine (each _ _).before fun typed ↦ .after (silent_check _ _ _) fun _ ↦ ?_
      exact .of_low (slotOps_append _ [.store found.slot])
        fun _ loaded ↦ absurd (List.mem_singleton.mp loaded) nofun
  | none => exact .after (silent_report (by decide) _ _) fun _ ↦ (each _ _).map fun _ ↦ rfl

theorem books_assignField (fits : setting.Fits base) (name : Identifier) (valueSpan : Span)
    (each : ∀ expected start, Books base next Typed.code [] 0 lets (value expected start)) :
    Books base next id [] 0 lets (assignField setting name value valueSpan span start) := by
  unfold assignField
  split
  · exact .after (silent_report (by decide) _ _) fun _ ↦ (each _ _).map fun _ ↦ rfl
  · next slot receiver =>
      have low : ∀ other, .load other ∈ slotOps [.load slot] → other < base :=
        low_load (fits slot receiver)
      split
      · exact .after (silent_report (by decide) _ _) fun _ ↦ (each _ _).map fun _ ↦ rfl
      · exact ((each _ _).ahead low).before fun _ ↦ .after (silent_check _ _ _) fun _ ↦
          .pure (by simp [slotOps])

theorem books_condition
    (each : ∀ expected start, Books base next Typed.code [] 0 lets (value expected start)) :
    Books base next id [] 0 lets (condition value span start) :=
  (each _ _).before fun _ ↦ .after (silent_check _ _ _) fun _ ↦ .pure rfl

theorem silent_warnDiscarded (type : Ty) : Silent (warnDiscarded type span) := by
  unfold warnDiscarded
  split
  · have other : Code.discardedSequence ≠ .unusedLocal := by decide
    exact .of_passes (.note other)
  · exact .pure ()

theorem books_discard
    (each : ∀ expected start, Books base next Typed.code [] 0 lets (value expected start)) :
    Books base next id [] 0 lets (discard value span start) :=
  (each _ _).before fun _ ↦ .after (silent_warnDiscarded _) fun _ ↦ .pure (by simp [slotOps])

theorem books_returnNothing : Books base next id [] 0 .none (returnNothing setting span) := by
  simp only [returnNothing]
  exact .ite (.after (silent_report (by decide) _ _) fun _ ↦ .pure rfl) (.pure rfl)

theorem books_returnValue
    (each : ∀ expected start, Books base next Typed.code [] 0 lets (value expected start)) :
    Books base next id [] 0 lets (returnValue setting value span start) :=
  (each _ _).before fun _ ↦ .after (silent_check _ _ _) fun _ ↦ .pure (by simp [slotOps])

theorem silent_elementType (iterated : Ty) : Silent (elementType iterated span) := by
  unfold elementType
  split
  · exact .pure _
  · exact silent_mistake (by decide) _ _

variable {inside test body other : Nat → Lowering (List Op)}

/-- A loop takes a slot for its cursor, and one in a scope of its own for the item. -/
theorem books_loopOver (binding : Identifier) (element : Ty) (iterated : List Op)
    (each : ∀ start, Books base (next + 2) id [] binders lets (inside start)) :
    Books base next id (slotOps iterated) (binders + 2) lets
      (loopOver binding element iterated inside start) := by
  have cursor : Books base next (fun _ ↦ iterated) (slotOps iterated) 1 .none allocate :=
    books_allocate fun _ ↦ rfl
  refine cursor.bind (fun cursor ↦ ?_) (Nat.add_comm 1 (binders + 1))
  let ahead (slot : Nat) := iterated ++ [.store cursor, .store slot]
  have item : Books base (next + 1) ahead (slotOps iterated) 1 .none
      (declareLocal binding.name element none) := by
    refine books_declareHidden binding.name element (fun _ ↦ slotOps_append _ _) fun _ _ loaded ↦ ?_
    simp [slotOps] at loaded
  let head := start + iterated.length + 2
  let made (slot : Nat) (inside : List Op) :=
    iterated ++ [.iterStart, .store cursor, .iterNext cursor (head + inside.length + 3), .store slot]
      ++ inside ++ [.jump head]
  have loop : Books base (next + 1) id (slotOps iterated) (binders + 1) lets (do
      let slot ← declareLocal binding.name element none
      let code ← inside (head + 2)
      Pure.pure (made slot code)) := by
    refine item.bind (fun slot ↦ ?_) (Nat.add_comm 1 binders)
    refine ((each _).behind (ahead slot)).map fun code ↦ ?_
    simp [made, ahead, slotOps]
  exact (settles_scope loop).books

theorem books_forEachLoop (binding : Identifier) (iterableSpan : Span)
    (each : ∀ expected start, Books base next Typed.code [] 0 lets (value expected start))
    (body : ∀ start, Books base (next + 2) id [] binders others (inside start)) :
    Books base next id [] (binders + 2) (lets ++ others)
      (forEachLoop binding value iterableSpan inside start) :=
  (each _ _).bind (fun _ ↦ .after (silent_elementType _) fun _ ↦ books_loopOver _ _ _ body)
    (Nat.zero_add _)

theorem books_whileTrue (first : ∀ start, Books base next id [] 0 lets (test start))
    (second : ∀ start, Books base next id [] binders others (body start)) :
    Books base next id [] binders (lets ++ others) (whileTrue test body start) :=
  (first _).bind (fun tested ↦ ((second _).behind tested).map fun _ ↦ by simp [slotOps])
    (Nat.zero_add _)

theorem books_ifTrue (first : ∀ start, Books base next id [] 0 lets (test start))
    (second : ∀ start, Books base next id [] binders others (body start)) :
    Books base next id [] binders (lets ++ others) (ifTrue test body start) :=
  (first _).bind (fun tested ↦ ((second _).behind tested).map fun _ ↦ by simp [slotOps])
    (Nat.zero_add _)

theorem books_ifElse {last : Lets} (first : ∀ start, Books base next id [] 0 lets (test start))
    (second : ∀ start, Books base next id [] binders others (body start))
    (third : ∀ start, Books base (next + binders) id [] more last (other start)) :
    Books base next id [] (binders + more) (lets ++ (others ++ last))
      (ifElse test body other start) := by
  refine (first _).bind (fun tested ↦ ?_) (Nat.zero_add _)
  refine ((second _).behind tested).bind (fun inside ↦ ?_) rfl
  exact ((third _).behind (tested ++ id inside)).map fun _ ↦ by simp [slotOps]

end Statements

/-! ## The walk -/

/-- The number of variables that the body of a lambda binds. -/
def bindersInBody : LambdaBody → Nat
  | .expression _ => 0
  | .block body => bindersInBlock body

/-- The receiver of a lambda is one of the variables that it copies. -/
theorem fits_inside (setting : Setting) (number : Nat) (captures : List Capture) (result : Ty)
    (parameters : Nat) :
    (setting.inside number captures result).Fits (captures.length + parameters) := by
  intro slot receiver
  have found := List.findIdx?_eq_some_iff_findIdx_eq.mp receiver
  exact Nat.lt_of_lt_of_le found.1 (Nat.le_add_right _ _)

section Walk

mutual

/-- The books are kept of expressions. -/
theorem books_expression {base : Nat} {setting : Setting} (fits : setting.Fits base) (next : Nat) :
    (value : Expression) → (expected : Option Ty) → (start : Nat) →
    Books base next Typed.code [] 0 (letsIn value) (expression setting value expected start)
  | .int .., _, _ | .str .., _, _ | .bool .., _, _ => .pure rfl
  | .array values _, expected, start => by
      rw [letsIn, expression]
      exact (books_items fits next values _ [] _).map fun _ ↦ by simp [slotOps]
  | .receiver _, _, _ => books_receiverValue fits
  | .path segments _, _, _ => books_pathValue segments
  | .call callee values span, expected, start => by
      have each := books_arguments fits next values
      rw [letsIn]
      cases callee with
      | path segments calleeSpan =>
          rw [expression]
          exact books_callNamed fits _ _ _ each
      | _ =>
          rw [expression]
          · exact (books_expression fits next _ _ _).bind (fun _ ↦ books_callValue _ _ _ each) rfl
          · exact nofun
  | .method target name values span, expected, start => by
      rw [letsIn, expression]
      exact (books_expression fits next target _ _).bind
        (fun _ ↦ books_callOnTarget _ _ _ (books_arguments fits next values)) rfl
  | .field target name _, expected, start => by
      rw [letsIn, expression]
      exact (books_expression fits next target _ _).before fun _ ↦ books_fieldValue _ _
  | .element target index _, expected, start => by
      rw [letsIn, expression]
      refine (books_expression fits next target _ _).bind (fun typed ↦ ?_) (Nat.zero_add _)
      refine ((books_expression fits next index _ _).behind typed.code).before fun _ ↦ ?_
      exact .after (silent_check _ _ _) fun _ ↦ .after (silent_itemType _) fun _ ↦
        .pure (by simp [slotOps])
  | .construct name _, _, _ => books_newObject name
  | .lambda parameters body _, expected, start => by
      rw [letsIn, expression]
      exact books_lambdaValue fits _ _ _ fun number captures result ↦
        settles_lambdaBody (fits_inside setting number captures result _) body
  | .unary operator operand _, expected, start => by
      rw [letsIn, expression]
      exact (books_expression fits next operand _ _).before fun _ ↦ books_unaryValue _ _
  | .binary operator left right _, expected, start => by
      rw [letsIn, expression]
      exact books_binaryValue operator (books_expression fits next left)
        (books_expression fits next right)

/-- The books are kept of the items of an array. -/
theorem books_items {base : Nat} {setting : Setting} (fits : setting.Fits base) (next : Nat) :
    (values : List Expression) → (element : Option Ty) → (before : List Op) → (start : Nat) →
    Books base next Prod.fst (slotOps before.reverse) 0 (letsInAll values)
      (items setting values element before start)
  | [], _, _, _ => .pure rfl
  | item :: rest, element, before, start => by
      rw [letsInAll, items]
      refine ((books_expression fits next item _ _).behind before.reverse).bind (fun typed ↦
        .after (silent_checkedType _ _) fun type ↦ ?_) (Nat.zero_add _)
      have others := books_items fits next rest (some type) (typed.code.reverse ++ before)
        (start + typed.code.length)
      rwa [List.reverse_append, List.reverse_reverse] at others

/-- The books are kept of arguments. -/
theorem books_arguments {base : Nat} {setting : Setting} (fits : setting.Fits base) (next : Nat) :
    (values : List Expression) →
    BooksArguments base next (letsInAll values) (arguments setting values)
  | [], _, _, _, _, _, _ => .pure rfl
  | argument :: rest, [], callee, number, bound, before, start => by
      rw [letsInAll, arguments]
      refine ((books_expression fits next argument _ _).behind before.reverse).bind
        (fun typed ↦ ?_) (Nat.zero_add _)
      have others := books_arguments fits next rest [] callee (number + 1) bound
        (typed.code.reverse ++ before) (start + typed.code.length)
      rwa [List.reverse_append, List.reverse_reverse] at others
  | argument :: rest, wanted :: parameters, callee, number, bound, before, start => by
      rw [letsInAll, arguments]
      refine ((books_expression fits next argument _ _).behind before.reverse).bind (fun typed ↦
        .after (silent_checkArgument _ _ _ _ _) fun _ ↦ ?_) (Nat.zero_add _)
      have others := books_arguments fits next rest parameters callee (number + 1)
        (wanted.accepts typed.type bound).2 (typed.code.reverse ++ before)
        (start + typed.code.length)
      rwa [List.reverse_append, List.reverse_reverse] at others

/-- The books are kept of the body of a lambda, which leaves no variable in scope. -/
theorem settles_lambdaBody {base : Nat} {setting : Setting} (fits : setting.Fits base) :
    (body : LambdaBody) →
    Settles base 0 Typed.code [] (bindersInBody body) (letsInBody body) (lambdaBody setting body)
  | .expression value => by
      rw [letsInBody, lambdaBody]
      refine Books.settles ?_
      exact (books_expression fits 0 value _ _).before fun _ ↦
        .after (silent_check _ _ _) fun _ ↦ .pure (by simp [slotOps])
  | .block body => by
      rw [letsInBody, lambdaBody]
      exact (settles_block fits 0 body 0).map fun _ ↦ rfl

/-- The books are kept of a block, which leaves no variable in scope. -/
theorem settles_block {base : Nat} {setting : Setting} (fits : setting.Fits base) (next : Nat) :
    (body : Block) → (start : Nat) →
    Settles base next id [] (bindersInBlock body) (letsInBlock next body) (block setting body start)
  | .mk inside _, start => by
      rw [letsInBlock, bindersInBlock, block]
      exact settles_scope (books_statements fits next inside [] start)

/-- The books are kept of statements. -/
theorem books_statements {base : Nat} {setting : Setting} (fits : setting.Fits base) (next : Nat) :
    (body : List Statement) → (before : List Op) → (start : Nat) →
    Books base next id (slotOps before.reverse) (bindersInStatements body)
      (letsInStatements next body) (statements setting body before start)
  | [], _, _ => .pure rfl
  | first :: rest, before, start => by
      rw [letsInStatements, bindersInStatements, statements]
      refine ((books_statement fits next first start).behind before.reverse).bind (fun code ↦ ?_) rfl
      have others := books_statements fits (next + bindersInStatement first) rest
        (code.reverse ++ before) (start + code.length)
      rwa [List.reverse_append, List.reverse_reverse] at others

/-- The books are kept of a statement. -/
theorem books_statement {base : Nat} {setting : Setting} (fits : setting.Fits base) (next : Nat) :
    (one : Statement) → (start : Nat) →
    Books base next id [] (bindersInStatement one) (letsInStatement next one)
      (statement setting one start)
  | .declare name written value _, start => by
      have rest (declared : Option Ty) : Books base next id [] 1
          (letsIn value ++ ⟨[⟨name, next⟩], []⟩) (do
            let typed ← expression setting value declared start
            declareValue name declared typed value.span) :=
        (books_expression fits next value _ _).bind (fun _ ↦ books_declareValue _ _ _) rfl
      rw [letsInStatement, bindersInStatement]
      cases written with
      | some written =>
          rw [statement]
          exact .after (silent_resolve _ _) fun _ ↦ .after (.pure _) rest
      | none =>
          rw [statement]
          exact .after (.pure _) rest
  | .assign (.binding name) value _, start => by
      rw [letsInStatement, bindersInStatement, statement]
      exact books_assignVariable name (books_expression fits next value)
  | .assign (.field name) value _, start => by
      rw [letsInStatement, bindersInStatement, statement]
      exact books_assignField fits name _ (books_expression fits next value)
  | .forEach binding iterable body _, start => by
      rw [letsInStatement, bindersInStatement, statement]
      exact books_forEachLoop binding _ (books_expression fits next iterable)
        fun start ↦ (settles_block fits (next + 2) body start).books
  | .whileLoop test body _, start => by
      rw [letsInStatement, bindersInStatement, statement]
      exact books_whileTrue (fun _ ↦ books_condition (books_expression fits next test))
        fun start ↦ (settles_block fits next body start).books
  | .conditional test body other _, start => by
      have tested (start : Nat) : Books base next id [] 0 (letsIn test)
          (condition (expression setting test) test.span start) :=
        books_condition (books_expression fits next test)
      have inside (start : Nat) : Books base next id [] (bindersInBlock body)
          (letsInBlock next body) (block setting body start) :=
        (settles_block fits next body start).books
      rw [letsInStatement, bindersInStatement]
      cases other with
      | absent =>
          rw [letsInAlternative, bindersInAlternative, Lets.append_none, statement]
          exact books_ifTrue tested inside
      | block | chain =>
          rw [statement]
          · exact books_ifElse tested inside (books_alternative fits _ _)
          · exact nofun
  | .returns none _, _ => by
      rw [letsInStatement, bindersInStatement, statement]
      exact books_returnNothing
  | .returns (some value) _, start => by
      rw [letsInStatement, bindersInStatement, statement]
      exact books_returnValue (books_expression fits next value)
  | .evaluate value, start => by
      rw [letsInStatement, bindersInStatement, statement]
      exact books_discard (books_expression fits next value)

/-- The books are kept of an alternative. -/
theorem books_alternative {base : Nat} {setting : Setting} (fits : setting.Fits base) (next : Nat) :
    (other : Alternative) → (start : Nat) →
    Books base next id [] (bindersInAlternative other) (letsInAlternative next other)
      (alternative setting other start)
  | .absent, _ => .pure rfl
  | .block body, start => by
      rw [letsInAlternative, bindersInAlternative, alternative]
      exact (settles_block fits next body start).books
  | .chain conditional, start => by
      rw [letsInAlternative, bindersInAlternative, alternative]
      exact books_statement fits next conditional start

end

end Walk

end GuestScript.Compile
