import GuestScript.Proofs.Compile.Lambdas
import GuestScript.Proofs.Compile.WrittenTypes
import GuestScript.Proofs.Syntax.Chains

/-!
# The code of statements

One lemma for each form of statement, as for expressions. Only a `let` changes which variables are in
scope after it; what happens in a block is forgotten at its end, except for the slots it took.
-/

namespace GuestScript.Compile

open Bytecode (Op)
open Lowering
open Machine (Program)
open Meaning
open Syntax

/-- What is pending is a block. -/
structure TranslatesBlock (program : Program) (setting : Setting) (body : Block)
    (pending : Nat → Lowering (List Op)) : Prop where
  grows : ∀ start, Grows (lambdasInBlock body) (pending start)
  leads : ∀ {view : List (Scope Nat)} {slot number : Nat}, Scope.IsClosed view.flatten →
    ∀ start, Leads program setting.home view slot number (pending start)
      fun code view' after ↦
        view' = view ∧ BlockCode program setting view.flatten slot number body start code after

/-- What is pending is an alternative that is there. -/
structure TranslatesAlternative (program : Program) (setting : Setting) (other : Alternative)
    (pending : Nat → Lowering (List Op)) : Prop where
  grows : ∀ start, Grows (lambdasInAlternative other) (pending start)
  leads : ∀ {view : List (Scope Nat)} {slot number : Nat}, Scope.IsClosed view.flatten →
    view ≠ [] → ∀ start, Leads program setting.home view slot number (pending start)
      fun code view' after ↦ view' = view ∧
        AlternativeCode program setting view.flatten slot number other start code after

variable {program : Program} {setting : Setting} {view : List (Scope Nat)} {slot number start : Nat}
  {span : Span} {value : Expression} {pending : Pending}

/-! ## Simple statements -/

theorem gives_resolve {scope : Scope Nat} (written : TypeExpression) :
    Gives program setting.home scope number (resolve setting written) fun type ↦
      type = setting.site.meant written ∧ type.IsClosed := by
  intro body _ installed
  have same : (resolve setting written body).1 = setting.site.meant written :=
    resolveType_fst _ _ _ written body.draft
  have few : (resolve setting written body).2.draft.routines.size ≤ body.draft.routines.size :=
    Nat.le_of_eq (congrArg Array.size (notes_resolveType _ _ _ written body.draft).routines)
  rw [same]
  exact ⟨⟨rfl, isClosed_meantType _ _ _ written body.draft installed.quiet⟩, .none few⟩

/-- Behind a `let`, its variable is in scope. -/
theorem leads_declareValue {scope : Scope Nat} {outer : List (Scope Nat)} {typed : Typed}
    {other : Nat} (name : Identifier) (written : Option TypeExpression) (span : Span)
    (translated : IsTranslated program setting (scope :: outer).flatten number value
      (written.map setting.site.meant) start typed) :
    Leads program setting.home (scope :: outer) slot other
      (declareValue name (written.map setting.site.meant) typed value.span) fun code view after ↦
        view = (⟨name.name, (written.map setting.site.meant).getD typed.type, slot⟩ :: scope)
            :: outer ∧
          StatementCode program setting (scope :: outer).flatten slot number
            (.declare name written value span) start code view.flatten after := by
  have code (admitted : ∀ wanted ∈ written.map setting.site.meant,
        wanted.admits typed.type = true) :
      StatementCode program setting (scope :: outer).flatten slot number
        (.declare name written value span) start (typed.code ++ [.store slot])
        (⟨name.name, (written.map setting.site.meant).getD typed.type, slot⟩
          :: (scope :: outer).flatten) (slot + 1) := by
    rw [translated.type] at admitted ⊢
    exact .declare translated.code admitted
  refine .bind_gives gives_checkedType (steady_checkedType _ _)
    (fun _ ↦ (grows_declareLocal _ _ _).map) ?_
  rintro _ ⟨rfl, admitted⟩
  exact .declareLocal_bind (.pure ⟨rfl, code admitted⟩)

/-- Code is that of a statement that leaves the variables as they are and takes no slot. -/
def IsSimple (program : Program) (setting : Setting) (scope : Scope Nat) (number : Nat)
    (one : Statement) (start : Nat) (code : List Op) : Prop :=
  ∀ slot, StatementCode program setting scope slot number one start code scope slot

section Simple

variable {scope : Scope Nat}

theorem gives_assignVariable (closed : scope.IsClosed)
    (given : Translates program setting value pending) (name : Identifier) :
    Gives program setting.home scope number
      (assignVariable name pending value.span start)
      (IsSimple program setting scope number (.assign (.binding name) value span) start) := by
  unfold assignVariable
  refine .lookupTarget_bind fun found same ↦ ?_
  cases found with
  | none => exact .report_bind fun _ ↦ (given.steady _ _).map.1
  | some found =>
      have closed' : ∀ wanted ∈ some found.type, wanted.IsClosed := fun wanted same' ↦
        Option.some.inj same' ▸ closed _ (Scope.mem_of_named? same.symm).1
      refine .bind (given.gives closed closed' start) (given.steady _ _)
        (fun _ ↦ (steady_check _ _ _).map.1) fun typed translated ↦ .map (.mono .check ?_)
      intro _ admitted slot
      exact .assign same.symm translated.code (translated.type ▸ admitted)

theorem gives_assignField (proper : setting.IsProper) (closed : scope.IsClosed)
    (given : Translates program setting value pending) (name : Identifier) :
    Gives program setting.home scope number
      (assignField setting name pending value.span span start)
      (IsSimple program setting scope number (.assign (.field name) value span) start) := by
  unfold assignField
  split
  · exact .report_bind fun _ ↦ (given.steady _ _).map.1
  · next slot receiver =>
      split
      · exact .report_bind fun _ ↦ (given.steady _ _).map.1
      · next position type found =>
          have closed' : ∀ wanted ∈ some type, wanted.IsClosed := fun wanted same ↦
            Option.some.inj same ▸ proper.field found
          refine .bind (given.gives closed closed' (start + 1)) (given.steady _ _)
            (fun _ ↦ (steady_check _ _ _).map.1) fun typed translated ↦ .map (.mono .check ?_)
          intro _ admitted slot
          exact .assignField receiver found translated.code (translated.type ▸ admitted)

theorem gives_condition (closed : scope.IsClosed) (given : Translates program setting value pending) :
    Gives program setting.home scope number (condition pending value.span start) fun code ↦
      ExpressionCode program setting scope number value (some .bool) start code ∧
        Ty.bool.admits (typeOf setting.site scope.typing value (some .bool)) = true := by
  have bool : ∀ wanted ∈ some Ty.bool, wanted.IsClosed := fun _ same ↦ Option.some.inj same ▸ rfl
  refine .bind (given.gives closed bool start) (given.steady _ _)
    (fun _ ↦ (steady_check _ _ _).map.1) fun typed translated ↦ .map (.mono .check ?_)
  exact fun _ admitted ↦ ⟨translated.code, translated.type ▸ admitted⟩

theorem gives_returnNothing : Gives program setting.home scope number
    (returnNothing setting span)
    (IsSimple program setting scope number (.returns none span) start) := by
  simp only [returnNothing]
  split
  · exact .report_bind fun _ ↦ .pure _
  · next allowed =>
      refine .pure fun slot ↦ .returnNothing ?_
      rwa [Bool.not_eq_true', Bool.not_eq_false] at allowed

theorem gives_returnValue (proper : setting.IsProper) (closed : scope.IsClosed)
    (given : Translates program setting value pending) :
    Gives program setting.home scope number (returnValue setting pending value.span start)
      (IsSimple program setting scope number (.returns (some value) span) start) := by
  have closed' : ∀ wanted ∈ some setting.result, wanted.IsClosed := fun _ same ↦
    Option.some.inj same ▸ proper.result
  refine .bind (given.gives closed closed' start) (given.steady _ _)
    (fun _ ↦ (steady_check _ _ _).map.1) fun typed translated ↦ .map (.mono .check ?_)
  exact fun _ admitted slot ↦ .returnValue translated.code (translated.type ▸ admitted)

theorem gives_warnDiscarded (type : Ty) :
    Gives program setting.home scope number (warnDiscarded type span) fun _ ↦ True := by
  refine fun body _ _ ↦ ⟨trivial, .none ?_⟩
  unfold warnDiscarded
  split <;> exact Nat.le_refl _

theorem gives_discard (closed : scope.IsClosed) (given : Translates program setting value pending) :
    Gives program setting.home scope number (discard pending value.span start)
      (IsSimple program setting scope number (.evaluate value) start) := by
  refine .bind (given.gives closed unwanted start) (given.steady _ _)
    (fun _ ↦ (steady_warnDiscarded _).map.1) fun typed translated ↦ .map ?_
  exact (gives_warnDiscarded _).mono fun _ _ slot ↦ .evaluate translated.code

end Simple

/-! ## Statements with blocks -/

section Blocks

theorem gives_elementType {scope : Scope Nat} {iterated : Ty} (closed : iterated.IsClosed) :
    Gives program setting.home scope number (elementType iterated span) fun element ↦
      iterated.element? = some element ∧ element.IsClosed := by
  unfold elementType
  split
  · next element same =>
      refine .pure ⟨same, ?_⟩
      cases iterated with
      | array found | seq found => exact Option.some.inj same ▸ closed
      | dyn => exact Option.some.inj same ▸ rfl
      | poison => exact absurd closed nofun
      | _ => exact absurd same nofun
  · exact .mistake

variable {body : Block} {inside : Nat → Lowering (List Op)}

theorem leads_forEachLoop (closed : Scope.IsClosed view.flatten)
    (given : Translates program setting value pending)
    (given' : TranslatesBlock program setting body inside) (binding : Identifier) :
    Leads program setting.home view slot number
      (forEachLoop binding pending value.span inside start) fun code view' after ↦ view' = view ∧
        StatementCode program setting view.flatten slot number (.forEach binding value body span)
          start code view.flatten after := by
  unfold forEachLoop
  refine .bind_gives (given.gives closed unwanted start) (given.steady _ _)
    (fun _ ↦ (steady_elementType _).1.after fun _ ↦ grows_loopOver _ _ _ given'.grows)
    fun typed translated ↦ ?_
  refine .bind_gives (gives_elementType translated.closed) (steady_elementType _)
    (fun _ ↦ grows_loopOver _ _ _ given'.grows) fun element ⟨same, closedElement⟩ ↦ ?_
  have closed' : Scope.IsClosed ((⟨binding.name, element, slot + 1⟩ :: []) :: view).flatten := by
    intro held inside
    rw [List.flatten_cons, List.singleton_append, List.mem_cons] at inside
    obtain rfl | inside := inside
    · exact closedElement
    · exact closed held inside
  refine .allocate_bind (.openScope_bind (.declareLocal_bind ?_))
  refine .bind (given'.leads closed' _) (given'.grows _) (fun _ ↦ grows_closeScope.map) ?_
  rintro code _ after ⟨rfl, translated'⟩
  refine .closeScope_bind (.pure ⟨rfl, ?_⟩)
  exact .forEach translated.code (translated.type ▸ same) translated'

theorem leads_whileTrue (closed : Scope.IsClosed view.flatten)
    (given : Translates program setting value pending)
    (given' : TranslatesBlock program setting body inside) :
    Leads program setting.home view slot number
      (whileTrue (condition pending value.span) inside start) fun code view' after ↦ view' = view ∧
        StatementCode program setting view.flatten slot number (.whileLoop value body span) start
          code view.flatten after := by
  unfold whileTrue
  refine .bind_gives (gives_condition closed given) (steady_condition given.steady)
    (fun _ ↦ (given'.grows _).map) fun tested translated ↦ ?_
  refine .map ((given'.leads closed _).mono ?_)
  rintro code _ after ⟨rfl, translated'⟩
  exact ⟨rfl, .whileLoop translated.1 translated.2 translated'⟩

theorem leads_ifTrue (closed : Scope.IsClosed view.flatten)
    (given : Translates program setting value pending)
    (given' : TranslatesBlock program setting body inside) :
    Leads program setting.home view slot number
      (ifTrue (condition pending value.span) inside start) fun code view' after ↦ view' = view ∧
        StatementCode program setting view.flatten slot number
          (.conditional value body .absent span) start code view.flatten after := by
  unfold ifTrue
  refine .bind_gives (gives_condition closed given) (steady_condition given.steady)
    (fun _ ↦ (given'.grows _).map) fun tested translated ↦ ?_
  refine .map ((given'.leads closed _).mono ?_)
  rintro code _ after ⟨rfl, translated'⟩
  exact ⟨rfl, .ifTrue translated.1 translated.2 translated'⟩

theorem leads_ifElse (closed : Scope.IsClosed view.flatten) (here : view ≠ [])
    (given : Translates program setting value pending)
    (given' : TranslatesBlock program setting body inside) {other : Alternative}
    {instead : Nat → Lowering (List Op)} (present : other ≠ .absent)
    (given'' : TranslatesAlternative program setting other instead) :
    Leads program setting.home view slot number
      (ifElse (condition pending value.span) inside instead start) fun code view' after ↦
        view' = view ∧ StatementCode program setting view.flatten slot number
          (.conditional value body other span) start code view.flatten after := by
  unfold ifElse
  refine .bind_gives (gives_condition closed given) (steady_condition given.steady)
    (fun _ ↦ (given'.grows _).bind (fun _ ↦ (given''.grows _).map) rfl) fun tested translated ↦ ?_
  refine .bind (given'.leads closed _) (given'.grows _) (fun _ ↦ (given''.grows _).map) ?_
  rintro code _ middle ⟨rfl, translated'⟩
  refine .map ((given''.leads closed here _).mono ?_)
  rintro code' _ after ⟨rfl, translated''⟩
  exact ⟨rfl, .ifElse present translated.1 translated.2 translated' translated''⟩

end Blocks

end GuestScript.Compile
