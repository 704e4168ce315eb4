import GuestScript.Proofs.Machine.RecodedWorld

/-!
# Faults that come from data

A fault comes either from the values that a program works on, like a division by zero, or from code
that names what does not exist or does not leave the operands that it takes. Operators, fields and
host functions with the right number of arguments only give faults of the first sort.
-/

namespace GuestScript

namespace Machine

/-- Whether a fault comes from the values that a program works on or from the limit of active
calls, whatever its code looks like. -/
def Fault.isFromData : Fault → Bool
  | .typeMismatch _ | .divisionByZero | .overflow _ | .indexOutOfBounds .. | .explicitPanic _
  | .tooDeep _ | .missingField .. | .notIterable _ => true
  | .host _ (.arity ..) => false
  | .host .. => true
  | .emptyStack | .arity .. | .missingRoutine _ | .missingType _ | .missingImport _
  | .slotOutOfRange _ => false

/-- Whether a fault says that code names a routine, a type, an import or a slot that does not
exist. -/
def Fault.isDangling : Fault → Bool
  | .missingRoutine _ | .missingType _ | .missingImport _ | .slotOutOfRange _ => true
  | _ => false

theorem Fault.not_isDangling {fault : Fault} (data : fault.isFromData) :
    fault.isDangling = false := by
  cases fault <;> first | rfl | exact absurd data nofun

variable {Code : Type} {fault : Fault}

/-! ## Operators -/

theorem exact_isFromData {symbol : String} {value : Int}
    (failed : (exact symbol value : Except Fault (ValueOver Code)) = .error fault) :
    fault.isFromData := by
  rw [exact] at failed
  split at failed
  · cases failed
  · rw [← Except.error.inj failed]; rfl

/-- Where a conversion comes first, a fault is that of the conversion or of what follows it. -/
theorem orMismatch_bind_isFromData {Target Result : Type} {converted : Except Mismatch Target}
    {next : Target → Except Fault Result}
    (rest : ∀ target, next target = .error fault → fault.isFromData)
    (failed : (orMismatch converted >>= next) = .error fault) : fault.isFromData := by
  cases converted with
  | ok target => exact rest target failed
  | error mismatch => rw [← Except.error.inj failed]; rfl

theorem applyUnary_isFromData {operator : UnaryOperator} {operand : ValueOver Code}
    (failed : applyUnary operator operand = .error fault) : fault.isFromData := by
  cases operator with
  | not => exact orMismatch_bind_isFromData nofun failed
  | negate => exact orMismatch_bind_isFromData (fun _ ↦ exact_isFromData) failed

theorem applyOrder_isFromData {wanted : Ordering → Bool} {left right : ValueOver Code}
    (failed : applyOrder wanted left right = .error fault) : fault.isFromData := by
  rw [applyOrder] at failed
  cases compared : compareValues left right with
  | ok order => rw [compared] at failed; cases failed
  | error other =>
      rw [compared] at failed
      obtain rfl : other = fault := Except.error.inj failed
      unfold compareValues at compared
      split at compared
      case h_1 | h_2 => cases compared
      all_goals rw [← Except.error.inj compared]; rfl

theorem applyInts_isFromData {operation : Int → Int → Except Fault (ValueOver Code)}
    {left right : ValueOver Code}
    (rest : ∀ first second, operation first second = .error fault → fault.isFromData)
    (failed : applyInts operation left right = .error fault) : fault.isFromData :=
  orMismatch_bind_isFromData
    (fun _ ↦ orMismatch_bind_isFromData fun _ ↦ rest _ _) failed

theorem divideBy_isFromData {symbol : String} {operation : Int → Int → Int} {first second : Int}
    (failed : (divideBy symbol operation first second : Except Fault (ValueOver Code))
      = .error fault) : fault.isFromData := by
  rw [divideBy] at failed
  split at failed
  · rw [← Except.error.inj failed]; rfl
  · exact exact_isFromData failed

theorem remainderBy_isFromData {symbol : String} {first second : Int}
    (failed : (remainderBy symbol first second : Except Fault (ValueOver Code)) = .error fault) :
    fault.isFromData := by
  rw [remainderBy] at failed
  split at failed
  · rw [← Except.error.inj failed]; rfl
  · split at failed
    · rename_i quotient
      rw [← Except.error.inj failed]
      exact exact_isFromData quotient
    · exact exact_isFromData failed

theorem applyBinary_isFromData {operator : BinaryOperator} {left right : ValueOver Code}
    (failed : applyBinary operator left right = .error fault) : fault.isFromData := by
  have ints {combine : Int → Int → Int}
      (failed : applyInts (fun first second ↦ exact operator.symbol (combine first second))
        left right = .error fault) : fault.isFromData :=
    applyInts_isFromData (fun _ _ ↦ exact_isFromData) failed
  cases operator with
  | equal | unequal => exact absurd failed nofun
  | and =>
      refine orMismatch_bind_isFromData (fun first ↦ ?_) failed
      cases first with
      | false => exact nofun
      | true => exact orMismatch_bind_isFromData nofun
  | or =>
      refine orMismatch_bind_isFromData (fun first ↦ ?_) failed
      cases first with
      | false => exact orMismatch_bind_isFromData nofun
      | true => exact nofun
  | less | atMost | greater | atLeast => exact applyOrder_isFromData failed
  | add =>
      cases left with
      | str first => exact orMismatch_bind_isFromData nofun failed
      | _ => exact ints failed
  | subtract | multiply => exact ints failed
  | divide =>
      have ints : applyInts (divideBy _ Int.tdiv) left right = .error fault := failed
      exact applyInts_isFromData (fun _ _ ↦ divideBy_isFromData) ints
  | remainder =>
      have ints : applyInts (remainderBy _) left right = .error fault := failed
      exact applyInts_isFromData (fun _ _ ↦ remainderBy_isFromData) ints

theorem itemOf_isFromData {array index : ValueOver Code}
    (failed : itemOf array index = .error fault) : fault.isFromData := by
  refine orMismatch_bind_isFromData
    (fun position ↦ orMismatch_bind_isFromData fun items missing ↦ ?_) failed
  split at missing
  · exact absurd missing nofun
  · rw [← Except.error.inj missing]; rfl

/-! ## Fields -/

theorem WorldOver.readField_isFromData {world : WorldOver Code} {target : ValueOver Code}
    {field : Nat} (failed : world.readField target field = .error fault) : fault.isFromData := by
  refine orMismatch_bind_isFromData (fun reference missing ↦ ?_) failed
  split at missing
  · exact absurd missing nofun
  · rw [← Except.error.inj missing]; rfl

theorem WorldOver.writeField_isFromData {world : WorldOver Code} {target value : ValueOver Code}
    {field : Nat} (failed : world.writeField target field value = .error fault) :
    fault.isFromData := by
  refine orMismatch_bind_isFromData (fun reference missing ↦ ?_) failed
  split at missing
  · exact absurd missing nofun
  · rw [← Except.error.inj missing]; rfl

end Machine

/-! ## Host functions -/

namespace HostAction

open Machine

variable {Code : Type} {arguments : List (ValueOver Code)} {world : WorldOver Code}

/-- A host function that faults does so because of its arguments, or because it was told to. -/
theorem reply_fault_isFromData {action : HostAction} {fault : Fault}
    (replied : action.reply arguments world = .fault fault) : fault.isFromData := by
  by_cases count : arguments.length = action.arity
  · cases action with
    | seqFilter | seqMap =>
        obtain ⟨sequence, closure, rfl⟩ := List.length_eq_two.mp count
        simp only [reply, extend, ReplyOver.withArgument, ReplyOver.extend] at replied
        (repeat' split at replied) <;> cases replied <;> rfl
    | printLine | print =>
        obtain ⟨value, rfl⟩ := List.length_eq_one_iff.mp count
        simp only [reply, ReplyOver.written] at replied
        split at replied <;> cases replied
    | _ =>
        obtain ⟨value, rfl⟩ := List.length_eq_one_iff.mp count
        simp only [reply, ReplyOver.withArgument] at replied
        split at replied <;> cases replied <;> rfl
  · rw [reply_of_length_ne count] at replied
    cases replied

/-- A host function that has the right number of arguments does not complain about it. -/
theorem reply_refuse_isFromData {action : HostAction} {error : HostError}
    (count : arguments.length = action.arity)
    (replied : action.reply arguments world = .refuse error) (name : String) :
    (Fault.host name error).isFromData := by
  cases action with
  | seqFilter | seqMap =>
      obtain ⟨sequence, closure, rfl⟩ := List.length_eq_two.mp count
      simp only [reply, extend, ReplyOver.withArgument, ReplyOver.extend] at replied
      (repeat' split at replied) <;> cases replied <;> rfl
  | printLine | print =>
      obtain ⟨value, rfl⟩ := List.length_eq_one_iff.mp count
      simp only [reply, ReplyOver.written] at replied
      split at replied <;> cases replied <;> rfl
  | _ =>
      obtain ⟨value, rfl⟩ := List.length_eq_one_iff.mp count
      simp only [reply, ReplyOver.withArgument] at replied
      split at replied <;> cases replied <;> rfl

end HostAction

end GuestScript
