import GuestScript.Machine.Step

/-!
# Instructions do not reach the limit of calls

An instruction may fault, but it is not an instruction that has too many calls active: that is found out
when the call that it asks for is started. Putting a stage on a sequence that has too many of them ends
with the same kind of fault, and another limit in it.
-/

namespace GuestScript.Machine

variable {Result Other : Type}

/-- This is no fault of a call that exceeds the limit of active calls. -/
def IsWithinLimit (outcome : Except Fault Result) : Prop :=
  outcome ≠ .error (.tooDeep maxCallDepth)

namespace IsWithinLimit

theorem ok (result : Result) : IsWithinLimit (.ok result) :=
  nofun

theorem error {fault : Fault} (other : fault ≠ .tooDeep maxCallDepth) :
    IsWithinLimit (.error fault : Except Fault Result) :=
  fun same ↦ other (Except.error.inj same)

theorem bind {outcome : Except Fault Result} {next : Result → Except Fault Other}
    (first : IsWithinLimit outcome) (rest : ∀ result, IsWithinLimit (next result)) :
    IsWithinLimit (outcome >>= next) := by
  cases outcome with
  | ok result => exact rest result
  | error fault => exact error fun same ↦ first (congrArg Except.error same)

theorem orMismatch (converted : Except Mismatch Result) :
    IsWithinLimit (Machine.orMismatch converted) := by
  cases converted with
  | ok result => exact ok result
  | error mismatch => exact error nofun

/-! ## Operators -/

variable {Code : Type}

theorem exact (symbol : String) (value : Int) :
    IsWithinLimit (Machine.exact symbol value : Except Fault (ValueOver Code)) := by
  rw [Machine.exact]
  split
  · exact ok _
  · exact error nofun

theorem applyUnary (operator : UnaryOperator) (operand : ValueOver Code) :
    IsWithinLimit (Machine.applyUnary operator operand) := by
  cases operator with
  | not => exact bind (orMismatch _) fun _ ↦ ok _
  | negate => exact bind (orMismatch _) fun _ ↦ exact _ _

theorem applyOrder (wanted : Ordering → Bool) (left right : ValueOver Code) :
    IsWithinLimit (Machine.applyOrder wanted left right) := by
  refine bind ?_ fun _ ↦ ok _
  unfold compareValues
  split
  · exact ok _
  · exact ok _
  all_goals exact error nofun

theorem applyInts {operation : Int → Int → Except Fault (ValueOver Code)}
    (within : ∀ first second, IsWithinLimit (operation first second)) (left right : ValueOver Code) :
    IsWithinLimit (Machine.applyInts operation left right) :=
  bind (orMismatch _) fun _ ↦ bind (orMismatch _) fun _ ↦ within _ _

theorem divideBy (symbol : String) (operation : Int → Int → Int) (dividend divisor : Int) :
    IsWithinLimit
      (Machine.divideBy symbol operation dividend divisor : Except Fault (ValueOver Code)) := by
  rw [Machine.divideBy]
  split
  · exact error nofun
  · exact exact _ _

theorem remainderBy (symbol : String) (dividend divisor : Int) :
    IsWithinLimit (Machine.remainderBy symbol dividend divisor : Except Fault (ValueOver Code)) := by
  rw [Machine.remainderBy]
  split
  · exact error nofun
  · have quotient : IsWithinLimit (Machine.exact symbol (dividend.tdiv divisor) :
        Except Fault (ValueOver Code)) := exact symbol _
    split
    · next failed => exact failed ▸ quotient
    · exact exact _ _

theorem applyBinary (operator : BinaryOperator) (left right : ValueOver Code) :
    IsWithinLimit (Machine.applyBinary operator left right) := by
  cases operator with
  | equal | unequal => exact ok _
  | and =>
      refine bind (orMismatch _) fun first ↦ ?_
      cases first with
      | false => exact ok _
      | true => exact bind (orMismatch _) fun _ ↦ ok _
  | or =>
      refine bind (orMismatch _) fun first ↦ ?_
      cases first with
      | false => exact bind (orMismatch _) fun _ ↦ ok _
      | true => exact ok _
  | less | atMost | greater | atLeast => exact applyOrder _ _ _
  | add =>
      cases left with
      | str first => exact bind (orMismatch _) fun _ ↦ ok _
      | _ => exact applyInts (fun _ _ ↦ exact _ _) _ _
  | subtract | multiply => exact applyInts (fun _ _ ↦ exact _ _) _ _
  | divide => exact applyInts (divideBy _ _) _ _
  | remainder => exact applyInts (remainderBy _) _ _

/-! ## Operands -/

variable (stack : OperandStack)

theorem pop : IsWithinLimit stack.pop.1 := by
  rw [OperandStack.pop]
  split
  · exact error nofun
  · exact ok _

theorem popAs (convert : Value → Except Mismatch Result) : IsWithinLimit (stack.popAs convert).1 := by
  rw [OperandStack.popAs]
  split
  · exact error nofun
  · exact orMismatch _

theorem popMany (count : Nat) : IsWithinLimit (stack.popMany count).1 := by
  rw [OperandStack.popMany]
  split
  · exact ok _
  · exact error nofun

/-! ## Instructions -/

theorem goOn {outcome : Except Fault Frame} (within : IsWithinLimit outcome) :
    IsWithinLimit (Machine.goOn outcome) :=
  bind within fun _ ↦ ok _

variable (frame : Frame) (world : World)

theorem load (slot : Nat) : IsWithinLimit (Machine.load frame slot) := by
  rw [Machine.load]
  split
  · exact ok _
  · exact error nofun

theorem store (slot : Nat) : IsWithinLimit (Machine.store frame slot) := by
  refine bind (pop _) fun _ ↦ ?_
  split
  · exact ok _
  · exact error nofun

theorem loadField (field : Nat) : IsWithinLimit (Machine.loadField world frame field) := by
  refine bind (pop _) fun _ ↦ bind (bind (orMismatch _) fun _ ↦ ?_) fun _ ↦ ok _
  split
  · exact ok _
  · exact error nofun

theorem assignField (field : Nat) : IsWithinLimit (Machine.assignField world frame field) := by
  refine bind (pop _) fun _ ↦ bind (pop _) fun _ ↦ bind (bind (orMismatch _) fun _ ↦ ?_) fun _ ↦ ok _
  split
  · exact ok _
  · exact error nofun

theorem storeField (field : Nat) : IsWithinLimit (Machine.storeField world frame field).1 := by
  have within := assignField frame world field
  rw [Machine.storeField]
  split
  · next failed => exact error fun same ↦ within (same ▸ failed)
  · exact ok _

theorem index : IsWithinLimit (Machine.index frame) := by
  refine bind (popAs _ _) fun _ ↦ bind (popAs _ _) fun _ ↦ ?_
  split
  · exact ok _
  · exact error nofun

theorem makeClosure (routine : Bytecode.RoutineIndex) (captures : Nat) :
    IsWithinLimit (Machine.makeClosure world frame routine captures).1 := by
  have within := popMany frame.stack captures
  rw [Machine.makeClosure]
  split
  · next failed => exact error fun same ↦ within (by rw [failed, same])
  · exact ok _

theorem iterNext (slot exit : Nat) : IsWithinLimit (Machine.iterNext frame slot exit) := by
  rw [Machine.iterNext]
  split
  · split
    · exact ok _
    · exact ok _
  · exact error nofun
  · exact error nofun

theorem iterStart : IsWithinLimit (Machine.iterStart frame) := by
  refine bind (pop _) fun _ ↦ ?_
  split
  · exact ok _
  · exact ok _
  · exact error nofun

theorem reply_fault {action : HostAction} {arguments : List Value} {fault : Fault}
    (replied : action.reply arguments world = .fault fault) : fault ≠ .tooDeep maxCallDepth := by
  rintro rfl
  unfold HostAction.reply at replied
  split at replied
  case h_12 => exact absurd replied nofun
  all_goals
    simp only [HostAction.extend, ReplyOver.withArgument, ReplyOver.extend, ReplyOver.written]
      at replied
    (repeat' split at replied) <;> cases replied

theorem callHost (program : Program) (imported : Bytecode.ImportIndex) (count : Nat) :
    IsWithinLimit (Machine.callHost program world frame imported count).1 := by
  have within := popMany frame.stack count
  rw [Machine.callHost]
  split
  · next failed => exact error fun same ↦ within (by rw [failed, same])
  · split
    · exact error nofun
    · next host _ =>
        unfold receive
        split
        · exact ok _
        · exact error nofun
        · next replied => exact error (reply_fault world replied)
        · exact ok _

/-- No instruction is a call that exceeds the limit. -/
theorem execute (program : Program) (op : Bytecode.Op) :
    IsWithinLimit (Machine.execute program world frame op).1 := by
  cases op with
  | push | construct | jump => exact ok _
  | load slot => exact goOn (load frame slot)
  | store slot => exact goOn (store frame slot)
  | loadField field => exact goOn (loadField frame world field)
  | storeField field => exact storeField frame world field
  | pop => exact goOn (bind (pop _) fun _ ↦ ok _)
  | unary operator => exact goOn (bind (pop _) fun _ ↦ bind (applyUnary _ _) fun _ ↦ ok _)
  | binary operator =>
      exact goOn (bind (pop _) fun _ ↦ bind (pop _) fun _ ↦ bind (applyBinary _ _ _) fun _ ↦ ok _)
  | makeArray length => exact goOn (bind (popMany _ _) fun _ ↦ ok _)
  | index => exact goOn (index frame)
  | makeClosure routine captures => exact makeClosure frame world routine captures
  | call routine count => exact bind (popMany _ _) fun _ ↦ ok _
  | callClosure count => exact bind (popMany _ _) fun _ ↦ bind (popAs _ _) fun _ ↦ ok _
  | callHost imported count => exact callHost frame world program imported count
  | iterStart => exact iterStart frame
  | iterNext slot exit => exact goOn (iterNext frame slot exit)
  | jumpUnless target =>
      refine goOn (bind (popAs _ _) fun condition ↦ ?_)
      cases condition <;> exact ok _
  | ret => exact bind (pop _) fun _ ↦ ok _

end IsWithinLimit

end GuestScript.Machine
