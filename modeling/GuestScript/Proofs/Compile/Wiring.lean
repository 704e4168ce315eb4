import GuestScript.Proofs.Compile.Accepted
import GuestScript.Proofs.Compile.Closures
import GuestScript.Proofs.Machine.Copies

/-!
# Closures are wired

In a compiled program every use of a variable in the text, at any depth of lambdas, is an instruction
on the slot that belongs to the variable. In a lambda, that is the slot of a copy for a variable from
outside, and what is loaded for the copy when the closure is made is the slot that belongs to the same
variable there. At run time the copies come in the order in which they were loaded, in a frame of
their own.
-/

namespace GuestScript

/-- What an instruction does with the variable that its slot belongs to. -/
def Bytecode.Op.use? (held : Nat → Meaning.Binder) : Bytecode.Op → Option Meaning.Use
  | .load slot => some (.read (held slot))
  | .store slot => some (.write (held slot))
  | .iterNext slot _ => some (.advance (held slot))
  | _ => none

namespace Meaning

open Bytecode (Op)
open Machine (Program)

variable {program : Program} {depth : Nat} {held : Nat → Binder} {slots : List Nat}
  {code : List Op} {uses : List Use} {use : Use} {binder : Binder}

/-- A use is what some instruction does, or makes a closure. -/
theorem Carries.exists_op (carries : Carries program depth held code uses) (inside : use ∈ uses) :
    (∃ op ∈ code, op.use? held = some use) ∨
      ∃ parameters inner, use = .closure parameters inner := by
  induction carries with
  | nothing => cases inside
  | read | write | advance =>
      cases List.mem_singleton.mp inside
      exact .inl ⟨_, List.mem_singleton_self _, rfl⟩
  | closure => exact .inr ⟨_, _, List.mem_singleton.mp inside⟩
  | append _ _ ih ih' =>
      rcases List.mem_append.mp inside with inside | inside
      · exact (ih inside).imp_left fun ⟨op, member, does⟩ ↦
          ⟨op, List.mem_append_left _ member, does⟩
      · exact (ih' inside).imp_left fun ⟨op, member, does⟩ ↦
          ⟨op, List.mem_append_right _ member, does⟩

/-- A variable from outside that a lambda reads is loaded from the slot of a copy. -/
theorem Carries.exists_copy_of_read
    (carries : Carries program (depth + 1) (capturing held slots depth) code uses)
    (read : .read binder ∈ uses) (outer : binder.depth ≤ depth) :
    ∃ slot copied, .load slot ∈ code ∧ slots[slot]? = some copied ∧ held copied = binder := by
  rcases carries.exists_op read with ⟨op, inside, does⟩ | ⟨_, _, same⟩
  · cases op with
    | load slot =>
        obtain rfl := Use.read.inj (Option.some.inj does)
        obtain ⟨copied, found, same⟩ := exists_copy_of_depth_le outer
        exact ⟨slot, copied, inside, found, same⟩
    | _ => cases does
  · cases same

/-- A variable from outside that a lambda assigns to is stored to the slot of a copy. -/
theorem Carries.exists_copy_of_write
    (carries : Carries program (depth + 1) (capturing held slots depth) code uses)
    (written : .write binder ∈ uses) (outer : binder.depth ≤ depth) :
    ∃ slot copied, .store slot ∈ code ∧ slots[slot]? = some copied ∧ held copied = binder := by
  rcases carries.exists_op written with ⟨op, inside, does⟩ | ⟨_, _, same⟩
  · cases op with
    | store slot =>
        obtain rfl := Use.write.inj (Option.some.inj does)
        obtain ⟨copied, found, same⟩ := exists_copy_of_depth_le outer
        exact ⟨slot, copied, inside, found, same⟩
    | _ => cases does
  · cases same

end Meaning

namespace Compile

open Bytecode (Op Routine RoutineIndex TypeIndex)
open Machine
open Meaning
open Syntax (File)

/-- What the routines of these types do with slots is what the text does with variables, and closures
hand over the copies that their lambdas expect. -/
structure WiresClosures (program : Program) (references : ReferenceSet) (types : List TypeInfo) :
    Prop where
  functions : ∀ {owner : TypeIndex} {info : TypeInfo} {method : MethodInfo},
    types[owner]? = some info → method ∈ info.methods →
    ∃ routine, program.image.routines[method.routine]? = some routine ∧
      Carries program 0 (Binder.mk 0) routine.code.toList
        (usesInMethod references types owner info method)
  fields : ∀ {owner : TypeIndex} {info : TypeInfo}, types[owner]? = some info → info.fields ≠ [] →
    ∃ definition index routine, program.image.types[owner]? = some definition ∧
      definition.initializer = some index ∧ program.image.routines[index]? = some routine ∧
      Carries program 0 (Binder.mk 0) routine.code.toList
        (usesInFields references types owner info)
  distinct : Distinct 0 (Binder.mk 0) ∧
    ∀ {depth : Nat} {held : Nat → Binder} {slots : List Nat}, Distinct depth held →
      slots.Nodup → Distinct (depth + 1) (capturing held slots depth)
  copies : ∀ {depth : Nat} {held : Nat → Binder} {slots : List Nat} {code : List Op}
    {uses : List Use} {binder : Binder},
    Carries program (depth + 1) (capturing held slots depth) code uses → binder.depth ≤ depth →
    (.read binder ∈ uses →
      ∃ slot copied, .load slot ∈ code ∧ slots[slot]? = some copied ∧ held copied = binder) ∧
    (.write binder ∈ uses →
      ∃ slot copied, .store slot ∈ code ∧ slots[slot]? = some copied ∧ held copied = binder)
  makes : ∀ {routine : Routine} {position : Nat} {locals : Array Value} {stack : List Value}
    {waiting : List Waiting} {world : World} {last : State} {index : RoutineIndex}
    {slots : List Nat},
    routine.HasAt position (slots.map .load ++ [.makeClosure index slots.length]) →
    Takes program (slots.length + 1)
      ⟨.run ⟨routine, position, locals, ⟨stack⟩⟩, waiting, world⟩ last →
    ∃ values : List Value, slots.map (locals[·]?) = values.map some ∧
      last = ⟨.run ⟨routine, position + slots.length + 1, locals,
          ⟨.closure (world.makeClosure index values).1 :: stack⟩⟩, waiting,
        (world.makeClosure index values).2⟩
  hands : ∀ {routine : Routine} {closure : Closure} {arguments : List Value}
    {waiting : List Waiting} {world : World} {next : State},
    program.image.routines[closure.routine]? = some routine → routine.arity ≤ routine.locals →
    step program ⟨callClosure closure arguments, waiting, world⟩ = .running next →
    ∃ frame, next = ⟨.run frame, waiting, world⟩ ∧ frame.routine = routine ∧
      (closure.captures ++ arguments).length = routine.arity ∧
      ∀ slot < routine.arity, frame.locals[slot]? = (closure.captures ++ arguments)[slot]?
  spares : ∀ {control : Control} {base : List Waiting} {world : World} {last : State},
    Reaches program ⟨control, base, world⟩ last →
    (∃ top, last.waiting = top ++ base) ∨
      ∃ value after, Reaches program ⟨control, base, world⟩ ⟨.answer value, base, after⟩ ∧
        Reaches program ⟨.answer value, base, after⟩ last

variable {program : Program} {references : ReferenceSet} {types : List TypeInfo} {file : File}
  {table : ModuleTable} {source : SourceUnit} {owner : TypeIndex} {info : TypeInfo}

/-- The fields of a type get their first values from a routine that does what their text does. -/
theorem exists_initializer (code : TypesCode program references types)
    (here : types[owner]? = some info) (some' : info.fields ≠ []) :
    ∃ definition index routine, program.image.types[owner]? = some definition ∧
      definition.initializer = some index ∧ program.image.routines[index]? = some routine ∧
      Carries program 0 (Binder.mk 0) routine.code.toList
        (usesInFields references types owner info) := by
  obtain ⟨definition, found, type⟩ := code.type here
  have given := type.initializer
  cases starts : definition.initializer with
  | none =>
      rw [starts] at given
      exact absurd given some'
  | some index =>
      rw [starts] at given
      obtain ⟨-, routine, inside⟩ := given
      exact ⟨definition, index, _, found, starts, routine, (carries_fields _ inside).behind rfl⟩

/-- A compiled program makes its closures from what their lambdas use. -/
theorem wiresClosures_of_code (code : TypesCode program references types) :
    WiresClosures program references types where
  functions here member := by
    obtain ⟨_, -, type⟩ := code.type here
    exact carries_method (type.method _ member)
  fields here some' := exists_initializer code here some'
  distinct := ⟨.own, Distinct.capturing⟩
  copies carries outer :=
    ⟨fun read ↦ carries.exists_copy_of_read read outer,
      fun written ↦ carries.exists_copy_of_write written outer⟩
  makes := exists_values_of_makeClosure
  hands := exists_frame_of_callClosure
  spares := Reaches.above_or_answered

/-- Whatever a source text is compiled to makes its closures from what their lambdas use. -/
theorem LinkedFrom.wiresClosures (linked : LinkedFrom references table source file program) :
    WiresClosures program references (typesOf references file) :=
  wiresClosures_of_code linked.compiledFrom.code

/-- A program whose only lambda gives a local variable from outside. -/
def capturingSource : SourceUnit :=
  ⟨"type P { static fn main(args: [str]) { let f = |x| args; } }", .v2⟩

theorem LinkedFrom.wiresClosures_capturing : ∃ file program,
    LinkedFrom (Resolver.ofTable .standard []) .standard capturingSource file program ∧
      (∃ routine ∈ program.image.routines, routine.binding = .closure 1) ∧
      WiresClosures program (Resolver.ofTable .standard [])
        (typesOf (Resolver.ofTable .standard []) file) := by
  let copies : File × EntryPoint × Program → Bool := fun (_, _, program) ↦
    program.image.routines.any fun routine ↦ routine.binding = .closure 1
  have passes : (build? (Resolver.ofTable .standard []) .standard capturingSource).any copies
      = true := by
    decide +kernel
  obtain ⟨file, entry, program, built, passes⟩ := exists_built_of_any passes
  obtain ⟨routine, inside, binding⟩ : ∃ routine ∈ program.image.routines,
      routine.binding = .closure 1 := by
    simpa only [copies, Array.any_eq_true', decide_eq_true_eq] using passes
  exact ⟨file, program, built.linkedFrom, ⟨routine, inside, binding⟩,
    built.linkedFrom.wiresClosures⟩

end Compile

end GuestScript
