import GuestScript.Proofs.Compile.Accepted
import GuestScript.Proofs.Machine.Objects

/-!
# Accesses are checked by position

In a compiled program an access to a field of a value of some static type is an instruction on the
position of the field in that type. An object of the type has a field there. An object of another
type may come to the instruction through a value of type `dyn`; then the access goes to the field of
that object at the same position, if there is one. A call of a method on an instance hands over
whatever the receiver is.
-/

namespace GuestScript

namespace Meaning

open Bytecode (Op)
open Compile
open Machine (Program)
open Syntax

variable {program : Program} {references : ReferenceSet} {types : List TypeInfo} {setting : Setting}
  {scope : Scope Nat} {next number start after : Nat} {code : List Op} {outer : Scope Nat}

/-- The definition of the type of this full name has a field of this name at a position. -/
def HasField (program : Program) (fullName name : String) (position : Nat) : Prop :=
  ∃ definition ∈ program.image.types, definition.fullName = fullName ∧
    definition.fields[position]? = some name

/-- The fields of a type are at the same positions in its definition. -/
theorem TypesCode.hasField (code : TypesCode program references types) {fullName name : String}
    {position : Nat} {type : Ty} (found : fieldOf? types fullName name = some (position, type)) :
    HasField program fullName name position := by
  simp only [fieldOf?, typeNamed?, Option.bind_eq_bind, Option.bind_eq_some_iff, Option.pure_def,
    Option.some.injEq, Prod.mk.injEq, List.findIdx?_eq_some_iff_getElem] at found
  obtain ⟨owner, ⟨inside, named, -⟩, info, here, position', ⟨within, called, -⟩, -, -, rfl, -⟩ := found
  obtain ⟨definition, defined, type⟩ := code.type here
  obtain rfl : types[owner] = info := (List.getElem?_eq_some_iff.mp here).2
  refine ⟨definition, Array.mem_of_getElem? defined, ?_, ?_⟩
  · rw [type.name]
    exact of_decide_eq_true named
  · rw [type.fields, List.getElem?_map, List.getElem?_eq_getElem within, Option.map_some]
    exact congrArg some (of_decide_eq_true called)

/-- Reading a field of a value is an instruction on a position that its type gives to the field. -/
theorem ExpressionCode.exists_loadField {target : Expression} {name : Identifier} {span : Span}
    {expected : Option Ty} (whole : TypesCode program references setting.types)
    (given : ExpressionCode program setting scope number (.field target name span) expected start
      code) :
    ∃ fullName position first, typeOf setting.site scope.typing target none = .object fullName ∧
      HasField program fullName name.name position ∧ code = first ++ [.loadField position] := by
  cases given with
  | @field _ _ _ _ _ _ _ _ position _ first _ found =>
      unfold fieldOn? at found
      split at found
      · next fullName same => exact ⟨fullName, position, first, same, whole.hasField found, rfl⟩
      · cases found

/-- Assigning to a field is an instruction on a position that the type gives to the field. -/
theorem StatementCode.exists_storeField {name : Identifier} {value : Expression} {span : Span}
    (whole : TypesCode program references setting.types)
    (given : StatementCode program setting scope next number (.assign (.field name) value span) start
      code outer after) :
    ∃ slot position middle, setting.receiver = some slot ∧
      HasField program setting.ownerName.full name.name position ∧
      code = [.load slot] ++ middle ++ [.storeField position] := by
  cases given with
  | assignField receiver found _ _ => exact ⟨_, _, _, receiver, whole.hasField found, rfl⟩

/-- Calling a method of a value is an instruction on the routine of the method, which takes the value
before the arguments. -/
theorem ExpressionCode.exists_call {target : Expression} {name : Identifier}
    {values : List Expression} {span : Span} {expected : Option Ty}
    (whole : TypesCode program references setting.types)
    (given : ExpressionCode program setting scope number (.method target name values span) expected
      start code) :
    ∃ fullName first index callee, typeOf setting.site scope.typing target none = .object fullName ∧
      program.image.routines[index]? = some callee ∧ callee.binding = .onInstance ∧
      callee.arity = values.length + 1 ∧ code = first ++ [.call index (values.length + 1)] := by
  cases given with
  | @method _ _ _ _ _ _ _ _ _ owner method before arguments _ found member count _ =>
      unfold methodOn? at found
      split at found
      · next fullName same =>
          simp only [Option.bind_eq_bind, Option.bind_eq_some_iff, Option.pure_def,
            Option.some.injEq, Prod.mk.injEq] at found
          obtain ⟨owner, -, method, known, rfl, rfl⟩ := found
          obtain ⟨info, here, inside⟩ := isMember_of_methodOf known
          obtain ⟨definition, -, type⟩ := whole.type here
          cases type.method method inside with
          | mk routine _ _ _ =>
              refine ⟨fullName, before ++ arguments, method.routine, _, same, routine, ?_, ?_, rfl⟩
              · exact if_neg (Bool.eq_false_iff.mp member)
              · change method.parameters.length + (if method.isStatic then 0 else 1) = _
                rw [if_neg (Bool.eq_false_iff.mp member), count]
      · cases found

end Meaning

namespace Compile

open Bytecode (Op Routine RoutineIndex TypeDefinition TypeIndex)
open Machine
open Meaning
open Syntax

/-- In a program of these types, an access to a member of a value of a static type is an instruction
on a position or a routine of that type. The instruction looks at nothing of an object but the number
of its fields, which is that of the type it was made for. -/
structure ChecksPositions (program : Program) (types : List TypeInfo) : Prop where
  reads : ∀ {setting : Setting} {scope : Scope Nat} {number start : Nat} {target : Expression}
    {name : Identifier} {span : Span} {expected : Option Ty} {code : List Op},
    setting.types = types →
    ExpressionCode program setting scope number (.field target name span) expected start code →
    ∃ fullName position first, typeOf setting.site scope.typing target none = .object fullName ∧
      HasField program fullName name.name position ∧ code = first ++ [.loadField position]
  writes : ∀ {setting : Setting} {scope outer : Scope Nat} {next number start after : Nat}
    {name : Identifier} {value : Expression} {span : Span} {code : List Op},
    setting.types = types →
    StatementCode program setting scope next number (.assign (.field name) value span) start code
      outer after →
    ∃ slot position middle, setting.receiver = some slot ∧
      HasField program setting.ownerName.full name.name position ∧
      code = [.load slot] ++ middle ++ [.storeField position]
  calls : ∀ {setting : Setting} {scope : Scope Nat} {number start : Nat} {target : Expression}
    {name : Identifier} {values : List Expression} {span : Span} {expected : Option Ty}
    {code : List Op}, setting.types = types →
    ExpressionCode program setting scope number (.method target name values span) expected start
      code →
    ∃ fullName first index callee, typeOf setting.site scope.typing target none = .object fullName ∧
      program.image.routines[index]? = some callee ∧ callee.binding = .onInstance ∧
      callee.arity = values.length + 1 ∧ code = first ++ [.call index (values.length + 1)]
  makes : ∀ {type : TypeIndex} {waiting : List Waiting} {world : World} {next : State},
    step program ⟨.construct type, waiting, world⟩ = .running next →
    ∃ reference definition, reference.type = type ∧ Keeps program next.world reference definition ∧
      (next.control = .answer (.object reference) ∨
        ∃ index, next.control = .call index [.object reference])
  keeps : ∀ {state last : State} {reference : Reference} {definition : TypeDefinition},
    Reaches program state last → Keeps program state.world reference definition →
    Keeps program last.world reference definition
  loads : ∀ {world : World} {reference : Reference} {definition : TypeDefinition} {routine : Routine}
    {position field : Nat} {locals : Array Value} {rest : List Value} {waiting : List Waiting},
    Keeps program world reference definition →
    routine.code[position]? = some (.loadField field) →
    (field < definition.fields.length ∧ ∃ value, (world.fields reference)[field]? = some value ∧
      step program ⟨.run ⟨routine, position, locals, ⟨.object reference :: rest⟩⟩, waiting, world⟩
        = .running ⟨.run ⟨routine, position + 1, locals, ⟨value :: rest⟩⟩, waiting, world⟩) ∨
    (definition.fields.length ≤ field ∧
      step program ⟨.run ⟨routine, position, locals, ⟨.object reference :: rest⟩⟩, waiting, world⟩
        = .ended ⟨.error (.missingField definition.fullName field), world⟩)
  stores : ∀ {world : World} {reference : Reference} {definition : TypeDefinition}
    {routine : Routine} {position field : Nat} {locals : Array Value} {value : Value}
    {rest : List Value} {waiting : List Waiting}, Keeps program world reference definition →
    routine.code[position]? = some (.storeField field) →
    step program
        ⟨.run ⟨routine, position, locals, ⟨value :: .object reference :: rest⟩⟩, waiting, world⟩
      = if field < definition.fields.length then
          .running ⟨.run ⟨routine, position + 1, locals, ⟨rest⟩⟩, waiting,
            world.setField reference field value⟩
        else .ended ⟨.error (.missingField definition.fullName field), world⟩
  others : ∀ {world : World} {routine : Routine} {position field : Nat} {locals : Array Value}
    {target : Value} {rest : List Value} {waiting : List Waiting} {mismatch : Mismatch},
    target.toReference = .error mismatch →
    (routine.code[position]? = some (.loadField field) →
      step program ⟨.run ⟨routine, position, locals, ⟨target :: rest⟩⟩, waiting, world⟩
        = .ended ⟨.error (.typeMismatch mismatch), world⟩) ∧
    ∀ value, routine.code[position]? = some (.storeField field) →
      step program ⟨.run ⟨routine, position, locals, ⟨value :: target :: rest⟩⟩, waiting, world⟩
        = .ended ⟨.error (.typeMismatch mismatch), world⟩
  hands : ∀ {world : World} {routine callee : Routine} {position : Nat} {locals : Array Value}
    {rest values : List Value} {waiting : List Waiting} {index : RoutineIndex},
    routine.code[position]? = some (.call index values.length) →
    program.image.routines[index]? = some callee → values.length = callee.arity →
    callDepth waiting + 1 < maxCallDepth →
    Takes program 2
      ⟨.run ⟨routine, position, locals, ⟨values.reverse ++ rest⟩⟩, waiting, world⟩
      ⟨.run (.enter callee values), .routine ⟨routine, position + 1, locals, ⟨rest⟩⟩ :: waiting,
        world⟩

variable {program : Program} {references : ReferenceSet} {types : List TypeInfo} {file : File}
  {table : ModuleTable} {source : SourceUnit}

theorem checksPositions_of_code (code : TypesCode program references types) :
    ChecksPositions program types where
  reads same given := ExpressionCode.exists_loadField (same ▸ code) given
  writes same given := StatementCode.exists_storeField (same ▸ code) given
  calls same given := ExpressionCode.exists_call (same ▸ code) given
  makes := exists_keeps_of_construct
  keeps reached kept := kept.mono reached.lastsTo
  loads kept here := kept.step_loadField here
  stores kept here := kept.step_storeField here
  others other :=
    ⟨fun here ↦ step_loadField_of_mismatch here other,
      fun _ here ↦ step_storeField_of_mismatch here other⟩
  hands here found fits shallow := takes_call here found fits shallow

/-- Whatever a source text is compiled to checks its accesses by position. -/
theorem LinkedFrom.checksPositions (linked : LinkedFrom references table source file program) :
    ChecksPositions program (typesOf references file) :=
  checksPositions_of_code linked.compiledFrom.code

/-- A program that reads a field of an object of one type as that of another, and so answers a truth
value from a function to numbers. -/
def disguisedSource : SourceUnit :=
  ⟨"type B{field y:bool;}" ++
    "type A{field x:int;static fn main(p:[str])->int{let d:dyn=new B();let a:A=d;return a.x;}}",
    .v2⟩

theorem LinkedFrom.checksPositions_disguised : ∃ file program,
    LinkedFrom (Resolver.ofTable .standard []) .standard disguisedSource file program ∧
      (run program 100 ⟨.call 0 [.array []], [], .fresh .empty⟩).map
        (fun ending ↦ ending.result.toOption.map ValueOver.kind) = some (some .bool) ∧
      ChecksPositions program (typesOf (Resolver.ofTable .standard []) file) := by
  let answers : File × EntryPoint × Program → Bool := fun (_, _, program) ↦
    (run program 100 ⟨.call 0 [.array []], [], .fresh .empty⟩).map
      (fun ending ↦ ending.result.toOption.map ValueOver.kind) = some (some .bool)
  have passes : (build? (Resolver.ofTable .standard []) .standard disguisedSource).any answers
      = true := by
    decide +kernel
  obtain ⟨file, entry, program, built, passes⟩ := exists_built_of_any passes
  exact ⟨file, program, built.linkedFrom, of_decide_eq_true passes, built.linkedFrom.checksPositions⟩

end Compile

end GuestScript
