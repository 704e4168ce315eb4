import GuestScript.Proofs.Compile.Captures
import GuestScript.Proofs.Compile.Scopes

/-!
# Closures hold what lambdas use

While the names in scope mean the variables of the text, the code of an expression or a statement
carries what the text does with variables, by induction over the text. A statement takes a slot for
each of its variables, so the names in scope mean the variables of the text behind it too, and in a
lambda they do because everything that it mentions has been copied.
-/

namespace GuestScript.Meaning

open Bytecode (Op Routine RoutineIndex)
open Compile
open Machine (Program)
open Syntax

variable {program : Program} {mentioned : String → Prop} {held : Nat → Binder} {setting : Setting}
  {standpoint : Standpoint} {scope inner : Scope Nat} {names : Scope Binder}
  {next middle after index number start : Nat} {code : List Op}

/-! ## Numbers of slots -/

mutual

/-- A block takes a slot for each of its variables. -/
theorem next_of_blockCode : (block : Block) → {scope : Scope Nat} →
    {next number start after : Nat} → {code : List Op} →
    BlockCode program setting scope next number block start code after →
    after = next + bindersInBlock block
  | .mk body _, _, _, _, _, _, _, .mk inside => next_of_statementsCode body inside
termination_by structural block => block

theorem next_of_statementsCode : (statements : List Statement) → {scope inner : Scope Nat} →
    {next number start middle : Nat} → {code : List Op} →
    StatementsCode program setting scope next number statements start code inner middle →
    middle = next + bindersInStatements statements
  | [], _, _, _, _, _, _, _, .nil => rfl
  | first :: rest, _, _, _, _, _, _, _, .cons first' rest' => by
      rw [next_of_statementsCode rest rest', next_of_statementCode first first',
        bindersInStatements, Nat.add_assoc]
termination_by structural statements => statements

theorem next_of_statementCode : (statement : Statement) → {scope inner : Scope Nat} →
    {next number start middle : Nat} → {code : List Op} →
    StatementCode program setting scope next number statement start code inner middle →
    middle = next + bindersInStatement statement
  | .declare _ _ _ _, _, _, _, _, _, _, _, .declare .. => rfl
  | .assign _ _ _, _, _, _, _, _, _, _, translated => by cases translated <;> rfl
  | .forEach _ _ body _, _, _, _, _, _, _, _, .forEach _ _ inside => by
      rw [next_of_blockCode body inside, bindersInStatement, Nat.add_assoc,
        Nat.add_comm 2]
  | .whileLoop _ body _, _, _, _, _, _, _, _, .whileLoop _ _ inside =>
      next_of_blockCode body inside
  | .conditional _ body other _, _, _, _, _, _, _, _, translated => by
      cases translated with
      | ifTrue _ _ inside => exact next_of_blockCode body inside
      | ifElse _ _ _ inside instead =>
          rw [next_of_alternativeCode other instead, next_of_blockCode body inside,
            bindersInStatement, Nat.add_assoc]
  | .returns none _, _, _, _, _, _, _, _, .returnNothing _ => rfl
  | .returns (some _) _, _, _, _, _, _, _, _, .returnValue .. => rfl
  | .evaluate _, _, _, _, _, _, _, _, .evaluate _ => rfl
termination_by structural statement => statement

theorem next_of_alternativeCode : (other : Alternative) → {scope : Scope Nat} →
    {next number start after : Nat} → {code : List Op} →
    AlternativeCode program setting scope next number other start code after →
    after = next + bindersInAlternative other
  | .absent, _, _, _, _, _, _, translated => by cases translated
  | .block body, _, _, _, _, _, _, .block inside => next_of_blockCode body inside
  | .chain conditional, _, _, _, _, _, _, .chain inside =>
      next_of_statementCode conditional inside
termination_by structural other => other

end

namespace Reflects

/-- Behind a statement, the names in scope mean the variables that are in scope there. -/
theorem behind (reflects : Reflects mentioned held setting standpoint scope names next index)
    {statement : Statement}
    (translated : StatementCode program setting scope next number statement start code inner
      middle) :
    Reflects mentioned held setting standpoint inner (standpoint.behind index statement names)
      middle (index + bindersInStatement statement) := by
  have numbered := next_of_statementCode statement translated
  cases translated with
  | declare => exact reflects.declare _ _
  | _ =>
      rw [numbered]
      exact reflects.skip _

/-- A simple name that is called refers to what it means in the text. -/
theorem calleeUses_name (reflects : Reflects mentioned held setting standpoint scope names next index)
    {name : Identifier} {callee : Callable Nat} (needed : mentioned name.name)
    (found : callable? setting.site scope [name] = some callee) :
    standpoint.calleeUses names [name] = standpoint.usesOf (callee.hold held) := by
  rw [Standpoint.calleeUses]
  cases present : scope.named? name.name with
  | some present' =>
      rw [callable?, present] at found
      cases found
      obtain ⟨bound, meant, same⟩ := reflects.found present
      rw [callable?, meant]
      exact congrArg (fun binder ↦ [Use.read binder]) same
  | none =>
      rw [callable?, present] at found
      rw [callable?, reflects.absent needed present]
      obtain ⟨method, member, rfl⟩ := Option.map_eq_some_iff.mp found
      have same : methodOf? standpoint.site.types standpoint.site.owner name.name = some method := by
        rw [← reflects.sees]
        exact member
      simp only [same]
      rfl

/-- A function of a type or a host module that is called is that of the text. -/
theorem calleeUses_qualified
    (reflects : Reflects mentioned held setting standpoint scope names next index)
    {qualifier function : Identifier} {callee : Callable Nat}
    (found : callable? setting.site scope [qualifier, function] = some callee) :
    standpoint.calleeUses names [qualifier, function] = standpoint.usesOf (callee.hold held) := by
  have same : callable? standpoint.site names [qualifier, function]
      = (callable? setting.site scope [qualifier, function]).map (Callable.hold held) := by
    rw [← callable?_hold, ← reflects.sees, callable?, callable?]
    rfl
  rw [Standpoint.calleeUses, same, found]
  rfl

/-- What is used to find what is called. -/
theorem calleeUses (reflects : Reflects mentioned held setting standpoint scope names next index)
    {callee : Callable Nat} : {segments : List Identifier} →
    (∀ name ∈ Mentions.inPath [] segments, mentioned name) →
    callable? setting.site scope segments = some callee →
    standpoint.calleeUses names segments = standpoint.usesOf (callee.hold held)
  | [name], covers, found =>
      reflects.calleeUses_name (covers name.name (Mentions.mem_insert.mpr (.inl rfl))) found
  | [_, _], _, found => reflects.calleeUses_qualified found

end Reflects

/-! ## Bodies -/

/-- The closure of a lambda is made with the copies that its routine expects. -/
theorem Carries.lambda {depth parameters locals : Nat} {copies : Scope Nat} {lambda : Lambda}
    {uses : List Use} (once : (copies.map Variable.holder).Nodup)
    (copied : lambda.copies.length = copies.length)
    (arity : lambda.arity = copies.length + parameters) (fits : lambda.arity ≤ locals)
    (found : program.image.routines[index]? = some (lambda.routine code locals))
    (inside : Carries program (depth + 1) (capturing held (copies.map Variable.holder) depth) code
      uses) :
    Carries program depth held
      (copies.map (fun copy ↦ .load copy.holder) ++ [.makeClosure index copies.length])
      [.closure parameters uses] := by
  have length : (copies.map Variable.holder).length = copies.length := List.length_map _
  have loads : copies.map (fun copy ↦ Op.load copy.holder)
      = (copies.map Variable.holder).map .load := (List.map_map ..).symm
  have whole : Carries program (depth + 1) _ (code ++ epilogue) uses := inside.behind rfl
  rw [← length] at copied arity ⊢
  rw [loads]
  exact .closure once found (congrArg _ copied) arity fits whole

mutual

/-- The code of an expression does with variables what the expression does. -/
theorem carries_expression : (value : Expression) → {mentioned : String → Prop} →
    {held : Nat → Binder} → {setting : Setting} → {standpoint : Standpoint} → {scope : Scope Nat} →
    {names : Scope Binder} → {next index number : Nat} → {expected : Option Ty} → {start : Nat} →
    {code : List Op} → Reflects mentioned held setting standpoint scope names next index →
    (∀ name ∈ Mentions.inExpression [] value, mentioned name) →
    ExpressionCode program setting scope number value expected start code →
    Carries program standpoint.depth held code (usesIn standpoint names value)
  | .int .., _, _, _, _, _, _, _, _, _, _, _, _, _, _, translated
  | .str .., _, _, _, _, _, _, _, _, _, _, _, _, _, _, translated
  | .bool .., _, _, _, _, _, _, _, _, _, _, _, _, _, _, translated
  | .construct .., _, _, _, _, _, _, _, _, _, _, _, _, _, _, translated => by
      cases translated
      exact .nothing rfl
  | .receiver _, _, _, _, _, _, _, _, _, _, _, _, _, reflects, _, .receiver here => by
      rw [usesIn, Standpoint.receiverUses, reflects.receiver here]
      exact .read
  | .path _ _, _, _, _, _, _, _, _, _, _, _, _, _, reflects, _, .path found => by
      obtain ⟨bound, meant, same⟩ := reflects.found found
      rw [usesIn]
      simp only [meant, Option.map_some, Option.toList_some, same]
      exact .read
  | .array items _, _, _, _, _, _, _, _, _, _, _, _, _, reflects, covers, .array inside =>
      (carries_items items reflects covers inside).behind rfl
  | .call callee arguments _, _, _, _, _, _, _, _, _, _, _, _, _, reflects, covers, translated => by
      obtain ⟨before, covers'⟩ := (Mentions.collects_inExpressions arguments).forall_mem covers
      obtain ⟨-, covers⟩ := (Mentions.collects_inExpression callee).forall_mem before
      cases translated with
      | callVariable found _ inside =>
          rw [usesIn, reflects.calleeUses covers found]
          exact (Carries.read.append (carries_arguments arguments reflects covers' inside)).behind rfl
      | callStatic found isStatic _ inside =>
          rw [usesIn, reflects.calleeUses covers found, Callable.hold, Standpoint.usesOf,
            if_pos isStatic]
          exact (carries_arguments arguments reflects covers' inside).behind rfl
      | callOwn found notStatic _ here _ inside =>
          rw [usesIn, reflects.calleeUses covers found, Callable.hold, Standpoint.usesOf, notStatic,
            Standpoint.receiverUses, reflects.receiver here]
          exact (Carries.read.append (carries_arguments arguments reflects covers' inside)).behind rfl
      | callHost found _ _ inside =>
          rw [usesIn, reflects.calleeUses covers found]
          exact (carries_arguments arguments reflects covers' inside).behind rfl
      | callValue noPath first _ inside =>
          rw [usesIn]
          · exact ((carries_expression callee reflects covers first).append
              (carries_arguments arguments reflects covers' inside)).behind rfl
          · exact noPath
  | .method target _ arguments _, _, _, _, _, _, _, _, _, _, _, _, _, reflects, covers,
      .method first _ _ _ inside => by
      obtain ⟨covers, covers'⟩ := (Mentions.collects_inExpressions arguments).forall_mem covers
      exact ((carries_expression target reflects covers first).append
        (carries_arguments arguments reflects covers' inside)).behind rfl
  | .field target _ _, _, _, _, _, _, _, _, _, _, _, _, _, reflects, covers, .field inside _ =>
      (carries_expression target reflects covers inside).behind rfl
  | .element target position _, _, _, _, _, _, _, _, _, _, _, _, _, reflects, covers,
      .element first _ second _ => by
      obtain ⟨covers, covers'⟩ := (Mentions.collects_inExpression position).forall_mem covers
      exact ((carries_expression target reflects covers first).append
        (carries_expression position reflects covers' second)).behind rfl
  | .lambda parameters body _, _, _, _, _, _, _, _, _, _, _, _, _, reflects, covers, translated => by
      cases translated with
      | @lambda _ _ _ _ _ _ _ _ _ copies same compiled =>
          obtain ⟨found, inside⟩ := compiled
          have once := same ▸ reflects.nodup_captures parameters body
          have inner := carries_body body (reflects.inLambda same covers) (fun _ ↦ id) inside
          rw [usesIn]
          exact .lambda once (List.length_map _) (arity_of_copies ..) (slots_of_bodyCode inside).1
            found inner
  | .unary _ operand _, _, _, _, _, _, _, _, _, _, _, _, _, reflects, covers, .unary inside _ =>
      (carries_expression operand reflects covers inside).behind rfl
  | .binary _ left right _, _, _, _, _, _, _, _, _, _, _, _, _, reflects, covers, translated => by
      have apart : (∀ name ∈ Mentions.inExpression [] left, _) ∧ _ :=
        (Mentions.collects_inExpression right).forall_mem covers
      cases translated with
      | and first _ second _ =>
          exact (((carries_expression left reflects apart.1 first).behind rfl).append
            (carries_expression right reflects apart.2 second)).behind rfl
      | or first _ second _ =>
          exact ((carries_expression left reflects apart.1 first).behind rfl).append
            (carries_expression right reflects apart.2 second)
      | binary _ _ first second _ =>
          exact ((carries_expression left reflects apart.1 first).append
            (carries_expression right reflects apart.2 second)).behind rfl
termination_by structural value => value

theorem carries_items : (items : List Expression) → {mentioned : String → Prop} →
    {held : Nat → Binder} → {setting : Setting} → {standpoint : Standpoint} → {scope : Scope Nat} →
    {names : Scope Binder} → {next index number : Nat} → {wanted : Option Ty} → {start : Nat} →
    {code : List Op} → Reflects mentioned held setting standpoint scope names next index →
    (∀ name ∈ Mentions.inExpressions [] items, mentioned name) →
    ItemsCode program setting scope number items wanted start code →
    Carries program standpoint.depth held code (usesInAll standpoint names items)
  | [], _, _, _, _, _, _, _, _, _, _, _, _, _, _, .nil => .nothing rfl
  | item :: rest, _, _, _, _, _, _, _, _, _, _, _, _, reflects, covers, translated => by
      obtain ⟨covers, covers'⟩ := (Mentions.collects_inExpressions rest).forall_mem covers
      cases translated with
      | first first others | cons first _ others =>
          exact (carries_expression item reflects covers first).append
            (carries_items rest reflects covers' others)
termination_by structural items => items

theorem carries_arguments : (arguments : List Expression) → {mentioned : String → Prop} →
    {held : Nat → Binder} → {setting : Setting} → {standpoint : Standpoint} → {scope : Scope Nat} →
    {names : Scope Binder} → {next index number : Nat} → {parameters : List Ty} →
    {binding : Option Ty} → {start : Nat} → {code : List Op} →
    Reflects mentioned held setting standpoint scope names next index →
    (∀ name ∈ Mentions.inExpressions [] arguments, mentioned name) →
    ArgumentsCode program setting scope number arguments parameters binding start code →
    Carries program standpoint.depth held code (usesInAll standpoint names arguments)
  | [], _, _, _, _, _, _, _, _, _, _, _, _, _, _, _, .nil => .nothing rfl
  | argument :: rest, _, _, _, _, _, _, _, _, _, _, _, _, _, reflects, covers, translated => by
      obtain ⟨covers, covers'⟩ := (Mentions.collects_inExpressions rest).forall_mem covers
      cases translated with
      | beyond first others | cons first _ others =>
          exact (carries_expression argument reflects covers first).append
            (carries_arguments rest reflects covers' others)
termination_by structural arguments => arguments

theorem carries_body : (body : LambdaBody) → {mentioned : String → Prop} →
    {held : Nat → Binder} → {setting : Setting} → {standpoint : Standpoint} → {scope : Scope Nat} →
    {names : Scope Binder} → {next index number : Nat} → {code : List Op} → {after : Nat} →
    Reflects mentioned held setting standpoint scope names next index →
    (∀ name ∈ Mentions.inLambda [] body, mentioned name) →
    BodyCode program setting scope next number body code after →
    Carries program standpoint.depth held code (usesInBody standpoint names index body)
  | .expression value, _, _, _, _, _, _, _, _, _, _, _, reflects, covers, .expression inside _ =>
      (carries_expression value reflects covers inside).behind rfl
  | .block body, _, _, _, _, _, _, _, _, _, _, _, reflects, covers, .block inside =>
      carries_block body reflects covers inside
termination_by structural body => body

theorem carries_block : (block : Block) → {mentioned : String → Prop} →
    {held : Nat → Binder} → {setting : Setting} → {standpoint : Standpoint} → {scope : Scope Nat} →
    {names : Scope Binder} → {next index number start : Nat} → {code : List Op} → {after : Nat} →
    Reflects mentioned held setting standpoint scope names next index →
    (∀ name ∈ Mentions.inBlock [] block, mentioned name) →
    BlockCode program setting scope next number block start code after →
    Carries program standpoint.depth held code (usesInBlock standpoint names index block)
  | .mk body _, _, _, _, _, _, _, _, _, _, _, _, _, reflects, covers, .mk inside =>
      carries_statements body reflects covers inside
termination_by structural block => block

theorem carries_statements : (statements : List Statement) → {mentioned : String → Prop} →
    {held : Nat → Binder} → {setting : Setting} → {standpoint : Standpoint} →
    {scope inner : Scope Nat} → {names : Scope Binder} → {next index number start : Nat} →
    {code : List Op} → {after : Nat} →
    Reflects mentioned held setting standpoint scope names next index →
    (∀ name ∈ Mentions.inStatements [] statements, mentioned name) →
    StatementsCode program setting scope next number statements start code inner after →
    Carries program standpoint.depth held code (usesInStatements standpoint names index statements)
  | [], _, _, _, _, _, _, _, _, _, _, _, _, _, _, _, .nil => .nothing rfl
  | first :: rest, _, _, _, _, _, _, _, _, _, _, _, _, _, reflects, covers, .cons first' rest' => by
      obtain ⟨covers, covers'⟩ := (Mentions.collects_inStatements rest).forall_mem covers
      exact (carries_statement first reflects covers first').append
        (carries_statements rest (reflects.behind first') covers' rest')
termination_by structural statements => statements

theorem carries_statement : (statement : Statement) → {mentioned : String → Prop} →
    {held : Nat → Binder} → {setting : Setting} → {standpoint : Standpoint} →
    {scope inner : Scope Nat} → {names : Scope Binder} → {next index number start : Nat} →
    {code : List Op} → {after : Nat} →
    Reflects mentioned held setting standpoint scope names next index →
    (∀ name ∈ Mentions.inStatement [] statement, mentioned name) →
    StatementCode program setting scope next number statement start code inner after →
    Carries program standpoint.depth held code (usesInStatement standpoint names index statement)
  | .declare _ _ value _, _, _, _, _, _, _, _, _, _, _, _, _, _, reflects, covers,
      .declare inside _ => by
      rw [usesInStatement, ← reflects.held_next]
      exact (carries_expression value reflects covers inside).append .write
  | .assign (.binding name) value _, _, _, _, _, _, _, _, _, _, _, _, _, _, reflects, covers,
      .assign found inside _ => by
      obtain ⟨-, covers⟩ := (Mentions.collects_inExpression value).forall_mem covers
      obtain ⟨bound, meant, same⟩ := reflects.found found
      rw [usesInStatement, meant, Option.map_some, Option.toList_some, same]
      exact (carries_expression value reflects covers inside).append .write
  | .assign (.field _) value _, _, _, _, _, _, _, _, _, _, _, _, _, _, reflects, covers,
      .assignField here _ inside _ => by
      obtain ⟨-, covers⟩ := (Mentions.collects_inExpression value).forall_mem covers
      rw [usesInStatement, Standpoint.receiverUses, reflects.receiver here]
      exact (Carries.read.append (carries_expression value reflects covers inside)).behind rfl
  | .forEach binding iterable body _, _, _, _, _, _, _, _, _, _, _, _, _, _, reflects, covers,
      .forEach enumerated _ inside => by
      obtain ⟨covers, covers'⟩ := (Mentions.collects_inBlock body).forall_mem covers
      -- the cursor is in the next free slot, and the item in the one behind it
      have inner := carries_block body ((reflects.skip 1).declare binding _) covers' inside
      rw [usesInStatement, ← reflects.held_next, ← (reflects.skip 1).held_next]
      have starts : [Op.iterStart].all Op.isIndifferent = true := rfl
      exact (((carries_expression iterable reflects covers enumerated).append
        ((((Carries.nothing starts).append .write).append .advance).append .write)).append
          inner).behind rfl
  | .whileLoop test body _, _, _, _, _, _, _, _, _, _, _, _, _, _, reflects, covers,
      .whileLoop tested _ inside => by
      obtain ⟨covers, covers'⟩ := (Mentions.collects_inBlock body).forall_mem covers
      exact (((carries_expression test reflects covers tested).behind rfl).append
        (carries_block body reflects covers' inside)).behind rfl
  | .conditional test body other _, _, _, _, _, _, _, _, _, _, _, _, _, _, reflects, covers,
      translated => by
      obtain ⟨both, last⟩ := (Mentions.collects_inAlternative other).forall_mem covers
      have apart := (Mentions.collects_inBlock body).forall_mem both
      cases translated with
      | ifTrue tested _ inside =>
          rw [usesInStatement, usesInAlternative, List.append_nil]
          exact ((carries_expression test reflects apart.1 tested).behind rfl).append
            (carries_block body reflects apart.2 inside)
      | ifElse _ tested _ inside instead =>
          obtain rfl := next_of_blockCode body inside
          exact ((((carries_expression test reflects apart.1 tested).behind rfl).append
            (carries_block body reflects apart.2 inside)).behind rfl).append
              (carries_alternative other (reflects.skip _) last instead)
  | .returns none _, _, _, _, _, _, _, _, _, _, _, _, _, _, _, _, .returnNothing _ =>
      .nothing rfl
  | .returns (some value) _, _, _, _, _, _, _, _, _, _, _, _, _, _, reflects, covers,
      .returnValue inside _ =>
      (carries_expression value reflects covers inside).behind rfl
  | .evaluate value, _, _, _, _, _, _, _, _, _, _, _, _, _, reflects, covers, .evaluate inside =>
      (carries_expression value reflects covers inside).behind rfl
termination_by structural statement => statement

theorem carries_alternative : (other : Alternative) → {mentioned : String → Prop} →
    {held : Nat → Binder} → {setting : Setting} → {standpoint : Standpoint} → {scope : Scope Nat} →
    {names : Scope Binder} → {next index number start : Nat} → {code : List Op} → {after : Nat} →
    Reflects mentioned held setting standpoint scope names next index →
    (∀ name ∈ Mentions.inAlternative [] other, mentioned name) →
    AlternativeCode program setting scope next number other start code after →
    Carries program standpoint.depth held code (usesInAlternative standpoint names index other)
  | .absent, _, _, _, _, _, _, _, _, _, _, _, _, _, _, translated => by cases translated
  | .block body, _, _, _, _, _, _, _, _, _, _, _, _, reflects, covers, .block inside =>
      carries_block body reflects covers inside
  | .chain conditional, _, _, _, _, _, _, _, _, _, _, _, _, reflects, covers, .chain inside =>
      carries_statement conditional reflects covers inside
termination_by structural other => other

end

/-! ## Routines of types -/

section Routines

variable {references : ReferenceSet} {types : List TypeInfo} {owner : Bytecode.TypeIndex}
  {info : TypeInfo}

/-- A body starts without names, and with the instance in the first slot if there is one. -/
theorem reflects_start (references : ReferenceSet) (types : List TypeInfo)
    (owner : Bytecode.TypeIndex) (info : TypeInfo) (name : String) (result : Ty)
    (isStatic : Bool) :
    Reflects (fun _ ↦ True) (Binder.mk 0)
      { settingOf references types owner info with
        routineName := name
        result
        receiver := if isStatic then none else some 0 }
      (standpointOf references types owner info (if isStatic then none else some ⟨0, 0⟩)) [] []
      (if isStatic then 0 else 1) (if isStatic then 0 else 1) where
  sees := rfl
  found := nofun
  absent _ _ := rfl
  receiver := by cases isStatic <;> rintro slot ⟨⟩; rfl
  noReceiver _ := by cases isStatic <;> rintro ⟨⟩; rfl
  free _ := rfl
  below := nofun
  apart := .nil
  receiverBelow := by cases isStatic <;> rintro slot ⟨⟩; exact Nat.one_pos
  receiverApart _ := nofun

/-- The routine of a function does with variables what the function does. -/
theorem carries_method {method : MethodInfo}
    (translated : MethodCode program references types owner info number method) :
    ∃ routine, program.image.routines[method.routine]? = some routine ∧
      Carries program 0 (Binder.mk 0) routine.code.toList
        (usesInMethod references types owner info method) := by
  obtain ⟨found, named, -, inside⟩ := translated
  refine ⟨_, found, ?_⟩
  have named' : method.parameters.length
      = (method.declaration.parameters.map Parameter.name).length := by
    rw [List.length_map, named]
  have started := Reflects.bindAll (method.declaration.parameters.map Parameter.name)
    method.parameters named'
    (reflects_start references types owner info method.name method.result method.isStatic)
    fun _ (_ : True) ↦ .inl trivial
  rw [List.append_nil, ← named', Nat.add_comm] at started
  have body := carries_block method.declaration.body started (fun _ _ ↦ trivial) inside
  have whole := body.append (.nothing (rfl : epilogue.all Op.isIndifferent = true))
  rw [List.append_nil] at whole
  rw [usesInMethod, ← named', Nat.add_comm]
  exact whole

/-- What gives a field its first value without an expression does nothing with variables. -/
theorem isIndifferent_defaultValue (type : Ty) : (defaultValue type).isIndifferent = true := by
  cases type <;> rfl

/-- Giving fields their first values does with variables what the text does. -/
theorem carries_fields : (fields : List FieldInfo) → {number position start : Nat} →
    {code : List Op} →
    FieldsCode program { settingOf references types owner info with receiver := some 0 } number
      fields position start code →
    Carries program 0 (Binder.mk 0) code (fields.flatMap fun field ↦
      .read ⟨0, 0⟩ :: (field.value.map
        (usesIn (standpointOf references types owner info (some ⟨0, 0⟩)) [])).getD [])
  | [], _, _, _, _, .nil => .nothing rfl
  | field :: rest, _, position, _, _, translated => by
      rw [List.flatMap_cons]
      cases translated with
      | given same inside _ others =>
          have started := reflects_start references types owner info initializerName .unit false
          have value := carries_expression _ started (fun _ _ ↦ trivial) inside
          rw [same]
          exact ((Carries.read.append value).behind rfl).append (carries_fields rest others)
      | default same others =>
          have default : [defaultValue field.type, .storeField position].all
              Op.isIndifferent = true := by
            rw [List.all_cons, isIndifferent_defaultValue]
            rfl
          rw [same]
          exact (Carries.read.behind default).append (carries_fields rest others)

end Routines

end GuestScript.Meaning
