import GuestScript.Proofs.Compile.UnitCalls

/-!
# The parts of a unit

What has code of its own in a unit is a part: the initializer of each type, and each function. A
unit is compiled part by part, and a part is known by its key, which says nothing of where it
stands. How many routines and lambdas a part adds can be read off its text. A ledger numbers what
each part adds, so that `ledger_at` finds everything by the part that has added it, wherever the
part stands.
-/

namespace GuestScript.Compile

open Bytecode (RoutineIndex TypeDefinition TypeIndex)
open Lowering
open Meaning
open Syntax (Alternative Block Expression LambdaBody Statement)

/-! ## Counting lambdas by their host calls -/

section Lambdas

variable (naming : Naming)

theorem length_lambdas_append (first second : HostCalls) :
    (first ++ second).lambdas.length = first.lambdas.length + second.lambdas.length :=
  List.length_append

mutual

/-- The host calls in an expression are told apart by the lambdas in it. -/
theorem length_callsIn : (value : Expression) →
    (callsIn naming value).lambdas.length = lambdasIn value
  | .int .. | .str .. | .bool .. | .receiver _ | .path .. | .construct .. => rfl
  | .array items _ => length_callsInAll items
  | .call callee values _ => by
      have others := length_callsInAll values
      by_cases path : ∃ segments span, callee = .path segments span
      · obtain ⟨segments, span, rfl⟩ := path
        rw [callsIn, length_lambdas_append, others, lambdasIn, lambdasIn, Nat.zero_add]
        rfl
      · rw [callsIn, length_lambdas_append, others, lambdasIn, length_callsIn callee]
        exact fun segments span same ↦ path ⟨segments, span, same⟩
  | .method target _ values _ => by
      rw [callsIn, length_lambdas_append, length_callsIn target, length_callsInAll values,
        lambdasIn]
  | .field target _ _ => length_callsIn target
  | .element target index _ => by
      rw [callsIn, length_lambdas_append, length_callsIn target, length_callsIn index, lambdasIn]
  | .lambda _ body _ => congrArg (· + 1) (length_callsInBody body)
  | .unary _ operand _ => length_callsIn operand
  | .binary _ left right _ => by
      rw [callsIn, length_lambdas_append, length_callsIn left, length_callsIn right, lambdasIn]

/-- The host calls in expressions are told apart by the lambdas in them. -/
theorem length_callsInAll : (values : List Expression) →
    (callsInAll naming values).lambdas.length = lambdasInAll values
  | [] => rfl
  | first :: rest => by
      rw [callsInAll, length_lambdas_append, length_callsIn first, length_callsInAll rest,
        lambdasInAll]

/-- The host calls in the body of a lambda are told apart by the lambdas in it. -/
theorem length_callsInBody : (body : LambdaBody) →
    (callsInBody naming body).lambdas.length = lambdasInBody body
  | .expression value => length_callsIn value
  | .block body => length_callsInBlock body

/-- The host calls in a block are told apart by the lambdas in it. -/
theorem length_callsInBlock : (body : Block) →
    (callsInBlock naming body).lambdas.length = lambdasInBlock body
  | .mk statements _ => length_callsInStatements statements

/-- The host calls in statements are told apart by the lambdas in them. -/
theorem length_callsInStatements : (statements : List Statement) →
    (callsInStatements naming statements).lambdas.length = lambdasInStatements statements
  | [] => rfl
  | first :: rest => by
      rw [callsInStatements, length_lambdas_append, length_callsInStatement first,
        length_callsInStatements rest, lambdasInStatements]

/-- The host calls in a statement are told apart by the lambdas in it. -/
theorem length_callsInStatement : (statement : Statement) →
    (callsInStatement naming statement).lambdas.length = lambdasInStatement statement
  | .declare _ _ value _ | .assign _ value _ | .returns (some value) _ | .evaluate value =>
      length_callsIn value
  | .forEach _ iterable body _ => by
      rw [callsInStatement, length_lambdas_append, length_callsIn iterable,
        length_callsInBlock body, lambdasInStatement]
  | .whileLoop test body _ => by
      rw [callsInStatement, length_lambdas_append, length_callsIn test, length_callsInBlock body,
        lambdasInStatement]
  | .conditional test body other _ => by
      rw [callsInStatement, length_lambdas_append, length_lambdas_append, length_callsIn test,
        length_callsInBlock body, length_callsInAlternative other, lambdasInStatement,
        Nat.add_assoc]
  | .returns none _ => rfl

/-- The host calls in an alternative are told apart by the lambdas in it. -/
theorem length_callsInAlternative : (other : Alternative) →
    (callsInAlternative naming other).lambdas.length = lambdasInAlternative other
  | .absent => rfl
  | .block body => length_callsInBlock body
  | .chain conditional => length_callsInStatement conditional

end

/-- The host calls in fields are told apart by the lambdas in them. -/
theorem length_callsInFields : (fields : List FieldInfo) →
    (callsInFields naming fields).lambdas.length = lambdasInFields fields
  | [] => rfl
  | ⟨_, _, none⟩ :: rest => by
      have others := length_callsInFields rest
      rw [callsInFields, length_lambdas_append, others, lambdasInFields, lambdasInFields,
        List.map_cons, List.sum_cons]
      rfl
  | ⟨_, _, some value⟩ :: rest => by
      have others := length_callsInFields rest
      rw [callsInFields, length_lambdas_append, others, length_callsIn naming value,
        lambdasInFields, lambdasInFields, List.map_cons, List.sum_cons]
      rfl

end Lambdas

/-! ## Parts -/

/-- The initializer of a type, or a function of a type. -/
structure Part where
  owner : TypeIndex
  info : TypeInfo
  member : Option MethodInfo

/-- The name of a type, and that of a function if the part is one. -/
abbrev PartKey := TypeName × Option String

namespace Part

/-- What a part is known by. -/
def key (part : Part) : PartKey :=
  (part.info.name, part.member.map MethodInfo.name)

/-- The routine that is reserved for a part, with the key of the part. -/
def reserved (part : Part) : List (PartKey × RoutineIndex) :=
  (part.member.map fun method ↦ (part.key, method.routine)).toList

/-- The number of lambdas in a part. -/
def lambdas (part : Part) : Nat :=
  match part.member with
  | none => lambdasInFields part.info.fields
  | some method => lambdasInBlock method.declaration.body

/-- The number of routines that a part adds: its lambdas, and the routine that gives fields their
first values. -/
def added (part : Part) : Nat :=
  match part.member with
  | none => if part.info.fields.isEmpty then 0 else part.lambdas + 1
  | some _ => part.lambdas

/-- Compile a part. -/
def define (references : ReferenceSet) (types : List TypeInfo) (part : Part) : Drafting Unit :=
  let setting := settingOf references types part.owner part.info
  match part.member with
  | none => do
      let _ ← defineInitializer setting part.info.fields
  | some method => defineMethod (setting.ofMethod method) method

end Part

/-- The parts of a type. -/
def partsOf (owner : TypeIndex) (info : TypeInfo) : List Part :=
  ⟨owner, info, none⟩ :: info.methods.map fun method ↦ ⟨owner, info, some method⟩

/-- The parts of types, from a position on. -/
def partsFrom (owner : TypeIndex) : List TypeInfo → List Part
  | [] => []
  | info :: rest => partsOf owner info ++ partsFrom (owner + 1) rest

theorem mem_partsOf {part : Part} {owner : TypeIndex} {info : TypeInfo} :
    part ∈ partsOf owner info ↔ part.owner = owner ∧ info = part.info ∧
      ∀ method ∈ part.member, method ∈ part.info.methods := by
  obtain ⟨owner', info', member⟩ := part
  cases member with
  | none => simp [partsOf, eq_comm]
  | some method =>
      simp only [partsOf, List.mem_cons, Part.mk.injEq, reduceCtorEq, and_false, false_or,
        List.mem_map, Option.some.injEq, Option.mem_def, forall_eq']
      constructor
      · rintro ⟨_, inside, rfl, rfl, rfl⟩
        exact ⟨rfl, rfl, inside⟩
      · rintro ⟨rfl, rfl, inside⟩
        exact ⟨method, inside, rfl, rfl, rfl⟩

theorem mem_partsFrom {part : Part} : (types : List TypeInfo) → (owner : TypeIndex) →
    (part ∈ partsFrom owner types ↔ ∃ position, part.owner = owner + position ∧
      types[position]? = some part.info ∧ ∀ method ∈ part.member, method ∈ part.info.methods)
  | [], owner => by simp [partsFrom]
  | info :: rest, owner => by
      rw [partsFrom, List.mem_append, mem_partsOf, mem_partsFrom rest (owner + 1)]
      constructor
      · rintro (⟨same, rfl, inside⟩ | ⟨position, same, found, inside⟩)
        · exact ⟨0, same, rfl, inside⟩
        · exact ⟨position + 1, by rw [same, Nat.add_assoc, Nat.add_comm 1], found, inside⟩
      · rintro ⟨_ | position, same, found, inside⟩
        · exact .inl ⟨same, Option.some.inj found, inside⟩
        · exact .inr ⟨position, by rw [same, Nat.add_assoc, Nat.add_comm 1], found, inside⟩

/-- Parts have different keys where types have different names, and so have the functions of each.
-/
theorem nodup_keys : (types : List TypeInfo) → (owner : TypeIndex) →
    (types.map TypeInfo.name).Nodup →
    (∀ info ∈ types, (info.methods.map MethodInfo.name).Nodup) →
    ((partsFrom owner types).map Part.key).Nodup
  | [], _, _, _ => List.nodup_nil
  | info :: rest, owner, names, methods => by
      obtain ⟨apart, names⟩ := List.nodup_cons.mp names
      have keys : (partsOf owner info).map Part.key
          = (info.name, none) :: (info.methods.map MethodInfo.name).map fun name ↦
              (info.name, some name) := by
        simp [partsOf, Part.key, Function.comp_def]
      rw [partsFrom, List.map_append, List.nodup_append, keys]
      refine ⟨?_, nodup_keys rest (owner + 1) names fun other inside ↦
        methods other (List.mem_cons_of_mem _ inside), ?_⟩
      · refine List.nodup_cons.mpr ⟨by simp, ?_⟩
        exact (methods info List.mem_cons_self).map fun _ _ same ↦
          Option.some.inj (Prod.mk.inj same).2
      · -- The type is part of the key, and the type of a later part has another name.
        rintro key inside _ later rfl
        obtain ⟨part, inside', rfl⟩ := List.mem_map.mp later
        obtain ⟨position, -, found, -⟩ := (mem_partsFrom rest (owner + 1)).mp inside'
        have same : part.info.name = info.name := by
          obtain same | there := List.mem_cons.mp inside
          · exact congrArg Prod.fst same
          · obtain ⟨name, -, same⟩ := List.mem_map.mp there
            exact (congrArg Prod.fst same).symm
        exact apart (same ▸ List.mem_map_of_mem (List.mem_of_getElem? found))

/-! ## One part after the other -/

section Runs

variable {references : ReferenceSet} {types : List TypeInfo}

/-- The draft after parts have been compiled. -/
def runParts (references : ReferenceSet) (types : List TypeInfo) (parts : List Part)
    (draft : Draft) : Draft :=
  parts.foldl (fun draft part ↦ (part.define references types draft).2) draft

theorem runParts_append (first second : List Part) (draft : Draft) :
    runParts references types (first ++ second) draft
      = runParts references types second (runParts references types first draft) :=
  List.foldl_append

theorem runParts_take_succ {parts : List Part} {position : Nat} {part : Part}
    (found : parts[position]? = some part) (draft : Draft) :
    runParts references types (parts.take (position + 1)) draft = (part.define references types
      (runParts references types (parts.take position) draft)).2 := by
  rw [List.take_add_one, found, runParts_append]
  rfl

/-- The parts from some position on lead to where all parts lead to. -/
theorem runParts_drop (parts : List Part) (position : Nat) (draft : Draft) :
    runParts references types (parts.drop position)
        (runParts references types (parts.take position) draft)
      = runParts references types parts draft := by
  rw [← runParts_append, List.take_append_drop]

theorem defineMethods_eq (owner : TypeIndex) (info : TypeInfo) :
    (methods : List MethodInfo) → (draft : Draft) →
    (defineMethods (settingOf references types owner info) methods draft).2
      = runParts references types (methods.map fun method ↦ ⟨owner, info, some method⟩) draft
  | [], _ => rfl
  | _ :: rest, _ => defineMethods_eq owner info rest _

theorem defineType_eq (owner : TypeIndex) (info : TypeInfo) (draft : Draft) :
    (defineType references types owner info draft).2
      = runParts references types (partsOf owner info) draft :=
  defineMethods_eq owner info info.methods _

/-- Types are compiled part by part. -/
theorem defineTypes_eq : (infos : List TypeInfo) → (owner : TypeIndex) → (draft : Draft) →
    (defineTypes references types owner infos draft).2
      = runParts references types (partsFrom owner infos) draft
  | [], _, _ => rfl
  | info :: rest, owner, draft => by
      rw [partsFrom, runParts_append, ← defineType_eq]
      exact defineTypes_eq rest (owner + 1) _

/-- What a type is compiled to. -/
def definitionOf (info : TypeInfo) (initializer : Option RoutineIndex) : TypeDefinition :=
  { namespaceName := info.name.namespaceName
    name := info.name.name
    fields := info.fields.map FieldInfo.name
    initializer
    methods := info.methods.map MethodInfo.routine }

theorem length_defineTypes : (infos : List TypeInfo) → (owner : TypeIndex) → (draft : Draft) →
    (defineTypes references types owner infos draft).1.length = infos.length
  | [], _, _ => rfl
  | _ :: rest, owner, _ => congrArg (· + 1) (length_defineTypes rest (owner + 1) _)

/-- The definition of a type has the initializer that is compiled in the course of the unit. -/
theorem definition_at (references : ReferenceSet) (types : List TypeInfo) :
    (infos : List TypeInfo) → (owner position : TypeIndex) → (info : TypeInfo) → (draft : Draft) →
    infos[position]? = some info →
    ∃ place, (partsFrom owner infos)[place]? = some ⟨owner + position, info, none⟩ ∧
      (defineTypes references types owner infos draft).1[position]?
        = some (definitionOf info (defineInitializer
            (settingOf references types (owner + position) info) info.fields
            (runParts references types ((partsFrom owner infos).take place) draft)).1)
  | first :: rest, owner, 0, info, draft, found => by
      obtain rfl := Option.some.inj found
      exact ⟨0, rfl, rfl⟩
  | first :: rest, owner, position + 1, info, draft, found => by
      have after : (defineType references types owner first draft).2 = _ :=
        defineType_eq owner first draft
      obtain ⟨place, there, defined⟩ := definition_at references types rest (owner + 1) position
        info (defineType references types owner first draft).2 found
      rw [Nat.add_assoc, Nat.add_comm 1] at there defined
      refine ⟨(partsOf owner first).length + place, ?_, ?_⟩
      · rw [partsFrom, List.getElem?_append_right (Nat.le_add_right _ _), Nat.add_sub_cancel_left]
        exact there
      · rw [partsFrom, List.take_length_add_append, runParts_append, ← after]
        exact defined

end Runs

/-! ## What parts add -/

section Growth

variable {references : ReferenceSet} {types : List TypeInfo}

/-- The routines that are reserved for a part. -/
abbrev Part.filled (part : Part) : List RoutineIndex :=
  part.reserved.map Prod.snd

/-- Between two drafts some reserved routines were completed, and this many routines and lambdas
were added. -/
structure Draft.Grown (references : ReferenceSet) (filled : List RoutineIndex) (added lambdas : Nat)
    (before after : Draft) : Prop where
  fills : before.Fills filled after
  imports : ImportsFrom references after.imports
  size : after.routines.size = before.routines.size + added
  lambdas : after.lambdas = before.lambdas + lambdas

theorem size_defineMethod (setting : Setting) (method : MethodInfo) {draft : Draft}
    (imports : ImportsFrom setting.references draft.imports) :
    ImportsFrom setting.references (defineMethod setting method draft).2.imports ∧
      (defineMethod setting method draft).2.routines.size
        = draft.routines.size + lambdasInBlock method.declaration.body := by
  obtain ⟨ops, -, gains⟩ := emits_methodInside setting method ⟨draft, [[]], 0⟩ imports
  let compiled := alone (methodInside setting method) draft
  let checked := (checkReturns method compiled.2).2
  have notes : compiled.2.Notes checked := leaves_checkReturns method compiled.2
  constructor
  · change ImportsFrom _ checked.imports
    exact notes.imports ▸ gains.imports
  · change (checked.routines.modify _ _).size = _
    rw [Array.size_modify, notes.routines, ← length_callsInBlock (namingOf setting)]
    exact gains.size

/-- What is added with a part can be read off its text. -/
theorem Part.adds_define (part : Part) {draft : Draft}
    (imports : ImportsFrom references draft.imports) :
    draft.Grown references part.filled part.added part.lambdas
      (part.define references types draft).2 := by
  obtain ⟨owner, info, member⟩ := part
  let setting := settingOf references types owner info
  cases member with
  | none =>
      have gains := gains_defineInitializer setting info.fields imports
      obtain ⟨grown, numbered⟩ :
          draft.Extends (defineInitializer setting info.fields draft).2 ∧ _ :=
        extends_defineInitializer info.fields draft
      have count : (initializerCalls (namingOf setting) info.fields).lambdas.length
          = (Part.mk owner info none).added := by
        unfold initializerCalls Part.added
        cases empty : info.fields.isEmpty with
        | true => rfl
        | false => exact congrArg (· + 1) (length_callsInFields (namingOf setting) info.fields)
      exact ⟨grown.fills, gains.imports, gains.size.trans (congrArg _ count), numbered⟩
  | some method =>
      obtain ⟨fills, numbered⟩ : Draft.Fills [method.routine] draft
          (defineMethod (setting.ofMethod method) method draft).2 ∧ _ :=
        fills_defineMethod method draft
      obtain ⟨imports', size⟩ := size_defineMethod (setting.ofMethod method) method imports
      exact ⟨fills, imports', size, numbered⟩

/-- What is added with parts can be read off their text. -/
theorem adds_runParts : (parts : List Part) → {draft : Draft} →
    ImportsFrom references draft.imports →
    draft.Grown references (parts.flatMap Part.filled) (parts.map Part.added).sum
      (parts.map Part.lambdas).sum (runParts references types parts draft)
  | [], draft, imports => ⟨(Draft.Extends.refl draft).fills, imports, rfl, rfl⟩
  | part :: rest, draft, imports => by
      have first : draft.Grown references part.filled part.added part.lambdas
          (part.define references types draft).2 := part.adds_define imports
      have others := adds_runParts rest first.imports
      refine ⟨first.fills.trans others.fills, others.imports, ?_, ?_⟩
      · rw [List.map_cons, List.sum_cons, ← Nat.add_assoc, ← first.size]
        exact others.size
      · rw [List.map_cons, List.sum_cons, ← Nat.add_assoc, ← first.lambdas]
        exact others.lambdas

end Growth

/-! ## Ledgers -/

/-- What parts add, in order: for each part, as many entries as are counted for it. -/
def ledger (count : Part → Nat) (parts : List Part) : List (PartKey × Nat) :=
  parts.flatMap fun part ↦ (List.range (count part)).map fun number ↦ (part.key, number)

section Ledgers

variable {count : Part → Nat} {parts parts' : List Part}

theorem length_ledger (count : Part → Nat) (parts : List Part) :
    (ledger count parts).length = (parts.map count).sum := by
  rw [ledger, List.length_flatMap]
  simp

/-- What a part adds comes behind all that earlier parts add. -/
theorem ledger_at {position number : Nat} {part : Part} (found : parts[position]? = some part)
    (inside : number < count part) :
    (ledger count parts)[((parts.take position).map count).sum + number]?
      = some (part.key, number) := by
  obtain ⟨within, rfl⟩ := List.getElem?_eq_some_iff.mp found
  have split : ledger count parts = ledger count (parts.take position)
      ++ ((List.range (count parts[position])).map (fun number ↦ (parts[position].key, number))
        ++ ledger count (parts.drop (position + 1))) := by
    unfold ledger
    conv_lhs => rw [← List.take_append_drop position parts, ← List.getElem_cons_drop within,
      List.flatMap_append, List.flatMap_cons]
  rw [split, ← length_ledger, List.getElem?_append_right (Nat.le_add_right _ _),
    Nat.add_sub_cancel_left, List.getElem?_append_left (by simpa using inside)]
  simp [inside]

/-- Different entries are for different parts, or have different numbers. -/
theorem nodup_ledger (keys : (parts.map Part.key).Nodup) : (ledger count parts).Nodup := by
  rw [ledger, List.nodup_flatMap]
  refine ⟨fun part _ ↦ List.nodup_range.map fun _ _ same ↦ (Prod.mk.inj same).2, ?_⟩
  refine (List.pairwise_map.mp keys).imp ?_
  intro part other apart entry here there
  obtain ⟨_, -, rfl⟩ := List.mem_map.mp here
  obtain ⟨_, -, same⟩ := List.mem_map.mp there
  exact apart (Prod.mk.inj same).1.symm

/-- Parts that come in another order add the same. -/
theorem perm_ledger {count' : Part → Nat}
    (perm : (parts'.map fun part ↦ (part.key, count' part)).Perm
      (parts.map fun part ↦ (part.key, count part))) :
    (ledger count' parts').Perm (ledger count parts) := by
  let entries (counted : PartKey × Nat) : List (PartKey × Nat) :=
    (List.range counted.2).map fun number ↦ (counted.1, number)
  have same (count : Part → Nat) (parts : List Part) :
      ledger count parts = (parts.map fun part ↦ (part.key, count part)).flatMap entries := by
    rw [ledger, List.flatMap_map]
  rw [same, same]
  exact perm.flatMap_right entries

end Ledgers

end GuestScript.Compile
