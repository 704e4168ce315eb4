import GuestScript.Proofs.Syntax.Chains
import GuestScript.Syntax.Parse

/-!
# Parsed files are chained

The grammar has a block or another conditional behind `else`, and assembling the pieces of a rule
keeps to that: the piece of a node is chained if those of its parts are. So the file of a source
text is.
-/

namespace GuestScript.Syntax

open Grammar (Node Rule)

/-- Whether only conditionals are chained in a piece. -/
def Piece.isChained : Piece → Bool
  | .expression value | .index value _ => value.isChained
  | .arguments values _ => areChained values
  | .statement made => made.isChained
  | .block made => made.isChained
  | .field made => made.isChained
  | .function made => made.isChained
  | .declaration made => made.isChained
  | .group made => made.all TypeDeclaration.isChained
  | .file made => made.isChained
  | _ => true

theorem areChained_iff {values : List Expression} :
    areChained values = true ↔ ∀ value ∈ values, value.isChained = true := by
  induction values with
  | nil => simp [areChained]
  | cons first rest ih => simp [areChained, ih]

theorem statementsAreChained_iff {statements : List Statement} :
    statementsAreChained statements = true ↔
      ∀ statement ∈ statements, statement.isChained = true := by
  induction statements with
  | nil => simp [statementsAreChained]
  | cons first rest ih => simp [statementsAreChained, ih]

/-! ## Operators and suffixes -/

theorem isChained_applyUnary (operators : List (UnaryOperator × Span)) (operand : Expression) :
    (applyUnary operators operand).isChained = operand.isChained := by
  induction operators with
  | nil => rfl
  | cons first rest ih => exact ih

namespace Infix

/-- Whether only conditionals are chained in operands that are grouped. -/
def isChained : Infix → Bool
  | .leaf value => value.isChained
  | .node _ left right => left.isChained && right.isChained

theorem isChained_toExpression (tree : Infix) : tree.toExpression.isChained = tree.isChained := by
  induction tree with
  | leaf value => rfl
  | node operator left right left' right' =>
      rw [toExpression, Expression.isChained, left', right', isChained]

theorem isChained_append (operator : BinaryOperator) (operand : Expression) (tree : Infix) :
    (append operator operand tree).isChained = (tree.isChained && operand.isChained) := by
  induction tree with
  | leaf value => rfl
  | node outer left right _ right' =>
      rw [append]
      split
      · rfl
      · rw [isChained, right', isChained, Bool.and_assoc]

theorem isChained_ofChain {first : Expression} {links : List (BinaryOperator × Expression)}
    (chained : first.isChained = true) (others : ∀ link ∈ links, link.2.isChained = true) :
    (ofChain first links).isChained = true := by
  have step (tree : Infix) (before : tree.isChained = true) :
      (links.foldl (fun tree link ↦ tree.append link.1 link.2) tree).isChained = true := by
    induction links generalizing tree with
    | nil => exact before
    | cons link rest ih =>
        refine ih (fun other inside ↦ others other (List.mem_cons_of_mem _ inside)) _ ?_
        rw [isChained_append, before, others link List.mem_cons_self]
        rfl
  exact step (.leaf first) chained

end Infix

namespace Assembly

/-- Every one of these pieces is chained. -/
abbrev AreChained (pieces : List Piece) : Prop :=
  ∀ piece ∈ pieces, piece.isChained = true

/-- What fitting pieces are converted to holds if the conversion keeps to that. -/
theorem forall_of_mapM {Target : Type} {convert : Piece → Option Target} {fits : Piece → Prop}
    {holds : Target → Prop}
    (keeps : ∀ piece target, convert piece = some target → fits piece → holds target) :
    {pieces : List Piece} → {targets : List Target} → (∀ piece ∈ pieces, fits piece) →
    pieces.mapM convert = some targets → ∀ target ∈ targets, holds target
  | [], targets, _, converted => by
      obtain rfl : [] = targets := Option.some.inj converted
      exact nofun
  | piece :: rest, targets, parts, converted => by
      rw [List.mapM_cons, Option.bind_eq_bind, Option.bind_eq_some_iff] at converted
      obtain ⟨target, first, converted⟩ := converted
      rw [Option.bind_eq_bind, Option.bind_eq_some_iff] at converted
      obtain ⟨others, second, same⟩ := converted
      obtain rfl : target :: others = targets := Option.some.inj same
      have here := keeps piece target first (parts piece List.mem_cons_self)
      exact List.forall_mem_cons.mpr ⟨here, forall_of_mapM keeps
        (fun other inside ↦ parts other (List.mem_cons_of_mem _ inside)) second⟩

/-- What a conversion of pieces takes over from each of them, it takes over from all in order. -/
theorem flatMap_of_mapM {Target Value : Type} {convert : Piece → Option Target}
    {content : Target → List Value} {held : Piece → List Value}
    (keeps : ∀ piece target, convert piece = some target → content target = held piece) :
    {pieces : List Piece} → {targets : List Target} → pieces.mapM convert = some targets →
    targets.flatMap content = pieces.flatMap held
  | [], targets, converted => by
      obtain rfl : [] = targets := Option.some.inj converted
      rfl
  | piece :: rest, targets, converted => by
      rw [List.mapM_cons, Option.bind_eq_bind, Option.bind_eq_some_iff] at converted
      obtain ⟨target, first, converted⟩ := converted
      rw [Option.bind_eq_bind, Option.bind_eq_some_iff] at converted
      obtain ⟨others, second, same⟩ := converted
      obtain rfl : target :: others = targets := Option.some.inj same
      rw [List.flatMap_cons, List.flatMap_cons, keeps piece target first,
        flatMap_of_mapM keeps second]

theorem asExpression_chained (piece : Piece) (value : Expression)
    (converted : asExpression piece = some value) (chained : piece.isChained = true) :
    value.isChained = true := by
  cases piece with
  | expression value' => exact Option.some.inj converted ▸ chained
  | _ => exact absurd converted nofun

theorem asStatement_chained (piece : Piece) (statement : Statement)
    (converted : asStatement piece = some statement) (chained : piece.isChained = true) :
    statement.isChained = true := by
  cases piece with
  | statement statement' => exact Option.some.inj converted ▸ chained
  | _ => exact absurd converted nofun

theorem asDeclaration_chained (piece : Piece) (declaration : TypeDeclaration)
    (converted : asDeclaration piece = some declaration) (chained : piece.isChained = true) :
    declaration.isChained = true := by
  cases piece with
  | declaration declaration' => exact Option.some.inj converted ▸ chained
  | _ => exact absurd converted nofun

theorem asDeclarations_chained (piece : Piece) (chained : piece.isChained = true) :
    ∀ declaration ∈ asDeclarations piece, declaration.isChained = true := by
  cases piece with
  | declaration declaration => exact List.forall_mem_singleton.mpr chained
  | group declarations => exact List.all_eq_true.mp chained
  | _ => exact nofun

theorem asField_chained (piece : Piece) (field : FieldDeclaration)
    (converted : asField piece = some field) (chained : piece.isChained = true) :
    field.isChained = true := by
  cases piece with
  | field field' => exact Option.some.inj converted ▸ chained
  | _ => exact absurd converted nofun

theorem asFunction_chained (piece : Piece) (function : FunctionDeclaration)
    (converted : asFunction piece = some function) (chained : piece.isChained = true) :
    function.isChained = true := by
  cases piece with
  | function function' => exact Option.some.inj converted ▸ chained
  | _ => exact absurd converted nofun

section Operands

variable {holds : Expression → Prop}
  (unary : ∀ operators value, holds value → holds (applyUnary operators value))

include unary

/-- What holds of the expressions among pieces, also under unary operators, holds of the operand that
comes first, and what is behind it are pieces of the same. -/
theorem operandOf_keeps {operators : List (UnaryOperator × Span)} {pieces rest : List Piece}
    {value : Expression} (parts : ∀ value, .expression value ∈ pieces → holds value)
    (found : operandOf operators pieces = some (value, rest)) : holds value ∧ rest ⊆ pieces := by
  induction operators, pieces using operandOf.induct with
  | case1 operators operator span behind ih =>
      rw [operandOf] at found
      obtain ⟨here, inside⟩ := ih (fun value member ↦ parts value (List.mem_cons_of_mem _ member)) found
      exact ⟨here, List.subset_cons_of_subset _ inside⟩
  | case2 operators value' behind =>
      rw [operandOf] at found
      obtain ⟨rfl, rfl⟩ := Prod.mk.inj (Option.some.inj found)
      exact ⟨unary operators value' (parts value' List.mem_cons_self), List.subset_cons_self _ _⟩
  | case3 operators pieces =>
      rw [operandOf] at found
      · exact absurd found nofun
      all_goals assumption

/-- What holds of the expressions among pieces, also under unary operators, holds of the operands behind
the operators among them. -/
theorem linksOf_keeps {waiting : Option (BinaryOperator × List (UnaryOperator × Span))}
    {pieces : List Piece} {links result : List (BinaryOperator × Expression)}
    (parts : ∀ value, .expression value ∈ pieces → holds value) (before : ∀ link ∈ links, holds link.2)
    (found : linksOf waiting pieces links = some result) : ∀ link ∈ result, holds link.2 := by
  have others {first : Piece} {rest : List Piece}
      (parts : ∀ value, .expression value ∈ first :: rest → holds value) (value : Expression)
      (member : .expression value ∈ rest) : holds value := parts value (List.mem_cons_of_mem _ member)
  induction waiting, pieces, links using linksOf.induct with
  | case1 links =>
      rw [linksOf] at found
      obtain rfl := Option.some.inj found
      exact fun link inside ↦ before link (List.mem_reverse.mp inside)
  | case2 operator rest links ih | case3 operator waiting inner span rest links ih =>
      rw [linksOf] at found
      exact ih (others parts) before found
  | case4 operator waiting value rest links ih =>
      rw [linksOf] at found
      have here := unary waiting value (parts value List.mem_cons_self)
      exact ih (others parts) (List.forall_mem_cons.mpr ⟨here, before⟩) found
  | case5 waiting pieces links =>
      rw [linksOf] at found
      · exact absurd found nofun
      all_goals assumption

end Operands

theorem applySuffixes_chained {target value : Expression} {pieces : List Piece}
    (parts : AreChained pieces) (chained : target.isChained = true)
    (applied : applySuffixes target pieces = some value) : value.isChained = true := by
  induction target, pieces using applySuffixes.induct with
  | case1 target =>
      rw [applySuffixes] at applied
      exact Option.some.inj applied ▸ chained
  | case2 target values span rest ih =>
      rw [applySuffixes] at applied
      obtain ⟨here, others⟩ := List.forall_mem_cons.mp parts
      exact ih others (Bool.and_eq_true_iff.mpr ⟨chained, here⟩) applied
  | case3 target index span rest ih =>
      rw [applySuffixes] at applied
      obtain ⟨here, others⟩ := List.forall_mem_cons.mp parts
      exact ih others (Bool.and_eq_true_iff.mpr ⟨chained, here⟩) applied
  | case4 target name span values span' rest ih =>
      rw [applySuffixes] at applied
      obtain ⟨here, others⟩ := List.forall_mem_cons.mp (List.forall_mem_cons.mp parts).2
      exact ih others (Bool.and_eq_true_iff.mpr ⟨chained, here⟩) applied
  | case5 target name span rest other ih =>
      rw [applySuffixes] at applied
      · exact ih (List.forall_mem_cons.mp parts).2 chained applied
      · exact other
  | case6 target pieces =>
      rw [applySuffixes] at applied
      · exact absurd applied nofun
      all_goals assumption

/-! ## Pieces -/

theorem functionTail_chained {name : Identifier} {isPublic isStatic : Bool} {span : Span}
    {pieces : List Piece} {piece : Piece} (parts : AreChained pieces)
    (made : functionTail name isPublic isStatic span pieces = some piece) :
    piece.isChained = true := by
  unfold functionTail at made
  split at made
  · next parameters body =>
      exact Option.some.inj made ▸ parts (.block body) (by simp)
  · next parameters type body =>
      exact Option.some.inj made ▸ parts (.block body) (by simp)
  · exact absurd made nofun

theorem functionOf_chained {span : Span} {pieces : List Piece} {piece : Piece}
    (parts : AreChained pieces) (made : functionOf span pieces = some piece) :
    piece.isChained = true := by
  unfold functionOf at made
  split at made
  · exact functionTail_chained (fun part inside ↦ parts part (by simp [inside])) made
  · exact functionTail_chained (fun part inside ↦ parts part (by simp [inside])) made
  · exact functionTail_chained (fun part inside ↦ parts part (by simp [inside])) made
  · exact functionTail_chained (fun part inside ↦ parts part (by simp [inside])) made
  · exact absurd made nofun

theorem expressionOf_chained {pieces : List Piece} {piece : Piece} (parts : AreChained pieces)
    (made : expressionOf pieces = some piece) : piece.isChained = true := by
  rw [expressionOf, Option.bind_eq_bind, Option.bind_eq_some_iff] at made
  obtain ⟨⟨first, rest⟩, operand, made⟩ := made
  rw [Option.bind_eq_bind, Option.bind_eq_some_iff] at made
  obtain ⟨links, found, made⟩ := made
  have unary (operators : List (UnaryOperator × Span)) (value : Expression) :
      value.isChained = true → (applyUnary operators value).isChained = true :=
    (isChained_applyUnary operators value).trans
  obtain ⟨first', inside⟩ := operandOf_keeps unary (fun value ↦ parts (.expression value)) operand
  have links' := linksOf_keeps unary (fun value member ↦ parts (.expression value) (inside member))
    (List.forall_mem_nil _) found
  obtain rfl := Option.some.inj made
  exact (Infix.isChained_toExpression _).trans (Infix.isChained_ofChain first' links')

theorem isChained_ofToken {rule : Rule} {span : Span} {text : String} {piece : Piece}
    {problems : List Problem} (made : ofToken rule span text = some (piece, problems)) :
    piece.isChained = true := by
  unfold ofToken at made
  split at made
  case h_8 =>
    repeat' split at made
    all_goals first
      | (cases made; rfl)
      | exact absurd made nofun
  all_goals first
    | (cases made; rfl)
    | exact absurd made nofun

theorem isChained_operatorOf {rule : Rule} {span : Span} {piece : Piece}
    (made : operatorOf rule span = some piece) : piece.isChained = true := by
  unfold operatorOf at made
  split at made
  all_goals first
    | (cases made; rfl)
    | exact absurd made nofun

theorem isChained_assembleDeclaration {rule : Rule} {span : Span} {pieces : List Piece}
    {piece : Piece} (parts : AreChained pieces)
    (made : assembleDeclaration rule span pieces = some piece) : piece.isChained = true := by
  unfold assembleDeclaration at made
  split at made
  · obtain rfl := Option.some.inj made
    refine List.all_eq_true.mpr fun declaration inside ↦ ?_
    obtain ⟨part, member, inside⟩ := List.mem_flatMap.mp inside
    exact asDeclarations_chained part (parts part member) declaration inside
  case h_5 namespaceName types =>
    rw [Option.bind_eq_bind, Option.bind_eq_some_iff] at made
    obtain ⟨declarations, converted, same⟩ := made
    obtain rfl := Option.some.inj same
    have chained := forall_of_mapM asDeclaration_chained (List.forall_mem_cons.mp parts).2 converted
    refine List.all_eq_true.mpr (List.forall_mem_map.mpr fun declaration inside ↦ ?_)
    exact chained declaration inside
  case h_6 name members =>
    obtain rfl := Option.some.inj made
    have members' := (List.forall_mem_cons.mp parts).2
    refine Bool.and_eq_true_iff.mpr ⟨List.all_eq_true.mpr ?_, List.all_eq_true.mpr ?_⟩
    · intro field inside
      obtain ⟨part, member, converted⟩ := List.mem_filterMap.mp inside
      exact asField_chained part field converted (members' part member)
    · intro function inside
      obtain ⟨part, member, converted⟩ := List.mem_filterMap.mp inside
      exact asFunction_chained part function converted (members' part member)
  case h_8 name type value =>
    exact Option.some.inj made ▸ parts (.expression value) (by simp)
  case h_9 => exact functionOf_chained parts made
  case h_4 | h_10 =>
    rw [Option.bind_eq_bind, Option.bind_eq_some_iff] at made
    obtain ⟨converted, -, same⟩ := made
    exact Option.some.inj same ▸ rfl
  case h_16 =>
    rw [Option.bind_eq_bind, Option.bind_eq_some_iff] at made
    obtain ⟨types, -, made⟩ := made
    unfold functionType at made
    split at made
    · exact Option.some.inj made ▸ rfl
    · exact absurd made nofun
  case h_18 => exact absurd made nofun
  all_goals exact Option.some.inj made ▸ rfl

theorem isChained_assembleStatement {rule : Rule} {span : Span} {pieces : List Piece}
    {piece : Piece} (parts : AreChained pieces)
    (made : assembleStatement rule span pieces = some piece) : piece.isChained = true := by
  unfold assembleStatement at made
  split at made
  · rw [Option.bind_eq_bind, Option.bind_eq_some_iff] at made
    obtain ⟨statements, converted, same⟩ := made
    obtain rfl := Option.some.inj same
    exact statementsAreChained_iff.mpr (forall_of_mapM asStatement_chained parts converted)
  case h_16 => exact absurd made nofun
  all_goals
    obtain rfl := Option.some.inj made
    simp only [AreChained, List.forall_mem_cons, Piece.isChained, Statement.isChained] at parts
    simp only [Piece.isChained, Statement.isChained, Statement.isConditional,
      Alternative.isChained, parts, Bool.and_self]

theorem isChained_assembleExpression {rule : Rule} {span : Span} {pieces : List Piece}
    {piece : Piece} (parts : AreChained pieces)
    (made : assembleExpression rule span pieces = some piece) : piece.isChained = true := by
  unfold assembleExpression at made
  split at made
  · exact expressionOf_chained parts made
  · rw [Option.bind_eq_bind, Option.bind_eq_some_iff] at made
    obtain ⟨value, applied, same⟩ := made
    obtain rfl := Option.some.inj same
    obtain ⟨here, suffixes⟩ := List.forall_mem_cons.mp parts
    exact applySuffixes_chained suffixes here applied
  case h_3 | h_10 =>
    rw [Option.bind_eq_bind, Option.bind_eq_some_iff] at made
    obtain ⟨values, converted, same⟩ := made
    obtain rfl := Option.some.inj same
    exact areChained_iff.mpr (forall_of_mapM asExpression_chained parts converted)
  case h_8 | h_11 =>
    rw [Option.bind_eq_bind, Option.bind_eq_some_iff] at made
    obtain ⟨names, -, same⟩ := made
    exact Option.some.inj same ▸ rfl
  case h_14 => exact isChained_operatorOf made
  case h_15 => exact absurd made nofun
  case h_4 value | h_12 value =>
    exact Option.some.inj made ▸ parts (.expression value) (List.mem_singleton_self _)
  case h_6 names body =>
    exact Option.some.inj made ▸ parts (.block body) (by simp)
  case h_7 names value =>
    exact Option.some.inj made ▸ parts (.expression value) (by simp)
  all_goals exact Option.some.inj made ▸ rfl

theorem isChained_assemble {rule : Rule} {span : Span} {pieces : List Piece} {piece : Piece}
    (parts : AreChained pieces) (made : assemble rule span pieces = some piece) :
    piece.isChained = true := by
  unfold assemble at made
  split at made
  · next declared => exact Option.some.inj made ▸ isChained_assembleDeclaration parts declared
  · split at made
    · next stated => exact Option.some.inj made ▸ isChained_assembleStatement parts stated
    · exact isChained_assembleExpression parts made

mutual

/-- The piece of a node is chained. -/
theorem isChained_build : {node : Node} → {problems found : List Problem} → {piece : Piece} →
    build node problems = some (piece, found) → piece.isChained = true
  | .leaf rule span text, problems, found, piece, built => by
      rw [build, Option.bind_eq_bind, Option.bind_eq_some_iff] at built
      obtain ⟨⟨piece', problems'⟩, made, same⟩ := built
      obtain ⟨rfl, rfl⟩ := Prod.mk.inj (Option.some.inj same)
      exact isChained_ofToken made
  | .branch rule span children, problems, found, piece, built => by
      rw [build, Option.bind_eq_bind, Option.bind_eq_some_iff] at built
      obtain ⟨⟨pieces, problems'⟩, parts, built⟩ := built
      rw [Option.bind_eq_bind, Option.bind_eq_some_iff] at built
      obtain ⟨piece', made, same⟩ := built
      obtain ⟨rfl, rfl⟩ := Prod.mk.inj (Option.some.inj same)
      exact isChained_assemble (areChained_buildAll (List.forall_mem_nil _) parts) made

/-- The pieces of nodes are chained. -/
theorem areChained_buildAll : {nodes : List Node} → {problems found : List Problem} →
    {before pieces : List Piece} → AreChained before →
    buildAll nodes problems before = some (pieces, found) → AreChained pieces
  | [], problems, found, before, pieces, chained, built => by
      rw [buildAll] at built
      obtain ⟨rfl, rfl⟩ := Prod.mk.inj (Option.some.inj built)
      exact fun piece inside ↦ chained piece (List.mem_reverse.mp inside)
  | node :: rest, problems, found, before, pieces, chained, built => by
      rw [buildAll] at built
      split at built
      · exact areChained_buildAll chained built
      · split at built
        · exact absurd built nofun
        · next piece problems' first =>
            exact areChained_buildAll
              (List.forall_mem_cons.mpr ⟨isChained_build first, chained⟩) built

end

end Assembly

/-- The file of a source text is chained. -/
theorem isChained_of_parse {source : SourceUnit} {file : File} (parsed : parse source = .ok file) :
    file.isChained = true := by
  unfold parse at parsed
  split at parsed
  · next file' spans =>
      obtain rfl := Except.ok.inj parsed
      unfold parseSpans at spans
      split at spans
      · exact absurd spans nofun
      · split at spans
        · exact absurd spans nofun
        · next found =>
            unfold Assembly.fileOf at found
            split at found
            · next built =>
                obtain ⟨rfl, -⟩ := Prod.mk.inj (Option.some.inj found)
                split at spans
                · exact Except.ok.inj spans ▸ Assembly.isChained_build built
                · exact absurd spans nofun
            · exact absurd found nofun
  · exact absurd parsed nofun

end GuestScript.Syntax
