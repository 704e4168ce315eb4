import GuestScript.Proofs.Syntax.Parsed
import GuestScript.Syntax.Tree

/-!
# The string literals of a tree

The values of the string literals that occur in a tree at any depth, each with where it stands. Only
the rule of string literals makes one, so what holds of the literals of its parts holds of those of any
other piece: `strings_assemble`.
-/

namespace GuestScript.Syntax

open Grammar (Rule)

/-- The value of a string literal and where it stands. -/
abbrev StringLiteral :=
  String × Span

mutual

/-- The string literals of an expression. -/
def Expression.strings : Expression → List StringLiteral
  | .str value span => [(value, span)]
  | .int .. | .bool .. | .receiver _ | .path .. | .construct .. => []
  | .array items _ => stringsIn items
  | .call callee arguments _ => callee.strings ++ stringsIn arguments
  | .method target _ arguments _ => target.strings ++ stringsIn arguments
  | .field target _ _ => target.strings
  | .element target index _ => target.strings ++ index.strings
  | .lambda _ body _ => body.strings
  | .unary _ operand _ => operand.strings
  | .binary _ left right _ => left.strings ++ right.strings

/-- The string literals of expressions. -/
def stringsIn : List Expression → List StringLiteral
  | [] => []
  | first :: rest => first.strings ++ stringsIn rest

/-- The string literals in the body of a lambda. -/
def LambdaBody.strings : LambdaBody → List StringLiteral
  | .expression value => value.strings
  | .block body => body.strings

/-- The string literals of a block. -/
def Block.strings : Block → List StringLiteral
  | .mk statements _ => stringsOfStatements statements

/-- The string literals of statements. -/
def stringsOfStatements : List Statement → List StringLiteral
  | [] => []
  | first :: rest => first.strings ++ stringsOfStatements rest

/-- The string literals of a statement. -/
def Statement.strings : Statement → List StringLiteral
  | .declare _ _ value _ => value.strings
  | .assign _ value _ => value.strings
  | .forEach _ iterable body _ => iterable.strings ++ body.strings
  | .whileLoop test body _ => test.strings ++ body.strings
  | .conditional test body other _ => test.strings ++ body.strings ++ other.strings
  | .returns none _ => []
  | .returns (some value) _ => value.strings
  | .evaluate value => value.strings

/-- The string literals of an alternative. -/
def Alternative.strings : Alternative → List StringLiteral
  | .absent => []
  | .block body => body.strings
  | .chain conditional => conditional.strings

end

/-- The string literals of a function. -/
def FunctionDeclaration.strings (function : FunctionDeclaration) : List StringLiteral :=
  function.body.strings

/-- The string literals of the first value of a field. -/
def FieldDeclaration.strings (field : FieldDeclaration) : List StringLiteral :=
  match field.value with
  | none => []
  | some value => value.strings

/-- The string literals of a type. -/
def TypeDeclaration.strings (type : TypeDeclaration) : List StringLiteral :=
  type.fields.flatMap FieldDeclaration.strings ++ type.functions.flatMap FunctionDeclaration.strings

/-- The string literals of a file. -/
def File.strings (file : File) : List StringLiteral :=
  file.types.flatMap TypeDeclaration.strings

/-- The string literals of a piece. -/
def Piece.strings : Piece → List StringLiteral
  | .expression value | .index value _ => value.strings
  | .arguments values _ => stringsIn values
  | .statement made => made.strings
  | .block made => made.strings
  | .field made => made.strings
  | .function made => made.strings
  | .declaration made => made.strings
  | .group made => made.flatMap TypeDeclaration.strings
  | .file made => made.strings
  | _ => []

theorem stringsIn_eq_flatMap (values : List Expression) :
    stringsIn values = values.flatMap Expression.strings := by
  induction values with
  | nil => rfl
  | cons first rest ih => rw [stringsIn, ih, List.flatMap_cons]

theorem stringsOfStatements_eq_flatMap (statements : List Statement) :
    stringsOfStatements statements = statements.flatMap Statement.strings := by
  induction statements with
  | nil => rfl
  | cons first rest ih => rw [stringsOfStatements, ih, List.flatMap_cons]

/-! ## Operators and suffixes -/

theorem strings_applyUnary (operators : List (UnaryOperator × Span)) (operand : Expression) :
    (applyUnary operators operand).strings = operand.strings := by
  induction operators with
  | nil => rfl
  | cons first rest ih => exact ih

namespace Infix

/-- The string literals of operands that are grouped. -/
def strings : Infix → List StringLiteral
  | .leaf value => value.strings
  | .node _ left right => left.strings ++ right.strings

theorem strings_toExpression (tree : Infix) : tree.toExpression.strings = tree.strings := by
  induction tree with
  | leaf value => rfl
  | node operator left right left' right' =>
      rw [toExpression, Expression.strings, left', right', strings]

theorem strings_append (operator : BinaryOperator) (operand : Expression) (tree : Infix) :
    (append operator operand tree).strings = tree.strings ++ operand.strings := by
  induction tree with
  | leaf value => rfl
  | node outer left right _ right' =>
      rw [append]
      split
      · rfl
      · rw [strings, right', strings, List.append_assoc]

theorem strings_ofChain (first : Expression) (links : List (BinaryOperator × Expression)) :
    (ofChain first links).strings =
      first.strings ++ links.flatMap fun link ↦ link.2.strings := by
  have step (tree : Infix) :
      (links.foldl (fun tree link ↦ tree.append link.1 link.2) tree).strings =
        tree.strings ++ links.flatMap fun link ↦ link.2.strings := by
    induction links generalizing tree with
    | nil => exact (List.append_nil _).symm
    | cons link rest ih =>
        rw [List.foldl_cons, ih, strings_append, List.append_assoc, List.flatMap_cons]
  exact step (.leaf first)

end Infix

namespace Assembly

theorem asExpression_strings (piece : Piece) (value : Expression)
    (converted : asExpression piece = some value) : value.strings = piece.strings := by
  cases piece with
  | expression value' => exact Option.some.inj converted ▸ rfl
  | _ => exact absurd converted nofun

theorem asStatement_strings (piece : Piece) (statement : Statement)
    (converted : asStatement piece = some statement) : statement.strings = piece.strings := by
  cases piece with
  | statement statement' => exact Option.some.inj converted ▸ rfl
  | _ => exact absurd converted nofun

theorem asDeclaration_strings (piece : Piece) (declaration : TypeDeclaration)
    (converted : asDeclaration piece = some declaration) :
    declaration.strings = piece.strings := by
  cases piece with
  | declaration declaration' => exact Option.some.inj converted ▸ rfl
  | _ => exact absurd converted nofun

theorem asDeclarations_strings (piece : Piece) :
    (asDeclarations piece).flatMap TypeDeclaration.strings ⊆ piece.strings := by
  cases piece with
  | declaration declaration =>
      exact fun _ inside ↦ (List.mem_append.mp inside).resolve_right List.not_mem_nil
  | group declarations => exact List.Subset.refl _
  | _ => exact List.nil_subset _

theorem asField_strings (piece : Piece) (field : FieldDeclaration)
    (converted : asField piece = some field) : field.strings = piece.strings := by
  cases piece with
  | field field' => exact Option.some.inj converted ▸ rfl
  | _ => exact absurd converted nofun

theorem asFunction_strings (piece : Piece) (function : FunctionDeclaration)
    (converted : asFunction piece = some function) : function.strings = piece.strings := by
  cases piece with
  | function function' => exact Option.some.inj converted ▸ rfl
  | _ => exact absurd converted nofun

/-- Conversions that some pieces do not fit keep the literals of those that do. -/
theorem flatMap_filterMap_subset {Target : Type} {convert : Piece → Option Target}
    {literals : Target → List StringLiteral}
    (keeps : ∀ piece target, convert piece = some target → literals target = piece.strings)
    (pieces : List Piece) :
    (pieces.filterMap convert).flatMap literals ⊆ pieces.flatMap Piece.strings := by
  intro literal inside
  obtain ⟨target, member, inside⟩ := List.mem_flatMap.mp inside
  obtain ⟨piece, member, converted⟩ := List.mem_filterMap.mp member
  rw [keeps piece target converted] at inside
  exact List.mem_flatMap.mpr ⟨piece, member, inside⟩

theorem operandOf_strings {operators : List (UnaryOperator × Span)} {pieces rest : List Piece}
    {value : Expression} (found : operandOf operators pieces = some (value, rest)) :
    value.strings ++ rest.flatMap Piece.strings = pieces.flatMap Piece.strings := by
  induction operators, pieces using operandOf.induct with
  | case1 operators operator span behind ih =>
      rw [operandOf] at found
      exact (ih found).trans rfl
  | case2 operators value' behind =>
      rw [operandOf] at found
      obtain ⟨rfl, rfl⟩ := Prod.mk.inj (Option.some.inj found)
      rw [strings_applyUnary]
      rfl
  | case3 operators pieces =>
      rw [operandOf] at found
      · cases found
      all_goals assumption

theorem linksOf_strings {waiting : Option (BinaryOperator × List (UnaryOperator × Span))}
    {pieces : List Piece} {links result : List (BinaryOperator × Expression)}
    (found : linksOf waiting pieces links = some result) :
    (result.flatMap fun link ↦ link.2.strings) =
      (links.reverse.flatMap fun link ↦ link.2.strings) ++ pieces.flatMap Piece.strings := by
  induction waiting, pieces, links using linksOf.induct with
  | case1 links =>
      rw [linksOf] at found
      obtain rfl := Option.some.inj found
      exact (List.append_nil _).symm
  | case2 operator rest links ih | case3 operator waiting inner span rest links ih =>
      rw [linksOf] at found
      exact (ih found).trans rfl
  | case4 operator waiting value rest links ih =>
      rw [linksOf] at found
      rw [ih found, List.reverse_cons, List.flatMap_append, List.flatMap_singleton,
        strings_applyUnary, List.append_assoc]
      rfl
  | case5 waiting pieces links =>
      rw [linksOf] at found
      · cases found
      all_goals assumption

theorem applySuffixes_strings {target value : Expression} {pieces : List Piece}
    (applied : applySuffixes target pieces = some value) :
    value.strings = target.strings ++ pieces.flatMap Piece.strings := by
  induction target, pieces using applySuffixes.induct with
  | case1 target =>
      rw [applySuffixes] at applied
      exact Option.some.inj applied ▸ (List.append_nil _).symm
  | case2 target values span rest ih =>
      rw [applySuffixes] at applied
      exact (ih applied).trans (List.append_assoc ..)
  | case3 target index span rest ih =>
      rw [applySuffixes] at applied
      exact (ih applied).trans (List.append_assoc ..)
  | case4 target name span values span' rest ih =>
      rw [applySuffixes] at applied
      exact (ih applied).trans (List.append_assoc ..)
  | case5 target name span rest other ih =>
      rw [applySuffixes] at applied
      · exact ih applied
      · exact other
  | case6 target pieces =>
      rw [applySuffixes] at applied
      · cases applied
      all_goals assumption

/-! ## Pieces -/

theorem functionTail_strings {name : Identifier} {isPublic isStatic : Bool} {span : Span}
    {pieces : List Piece} {piece : Piece}
    (made : functionTail name isPublic isStatic span pieces = some piece) :
    piece.strings = pieces.flatMap Piece.strings := by
  unfold functionTail at made
  split at made
  · exact Option.some.inj made ▸ (List.append_nil _).symm
  · exact Option.some.inj made ▸ (List.append_nil _).symm
  · exact absurd made nofun

theorem functionOf_strings {span : Span} {pieces : List Piece} {piece : Piece}
    (made : functionOf span pieces = some piece) : piece.strings = pieces.flatMap Piece.strings := by
  unfold functionOf at made
  split at made
  · exact (functionTail_strings made).trans rfl
  · exact (functionTail_strings made).trans rfl
  · exact (functionTail_strings made).trans rfl
  · exact (functionTail_strings made).trans rfl
  · exact absurd made nofun

theorem expressionOf_strings {pieces : List Piece} {piece : Piece}
    (made : expressionOf pieces = some piece) :
    piece.strings = pieces.flatMap Piece.strings := by
  rw [expressionOf, Option.bind_eq_bind, Option.bind_eq_some_iff] at made
  obtain ⟨⟨first, rest⟩, operand, made⟩ := made
  rw [Option.bind_eq_bind, Option.bind_eq_some_iff] at made
  obtain ⟨links, found, made⟩ := made
  obtain rfl := Option.some.inj made
  rw [Piece.strings, Infix.strings_toExpression, Infix.strings_ofChain, linksOf_strings found,
    ← operandOf_strings operand]
  rfl

theorem strings_ofToken {rule : Rule} {span : Span} {text : String} {piece : Piece}
    {problems : List Problem} (made : ofToken rule span text = some (piece, problems)) :
    piece.strings = [] := by
  unfold ofToken at made
  split at made
  case h_8 =>
    repeat' split at made
    all_goals first
      | (cases made; rfl)
      | exact absurd made nofun
  all_goals first
    | (cases made; rfl)
    | exact absurd made nofun

theorem strings_operatorOf {rule : Rule} {span : Span} {piece : Piece}
    (made : operatorOf rule span = some piece) : piece.strings = [] := by
  unfold operatorOf at made
  split at made
  all_goals first
    | (cases made; rfl)
    | exact absurd made nofun

theorem strings_assembleDeclaration {rule : Rule} {span : Span} {pieces : List Piece}
    {piece : Piece} (made : assembleDeclaration rule span pieces = some piece) :
    piece.strings ⊆ pieces.flatMap Piece.strings := by
  unfold assembleDeclaration at made
  split at made
  · obtain rfl := Option.some.inj made
    intro literal inside
    obtain ⟨declaration, member, inside⟩ := List.mem_flatMap.mp inside
    obtain ⟨part, present, member⟩ := List.mem_flatMap.mp member
    have kept := asDeclarations_strings part (List.mem_flatMap.mpr ⟨declaration, member, inside⟩)
    exact List.mem_flatMap.mpr ⟨part, present, kept⟩
  case h_5 namespaceName types =>
    rw [Option.bind_eq_bind, Option.bind_eq_some_iff] at made
    obtain ⟨declarations, converted, same⟩ := made
    obtain rfl := Option.some.inj same
    rw [Piece.strings, List.flatMap_map]
    exact fun _ inside ↦ flatMap_of_mapM asDeclaration_strings converted ▸ inside
  case h_6 name members =>
    obtain rfl := Option.some.inj made
    exact List.append_subset.mpr ⟨flatMap_filterMap_subset asField_strings members,
      flatMap_filterMap_subset asFunction_strings members⟩
  case h_8 name type value =>
    obtain rfl := Option.some.inj made
    exact List.subset_append_left _ _
  case h_9 => exact fun _ inside ↦ functionOf_strings made ▸ inside
  case h_4 | h_10 =>
    rw [Option.bind_eq_bind, Option.bind_eq_some_iff] at made
    obtain ⟨converted, -, same⟩ := made
    exact Option.some.inj same ▸ List.nil_subset _
  case h_16 =>
    rw [Option.bind_eq_bind, Option.bind_eq_some_iff] at made
    obtain ⟨types, -, made⟩ := made
    unfold functionType at made
    split at made
    · exact Option.some.inj made ▸ List.nil_subset _
    · exact absurd made nofun
  case h_18 => exact absurd made nofun
  all_goals exact Option.some.inj made ▸ List.nil_subset _

theorem strings_assembleStatement {rule : Rule} {span : Span} {pieces : List Piece}
    {piece : Piece} (made : assembleStatement rule span pieces = some piece) :
    piece.strings ⊆ pieces.flatMap Piece.strings := by
  unfold assembleStatement at made
  split at made
  · rw [Option.bind_eq_bind, Option.bind_eq_some_iff] at made
    obtain ⟨statements, converted, same⟩ := made
    obtain rfl := Option.some.inj same
    rw [Piece.strings, Block.strings, stringsOfStatements_eq_flatMap]
    exact fun _ inside ↦ flatMap_of_mapM asStatement_strings converted ▸ inside
  case h_16 => exact absurd made nofun
  all_goals
    obtain rfl := Option.some.inj made
    simp [Piece.strings, Statement.strings, Alternative.strings]

theorem strings_assembleExpression {rule : Rule} (other : rule ≠ .stringLiteral) {span : Span}
    {pieces : List Piece} {piece : Piece} (made : assembleExpression rule span pieces = some piece) :
    piece.strings ⊆ pieces.flatMap Piece.strings := by
  unfold assembleExpression at made
  split at made
  · exact fun _ inside ↦ expressionOf_strings made ▸ inside
  · rw [Option.bind_eq_bind, Option.bind_eq_some_iff] at made
    obtain ⟨value, applied, same⟩ := made
    obtain rfl := Option.some.inj same
    intro literal inside
    rwa [Piece.strings, applySuffixes_strings applied] at inside
  case h_3 | h_10 =>
    rw [Option.bind_eq_bind, Option.bind_eq_some_iff] at made
    obtain ⟨values, converted, same⟩ := made
    obtain rfl := Option.some.inj same
    have gathered : stringsIn values = pieces.flatMap Piece.strings :=
      (stringsIn_eq_flatMap values).trans (flatMap_of_mapM asExpression_strings converted)
    exact fun _ inside ↦ gathered ▸ inside
  case h_8 | h_11 =>
    rw [Option.bind_eq_bind, Option.bind_eq_some_iff] at made
    obtain ⟨names, -, same⟩ := made
    exact Option.some.inj same ▸ List.nil_subset _
  case h_13 => exact absurd rfl other
  case h_14 =>
    rw [strings_operatorOf made]
    exact List.nil_subset _
  case h_15 => exact absurd made nofun
  case h_4 | h_6 | h_7 | h_12 =>
    obtain rfl := Option.some.inj made
    simp [Piece.strings, Expression.strings, LambdaBody.strings]
  all_goals exact Option.some.inj made ▸ List.nil_subset _

/-- Only the rule of string literals adds one to those of its parts. -/
theorem strings_assemble {rule : Rule} (other : rule ≠ .stringLiteral) {span : Span}
    {pieces : List Piece} {piece : Piece} (made : assemble rule span pieces = some piece) :
    piece.strings ⊆ pieces.flatMap Piece.strings := by
  unfold assemble at made
  split at made
  · next declared => exact Option.some.inj made ▸ strings_assembleDeclaration declared
  · split at made
    · next stated => exact Option.some.inj made ▸ strings_assembleStatement stated
    · exact strings_assembleExpression other made

end Assembly

end GuestScript.Syntax
