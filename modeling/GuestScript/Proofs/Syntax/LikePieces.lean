import Mathlib.Data.List.Forall2
import GuestScript.Proofs.Syntax.Bare
import GuestScript.Syntax.Assembly

/-!
# Pieces that are the same up to positions

A piece of a syntax tree has positions in it, but none of the operations on pieces looks at them: on
pieces that are the same up to positions, grouping operands by their operators, applying suffixes and
converting pieces give results that are the same up to positions.
-/

namespace GuestScript.Syntax

/-- Two pieces that are the same up to positions. -/
inductive Piece.Like : Piece → Piece → Prop
  | name {first second : Identifier} : first.bare = second.bare → Like (.name first) (.name second)
  | names {first second : List Identifier} :
      first.map Identifier.bare = second.map Identifier.bare → Like (.names first) (.names second)
  | dotted (name : String) : Like (.dotted name) (.dotted name)
  | publicMark : Like .publicMark .publicMark
  | staticMark : Like .staticMark .staticMark
  | text (value : String) : Like (.text value) (.text value)
  | unary (operator : UnaryOperator) (span span' : Span) :
      Like (.unary operator span) (.unary operator span')
  | binary (operator : BinaryOperator) : Like (.binary operator) (.binary operator)
  | type {first second : TypeExpression} : first.bare = second.bare →
      Like (.type first) (.type second)
  | result {first second : TypeExpression} : first.bare = second.bare →
      Like (.result first) (.result second)
  | parameter {first second : Parameter} : first.bare = second.bare →
      Like (.parameter first) (.parameter second)
  | parameters {first second : List Parameter} :
      first.map Parameter.bare = second.map Parameter.bare →
      Like (.parameters first) (.parameters second)
  | expression {first second : Expression} : first.bare = second.bare →
      Like (.expression first) (.expression second)
  | arguments {first second : List Expression} (span span' : Span) :
      first.map Expression.bare = second.map Expression.bare →
      Like (.arguments first span) (.arguments second span')
  | index {first second : Expression} (span span' : Span) : first.bare = second.bare →
      Like (.index first span) (.index second span')
  | member {first second : Identifier} (span span' : Span) : first.bare = second.bare →
      Like (.member first span) (.member second span')
  | place {first second : Place} : first.bare = second.bare → Like (.place first) (.place second)
  | statement {first second : Statement} : first.bare = second.bare →
      Like (.statement first) (.statement second)
  | block {first second : Block} : first.bare = second.bare → Like (.block first) (.block second)
  | field {first second : FieldDeclaration} : first.bare = second.bare →
      Like (.field first) (.field second)
  | function {first second : FunctionDeclaration} : first.bare = second.bare →
      Like (.function first) (.function second)
  | declaration {first second : TypeDeclaration} : first.bare = second.bare →
      Like (.declaration first) (.declaration second)
  | group {first second : List TypeDeclaration} :
      first.map TypeDeclaration.bare = second.map TypeDeclaration.bare →
      Like (.group first) (.group second)
  | usedModule {first second : Identifier} : first.bare = second.bare →
      Like (.usedModule first) (.usedModule second)
  | ending : Like .ending .ending
  | file {first second : File} : first.bare = second.bare → Like (.file first) (.file second)

theorem Piece.Like.symm {first second : Piece} (like : first.Like second) : second.Like first := by
  cases like <;> constructor <;> exact Eq.symm ‹_›

/-- Pieces that are the same up to positions, one by one. -/
abbrev LikePieces : List Piece → List Piece → Prop :=
  List.Forall₂ Piece.Like

theorem LikePieces.symm {first second : List Piece} (like : LikePieces first second) :
    LikePieces second first :=
  .flip (like.imp fun _ _ ↦ Piece.Like.symm)

/-! ## Operators and suffixes -/

/-- Unary operators without their positions. -/
abbrev bareOperators (operators : List (UnaryOperator × Span)) : List UnaryOperator :=
  operators.map Prod.fst

theorem bare_applyUnary {operators operators' : List (UnaryOperator × Span)}
    {operand operand' : Expression} (same : bareOperators operators = bareOperators operators')
    (bare : operand.bare = operand'.bare) :
    (applyUnary operators operand).bare = (applyUnary operators' operand').bare := by
  induction operators generalizing operators' with
  | nil =>
      obtain rfl := List.map_eq_nil_iff.mp same.symm
      exact bare
  | cons first rest ih =>
      obtain ⟨first', rest', rfl, here, others⟩ := List.map_eq_cons_iff.mp same.symm
      have inner := ih others.symm
      exact congrArg₂ (Expression.unary · · .nowhere) here.symm inner

namespace Infix

/-- Operands that are grouped, without positions. -/
def bare : Infix → Infix
  | .leaf value => .leaf value.bare
  | .node operator left right => .node operator left.bare right.bare

theorem bare_append (operator : BinaryOperator) (operand : Expression) (tree : Infix) :
    (append operator operand tree).bare = append operator operand.bare tree.bare := by
  induction tree with
  | leaf value => rfl
  | node outer left right _ ih =>
      rw [append, bare, append]
      split
      · rfl
      · rw [bare, ih]

theorem bare_ofChain (first : Expression) (links : List (BinaryOperator × Expression)) :
    (ofChain first links).bare = ofChain first.bare (links.map (Prod.map id Expression.bare)) := by
  have step (tree : Infix) :
      (links.foldl (fun tree link ↦ tree.append link.1 link.2) tree).bare =
        (links.map (Prod.map id Expression.bare)).foldl (fun tree link ↦ tree.append link.1 link.2)
          tree.bare := by
    induction links generalizing tree with
    | nil => rfl
    | cons link rest ih =>
        rw [List.foldl_cons, ih, bare_append]
        rfl
  exact step (.leaf first)

theorem bare_toExpression {tree tree' : Infix} (same : tree.bare = tree'.bare) :
    tree.toExpression.bare = tree'.toExpression.bare := by
  induction tree generalizing tree' with
  | leaf value =>
      cases tree' with
      | leaf value' => exact Infix.leaf.inj same
      | node => exact absurd same nofun
  | node operator left right left' right' =>
      cases tree' with
      | leaf => exact absurd same nofun
      | node operator' left'' right'' =>
          obtain ⟨rfl, first, second⟩ := Infix.node.inj same
          exact congrArg₂ (Expression.binary operator · · .nowhere) (left' first) (right' second)

end Infix

namespace Assembly

theorem operandOf_like {pieces pieces' rest : List Piece}
    {operators operators' : List (UnaryOperator × Span)} {value : Expression}
    (like : LikePieces pieces pieces') (same : bareOperators operators = bareOperators operators')
    (found : operandOf operators pieces = some (value, rest)) :
    ∃ value' rest', operandOf operators' pieces' = some (value', rest') ∧
      value.bare = value'.bare ∧ LikePieces rest rest' := by
  induction operators, pieces using operandOf.induct generalizing operators' pieces' with
  | case1 operators operator span behind ih =>
      cases like with | cons here others =>
      cases here
      rw [operandOf] at found ⊢
      refine ih others ?_ found
      rw [bareOperators, bareOperators, List.map_append, List.map_append]
      exact congrArg (· ++ [operator]) same
  | case2 operators value' behind =>
      cases like with | cons here others =>
      cases here with | expression bare =>
      rw [operandOf] at found ⊢
      obtain ⟨rfl, rfl⟩ := Prod.mk.inj (Option.some.inj found)
      exact ⟨_, _, rfl, bare_applyUnary same bare, others⟩
  | case3 operators pieces =>
      rw [operandOf] at found
      · exact absurd found nofun
      all_goals assumption

/-- An operator and its operand without positions. -/
abbrev bareLinks (links : List (BinaryOperator × Expression)) : List (BinaryOperator × Expression) :=
  links.map (Prod.map id Expression.bare)

/-- An operator that waits for its operand, without positions. -/
abbrev bareWaiting (waiting : Option (BinaryOperator × List (UnaryOperator × Span))) :
    Option (BinaryOperator × List UnaryOperator) :=
  waiting.map (Prod.map id bareOperators)

theorem linksOf_like {pieces pieces' : List Piece}
    {waiting waiting' : Option (BinaryOperator × List (UnaryOperator × Span))}
    {links links' result : List (BinaryOperator × Expression)} (like : LikePieces pieces pieces')
    (waits : bareWaiting waiting = bareWaiting waiting') (same : bareLinks links = bareLinks links')
    (found : linksOf waiting pieces links = some result) :
    ∃ result', linksOf waiting' pieces' links' = some result' ∧
      bareLinks result = bareLinks result' := by
  induction waiting, pieces, links using linksOf.induct generalizing pieces' waiting' links' with
  | case1 links =>
      obtain rfl := Option.map_eq_none_iff.mp waits.symm
      cases like
      rw [linksOf] at found ⊢
      obtain rfl := Option.some.inj found
      refine ⟨_, rfl, ?_⟩
      rw [bareLinks, bareLinks, List.map_reverse, List.map_reverse]
      exact congrArg List.reverse same
  | case2 operator rest links ih =>
      obtain rfl := Option.map_eq_none_iff.mp waits.symm
      cases like with | cons here others =>
      cases here
      rw [linksOf] at found ⊢
      exact ih others rfl same found
  | case3 operator waiting inner span rest links ih =>
      obtain ⟨⟨operator', waiting'⟩, rfl, both⟩ := Option.map_eq_some_iff.mp waits.symm
      obtain ⟨rfl, inFront⟩ := Prod.mk.inj both
      cases like with | cons here others =>
      cases here
      rw [linksOf] at found ⊢
      refine ih others ?_ same found
      have longer := congrArg (· ++ [inner]) inFront.symm
      simpa [bareWaiting, bareOperators] using longer
  | case4 operator waiting operand rest links ih =>
      obtain ⟨⟨operator', waiting'⟩, rfl, both⟩ := Option.map_eq_some_iff.mp waits.symm
      obtain ⟨rfl, inFront⟩ := Prod.mk.inj both
      cases like with | cons here others =>
      cases here with | expression bare =>
      rw [linksOf] at found ⊢
      refine ih others rfl ?_ found
      exact congrArg₂ (fun value links ↦ (operator', value) :: links)
        (bare_applyUnary inFront.symm bare) same
  | case5 waiting pieces links =>
      rw [linksOf] at found
      · exact absurd found nofun
      all_goals assumption

theorem applySuffixes_like {pieces pieces' : List Piece} {target target' value : Expression}
    (like : LikePieces pieces pieces') (bare : target.bare = target'.bare)
    (applied : applySuffixes target pieces = some value) :
    ∃ value', applySuffixes target' pieces' = some value' ∧ value.bare = value'.bare := by
  induction target, pieces using applySuffixes.induct generalizing target' pieces' with
  | case1 target =>
      cases like
      rw [applySuffixes] at applied ⊢
      exact ⟨target', rfl, Option.some.inj applied ▸ bare⟩
  | case2 target values span rest ih =>
      cases like with | cons here others =>
      cases here with | arguments _ span' same =>
      rw [applySuffixes] at applied ⊢
      refine ih others ?_ applied
      simp only [Expression.bare, bareExpressions_eq_map, bare, same]
  | case3 target index span rest ih =>
      cases like with | cons here others =>
      cases here with | index _ span' same =>
      rw [applySuffixes] at applied ⊢
      refine ih others ?_ applied
      simp only [Expression.bare, bare, same]
  | case4 target name span values span' rest ih =>
      cases like with | cons here others =>
      cases here with | member _ _ named =>
      cases others with | cons next others =>
      cases next with | arguments _ _ same =>
      rw [applySuffixes] at applied ⊢
      refine ih others ?_ applied
      simp only [Expression.bare, bareExpressions_eq_map, bare, named, same]
  | case5 target name span rest other ih =>
      cases like with | @cons _ _ _ behind here others =>
      cases here with | member _ _ named =>
      have other' (values : List Expression) (span' : Span) (rest' : List Piece) :
          behind = .arguments values span' :: rest' → False := by
        rintro rfl
        cases others with | cons next others =>
        cases next
        exact other _ _ _ rfl
      rw [applySuffixes] at applied ⊢
      · refine ih others ?_ applied
        simp only [Expression.bare, bare, named]
      · exact other'
      · exact other
  | case6 target pieces =>
      rw [applySuffixes] at applied
      · exact absurd applied nofun
      all_goals assumption

/-! ## What pieces are converted to -/

section Conversions

variable {Target : Type} {bare : Target → Target} {pieces pieces' : List Piece}

theorem mapM_like {convert : Piece → Option Target}
    (keeps : ∀ {piece piece' : Piece}, piece.Like piece' →
      (convert piece).map bare = (convert piece').map bare) (like : LikePieces pieces pieces')
    {targets : List Target} (converted : pieces.mapM convert = some targets) :
    ∃ targets', pieces'.mapM convert = some targets' ∧ targets.map bare = targets'.map bare := by
  induction like generalizing targets with
  | nil => exact ⟨targets, converted, rfl⟩
  | cons here _ ih =>
      rw [List.mapM_cons, Option.bind_eq_bind, Option.bind_eq_some_iff] at converted
      obtain ⟨target, first, converted⟩ := converted
      rw [Option.bind_eq_bind, Option.bind_eq_some_iff] at converted
      obtain ⟨others, second, same⟩ := converted
      obtain rfl : target :: others = targets := Option.some.inj same
      obtain ⟨others', second', bare'⟩ := ih second
      have first' := keeps here
      rw [first, Option.map_some, eq_comm, Option.map_eq_some_iff] at first'
      obtain ⟨target', first', bare''⟩ := first'
      refine ⟨target' :: others', ?_, by rw [List.map_cons, List.map_cons, bare', bare'']⟩
      simp only [List.mapM_cons, first', second', Option.bind_eq_bind, Option.bind_some,
        Option.pure_def]

/-- What is made from converted pieces. -/
theorem made_like {convert : Piece → Option Target} {make make' : List Target → Piece}
    (keeps : ∀ {piece piece' : Piece}, piece.Like piece' →
      (convert piece).map bare = (convert piece').map bare)
    (makes : ∀ {targets targets' : List Target}, targets.map bare = targets'.map bare →
      (make targets).Like (make' targets')) (like : LikePieces pieces pieces') {piece : Piece}
    (made : (do pure (make (← pieces.mapM convert))) = some piece) :
    ∃ piece', (do pure (make' (← pieces'.mapM convert))) = some piece' ∧ piece.Like piece' := by
  rw [Option.bind_eq_bind, Option.bind_eq_some_iff] at made
  obtain ⟨targets, converted, same⟩ := made
  obtain rfl := Option.some.inj same
  obtain ⟨targets', converted', bare'⟩ := mapM_like keeps like converted
  refine ⟨make' targets', ?_, makes bare'⟩
  rw [converted']
  rfl

theorem filterMap_like {convert : Piece → Option Target}
    (keeps : ∀ {piece piece' : Piece}, piece.Like piece' →
      (convert piece).map bare = (convert piece').map bare) (like : LikePieces pieces pieces') :
    (pieces.filterMap convert).map bare = (pieces'.filterMap convert).map bare := by
  induction like with
  | nil => rfl
  | @cons piece piece' _ _ here _ ih =>
      have first := keeps here
      rw [List.filterMap_cons, List.filterMap_cons]
      cases left : convert piece with
      | none =>
          rw [left, Option.map_none, eq_comm, Option.map_eq_none_iff] at first
          rw [first]
          exact ih
      | some target =>
          rw [left, Option.map_some, eq_comm, Option.map_eq_some_iff] at first
          obtain ⟨target', right, same⟩ := first
          rw [right]
          exact congrArg₂ List.cons same.symm ih

theorem flatMap_like {convert : Piece → List Target}
    (keeps : ∀ {piece piece' : Piece}, piece.Like piece' →
      (convert piece).map bare = (convert piece').map bare) (like : LikePieces pieces pieces') :
    (pieces.flatMap convert).map bare = (pieces'.flatMap convert).map bare := by
  induction like with
  | nil => rfl
  | cons here _ ih =>
      rw [List.flatMap_cons, List.flatMap_cons, List.map_append, List.map_append, keeps here, ih]

end Conversions

theorem asName_like {piece piece' : Piece} (like : piece.Like piece') :
    (asName piece).map Identifier.bare = (asName piece').map Identifier.bare := by
  cases like with
  | name bare => exact congrArg some bare
  | _ => rfl

theorem asType_like {piece piece' : Piece} (like : piece.Like piece') :
    (asType piece).map TypeExpression.bare = (asType piece').map TypeExpression.bare := by
  cases like with
  | type bare => exact congrArg some bare
  | _ => rfl

theorem asExpression_like {piece piece' : Piece} (like : piece.Like piece') :
    (asExpression piece).map Expression.bare = (asExpression piece').map Expression.bare := by
  cases like with
  | expression bare => exact congrArg some bare
  | _ => rfl

theorem asParameter_like {piece piece' : Piece} (like : piece.Like piece') :
    (asParameter piece).map Parameter.bare = (asParameter piece').map Parameter.bare := by
  cases like with
  | parameter bare => exact congrArg some bare
  | _ => rfl

theorem asStatement_like {piece piece' : Piece} (like : piece.Like piece') :
    (asStatement piece).map Statement.bare = (asStatement piece').map Statement.bare := by
  cases like with
  | statement bare => exact congrArg some bare
  | _ => rfl

theorem asDeclaration_like {piece piece' : Piece} (like : piece.Like piece') :
    (asDeclaration piece).map TypeDeclaration.bare =
      (asDeclaration piece').map TypeDeclaration.bare := by
  cases like with
  | declaration bare => exact congrArg some bare
  | _ => rfl

theorem asDeclarations_like {piece piece' : Piece} (like : piece.Like piece') :
    (asDeclarations piece).map TypeDeclaration.bare =
      (asDeclarations piece').map TypeDeclaration.bare := by
  cases like with
  | declaration bare => exact congrArg (fun declaration ↦ [declaration]) bare
  | group bare => exact bare
  | _ => rfl

theorem asUsedModule_like {piece piece' : Piece} (like : piece.Like piece') :
    (asUsedModule piece).map Identifier.bare = (asUsedModule piece').map Identifier.bare := by
  cases like with
  | usedModule bare => exact congrArg some bare
  | _ => rfl

theorem asField_like {piece piece' : Piece} (like : piece.Like piece') :
    (asField piece).map FieldDeclaration.bare = (asField piece').map FieldDeclaration.bare := by
  cases like with
  | field bare => exact congrArg some bare
  | _ => rfl

theorem asFunction_like {piece piece' : Piece} (like : piece.Like piece') :
    (asFunction piece).map FunctionDeclaration.bare =
      (asFunction piece').map FunctionDeclaration.bare := by
  cases like with
  | function bare => exact congrArg some bare
  | _ => rfl

end Assembly

end GuestScript.Syntax
