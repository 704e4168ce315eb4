import GuestScript.Proofs.Syntax.LikePieces

/-!
# Assembling does not look at positions

The piece of a node is made from the pieces of its parts, and what is made has the same structure
wherever the parts stand. So rule trees that are the same up to positions give files that are, with
problems that are: `bare_fileOf`.
-/

namespace GuestScript.Syntax

open Grammar (Node Rule bareAll)

namespace Assembly

/-! ## Pieces -/

section Pieces

variable {rule : Rule} {span span' : Span} {pieces pieces' : List Piece} {piece : Piece}

theorem functionTail_like {name name' : Identifier} {isPublic isStatic : Bool}
    (like : LikePieces pieces pieces') (named : name.bare = name'.bare)
    (made : functionTail name isPublic isStatic span pieces = some piece) :
    ∃ piece', functionTail name' isPublic isStatic span' pieces' = some piece' ∧
      piece.Like piece' := by
  unfold functionTail at made
  split at made
  · next parameters body =>
      obtain rfl := Option.some.inj made
      obtain _ | ⟨first, _ | ⟨second, _ | _⟩⟩ := like
      cases first with | parameters same =>
      cases second with | block bare =>
      refine ⟨_, rfl, .function ?_⟩
      simp only [FunctionDeclaration.bare, named, same, bare]
  · next parameters type body =>
      obtain rfl := Option.some.inj made
      obtain _ | ⟨first, _ | ⟨second, _ | ⟨third, _ | _⟩⟩⟩ := like
      cases first with | parameters same =>
      cases second with | result type =>
      cases third with | block bare =>
      refine ⟨_, rfl, .function ?_⟩
      simp only [FunctionDeclaration.bare, named, same, bare, Option.map_some, type]
  · exact absurd made nofun

theorem functionOf_like (like : LikePieces pieces pieces')
    (made : functionOf span pieces = some piece) :
    ∃ piece', functionOf span' pieces' = some piece' ∧ piece.Like piece' := by
  unfold functionOf at made
  split at made
  · obtain _ | ⟨_ | _, _ | ⟨_ | _, _ | ⟨third, others⟩⟩⟩ := like
    cases third with | name named =>
    exact functionTail_like others named made
  · obtain _ | ⟨_ | _, _ | ⟨second, others⟩⟩ := like
    cases second with | name named =>
    exact functionTail_like others named made
  · obtain _ | ⟨_ | _, _ | ⟨second, others⟩⟩ := like
    cases second with | name named =>
    exact functionTail_like others named made
  · obtain _ | ⟨first, others⟩ := like
    cases first with | name named =>
    exact functionTail_like others named made
  · exact absurd made nofun

theorem functionType_like {types types' : List TypeExpression}
    (same : types.map TypeExpression.bare = types'.map TypeExpression.bare)
    (made : functionType span types = some piece) :
    ∃ piece', functionType span' types' = some piece' ∧ piece.Like piece' := by
  unfold functionType at made ⊢
  have reversed := congrArg List.reverse same
  rw [← List.map_reverse, ← List.map_reverse] at reversed
  split at made
  · next result parameters shape =>
      obtain rfl := Option.some.inj made
      rw [shape, eq_comm, List.map_cons, List.map_eq_cons_iff] at reversed
      obtain ⟨result', parameters', shape', bare, others⟩ := reversed
      rw [shape']
      refine ⟨_, rfl, .type ?_⟩
      simp only [TypeExpression.bare, bareTypes_eq_map, List.map_reverse, bare, others]
  · exact absurd made nofun

theorem expressionOf_like (like : LikePieces pieces pieces')
    (made : expressionOf pieces = some piece) :
    ∃ piece', expressionOf pieces' = some piece' ∧ piece.Like piece' := by
  rw [expressionOf, Option.bind_eq_bind, Option.bind_eq_some_iff] at made
  obtain ⟨⟨first, rest⟩, operand, made⟩ := made
  rw [Option.bind_eq_bind, Option.bind_eq_some_iff] at made
  obtain ⟨links, found, made⟩ := made
  obtain rfl := Option.some.inj made
  obtain ⟨first', rest', operand', bare, others⟩ := operandOf_like like rfl operand
  obtain ⟨links', found', same⟩ := linksOf_like others rfl rfl found
  refine ⟨.expression (Infix.ofChain first' links').toExpression, ?_, .expression ?_⟩
  · simp only [expressionOf, operand', Option.bind_eq_bind, Option.bind_some, found',
      Option.pure_def]
  · refine Infix.bare_toExpression ?_
    rw [Infix.bare_ofChain, Infix.bare_ofChain, bare]
    exact congrArg _ same

theorem operatorOf_like (made : operatorOf rule span = some piece) :
    ∃ piece', operatorOf rule span' = some piece' ∧ piece.Like piece' := by
  unfold operatorOf at made
  split at made
  all_goals first
    | (obtain rfl := Option.some.inj made; exact ⟨_, rfl, by constructor⟩)
    | exact absurd made nofun

theorem assembleStatement_like (like : LikePieces pieces pieces')
    (made : assembleStatement rule span pieces = some piece) :
    ∃ piece', assembleStatement rule span' pieces' = some piece' ∧ piece.Like piece' := by
  unfold assembleStatement at made
  split at made
  · refine made_like asStatement_like (fun bare ↦ .block ?_) like made
    simp only [Block.bare, bareStatements_eq_map, bare]
  case h_16 => exact absurd made nofun
  case h_8 condition body test inner other whole =>
    obtain rfl := Option.some.inj made
    obtain _ | ⟨first, _ | ⟨second, _ | ⟨third, _ | _⟩⟩⟩ := like
    cases first with | expression condition =>
    cases second with | block body =>
    cases third with | @statement _ chain' chained =>
    cases chain' with
    | conditional =>
        refine ⟨_, rfl, .statement ?_⟩
        rw [Statement.bare, Statement.bare, Alternative.bare, Alternative.bare, condition, body,
          chained]
    | returns value => cases value <;> exact absurd chained nofun
    | _ => exact absurd chained nofun
  -- The piece is made from up to three parts, and those on the other side are of the same kinds.
  all_goals
    obtain rfl := Option.some.inj made
    rcases like with _ | ⟨_, _ | ⟨_, _ | ⟨_, _ | _⟩⟩⟩
    repeat cases ‹Piece.Like _ _›
    refine ⟨_, rfl, ?_⟩
    constructor
    simp only [Statement.bare, Place.bare_binding, Place.bare_field, Option.map_some,
      Option.map_none, Alternative.bare, *]

theorem assembleDeclaration_like (like : LikePieces pieces pieces')
    (made : assembleDeclaration rule span pieces = some piece) :
    ∃ piece', assembleDeclaration rule span' pieces' = some piece' ∧ piece.Like piece' := by
  unfold assembleDeclaration at made
  split at made
  · obtain rfl := Option.some.inj made
    refine ⟨_, rfl, .file ?_⟩
    simp only [File.bare, filterMap_like asUsedModule_like like,
      flatMap_like asDeclarations_like like]
  case h_4 =>
    refine made_like asName_like (fun {names names'} bare ↦ ?_) like made
    have same := congrArg (List.map Identifier.name) bare
    rw [List.map_map, List.map_map] at same
    have same : names.map Identifier.name = names'.map Identifier.name := same
    rw [same]
    exact .dotted _
  case h_5 namespaceName types =>
    obtain _ | ⟨first, others⟩ := like
    cases first
    refine made_like asDeclaration_like (fun {types types'} bare ↦ .group ?_) others made
    have moved := congrArg
      (List.map fun declaration : TypeDeclaration ↦ { declaration with namespaceName }) bare
    rw [List.map_map, List.map_map] at moved ⊢
    exact moved
  case h_6 name members =>
    obtain rfl := Option.some.inj made
    obtain _ | ⟨first, others⟩ := like
    cases first with | name named =>
    refine ⟨_, rfl, .declaration ?_⟩
    simp only [TypeDeclaration.bare, named, filterMap_like asField_like others,
      filterMap_like asFunction_like others]
  case h_9 => exact functionOf_like like made
  case h_10 => exact made_like asParameter_like .parameters like made
  case h_16 =>
    rw [Option.bind_eq_bind, Option.bind_eq_some_iff] at made
    obtain ⟨types, converted, made⟩ := made
    obtain ⟨types', converted', bare⟩ := mapM_like asType_like like converted
    obtain ⟨piece', made', like'⟩ := functionType_like bare made
    refine ⟨piece', ?_, like'⟩
    simpa only [assembleDeclaration, converted', Option.bind_eq_bind, Option.bind_some] using made'
  case h_17 name =>
    obtain rfl := Option.some.inj made
    obtain _ | ⟨first, _ | _⟩ := like
    cases first with | @name _ name' named =>
    refine ⟨_, rfl, .type ?_⟩
    have same : name.name = name'.name := (Identifier.mk.inj named).1
    rw [TypeExpression.bare, TypeExpression.bare, same]
  case h_18 => exact absurd made nofun
  all_goals
    obtain rfl := Option.some.inj made
    rcases like with _ | ⟨_, _ | ⟨_, _ | ⟨_, _ | _⟩⟩⟩
    repeat cases ‹Piece.Like _ _›
    refine ⟨_, rfl, ?_⟩
    constructor <;> simp only [FieldDeclaration.bare, Parameter.bare, TypeExpression.bare,
      Option.map_some, Option.map_none, *]

theorem assembleExpression_like (like : LikePieces pieces pieces')
    (made : assembleExpression rule span pieces = some piece) :
    ∃ piece', assembleExpression rule span' pieces' = some piece' ∧ piece.Like piece' := by
  unfold assembleExpression at made
  split at made
  · exact expressionOf_like like made
  · rw [Option.bind_eq_bind, Option.bind_eq_some_iff] at made
    obtain ⟨value, applied, same⟩ := made
    obtain rfl := Option.some.inj same
    obtain _ | ⟨first, others⟩ := like
    cases first with | expression bare =>
    obtain ⟨value', applied', bare'⟩ := applySuffixes_like others bare applied
    refine ⟨.expression value', ?_, .expression bare'⟩
    simp only [assembleExpression, applied', Option.bind_eq_bind, Option.bind_some, Option.pure_def]
  case h_3 => exact made_like asExpression_like (.arguments span span') like made
  case h_8 => exact made_like asName_like .names like made
  case h_10 =>
    refine made_like asExpression_like (fun bare ↦ .expression ?_) like made
    simp only [Expression.bare, bareExpressions_eq_map, bare]
  case h_11 =>
    refine made_like asName_like (fun bare ↦ .expression ?_) like made
    simp only [Expression.bare, bare]
  case h_14 =>
    cases like
    obtain ⟨piece', made', like'⟩ := operatorOf_like made
    cases rule <;> first
      | exact ⟨piece', made', like'⟩
      | cases made
  case h_15 => cases made
  all_goals
    obtain rfl := Option.some.inj made
    rcases like with _ | ⟨_, _ | ⟨_, _ | ⟨_, _ | _⟩⟩⟩
    repeat cases ‹Piece.Like _ _›
    refine ⟨_, rfl, ?_⟩
    constructor
    simp only [Expression.bare, LambdaBody.bare, *]

end Pieces

/-- Two answers of the assembly that are the same up to positions, or both none. -/
abbrev LikeAnswers : Option Piece → Option Piece → Prop :=
  Option.Rel Piece.Like

/-- Answers are alike if each that is there has one like it on the other side. -/
theorem likeAnswers_of_forall {first second : Option Piece}
    (forward : ∀ piece, first = some piece → ∃ piece', second = some piece' ∧ piece.Like piece')
    (backward : ∀ piece, second = some piece → ∃ piece', first = some piece' ∧ piece.Like piece') :
    LikeAnswers first second := by
  cases first with
  | none =>
      cases second with
      | none => exact .none
      | some piece =>
          obtain ⟨_, absent, _⟩ := backward piece rfl
          exact absurd absent nofun
  | some piece =>
      obtain ⟨piece', rfl, like⟩ := forward piece rfl
      exact .some like

theorem LikeAnswers.orElse {first first' second second' : Option Piece}
    (like : LikeAnswers first first') (others : LikeAnswers second second') :
    LikeAnswers (first.orElse fun _ ↦ second) (first'.orElse fun _ ↦ second') := by
  cases like with
  | some like => exact .some like
  | none => exact others

theorem assemble_eq_orElse (rule : Rule) (span : Span) (pieces : List Piece) :
    assemble rule span pieces = (assembleDeclaration rule span pieces).orElse fun _ ↦
      (assembleStatement rule span pieces).orElse fun _ ↦ assembleExpression rule span pieces := by
  rw [assemble]
  cases assembleDeclaration rule span pieces <;> cases assembleStatement rule span pieces <;> rfl

/-- Like parts make like pieces. -/
theorem assemble_like (rule : Rule) (span span' : Span) {pieces pieces' : List Piece}
    (like : LikePieces pieces pieces') :
    LikeAnswers (assemble rule span pieces) (assemble rule span' pieces') := by
  have declared : LikeAnswers (assembleDeclaration rule span pieces)
      (assembleDeclaration rule span' pieces') :=
    likeAnswers_of_forall (fun _ ↦ assembleDeclaration_like like)
      fun _ ↦ assembleDeclaration_like like.symm
  have stated : LikeAnswers (assembleStatement rule span pieces)
      (assembleStatement rule span' pieces') :=
    likeAnswers_of_forall (fun _ ↦ assembleStatement_like like)
      fun _ ↦ assembleStatement_like like.symm
  have expressed : LikeAnswers (assembleExpression rule span pieces)
      (assembleExpression rule span' pieces') :=
    likeAnswers_of_forall (fun _ ↦ assembleExpression_like like)
      fun _ ↦ assembleExpression_like like.symm
  rw [assemble_eq_orElse, assemble_eq_orElse]
  exact declared.orElse (stated.orElse expressed)

/-! ## Tokens and nodes -/

/-- What a string stands for, and the problems in it, do not depend on where it stands. -/
theorem bare_unescape (span span' : Span) {problems problems' : List Problem}
    (same : bareProblems problems = bareProblems problems') (characters : List Char)
    (value : String) :
    (Literal.unescape span characters value problems).1 =
        (Literal.unescape span' characters value problems').1 ∧
      bareProblems (Literal.unescape span characters value problems).2 =
        bareProblems (Literal.unescape span' characters value problems').2 := by
  fun_induction Literal.unescape span characters value problems generalizing problems' with
  | case1 value problems =>
      refine ⟨rfl, ?_⟩
      rw [Literal.unescape]
      exact bareProblems_reverse same
  | case2 value problems =>
      refine ⟨rfl, ?_⟩
      rw [Literal.unescape]
      exact bareProblems_reverse (congrArg (Problem.unknownEscape ' ' .nowhere :: ·) same)
  | case3 character rest value problems meant escaped ih =>
      simp only [Literal.unescape, escaped]
      exact ih same
  | case4 character rest value problems escaped ih =>
      simp only [Literal.unescape, escaped]
      exact ih (congrArg (Problem.unknownEscape character .nowhere :: ·) same)
  | case5 character rest value problems single pair ih =>
      rw [Literal.unescape]
      · exact ih same
      · exact single
      · exact pair

/-- Answers with problems that are the same up to positions, or no answers. -/
abbrev LikeResults {Answer : Type} (like : Answer → Answer → Prop) :
    Option (Answer × List Problem) → Option (Answer × List Problem) → Prop :=
  Option.Rel fun left right ↦ like left.1 right.1 ∧ bareProblems left.2 = bareProblems right.2

theorem ofToken_like (rule : Rule) (span span' : Span) (text : String) :
    LikeResults Piece.Like (ofToken rule span text) (ofToken rule span' text) := by
  unfold ofToken
  cases rule
  case integerLiteral =>
    simp only [Literal.integer]
    split
    · exact .some ⟨.expression rfl, rfl⟩
    · exact .some ⟨.expression rfl, rfl⟩
  case stringBody =>
    obtain ⟨value, problems⟩ := bare_unescape span span' rfl text.toList ""
    refine .some ⟨?_, problems⟩
    change Piece.Like (.text _) (.text _)
    rw [value]
    exact .text _
  case primitiveType =>
    dsimp only
    repeat' split
    all_goals first
      | exact .none
      | exact .some ⟨.type rfl, rfl⟩
  all_goals first
    | exact .none
    | exact .some ⟨by constructor; rfl, rfl⟩
    | exact .some ⟨by constructor, rfl⟩

theorem rel_bind {First First' Second Second' : Type} {like : First → First' → Prop}
    {like' : Second → Second' → Prop} {answer : Option First} {answer' : Option First'}
    {next : First → Option Second} {next' : First' → Option Second'}
    (first : Option.Rel like answer answer')
    (goes : ∀ left right, like left right → Option.Rel like' (next left) (next' right)) :
    Option.Rel like' (answer >>= next) (answer' >>= next') := by
  cases first with
  | none => exact .none
  | some like => exact goes _ _ like

theorem problemsOf_like (rule : Rule) (span span' : Span) :
    bareProblems (problemsOf rule span) = bareProblems (problemsOf rule span') := by
  cases rule <;> rfl

mutual

/-- Nodes that are the same up to positions mean the same up to positions. -/
theorem build_like : (node node' : Node) → {problems problems' : List Problem} →
    node.bare = node'.bare → bareProblems problems = bareProblems problems' →
    LikeResults Piece.Like (build node problems) (build node' problems')
  | .leaf rule span text, .leaf rule' span' text', problems, problems', bare, same => by
      obtain ⟨rfl, -, rfl⟩ := Node.leaf.inj bare
      rw [build, build]
      refine rel_bind (ofToken_like rule span span' text) ?_
      rintro ⟨piece, found⟩ ⟨piece', found'⟩ ⟨like, noted⟩
      exact .some ⟨like, bareProblems_append (bareProblems_reverse noted) same⟩
  | .leaf .., .branch .., _, _, bare, _ | .branch .., .leaf .., _, _, bare, _ => absurd bare nofun
  | .branch rule span children, .branch rule' span' children', problems, problems', bare, same => by
      obtain ⟨rfl, -, inside⟩ := Node.branch.inj bare
      have parts := buildAll_like children children' inside
        (bareProblems_append (problemsOf_like rule span span') same) .nil
      rw [build, build]
      refine rel_bind parts ?_
      rintro ⟨pieces, found⟩ ⟨pieces', found'⟩ ⟨like, noted⟩
      refine rel_bind (assemble_like rule span span' like) fun piece piece' like ↦ ?_
      exact .some ⟨like, noted⟩

/-- The pieces of nodes that are the same up to positions are too. -/
theorem buildAll_like : (nodes nodes' : List Node) → {problems problems' : List Problem} →
    {pieces pieces' : List Piece} → bareAll nodes = bareAll nodes' →
    bareProblems problems = bareProblems problems' → LikePieces pieces pieces' →
    LikeResults LikePieces (buildAll nodes problems pieces) (buildAll nodes' problems' pieces')
  | [], [], problems, problems', pieces, pieces', _, same, like => by
      rw [buildAll, buildAll]
      exact .some ⟨List.rel_reverse like, same⟩
  | [], _ :: _, _, _, _, _, bare, _, _ | _ :: _, [], _, _, _, _, bare, _, _ => absurd bare nofun
  | node :: rest, node' :: rest', problems, problems', pieces, pieces', bare, same, like => by
      obtain ⟨here, others⟩ := List.cons.inj bare
      have rule : node.rule = node'.rule := by rw [← node.rule_bare, here, node'.rule_bare]
      rw [buildAll, buildAll, rule]
      split
      · exact buildAll_like rest rest' others same like
      · generalize build node problems = answer, build node' problems' = answer',
          build_like node node' here same = first
        cases first with
        | none => exact .none
        | some both => exact buildAll_like rest rest' others both.2 (.cons both.1 like)

end

/-- Rule trees that are the same up to positions describe files that are, with problems that are. -/
theorem bare_fileOf {node node' : Node} (bare : node.bare = node'.bare) :
    LikeResults (fun file file' ↦ file.bare = file'.bare) (fileOf node) (fileOf node') := by
  rw [fileOf, fileOf]
  have start : bareProblems [] = bareProblems [] := rfl
  generalize build node [] = answer, build node' [] = answer', build_like node node' bare start = whole
  cases whole with
  | none => exact .none
  | @some left right both =>
      obtain ⟨piece, problems⟩ := left
      obtain ⟨piece', problems'⟩ := right
      obtain ⟨like, noted⟩ := both
      cases like with
      | file bare => exact .some ⟨bare, bareProblems_reverse noted⟩
      | _ => exact .none

end Assembly

end GuestScript.Syntax
