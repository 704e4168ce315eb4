import GuestScript.Proofs.Syntax.Meanings
import GuestScript.Proofs.Syntax.Parsed
import GuestScript.Proofs.Syntax.PlainNames
import GuestScript.Proofs.Syntax.Spellings

/-!
# Names of a text are plain

An identifier and the digits of a number are on one line, so they are plain whatever the vocabulary.
Assembling puts the names of the parts of a rule into its piece and makes up none. So the names in the
file of a source text are plain, and so is what its problems say, apart from the character of an
unknown escape.
-/

namespace GuestScript.Syntax

open Grammar (Node Rule)

variable (words : Vocabulary)

/-- The names in a piece are plain. -/
def Piece.IsPlain : Piece → Prop
  | .name made | .member made _ | .usedModule made => made.IsPlain words
  | .names made => ∀ name ∈ made, name.IsPlain words
  | .dotted made => words.plain made
  | .type made | .result made => made.IsPlain words
  | .parameter made => made.IsPlain words
  | .parameters made => ∀ parameter ∈ made, parameter.IsPlain words
  | .expression value | .index value _ => value.IsPlain words
  | .arguments values _ => arePlain words values
  | .place target => target.IsPlain words
  | .statement made => made.IsPlain words
  | .block made => made.IsPlain words
  | .field made => made.IsPlain words
  | .function made => made.IsPlain words
  | .declaration made => made.IsPlain words
  | .group made => ∀ declaration ∈ made, declaration.IsPlain words
  | .file made => made.IsPlain words
  | .publicMark | .staticMark | .text _ | .unary .. | .binary _ | .ending => True

/-- What a problem says is plain, whatever the character of an unknown escape is. -/
def Problem.IsPlain : Problem → Prop
  | .integerOutOfRange digits _ => words.plain digits
  | .usesFeature .. | .unknownEscape .. => True

variable {words}

/-! ## Operators and suffixes -/

theorem isPlain_applyUnary (operators : List (UnaryOperator × Span)) {operand : Expression}
    (plain : operand.IsPlain words) : (applyUnary operators operand).IsPlain words := by
  induction operators with
  | nil => exact plain
  | cons first rest ih => exact ih

namespace Infix

/-- The names in operands that are grouped are plain. -/
def IsPlain (words : Vocabulary) : Infix → Prop
  | .leaf value => value.IsPlain words
  | .node _ left right => left.IsPlain words ∧ right.IsPlain words

theorem isPlain_toExpression {tree : Infix} (plain : tree.IsPlain words) :
    tree.toExpression.IsPlain words := by
  induction tree with
  | leaf value => exact plain
  | node operator left right left' right' => exact ⟨left' plain.1, right' plain.2⟩

theorem isPlain_append {operator : BinaryOperator} {operand : Expression} {tree : Infix}
    (plain : tree.IsPlain words) (last : operand.IsPlain words) :
    (append operator operand tree).IsPlain words := by
  induction tree with
  | leaf value => exact ⟨plain, last⟩
  | node outer left right _ right' =>
      rw [append]
      split
      · exact ⟨plain, last⟩
      · exact ⟨plain.1, right' plain.2⟩

theorem isPlain_ofChain {first : Expression} {links : List (BinaryOperator × Expression)}
    (plain : first.IsPlain words) (others : ∀ link ∈ links, link.2.IsPlain words) :
    (ofChain first links).IsPlain words :=
  List.foldlRecOn links _ plain fun _ before link inside ↦ isPlain_append before (others link inside)

end Infix

namespace Assembly

variable (words) in
/-- The names in each of these pieces are plain. -/
abbrev ArePlain (pieces : List Piece) : Prop :=
  ∀ piece ∈ pieces, piece.IsPlain words

theorem asName_plain (piece : Piece) (name : Identifier) (converted : asName piece = some name)
    (plain : piece.IsPlain words) : name.IsPlain words := by
  cases piece with
  | name name' => exact Option.some.inj converted ▸ plain
  | _ => exact absurd converted nofun

theorem asType_plain (piece : Piece) (type : TypeExpression) (converted : asType piece = some type)
    (plain : piece.IsPlain words) : type.IsPlain words := by
  cases piece with
  | type type' => exact Option.some.inj converted ▸ plain
  | _ => exact absurd converted nofun

theorem asParameter_plain (piece : Piece) (parameter : Parameter)
    (converted : asParameter piece = some parameter) (plain : piece.IsPlain words) :
    parameter.IsPlain words := by
  cases piece with
  | parameter parameter' => exact Option.some.inj converted ▸ plain
  | _ => exact absurd converted nofun

theorem asExpression_plain (piece : Piece) (value : Expression)
    (converted : asExpression piece = some value) (plain : piece.IsPlain words) :
    value.IsPlain words := by
  cases piece with
  | expression value' => exact Option.some.inj converted ▸ plain
  | _ => exact absurd converted nofun

theorem asStatement_plain (piece : Piece) (statement : Statement)
    (converted : asStatement piece = some statement) (plain : piece.IsPlain words) :
    statement.IsPlain words := by
  cases piece with
  | statement statement' => exact Option.some.inj converted ▸ plain
  | _ => exact absurd converted nofun

theorem asDeclaration_plain (piece : Piece) (declaration : TypeDeclaration)
    (converted : asDeclaration piece = some declaration) (plain : piece.IsPlain words) :
    declaration.IsPlain words := by
  cases piece with
  | declaration declaration' => exact Option.some.inj converted ▸ plain
  | _ => exact absurd converted nofun

theorem asDeclarations_plain (piece : Piece) (plain : piece.IsPlain words) :
    ∀ declaration ∈ asDeclarations piece, declaration.IsPlain words := by
  cases piece with
  | declaration declaration => exact List.forall_mem_singleton.mpr plain
  | group declarations => exact plain
  | _ => exact nofun

theorem asField_plain (piece : Piece) (field : FieldDeclaration)
    (converted : asField piece = some field) (plain : piece.IsPlain words) :
    field.IsPlain words := by
  cases piece with
  | field field' => exact Option.some.inj converted ▸ plain
  | _ => exact absurd converted nofun

theorem asFunction_plain (piece : Piece) (function : FunctionDeclaration)
    (converted : asFunction piece = some function) (plain : piece.IsPlain words) :
    function.IsPlain words := by
  cases piece with
  | function function' => exact Option.some.inj converted ▸ plain
  | _ => exact absurd converted nofun

theorem applySuffixes_plain {target value : Expression} {pieces : List Piece}
    (parts : ArePlain words pieces) (plain : target.IsPlain words)
    (applied : applySuffixes target pieces = some value) : value.IsPlain words := by
  induction target, pieces using applySuffixes.induct with
  | case1 target =>
      rw [applySuffixes] at applied
      exact Option.some.inj applied ▸ plain
  | case2 target values span rest ih | case3 target index span rest ih =>
      rw [applySuffixes] at applied
      obtain ⟨here, others⟩ := List.forall_mem_cons.mp parts
      exact ih others ⟨plain, here⟩ applied
  | case4 target name span values span' rest ih =>
      rw [applySuffixes] at applied
      obtain ⟨named, parts⟩ := List.forall_mem_cons.mp parts
      obtain ⟨here, others⟩ := List.forall_mem_cons.mp parts
      exact ih others ⟨plain, named, here⟩ applied
  | case5 target name span rest other ih =>
      rw [applySuffixes] at applied
      · obtain ⟨here, others⟩ := List.forall_mem_cons.mp parts
        exact ih others ⟨plain, here⟩ applied
      · exact other
  | case6 target pieces =>
      rw [applySuffixes] at applied
      · cases applied
      all_goals assumption

/-! ## Pieces -/

theorem functionTail_plain {name : Identifier} {isPublic isStatic : Bool} {span : Span}
    {pieces : List Piece} {piece : Piece} (named : name.IsPlain words)
    (parts : ArePlain words pieces)
    (made : functionTail name isPublic isStatic span pieces = some piece) :
    piece.IsPlain words := by
  unfold functionTail at made
  split at made
  · simp only [ArePlain, List.forall_mem_cons, Piece.IsPlain] at parts
    obtain ⟨parameters, body, -⟩ := parts
    exact Option.some.inj made ▸ ⟨named, parameters, nofun, body⟩
  · simp only [ArePlain, List.forall_mem_cons, Piece.IsPlain] at parts
    obtain ⟨parameters, result, body, -⟩ := parts
    exact Option.some.inj made ▸
      ⟨named, parameters, fun type same ↦ Option.some.inj same ▸ result, body⟩
  · exact absurd made nofun

theorem functionOf_plain {span : Span} {pieces : List Piece} {piece : Piece}
    (parts : ArePlain words pieces) (made : functionOf span pieces = some piece) :
    piece.IsPlain words := by
  unfold functionOf at made
  split at made
  case h_5 => exact absurd made nofun
  all_goals
    simp only [ArePlain, List.forall_mem_cons, Piece.IsPlain, true_and] at parts
    exact functionTail_plain parts.1 parts.2 made

theorem expressionOf_plain {pieces : List Piece} {piece : Piece} (parts : ArePlain words pieces)
    (made : expressionOf pieces = some piece) : piece.IsPlain words := by
  rw [expressionOf, Option.bind_eq_bind, Option.bind_eq_some_iff] at made
  obtain ⟨⟨first, rest⟩, operand, made⟩ := made
  rw [Option.bind_eq_bind, Option.bind_eq_some_iff] at made
  obtain ⟨links, found, made⟩ := made
  have unary (operators : List (UnaryOperator × Span)) (value : Expression) (plain : value.IsPlain words) :=
    isPlain_applyUnary operators plain
  obtain ⟨first', inside⟩ := operandOf_keeps unary (fun value ↦ parts (.expression value)) operand
  have links' := linksOf_keeps unary (fun value member ↦ parts (.expression value) (inside member))
    (List.forall_mem_nil _) found
  obtain rfl := Option.some.inj made
  exact Infix.isPlain_toExpression (Infix.isPlain_ofChain first' links')

theorem functionType_plain {span : Span} {types : List TypeExpression} {piece : Piece}
    (plain : ∀ type ∈ types, type.IsPlain words) (made : functionType span types = some piece) :
    piece.IsPlain words := by
  unfold functionType at made
  split at made
  · next result parameters reversed =>
      obtain rfl : types = parameters.reverse ++ [result] := by
        rw [← List.reverse_cons, ← reversed, List.reverse_reverse]
      obtain ⟨parameters', result'⟩ := List.forall_mem_append.mp plain
      exact Option.some.inj made ▸
        ⟨typesArePlain_iff.mpr parameters', result' result List.mem_cons_self⟩
  · exact absurd made nofun

theorem isPlain_operatorOf {rule : Rule} {span : Span} {piece : Piece}
    (made : operatorOf rule span = some piece) : piece.IsPlain words := by
  unfold operatorOf at made
  split at made
  all_goals first
    | (cases made; trivial)
    | exact absurd made nofun

theorem isPlain_assembleDeclaration {rule : Rule} {span : Span} {pieces : List Piece}
    {piece : Piece} (parts : ArePlain words pieces)
    (made : assembleDeclaration rule span pieces = some piece) : piece.IsPlain words := by
  unfold assembleDeclaration at made
  split at made
  · obtain rfl := Option.some.inj made
    intro declaration inside
    obtain ⟨part, member, inside⟩ := List.mem_flatMap.mp inside
    exact asDeclarations_plain part (parts part member) declaration inside
  case h_4 =>
    rw [Option.bind_eq_bind, Option.bind_eq_some_iff] at made
    obtain ⟨names, converted, same⟩ := made
    obtain rfl := Option.some.inj same
    have named := forall_of_mapM asName_plain parts converted
    exact words.plain_intercalate (words.plain_of_lineFree (by decide))
      (List.forall_mem_map.mpr named)
  case h_5 namespaceName types =>
    rw [Option.bind_eq_bind, Option.bind_eq_some_iff] at made
    obtain ⟨declarations, converted, same⟩ := made
    obtain rfl := Option.some.inj same
    obtain ⟨named, types'⟩ := List.forall_mem_cons.mp parts
    have plain := forall_of_mapM asDeclaration_plain types' converted
    refine List.forall_mem_map.mpr fun declaration inside ↦ ?_
    exact { plain declaration inside with namespaceName := named }
  case h_6 name members =>
    obtain rfl := Option.some.inj made
    obtain ⟨named, members'⟩ := List.forall_mem_cons.mp parts
    have unnamed : words.plain "" := words.plain_of_lineFree (by decide)
    refine ⟨unnamed, named, fun field inside ↦ ?_, fun function inside ↦ ?_⟩
    · obtain ⟨part, member, converted⟩ := List.mem_filterMap.mp inside
      exact asField_plain part field converted (members' part member)
    · obtain ⟨part, member, converted⟩ := List.mem_filterMap.mp inside
      exact asFunction_plain part function converted (members' part member)
  case h_9 => exact functionOf_plain parts made
  case h_10 =>
    rw [Option.bind_eq_bind, Option.bind_eq_some_iff] at made
    obtain ⟨parameters, converted, same⟩ := made
    exact Option.some.inj same ▸ forall_of_mapM asParameter_plain parts converted
  case h_16 =>
    rw [Option.bind_eq_bind, Option.bind_eq_some_iff] at made
    obtain ⟨types, converted, made⟩ := made
    exact functionType_plain (forall_of_mapM asType_plain parts converted) made
  case h_18 => exact absurd made nofun
  all_goals
    obtain rfl := Option.some.inj made
    simp only [ArePlain, List.forall_mem_cons, Piece.IsPlain] at parts
  case h_2 => trivial
  case h_7 => exact ⟨parts.1, parts.2.1, nofun⟩
  case h_8 => exact ⟨parts.1, parts.2.1, fun value same ↦ Option.some.inj same ▸ parts.2.2.1⟩
  case h_11 => exact ⟨parts.1, parts.2.1⟩
  all_goals exact parts.1

theorem isPlain_assembleStatement {rule : Rule} {span : Span} {pieces : List Piece}
    {piece : Piece} (parts : ArePlain words pieces)
    (made : assembleStatement rule span pieces = some piece) : piece.IsPlain words := by
  unfold assembleStatement at made
  split at made
  · rw [Option.bind_eq_bind, Option.bind_eq_some_iff] at made
    obtain ⟨statements, converted, same⟩ := made
    obtain rfl := Option.some.inj same
    exact statementsArePlain_iff.mpr (forall_of_mapM asStatement_plain parts converted)
  case h_16 => exact absurd made nofun
  all_goals
    obtain rfl := Option.some.inj made
    simp only [ArePlain, List.forall_mem_cons, Piece.IsPlain, Statement.IsPlain] at parts
  case h_12 => exact parts.1
  case h_14 => exact parts.2.1
  all_goals simp only [Piece.IsPlain, Statement.IsPlain, Alternative.IsPlain, parts, and_self]

theorem isPlain_assembleExpression {rule : Rule} {span : Span} {pieces : List Piece}
    {piece : Piece} (parts : ArePlain words pieces)
    (made : assembleExpression rule span pieces = some piece) : piece.IsPlain words := by
  unfold assembleExpression at made
  split at made
  · exact expressionOf_plain parts made
  · rw [Option.bind_eq_bind, Option.bind_eq_some_iff] at made
    obtain ⟨value, applied, same⟩ := made
    obtain rfl := Option.some.inj same
    obtain ⟨here, suffixes⟩ := List.forall_mem_cons.mp parts
    exact applySuffixes_plain suffixes here applied
  case h_3 | h_10 =>
    rw [Option.bind_eq_bind, Option.bind_eq_some_iff] at made
    obtain ⟨values, converted, same⟩ := made
    obtain rfl := Option.some.inj same
    exact arePlain_iff.mpr (forall_of_mapM asExpression_plain parts converted)
  case h_8 | h_11 =>
    rw [Option.bind_eq_bind, Option.bind_eq_some_iff] at made
    obtain ⟨names, converted, same⟩ := made
    obtain rfl := Option.some.inj same
    exact forall_of_mapM asName_plain parts converted
  case h_14 => exact isPlain_operatorOf made
  case h_15 => exact absurd made nofun
  all_goals
    obtain rfl := Option.some.inj made
    simp only [ArePlain, List.forall_mem_cons, Piece.IsPlain] at parts
  case h_6 | h_7 => exact ⟨parts.1, parts.2.1⟩
  case h_13 => trivial
  all_goals exact parts.1

theorem isPlain_assemble {rule : Rule} {span : Span} {pieces : List Piece} {piece : Piece}
    (parts : ArePlain words pieces) (made : assemble rule span pieces = some piece) :
    piece.IsPlain words := by
  unfold assemble at made
  split at made
  · next declared => exact Option.some.inj made ▸ isPlain_assembleDeclaration parts declared
  · split at made
    · next stated => exact Option.some.inj made ▸ isPlain_assembleStatement parts stated
    · exact isPlain_assembleExpression parts made

/-! ## Tokens -/

section Tokens

open Grammar.Pattern

variable {characters : List Char}

/-- No character of a class is one that is not in it. -/
theorem ne_of_spells_one {accepts : Char → Bool} {barred : Char} (refuses : accepts barred = false)
    (spelled : (one accepts).Spells characters) : ∀ character ∈ characters, character ≠ barred := by
  obtain ⟨character, accepted, rfl⟩ := spells_one.mp spelled
  refine List.forall_mem_singleton.mpr ?_
  rintro rfl
  exact absurd accepted (by rw [refuses]; exact nofun)

/-- An identifier has letters, digits and underscores alone. -/
theorem notMem_of_identifier {barred : Char} (alphanumeric : barred.isAlphanum = false)
    (underscore : barred ≠ '_') (spelled : Rule.identifier.body.Spells characters) :
    barred ∉ characters := by
  have word {characters : List Char} (spelled : (word "_").Spells characters) :
      ∀ character ∈ characters, character ≠ barred := by
    obtain rfl := spells_text.mp spelled
    exact List.forall_mem_singleton.mpr underscore.symm
  have start {characters : List Char} (spelled : identifierStart.Spells characters) :
      ∀ character ∈ characters, character ≠ barred :=
    (spells_choice.mp spelled).elim (ne_of_spells_one (Bool.or_eq_false_iff.mp alphanumeric).1) word
  have part {characters : List Char} (spelled : identifierPart.Spells characters) :
      ∀ character ∈ characters, character ≠ barred :=
    (spells_choice.mp spelled).elim (ne_of_spells_one alphanumeric) word
  simp only [Rule.body, inOrder, spells_sequence, spells_unless, exists_eq_left,
    List.nil_append] at spelled
  obtain ⟨_, ⟨first, begun, rest, parts, rfl⟩, rfl⟩ := spelled
  rw [List.mem_append]
  rintro (inside | inside)
  · exact start begun _ inside rfl
  · exact forall_of_spells_many (fun _ ↦ part) parts _ inside rfl

theorem lineFree_of_identifier (spelled : Rule.identifier.body.Spells characters) :
    '\n' ∉ characters :=
  notMem_of_identifier (by decide) (by decide) spelled

theorem lineFree_of_integerLiteral (spelled : Rule.integerLiteral.body.Spells characters) :
    '\n' ∉ characters := by
  simp only [Rule.body, inOrder, spells_sequence] at spelled
  obtain ⟨first, start, rest, digits, rfl⟩ := spelled
  rw [List.mem_append]
  rintro (inside | inside)
  · exact ne_of_spells_one (by decide) start _ inside rfl
  · exact forall_of_spells_many (fun _ ↦ ne_of_spells_one (by decide)) digits _ inside rfl

end Tokens

theorem isPlain_integer {digits : String} {span : Span} (plain : words.plain digits) :
    ∀ problem ∈ (Literal.integer digits span).2, problem.IsPlain words := by
  unfold Literal.integer
  dsimp only
  split
  · exact nofun
  · exact List.forall_mem_singleton.mpr plain

/-- The piece of a token is plain, and so is what is wrong with it. -/
theorem isPlain_ofToken {rule : Rule} {span : Span} {text : String} {piece : Piece}
    {found : List Problem} (spelled : rule.body.Spells text.toList)
    (made : ofToken rule span text = some (piece, found)) :
    piece.IsPlain words ∧ ∀ problem ∈ found, problem.IsPlain words := by
  unfold ofToken at made
  split at made
  case h_1 =>
    obtain ⟨rfl, rfl⟩ := Prod.mk.inj (Option.some.inj made)
    exact ⟨words.plain_of_lineFree (lineFree_of_identifier spelled), nofun⟩
  case h_6 =>
    obtain ⟨rfl, rfl⟩ := Prod.mk.inj (Option.some.inj made)
    exact ⟨trivial, isPlain_integer (words.plain_of_lineFree (lineFree_of_integerLiteral spelled))⟩
  case h_7 =>
    obtain ⟨rfl, rfl⟩ := Prod.mk.inj (Option.some.inj made)
    exact ⟨trivial, Literal.forall_unescape _ (fun _ ↦ trivial) _ _ [] (List.forall_mem_nil _)⟩
  case h_8 =>
    repeat' split at made
    case isFalse => exact absurd made nofun
    all_goals
      obtain ⟨rfl, rfl⟩ := Prod.mk.inj (Option.some.inj made)
      exact ⟨trivial, by first | exact List.forall_mem_nil _ | exact List.forall_mem_singleton.mpr trivial⟩
  case h_9 => exact absurd made nofun
  all_goals
    obtain ⟨rfl, rfl⟩ := Prod.mk.inj (Option.some.inj made)
    exact ⟨trivial, nofun⟩

mutual

/-- The piece of a node that follows the grammar is plain, and so is what is wrong with it. -/
theorem isPlain_build : {node : Node} → {problems found : List Problem} → {piece : Piece} →
    node.IsDerived → (∀ problem ∈ problems, problem.IsPlain words) →
    build node problems = some (piece, found) →
    piece.IsPlain words ∧ ∀ problem ∈ found, problem.IsPlain words
  | .leaf rule span text, problems, found, piece, derived, before, built => by
      rw [build, Option.bind_eq_bind, Option.bind_eq_some_iff] at built
      obtain ⟨⟨piece', problems'⟩, made, same⟩ := built
      obtain ⟨rfl, rfl⟩ := Prod.mk.inj (Option.some.inj same)
      cases derived with
      | leaf _ spelled =>
          obtain ⟨plain, further⟩ := isPlain_ofToken spelled made
          exact ⟨plain, List.forall_mem_append.mpr
            ⟨fun problem inside ↦ further problem (List.mem_reverse.mp inside), before⟩⟩
  | .branch rule span children, problems, found, piece, derived, before, built => by
      rw [build, Option.bind_eq_bind, Option.bind_eq_some_iff] at built
      obtain ⟨⟨pieces, problems'⟩, parts, built⟩ := built
      rw [Option.bind_eq_bind, Option.bind_eq_some_iff] at built
      obtain ⟨piece', made, same⟩ := built
      obtain ⟨rfl, rfl⟩ := Prod.mk.inj (Option.some.inj same)
      cases derived with
      | branch _ _ each =>
          have here : ∀ problem ∈ problemsOf rule span ++ problems, problem.IsPlain words := by
            refine List.forall_mem_append.mpr ⟨?_, before⟩
            unfold problemsOf
            split
            · exact List.forall_mem_singleton.mpr trivial
            · exact nofun
          obtain ⟨plain, further⟩ := arePlain_buildAll each here (List.forall_mem_nil _) parts
          exact ⟨isPlain_assemble plain made, further⟩

/-- The pieces of nodes that follow the grammar are plain, and so is what is wrong with them. -/
theorem arePlain_buildAll : {nodes : List Node} → {problems found : List Problem} →
    {pieces made : List Piece} → (∀ node ∈ nodes, node.IsDerived) →
    (∀ problem ∈ problems, problem.IsPlain words) → ArePlain words pieces →
    buildAll nodes problems pieces = some (made, found) →
    ArePlain words made ∧ ∀ problem ∈ found, problem.IsPlain words
  | [], problems, found, pieces, made, _, before, plain, built => by
      rw [buildAll] at built
      obtain ⟨rfl, rfl⟩ := Prod.mk.inj (Option.some.inj built)
      exact ⟨fun piece inside ↦ plain piece (List.mem_reverse.mp inside), before⟩
  | node :: rest, problems, found, pieces, made, derived, before, plain, built => by
      obtain ⟨here, others⟩ := List.forall_mem_cons.mp derived
      rw [buildAll] at built
      split at built
      · exact arePlain_buildAll others before plain built
      · split at built
        · exact absurd built nofun
        · next piece problems' first =>
            obtain ⟨plain', further⟩ := isPlain_build here before first
            exact arePlain_buildAll others further (List.forall_mem_cons.mpr ⟨plain', plain⟩) built

end

/-- The file of a tree that follows the grammar is plain, and so is what is wrong with it. -/
theorem isPlain_fileOf {node : Node} {file : File} {problems : List Problem}
    (derived : node.IsDerived) (found : fileOf node = some (file, problems)) :
    file.IsPlain words ∧ ∀ problem ∈ problems, problem.IsPlain words := by
  unfold fileOf at found
  split at found
  · next built =>
      obtain ⟨rfl, rfl⟩ := Prod.mk.inj (Option.some.inj found)
      obtain ⟨plain, further⟩ := isPlain_build derived (List.forall_mem_nil _) built
      exact ⟨plain, fun problem inside ↦ further problem (List.mem_reverse.mp inside)⟩
  · exact absurd found nofun

end Assembly

/-- What parsing gives for a text: it does not follow the grammar, or it has a tree with plain names,
or there are problems with it. -/
theorem parseSpans_cases (words : Vocabulary) (source : SourceUnit) :
    (∃ farthest, parseSpans source = .error [syntaxError source farthest]) ∨
    (∃ file : File, file.IsPlain words ∧ parseSpans source = .ok file) ∨
    ∃ problems : List Problem, problems ≠ [] ∧ (∀ problem ∈ problems, problem.IsPlain words) ∧
      parseSpans source = .error (problems.map (Problem.diagnostic source.version)) := by
  -- The equation of the definition is no way in: checking it evaluates the matcher.
  delta parseSpans
  cases read : Grammar.readFile source.text with
  | error farthest => exact .inl ⟨farthest, rfl⟩
  | ok node =>
      obtain ⟨whole, derived⟩ := Grammar.isDerived_readFile read
      obtain ⟨file, problems, found⟩ := Assembly.exists_fileOf derived whole
      obtain ⟨plain, further⟩ := Assembly.isPlain_fileOf derived found
      simp only [found]
      cases applicable : problems.filter (Problem.appliesTo source.version) with
      | nil => exact .inr (.inl ⟨file, plain, rfl⟩)
      | cons first rest =>
          refine .inr (.inr ⟨first :: rest, nofun, fun problem inside ↦ ?_, rfl⟩)
          rw [← applicable] at inside
          exact further problem (List.mem_filter.mp inside).1

/-- The names in the file of a source text are plain. -/
theorem isPlain_of_parse {source : SourceUnit} {file : File} (parsed : parse source = .ok file) :
    file.IsPlain words := by
  unfold parse at parsed
  split at parsed
  · next file' spans =>
      obtain rfl := Except.ok.inj parsed
      obtain ⟨_, same⟩ | ⟨file, plain, same⟩ | ⟨_, _, _, same⟩ := parseSpans_cases words source
      · exact absurd (same.symm.trans spans) nofun
      · exact Except.ok.inj (same.symm.trans spans) ▸ plain
      · exact absurd (same.symm.trans spans) nofun
  · exact absurd parsed nofun

end GuestScript.Syntax
