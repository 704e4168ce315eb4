import GuestScript.Proofs.Syntax.PlainAssembly

/-!
# Names of types have no dots

The name of a type and that of its namespace are joined by a dot, so the name of the type must have
none for the whole to be read in one way. In a file that is parsed it has none: it is an identifier.
-/

namespace GuestScript.Syntax

open Grammar (Node Rule)

/-- There is no dot in the name of a type. -/
def TypeDeclaration.IsUndotted (declaration : TypeDeclaration) : Prop :=
  '.' ∉ declaration.name.name.toList

/-- There is no dot in a name, or in the names of declared types. -/
def Piece.IsUndotted : Piece → Prop
  | .name made => '.' ∉ made.name.toList
  | .declaration made => made.IsUndotted
  | .group made => ∀ declaration ∈ made, declaration.IsUndotted
  | .file made => ∀ declaration ∈ made.types, declaration.IsUndotted
  | _ => True

namespace Assembly

/-- There is no dot in the names of each of these pieces. -/
abbrev AreUndotted (pieces : List Piece) : Prop :=
  ∀ piece ∈ pieces, piece.IsUndotted

theorem asDeclaration_undotted (piece : Piece) (declaration : TypeDeclaration)
    (converted : asDeclaration piece = some declaration) (undotted : piece.IsUndotted) :
    declaration.IsUndotted := by
  cases piece with
  | declaration made => exact Option.some.inj converted ▸ undotted
  | _ => exact absurd converted nofun

theorem asDeclarations_undotted (piece : Piece) (undotted : piece.IsUndotted) :
    ∀ declaration ∈ asDeclarations piece, declaration.IsUndotted := by
  cases piece with
  | declaration made => exact List.forall_mem_singleton.mpr undotted
  | group made => exact undotted
  | _ => exact nofun

theorem functionOf_undotted {span : Span} {pieces : List Piece} {piece : Piece}
    (made : functionOf span pieces = some piece) : piece.IsUndotted := by
  have tail {name : Identifier} {isPublic isStatic : Bool} {pieces : List Piece}
      (made : functionTail name isPublic isStatic span pieces = some piece) :
      piece.IsUndotted := by
    unfold functionTail at made
    split at made
    case h_3 => exact absurd made nofun
    all_goals exact Option.some.inj made ▸ trivial
  unfold functionOf at made
  split at made
  case h_5 => exact absurd made nofun
  all_goals exact tail made

theorem isUndotted_assembleDeclaration {rule : Rule} {span : Span} {pieces : List Piece}
    {piece : Piece} (parts : AreUndotted pieces)
    (made : assembleDeclaration rule span pieces = some piece) : piece.IsUndotted := by
  unfold assembleDeclaration at made
  split at made
  · obtain rfl := Option.some.inj made
    intro declaration inside
    obtain ⟨part, member, inside⟩ := List.mem_flatMap.mp inside
    exact asDeclarations_undotted part (parts part member) declaration inside
  case h_5 namespaceName types =>
    rw [Option.bind_eq_bind, Option.bind_eq_some_iff] at made
    obtain ⟨declarations, converted, same⟩ := made
    obtain rfl := Option.some.inj same
    have types' := (List.forall_mem_cons.mp parts).2
    exact List.forall_mem_map.mpr (forall_of_mapM asDeclaration_undotted types' converted)
  case h_6 name members =>
    exact Option.some.inj made ▸ (List.forall_mem_cons.mp parts).1
  case h_9 => exact functionOf_undotted made
  case h_4 | h_10 =>
    rw [Option.bind_eq_bind, Option.bind_eq_some_iff] at made
    obtain ⟨_, -, same⟩ := made
    exact Option.some.inj same ▸ trivial
  case h_16 =>
    rw [Option.bind_eq_bind, Option.bind_eq_some_iff] at made
    obtain ⟨types, -, made⟩ := made
    unfold functionType at made
    split at made
    · exact Option.some.inj made ▸ trivial
    · exact absurd made nofun
  case h_18 => exact absurd made nofun
  all_goals exact Option.some.inj made ▸ trivial

theorem isUndotted_assembleStatement {rule : Rule} {span : Span} {pieces : List Piece}
    {piece : Piece} (made : assembleStatement rule span pieces = some piece) :
    piece.IsUndotted := by
  unfold assembleStatement at made
  split at made
  · rw [Option.bind_eq_bind, Option.bind_eq_some_iff] at made
    obtain ⟨_, -, same⟩ := made
    exact Option.some.inj same ▸ trivial
  case h_16 => exact absurd made nofun
  all_goals exact Option.some.inj made ▸ trivial

theorem isUndotted_assembleExpression {rule : Rule} {span : Span} {pieces : List Piece}
    {piece : Piece} (made : assembleExpression rule span pieces = some piece) :
    piece.IsUndotted := by
  unfold assembleExpression at made
  split at made
  · rw [expressionOf, Option.bind_eq_bind, Option.bind_eq_some_iff] at made
    obtain ⟨_, -, made⟩ := made
    rw [Option.bind_eq_bind, Option.bind_eq_some_iff] at made
    obtain ⟨_, -, same⟩ := made
    exact Option.some.inj same ▸ trivial
  case h_2 | h_3 | h_8 | h_10 | h_11 =>
    rw [Option.bind_eq_bind, Option.bind_eq_some_iff] at made
    obtain ⟨_, -, same⟩ := made
    exact Option.some.inj same ▸ trivial
  case h_14 =>
    unfold operatorOf at made
    split at made
    all_goals first
      | exact Option.some.inj made ▸ trivial
      | cases made
  case h_15 => cases made
  all_goals exact Option.some.inj made ▸ trivial

theorem isUndotted_assemble {rule : Rule} {span : Span} {pieces : List Piece} {piece : Piece}
    (parts : AreUndotted pieces) (made : assemble rule span pieces = some piece) :
    piece.IsUndotted := by
  unfold assemble at made
  split at made
  · next declared => exact Option.some.inj made ▸ isUndotted_assembleDeclaration parts declared
  · split at made
    · next stated => exact Option.some.inj made ▸ isUndotted_assembleStatement stated
    · exact isUndotted_assembleExpression made

theorem isUndotted_ofToken {rule : Rule} {span : Span} {text : String} {piece : Piece}
    {found : List Problem} (spelled : rule.body.Spells text.toList)
    (made : ofToken rule span text = some (piece, found)) : piece.IsUndotted := by
  unfold ofToken at made
  split at made
  case h_1 =>
    obtain ⟨rfl, -⟩ := Prod.mk.inj (Option.some.inj made)
    exact notMem_of_identifier (by decide) (by decide) spelled
  case h_8 =>
    repeat' split at made
    case isFalse => exact absurd made nofun
    all_goals
      obtain ⟨rfl, -⟩ := Prod.mk.inj (Option.some.inj made)
      trivial
  case h_9 => exact absurd made nofun
  all_goals
    obtain ⟨rfl, -⟩ := Prod.mk.inj (Option.some.inj made)
    trivial

mutual

/-- In the piece of a node that follows the grammar, no type has a name with a dot. -/
theorem isUndotted_build : {node : Node} → {problems found : List Problem} → {piece : Piece} →
    node.IsDerived → build node problems = some (piece, found) → piece.IsUndotted
  | .leaf rule span text, problems, found, piece, derived, built => by
      rw [build, Option.bind_eq_bind, Option.bind_eq_some_iff] at built
      obtain ⟨⟨piece', problems'⟩, made, same⟩ := built
      obtain ⟨rfl, -⟩ := Prod.mk.inj (Option.some.inj same)
      cases derived with
      | leaf _ spelled => exact isUndotted_ofToken spelled made
  | .branch rule span children, problems, found, piece, derived, built => by
      rw [build, Option.bind_eq_bind, Option.bind_eq_some_iff] at built
      obtain ⟨⟨pieces, problems'⟩, parts, built⟩ := built
      rw [Option.bind_eq_bind, Option.bind_eq_some_iff] at built
      obtain ⟨piece', made, same⟩ := built
      obtain ⟨rfl, -⟩ := Prod.mk.inj (Option.some.inj same)
      cases derived with
      | branch _ _ each =>
          exact isUndotted_assemble (areUndotted_buildAll each (List.forall_mem_nil _) parts) made

/-- In the pieces of nodes that follow the grammar, no type has a name with a dot. -/
theorem areUndotted_buildAll : {nodes : List Node} → {problems found : List Problem} →
    {before pieces : List Piece} → (∀ node ∈ nodes, node.IsDerived) → AreUndotted before →
    buildAll nodes problems before = some (pieces, found) → AreUndotted pieces
  | [], problems, found, before, pieces, _, undotted, built => by
      rw [buildAll] at built
      obtain ⟨rfl, -⟩ := Prod.mk.inj (Option.some.inj built)
      exact fun piece inside ↦ undotted piece (List.mem_reverse.mp inside)
  | node :: rest, problems, found, before, pieces, derived, undotted, built => by
      obtain ⟨here, others⟩ := List.forall_mem_cons.mp derived
      rw [buildAll] at built
      split at built
      · exact areUndotted_buildAll others undotted built
      · split at built
        · exact absurd built nofun
        · next piece problems' first =>
            exact areUndotted_buildAll others
              (List.forall_mem_cons.mpr ⟨isUndotted_build here first, undotted⟩) built

end

end Assembly

/-- In the file of a source text, no type has a name with a dot. -/
theorem isUndotted_of_parse {source : SourceUnit} {file : File} (parsed : parse source = .ok file) :
    ∀ declaration ∈ file.types, declaration.IsUndotted := by
  unfold parse at parsed
  split at parsed
  · next file' spans =>
      obtain rfl := Except.ok.inj parsed
      -- The equation of the definition is no way in: checking it evaluates the matcher.
      delta parseSpans at spans
      split at spans
      · exact absurd spans nofun
      · next node read =>
          have derived := (Grammar.isDerived_readFile read).2
          split at spans
          · exact absurd spans nofun
          · next found =>
              unfold Assembly.fileOf at found
              split at found
              · next built =>
                  obtain ⟨rfl, -⟩ := Prod.mk.inj (Option.some.inj found)
                  split at spans
                  · exact Except.ok.inj spans ▸ Assembly.isUndotted_build derived built
                  · exact absurd spans nofun
              · exact absurd found nofun
  · exact absurd parsed nofun

end GuestScript.Syntax
