import GuestScript.Syntax.Assembly

/-!
# Groupings of operands and operators

A flat sequence of operands and operators is read as a tree. In a `Grouping` the operands are leaves,
whatever they are inside, so that what belongs to the sequence and what to an operand stays apart. A
grouping respects the strengths of its operators if each of them binds no tighter than what stands on
its left and less tightly than what stands on its right, and a unary operator tighter than all others.
Every chain of operands has exactly one grouping that does, and it is the one that assembling an
expression makes: `eq_ofChain_iff` and `expressionOf_pieces`.
-/

namespace GuestScript

/-- Binary operators bind less tightly than an operand holds together. -/
theorem BinaryOperator.strength_lt (operator : BinaryOperator) : operator.strength < 7 := by
  cases operator <;> decide

namespace Syntax

open Assembly (expressionOf linksOf operandOf)

/-- Operands under the operators of one sequence. -/
inductive Grouping where
  | operand (value : Expression)
  | prefixed (operator : UnaryOperator) (span : Span) (inner : Grouping)
  | joined (operator : BinaryOperator) (left right : Grouping)

namespace Grouping

/-- The expression of a grouping. -/
def toExpression : Grouping → Expression
  | .operand value => value
  | .prefixed operator span inner =>
      .unary operator inner.toExpression (span.cover inner.toExpression.span)
  | .joined operator left right =>
      .binary operator left.toExpression right.toExpression
        (left.toExpression.span.cover right.toExpression.span)

/-- The sequence that a grouping reads as, from left to right. -/
def pieces : Grouping → List Piece
  | .operand value => [.expression value]
  | .prefixed operator span inner => .unary operator span :: inner.pieces
  | .joined operator left right => left.pieces ++ .binary operator :: right.pieces

/-- Whether a binary operator of the sequence is outermost. -/
def isJoined : Grouping → Bool
  | .joined .. => true
  | _ => false

/-- How tightly the outermost operator binds. An operand, and one with unary operators in front, holds
together more tightly than any binary operator does. -/
def strength : Grouping → Nat
  | .joined operator _ _ => operator.strength
  | _ => 7

/-- Every operator binds as its strength says: what is on its left at least as tightly as itself, what
is on its right more tightly; and a unary operator has no binary one below it. -/
def Respects : Grouping → Prop
  | .operand _ => True
  | .prefixed _ _ inner => inner.isJoined = false ∧ inner.Respects
  | .joined operator left right =>
      operator.strength ≤ left.strength ∧ operator.strength < right.strength ∧
        left.Respects ∧ right.Respects

end Grouping

/-! ## Chains -/

/-- An operand with the unary operators in front of it. -/
structure Operand where
  operators : List (UnaryOperator × Span)
  value : Expression

/-- A sequence of operands with binary operators between them. -/
structure Chain where
  first : Operand
  links : List (BinaryOperator × Operand)

namespace Operand

/-- The grouping of an operand. -/
def grouping (operand : Operand) : Grouping :=
  operand.operators.foldr (fun (operator, span) inner ↦ .prefixed operator span inner)
    (.operand operand.value)

/-- The sequence of an operand. -/
def pieces (operand : Operand) : List Piece :=
  operand.operators.map (fun (operator, span) ↦ .unary operator span)
    ++ [.expression operand.value]

theorem isJoined_grouping : (operand : Operand) → operand.grouping.isJoined = false
  | ⟨[], _⟩ | ⟨_ :: _, _⟩ => rfl

theorem respects_grouping : (operand : Operand) → operand.grouping.Respects
  | ⟨[], _⟩ => trivial
  | ⟨_ :: rest, value⟩ => ⟨isJoined_grouping ⟨rest, value⟩, respects_grouping ⟨rest, value⟩⟩

theorem pieces_grouping : (operand : Operand) → operand.grouping.pieces = operand.pieces
  | ⟨[], _⟩ => rfl
  | ⟨_ :: rest, value⟩ => congrArg (_ :: ·) (pieces_grouping ⟨rest, value⟩)

theorem toExpression_grouping : (operand : Operand) →
    operand.grouping.toExpression = applyUnary operand.operators operand.value
  | ⟨[], _⟩ => rfl
  | ⟨(operator, span) :: rest, value⟩ =>
      congrArg (fun inner : Expression ↦ Expression.unary operator inner (span.cover inner.span))
        (toExpression_grouping ⟨rest, value⟩)

theorem strength_grouping : (operand : Operand) → operand.grouping.strength = 7
  | ⟨[], _⟩ | ⟨_ :: _, _⟩ => rfl

end Operand

/-- The sequence of links. -/
def piecesOfLinks (links : List (BinaryOperator × Operand)) : List Piece :=
  links.flatMap fun (operator, operand) ↦ .binary operator :: operand.pieces

/-- The sequence of a chain. -/
def Chain.pieces (chain : Chain) : List Piece :=
  chain.first.pieces ++ piecesOfLinks chain.links

theorem piecesOfLinks_cons (operator : BinaryOperator) (operand : Operand)
    (links : List (BinaryOperator × Operand)) :
    piecesOfLinks ((operator, operand) :: links) =
      .binary operator :: (operand.pieces ++ piecesOfLinks links) :=
  rfl

/-! ## Grouping a chain -/

namespace Grouping

/-- Add an operator and the operand behind it at the right edge, above every operator on the edge that
is at least as strong. -/
def append (operator : BinaryOperator) (last : Operand) : Grouping → Grouping
  | .joined outer left right =>
      if operator.strength ≤ outer.strength then
        .joined operator (.joined outer left right) last.grouping
      else .joined outer left (append operator last right)
  | other => .joined operator other last.grouping

/-- Add links at the right edge, one after the other. -/
def appendAll (grouping : Grouping) (links : List (BinaryOperator × Operand)) : Grouping :=
  links.foldl (fun tree (operator, last) ↦ tree.append operator last) grouping

/-- Group a chain from left to right. -/
def ofChain (chain : Chain) : Grouping :=
  chain.first.grouping.appendAll chain.links

section Append

variable {grouping : Grouping} {operator : BinaryOperator} {operand : Operand}

/-- Where the operator is no stronger than the outermost one, it comes on top. -/
theorem append_of_le (weaker : operator.strength ≤ grouping.strength) :
    grouping.append operator operand = .joined operator grouping operand.grouping := by
  cases grouping with
  | joined outer left right => exact if_pos weaker
  | _ => rfl

/-- Where the operator is stronger than the outermost one, it takes its right operand. -/
theorem append_of_lt {outer : BinaryOperator} {left right : Grouping}
    (stronger : outer.strength < operator.strength) :
    (joined outer left right).append operator operand =
      .joined outer left (right.append operator operand) :=
  if_neg (Nat.not_le.mpr stronger)

theorem strength_append (grouping : Grouping) (operator : BinaryOperator) (operand : Operand) :
    (grouping.append operator operand).strength = min operator.strength grouping.strength := by
  cases grouping with
  | joined outer left right =>
      by_cases weaker : operator.strength ≤ outer.strength
      · rw [append_of_le weaker]
        exact (Nat.min_eq_left weaker).symm
      · rw [append_of_lt (Nat.lt_of_not_le weaker)]
        exact (Nat.min_eq_right (Nat.le_of_not_le weaker)).symm
  | _ => exact (Nat.min_eq_left (Nat.le_of_lt operator.strength_lt)).symm

theorem pieces_append (grouping : Grouping) (operator : BinaryOperator) (operand : Operand) :
    (grouping.append operator operand).pieces =
      grouping.pieces ++ .binary operator :: operand.pieces := by
  induction grouping with
  | joined outer left right _ ih =>
      by_cases weaker : operator.strength ≤ outer.strength
      · rw [append_of_le weaker, pieces, operand.pieces_grouping]
      · rw [append_of_lt (Nat.lt_of_not_le weaker), pieces, ih, pieces, List.append_assoc,
          List.cons_append]
  | _ => exact congrArg (fun right ↦ _ ++ Piece.binary operator :: right) operand.pieces_grouping

theorem respects_append (respects : grouping.Respects) :
    (grouping.append operator operand).Respects := by
  have onTop {tree : Grouping} (weaker : operator.strength ≤ tree.strength)
      (inside : tree.Respects) : (joined operator tree operand.grouping).Respects := by
    refine ⟨weaker, ?_, inside, operand.respects_grouping⟩
    rw [operand.strength_grouping]
    exact operator.strength_lt
  induction grouping with
  | joined outer left right _ ih =>
      by_cases weaker : operator.strength ≤ outer.strength
      · rw [append_of_le weaker]
        exact onTop weaker respects
      · have stronger := Nat.lt_of_not_le weaker
        rw [append_of_lt stronger]
        obtain ⟨below, above, left', right'⟩ := respects
        refine ⟨below, ?_, left', ih right'⟩
        rw [strength_append]
        exact Nat.lt_min.mpr ⟨stronger, above⟩
  | _ => exact onTop (Nat.le_of_lt operator.strength_lt) respects

end Append

theorem pieces_appendAll (grouping : Grouping) (links : List (BinaryOperator × Operand)) :
    (grouping.appendAll links).pieces = grouping.pieces ++ piecesOfLinks links := by
  induction links generalizing grouping with
  | nil => exact (List.append_nil _).symm
  | cons link rest ih =>
      refine (ih _).trans ?_
      rw [pieces_append, piecesOfLinks_cons, List.append_assoc, List.cons_append]

theorem respects_appendAll {grouping : Grouping} (respects : grouping.Respects)
    (links : List (BinaryOperator × Operand)) : (grouping.appendAll links).Respects := by
  induction links generalizing grouping with
  | nil => exact respects
  | cons link rest ih => exact ih (respects_append respects)

/-- A chain is read back from its grouping. -/
theorem pieces_ofChain (chain : Chain) : (ofChain chain).pieces = chain.pieces := by
  rw [ofChain, pieces_appendAll, chain.first.pieces_grouping, Chain.pieces]

theorem respects_ofChain (chain : Chain) : (ofChain chain).Respects :=
  respects_appendAll chain.first.respects_grouping chain.links

/-! ## Only one grouping respects the strengths -/

/-- Links that are all stronger than an operator go to its right operand. -/
theorem appendAll_joined {outer : BinaryOperator} (left right : Grouping)
    {links : List (BinaryOperator × Operand)}
    (stronger : ∀ link ∈ links, outer.strength < link.1.strength) :
    (joined outer left right).appendAll links = joined outer left (right.appendAll links) := by
  induction links generalizing right with
  | nil => rfl
  | cons link rest ih =>
      obtain ⟨here, others⟩ := List.forall_mem_cons.mp stronger
      calc (joined outer left right).appendAll (link :: rest)
          = ((joined outer left right).append link.1 link.2).appendAll rest := rfl
        _ = (joined outer left (right.append link.1 link.2)).appendAll rest := by
            rw [append_of_lt here]
        _ = joined outer left (right.appendAll (link :: rest)) := ih _ others

/-- Below unary operators there is an operand. -/
theorem exists_operand {grouping : Grouping} (apart : grouping.isJoined = false)
    (respects : grouping.Respects) : ∃ operand : Operand, grouping = operand.grouping := by
  induction grouping with
  | operand value => exact ⟨⟨[], value⟩, rfl⟩
  | prefixed operator span inner ih =>
      obtain ⟨⟨operators, value⟩, rfl⟩ := ih respects.1 respects.2
      exact ⟨⟨(operator, span) :: operators, value⟩, rfl⟩
  | joined => exact absurd apart nofun

/-- A grouping that respects the strengths comes from a chain, whose operators are at least as strong
as the outermost one. -/
theorem exists_chain {grouping : Grouping} (respects : grouping.Respects) :
    ∃ chain : Chain, grouping = ofChain chain ∧
      ∀ link ∈ chain.links, grouping.strength ≤ link.1.strength := by
  have apart {tree : Grouping} (alone : tree.isJoined = false) (inside : tree.Respects) :
      ∃ chain : Chain, tree = ofChain chain ∧
        ∀ link ∈ chain.links, tree.strength ≤ link.1.strength := by
    obtain ⟨operand, rfl⟩ := exists_operand alone inside
    exact ⟨⟨operand, []⟩, rfl, nofun⟩
  induction grouping with
  | operand value => exact apart rfl respects
  | prefixed operator span inner => exact apart rfl respects
  | joined operator left right left' right' =>
      obtain ⟨below, above, onLeft, onRight⟩ := respects
      obtain ⟨⟨first, links⟩, same, least⟩ := left' onLeft
      obtain ⟨⟨second, others⟩, same', least'⟩ := right' onRight
      have stronger (link : BinaryOperator × Operand) (inside : link ∈ others) :
          operator.strength < link.1.strength := Nat.lt_of_lt_of_le above (least' link inside)
      refine ⟨⟨first, links ++ (operator, second) :: others⟩, ?_, ?_⟩
      · calc joined operator left right
            = joined operator left (second.grouping.appendAll others) := by rw [same']; rfl
          _ = (joined operator left second.grouping).appendAll others :=
              (appendAll_joined left second.grouping stronger).symm
          _ = (left.append operator second).appendAll others := by rw [append_of_le below]
          _ = ofChain ⟨first, links ++ (operator, second) :: others⟩ := by
              rw [same, ofChain, ofChain, appendAll, appendAll, appendAll, List.foldl_append,
                List.foldl_cons]
      · intro link inside
        obtain inside | inside := List.mem_append.mp inside
        · exact Nat.le_trans below (least link inside)
        · obtain rfl | inside := List.mem_cons.mp inside
          · exact Nat.le_refl _
          · exact Nat.le_of_lt (stronger link inside)

end Grouping

/-- An operand can be told from what comes behind it. -/
theorem Operand.pieces_append_inj : {first second : Operand} → {rest others : List Piece} →
    first.pieces ++ rest = second.pieces ++ others → first = second ∧ rest = others
  | ⟨[], _⟩, ⟨[], _⟩, _, _, same => by
      obtain ⟨value, rest⟩ := List.cons.inj same
      exact ⟨congrArg (Operand.mk []) (Piece.expression.inj value), rest⟩
  | ⟨[], _⟩, ⟨_ :: _, _⟩, _, _, same => absurd (List.cons.inj same).1 nofun
  | ⟨_ :: _, _⟩, ⟨[], _⟩, _, _, same => absurd (List.cons.inj same).1 nofun
  | ⟨first :: operators, value⟩, ⟨second :: operators', value'⟩, _, _, same => by
      obtain ⟨here, further⟩ := List.cons.inj same
      obtain ⟨operator, span⟩ := Piece.unary.inj here
      have inner : (⟨operators, value⟩ : Operand) = ⟨operators', value'⟩ ∧ _ :=
        pieces_append_inj further
      obtain ⟨same, rest⟩ := inner
      obtain ⟨rfl, rfl⟩ := Operand.mk.inj same
      exact ⟨congrArg (Operand.mk · value) (congrArg (· :: operators) (Prod.ext operator span)), rest⟩

theorem piecesOfLinks_inj : {links others : List (BinaryOperator × Operand)} →
    piecesOfLinks links = piecesOfLinks others → links = others
  | [], [], _ => rfl
  | [], _ :: _, same => absurd same nofun
  | _ :: _, [], same => absurd same nofun
  | (operator, operand) :: links, (operator', operand') :: others, same => by
      rw [piecesOfLinks_cons, piecesOfLinks_cons] at same
      obtain ⟨here, further⟩ := List.cons.inj same
      obtain rfl := Piece.binary.inj here
      obtain ⟨rfl, rest⟩ := Operand.pieces_append_inj further
      rw [piecesOfLinks_inj rest]

/-- A sequence is one chain only. -/
theorem Chain.pieces_inj {chain other : Chain} (same : chain.pieces = other.pieces) :
    chain = other := by
  obtain ⟨first, links⟩ := chain
  obtain ⟨first', links'⟩ := other
  obtain ⟨rfl, rest⟩ := Operand.pieces_append_inj same
  exact congrArg (Chain.mk first) (piecesOfLinks_inj rest)

/-- The groupings that read as a chain and respect the strengths are one: that from left to right. -/
theorem Grouping.eq_ofChain_iff {grouping : Grouping} {chain : Chain} :
    grouping = ofChain chain ↔ grouping.pieces = chain.pieces ∧ grouping.Respects := by
  refine ⟨?_, fun ⟨read, respects⟩ ↦ ?_⟩
  · rintro rfl
    exact ⟨pieces_ofChain chain, respects_ofChain chain⟩
  · obtain ⟨other, rfl, _⟩ := exists_chain respects
    rw [pieces_ofChain] at read
    rw [Chain.pieces_inj read]

/-! ## What assembling an expression makes -/

/-- An operand as the leaf of a tree of binary operators. -/
abbrev Operand.toExpression (operand : Operand) : Expression :=
  applyUnary operand.operators operand.value

namespace Grouping

/-- The binary operators of a grouping; every other part of it is a leaf. -/
def toInfix : Grouping → Infix
  | .joined operator left right => .node operator left.toInfix right.toInfix
  | other => .leaf other.toExpression

theorem toExpression_toInfix : (grouping : Grouping) →
    grouping.toInfix.toExpression = grouping.toExpression
  | .operand _ | .prefixed .. => rfl
  | .joined operator left right => by
      rw [toInfix, Infix.toExpression, toExpression_toInfix left, toExpression_toInfix right,
        toExpression]

theorem toInfix_grouping : (operand : Operand) →
    operand.grouping.toInfix = .leaf operand.toExpression
  | ⟨[], _⟩ => rfl
  | ⟨first :: rest, value⟩ =>
      congrArg Infix.leaf (Operand.toExpression_grouping ⟨first :: rest, value⟩)

theorem toInfix_append (operator : BinaryOperator) (operand : Operand) (grouping : Grouping) :
    (grouping.append operator operand).toInfix =
      grouping.toInfix.append operator operand.toExpression := by
  induction grouping with
  | joined outer left right _ ih =>
      rw [append, toInfix, Infix.append]
      split
      · rw [toInfix, toInfix, toInfix_grouping]
      · rw [toInfix, ih]
  | _ =>
      rw [append, toInfix, toInfix_grouping]
      · rfl
      · nofun

theorem toInfix_ofChain (chain : Chain) :
    (ofChain chain).toInfix = Infix.ofChain chain.first.toExpression
      (chain.links.map fun (operator, last) ↦ (operator, last.toExpression)) := by
  have step (links : List (BinaryOperator × Operand)) (tree : Grouping) :
      (tree.appendAll links).toInfix = (links.map fun (operator, last) ↦
        (operator, last.toExpression)).foldl (fun tree link ↦ tree.append link.1 link.2)
          tree.toInfix := by
    induction links generalizing tree with
    | nil => rfl
    | cons link rest ih =>
        rw [List.map_cons, List.foldl_cons, ← toInfix_append]
        exact ih _
  rw [ofChain, step, toInfix_grouping]
  rfl

end Grouping

theorem operandOf_pieces (rest : List Piece) : (operand : Operand) →
    (before : List (UnaryOperator × Span)) →
    operandOf before (operand.pieces ++ rest) =
      some (applyUnary (before ++ operand.operators) operand.value, rest)
  | ⟨[], value⟩, before => by
      rw [List.append_nil]
      rfl
  | ⟨(operator, span) :: operators, value⟩, before => by
      rw [List.append_cons]
      exact operandOf_pieces rest ⟨operators, value⟩ (before ++ [(operator, span)])

theorem linksOf_pieces (operator : BinaryOperator) (rest : List Piece)
    (links : List (BinaryOperator × Expression)) : (operand : Operand) →
    (before : List (UnaryOperator × Span)) →
    linksOf (some (operator, before)) (operand.pieces ++ rest) links =
      linksOf none rest
        ((operator, applyUnary (before ++ operand.operators) operand.value) :: links)
  | ⟨[], value⟩, before => by
      rw [List.append_nil]
      rfl
  | ⟨(unary, span) :: operators, value⟩, before => by
      rw [List.append_cons]
      exact linksOf_pieces operator rest links ⟨operators, value⟩ (before ++ [(unary, span)])

theorem linksOf_piecesOfLinks (links : List (BinaryOperator × Operand))
    (before : List (BinaryOperator × Expression)) :
    linksOf none (piecesOfLinks links) before = some (before.reverse ++
      links.map fun (operator, operand) ↦ (operator, operand.toExpression)) := by
  induction links generalizing before with
  | nil => exact congrArg some (List.append_nil _).symm
  | cons link rest ih =>
      rw [piecesOfLinks_cons, linksOf, linksOf_pieces, ih, List.reverse_cons, List.append_assoc]
      rfl

/-- Assembling a chain gives the expression of the grouping that respects the strengths. -/
theorem expressionOf_pieces (chain : Chain) :
    expressionOf chain.pieces = some (.expression (Grouping.ofChain chain).toExpression) := by
  have links := linksOf_piecesOfLinks chain.links []
  rw [expressionOf, Chain.pieces, operandOf_pieces]
  simp only [Option.bind_eq_bind, Option.bind_some, links]
  rw [← Grouping.toExpression_toInfix, Grouping.toInfix_ofChain]
  rfl

end Syntax

end GuestScript
