import GuestScript.Proofs.Syntax.Meanings

/-!
# Operators group by precedence

Whatever text the expression rule matches, the parts of the match are operands with operators between
and before them, and the expression that is built from them is the one grouping of that sequence that
respects the strengths of the operators: `build_expression_of_run`.
-/

namespace GuestScript.Syntax

open Assembly (Means build)
open Grammar (Mode Node Pattern Progress Rule)

/-- No word that carries no meaning stands directly in an expression. -/
theorem isIntroducer_of_leaves_expression {rules : List Rule}
    (leaves : Rule.expression.body.Leaves rules) : ∀ rule ∈ rules, rule.isIntroducer = false :=
  fun rule inside ↦ (show ∀ rule ∈ Rule.expression.body.rules, rule.isIntroducer = false by decide)
    rule (Pattern.mem_rules_of_leaves leaves rule inside)

/-- The parts of an expression that follows the grammar have meanings, of which one grouping respects
the strengths of the operators, and the expression is built as that one. -/
theorem build_expression_of_isDerived {span : Span} {children : List Node}
    (derived : (Node.branch .expression span children).IsDerived) (problems : List Problem) :
    ∃ (pieces : List Piece) (found : List Problem) (grouping : Grouping),
      List.Forall₂ Means children pieces ∧
      (∀ other : Grouping, other.pieces = pieces ∧ other.Respects ↔ other = grouping) ∧
      build (.branch .expression span children) problems =
        some (.expression grouping.toExpression, found) := by
  cases derived with
  | branch outside leaves each =>
      obtain ⟨pieces, found, built, means⟩ := Assembly.exists_buildAll
        (fun child inside part problems ↦ Assembly.exists_build (each child inside) part
          (Rule.ne_keyword_of_leaves outside leaves (List.mem_map_of_mem inside)) problems)
        (Assembly.problemsOf .expression span ++ problems) []
      obtain ⟨chain, rfl⟩ :=
        Assembly.exists_chain_of_makesAll leaves (Assembly.makesAll_of_means means)
      have parts : ∀ child ∈ children, (!child.rule.isIntroducer) = true := fun child inside ↦ by
        rw [isIntroducer_of_leaves_expression leaves child.rule (List.mem_map_of_mem inside)]
        rfl
      rw [List.filter_eq_self.mpr parts] at means
      refine ⟨chain.pieces, found, Grouping.ofChain chain, means, fun other ↦ ?_, ?_⟩
      · exact Grouping.eq_ofChain_iff.symm
      · rw [build, built, List.reverse_nil, List.nil_append]
        exact congrArg (fun piece : Option Piece ↦ do pure (← piece, found))
          (expressionOf_pieces chain)

/-- Wherever outside of tokens the expression rule matches, the parts of the match are a sequence of
operands and operators, and the expression built from it reads back as that sequence, with every
operator applied as its strength says; there is no other expression that does so. -/
theorem build_expression_of_run {fuel : Nat} {mode : Mode} {before after : Progress}
    (outside : mode ≠ .atomic)
    (ran : Grammar.run fuel mode (.rule .expression) before = some (.matched after)) :
    ∃ span children, after.nodes = .branch .expression span children :: before.nodes ∧
      ∀ problems, ∃ (pieces : List Piece) (found : List Problem) (grouping : Grouping),
        List.Forall₂ Means children pieces ∧
        (∀ other : Grouping, other.pieces = pieces ∧ other.Respects ↔ other = grouping) ∧
        build (.branch .expression span children) problems =
          some (.expression grouping.toExpression, found) := by
  obtain ⟨node, nodes, rule, derived⟩ := Grammar.node_of_run_rule outside ran
  cases node with
  | leaf name span text =>
      obtain rfl : name = .expression := rule
      cases derived with
      | leaf inside _ => exact absurd inside (by decide)
  | branch name span children =>
      obtain rfl : name = .expression := rule
      exact ⟨span, children, nodes, build_expression_of_isDerived derived⟩

theorem build_expression_of_run_sum :
    ∃ after, Mode.spaced ≠ .atomic ∧
      Grammar.run 60 .spaced (.rule .expression) ⟨.start "1+2*!x".toList, [], .none⟩ =
        some (.matched after) ∧
      ∃ span children, after.nodes = [.branch .expression span children] ∧
        ∀ problems, ∃ (pieces : List Piece) (found : List Problem) (grouping : Grouping),
          List.Forall₂ Means children pieces ∧
          (∀ other : Grouping, other.pieces = pieces ∧ other.Respects ↔ other = grouping) ∧
          build (.branch .expression span children) problems =
            some (.expression grouping.toExpression, found) := by
  have outside : Mode.spaced ≠ .atomic := by decide
  have ran : Grammar.run 60 .spaced (.rule .expression) ⟨.start "1+2*!x".toList, [], .none⟩ =
      some (.matched _) := rfl
  exact ⟨_, outside, ran, build_expression_of_run outside ran⟩

end GuestScript.Syntax
