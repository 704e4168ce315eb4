import GuestScript.Proofs.Syntax.Building
import GuestScript.Proofs.Syntax.Spellings

/-!
# Problems come in the order of the text

Nobody sorts the problems of a text. They are noted as the nodes of its tree are met, those of a token
all at the token and the one of a rule before those inside it, and the nodes are in a row. So each problem
starts no earlier than those before it: `areInOrder_of_builds`.
-/

namespace GuestScript.Syntax

open Grammar (IsBoundary Node Rule)

/-- Where a problem is. -/
def Problem.span : Problem → Span
  | .usesFeature _ span | .integerOutOfRange _ span | .unknownEscape _ span => span

/-- Problems start at boundaries of a text between two offsets, none before the one in front of it. -/
structure AreInOrder (text : List Char) (start stop : Nat) (problems : List Problem) : Prop where
  ordered : problems.Pairwise fun first second ↦ first.span.start ≤ second.span.start
  each : ∀ problem ∈ problems, IsBoundary text problem.span.start ∧ start ≤ problem.span.start ∧
    problem.span.start ≤ stop

section Order

variable {text : List Char} {start start' middle stop stop' : Nat} {problems others : List Problem}

theorem AreInOrder.nil : AreInOrder text start stop [] :=
  ⟨.nil, nofun⟩

theorem AreInOrder.append (first : AreInOrder text start middle problems)
    (second : AreInOrder text middle stop others) (before : start ≤ middle) (behind : middle ≤ stop) :
    AreInOrder text start stop (problems ++ others) where
  ordered := List.pairwise_append.mpr ⟨first.ordered, second.ordered, fun problem inside other inside' ↦
    Nat.le_trans (first.each problem inside).2.2 (second.each other inside').2.1⟩
  each := List.forall_mem_append.mpr
    ⟨fun problem inside ↦
      have ⟨boundary, low, high⟩ := first.each problem inside
      ⟨boundary, low, Nat.le_trans high behind⟩,
    fun problem inside ↦
      have ⟨boundary, low, high⟩ := second.each problem inside
      ⟨boundary, Nat.le_trans before low, high⟩⟩

theorem AreInOrder.widen (inOrder : AreInOrder text start stop problems) (before : start' ≤ start) :
    AreInOrder text start' stop problems :=
  ⟨inOrder.ordered, fun problem inside ↦
    have ⟨boundary, low, high⟩ := inOrder.each problem inside
    ⟨boundary, Nat.le_trans before low, high⟩⟩

/-- Problems that are all at one place are in order. -/
theorem areInOrder_of_forall (boundary : IsBoundary text start) (order : start ≤ stop)
    (all : ∀ problem ∈ problems, problem.span.start = start) : AreInOrder text start stop problems where
  ordered := List.pairwise_of_forall_mem_list fun first inside second inside' ↦
    Nat.le_of_eq ((all first inside).trans (all second inside').symm)
  each problem inside := by
    rw [all problem inside]
    exact ⟨boundary, Nat.le_refl _, order⟩

end Order

namespace Assembly

theorem span_of_integer (digits : String) (span : Span) :
    ∀ problem ∈ (Literal.integer digits span).2, problem.span = span := by
  unfold Literal.integer
  dsimp only
  split
  · exact List.forall_mem_nil _
  · exact List.forall_mem_singleton.mpr rfl

/-- All problems with a token are at the token. -/
theorem span_of_ofToken {rule : Rule} {span : Span} {token : String} {piece : Piece}
    {problems : List Problem} (made : ofToken rule span token = some (piece, problems)) :
    ∀ problem ∈ problems, problem.span = span := by
  unfold ofToken at made
  split at made
  case h_6 =>
    obtain ⟨rfl, rfl⟩ := Prod.mk.inj (Option.some.inj made)
    exact span_of_integer token span
  case h_7 =>
    obtain ⟨rfl, rfl⟩ := Prod.mk.inj (Option.some.inj made)
    exact Literal.forall_unescape span (fun _ ↦ rfl) token.toList "" [] (List.forall_mem_nil _)
  case h_8 =>
    repeat' split at made
    all_goals first
      | obtain ⟨rfl, rfl⟩ := Prod.mk.inj (Option.some.inj made)
        first
          | exact List.forall_mem_nil _
          | exact List.forall_mem_singleton.mpr rfl
      | exact absurd made nofun
  case h_9 => exact absurd made nofun
  all_goals
    obtain ⟨rfl, rfl⟩ := Prod.mk.inj (Option.some.inj made)
    exact List.forall_mem_nil _

/-- The problem of a rule itself is where the rule starts. -/
theorem areInOrder_problemsOf {text : List Char} (rule : Rule) {span : Span}
    (boundary : IsBoundary text span.start) : AreInOrder text span.start span.start (problemsOf rule span) := by
  refine areInOrder_of_forall boundary (Nat.le_refl _) ?_
  cases rule with
  | lambda => exact List.forall_mem_singleton.mpr rfl
  | _ => exact List.forall_mem_nil _

mutual

/-- The problems in a node are in order, within the node. -/
theorem areInOrder_of_builds {text : List Char} : {node : Node} → {piece : Piece} →
    {problems : List Problem} → Builds node piece problems → node.IsPlaced text →
    AreInOrder text node.span.start node.span.stop problems
  | _, _, _, .leaf made, placed => by
      cases placed with
      | leaf stands _ =>
          obtain ⟨boundary, -, order⟩ := stands.isBoundary
          exact areInOrder_of_forall boundary order fun problem inside ↦
            congrArg Span.start (span_of_ofToken made problem inside)
  | _, _, _, .branch each _, placed => by
      cases placed with
      | branch start _ _ row _ inner =>
          exact (areInOrder_problemsOf _ start).append (areInOrder_of_buildsAll each inner row)
            (Nat.le_refl _) row.le

/-- The problems in nodes in a row are in order. -/
theorem areInOrder_of_buildsAll {text : List Char} : {nodes : List Node} → {pieces : List Piece} →
    {problems : List Problem} → BuildsAll nodes pieces problems →
    (∀ node ∈ nodes, node.IsPlaced text) → {start stop : Nat} →
    Span.IsRow start stop (nodes.map Node.span) → AreInOrder text start stop problems
  | _, _, _, .nil, _, _, _, _ => .nil
  | _, _, _, .skip _ each, placed, _, _, row => by
      have behind := areInOrder_of_buildsAll each (List.forall_mem_cons.mp placed).2 row.2.2
      exact behind.widen (Nat.le_trans row.1 row.2.1)
  | _, _, _, .cons _ here each, placed, _, _, row => by
      obtain ⟨placed, placedRest⟩ := List.forall_mem_cons.mp placed
      have first := (areInOrder_of_builds here placed).widen row.1
      exact first.append (areInOrder_of_buildsAll each placedRest row.2.2)
        (Nat.le_trans row.1 row.2.1) row.2.2.le

end

end Assembly

end GuestScript.Syntax
