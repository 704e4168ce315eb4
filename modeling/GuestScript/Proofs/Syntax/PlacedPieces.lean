import GuestScript.Proofs.Syntax.Groupings
import GuestScript.Proofs.Syntax.Regions

/-!
# Where the pieces of a text stand

A piece stands at a span of a text if its regions are placed and in a row within the span. Pieces that
follow one another in the text can be put together: what is grouped under operators, or has suffixes
behind it, covers its parts without a gap in its bookkeeping, whether or not parentheses or blanks stand
in between. The two ways of putting expressions together that no single rule of the grammar describes are
`PiecesAt.grouping` and `IsWithin.suffixes`.
-/

namespace GuestScript

/-- A span that starts and ends no later than another is covered by the start of the one and the stop of
the other. -/
theorem Span.cover_of_le {first second : Span} (starts : first.start ≤ second.start)
    (stops : first.stop ≤ second.stop) : first.cover second = ⟨first.start, second.stop⟩ := by
  rw [Span.cover, Nat.min_eq_left starts, Nat.max_eq_right stops]

namespace Syntax

open Grammar (IsBoundary StandsAt)

/-- The regions of a piece, in the order of the text. -/
def Piece.regions : Piece → List Region
  | .name made | .usedModule made | .member made _ => [made.region]
  | .names made => made.map Identifier.region
  | .type made | .result made => [made.region]
  | .parameter made => made.regions
  | .parameters made => made.flatMap Parameter.regions
  | .expression made | .index made _ => [made.region]
  | .arguments made _ => regionsIn made
  | .place made => [made.region]
  | .statement made => [made.region]
  | .block made => [made.region]
  | .field made => made.regions
  | .function made => [made.region]
  | .declaration made => [made.region]
  | .group made => made.map TypeDeclaration.region
  | .file made => made.regions
  | .dotted _ | .publicMark | .staticMark | .text _ | .unary .. | .binary _ | .ending => []

/-- The span that a piece keeps for what it will be part of. -/
def Piece.span? : Piece → Option Span
  | .unary _ span | .arguments _ span | .index _ span | .member _ span => some span
  | _ => none

/-- The regions of pieces, in the order of the text. -/
abbrev regionsOfPieces (pieces : List Piece) : List Region :=
  pieces.flatMap Piece.regions

/-! ## Placed regions in a row -/

/-- Regions are placed in a row between two offsets of a text. -/
structure ArePlaced (text : List Char) (start stop : Nat) (regions : List Region) : Prop where
  row : Span.IsRow start stop (regions.map Region.span)
  each : ∀ region ∈ regions, region.IsPlaced text

section Rows

variable {text : List Char} {start start' middle stop stop' : Nat} {regions others : List Region}
  {region : Region}

theorem ArePlaced.nil (order : start ≤ stop) : ArePlaced text start stop [] :=
  ⟨order, nofun⟩

theorem ArePlaced.append (first : ArePlaced text start middle regions)
    (second : ArePlaced text middle stop others) : ArePlaced text start stop (regions ++ others) where
  row := by
    rw [List.map_append]
    exact first.row.append second.row
  each := List.forall_mem_append.mpr ⟨first.each, second.each⟩

theorem ArePlaced.widen (placed : ArePlaced text start stop regions) (before : start' ≤ start)
    (behind : stop ≤ stop') : ArePlaced text start' stop' regions :=
  ⟨placed.row.widen before behind, placed.each⟩

theorem ArePlaced.sublist (placed : ArePlaced text start stop regions)
    (part : others.Sublist regions) : ArePlaced text start stop others :=
  ⟨placed.row.sublist (part.map Region.span), fun region inside ↦ placed.each region (part.subset inside)⟩

theorem Region.IsPlaced.boundaries (placed : region.IsPlaced text) :
    IsBoundary text region.span.start ∧ IsBoundary text region.span.stop ∧
      region.span.start < region.span.stop := by
  cases placed with
  | mk start stop room _ _ _ => exact ⟨start, stop, room⟩

theorem arePlaced_singleton : ArePlaced text start stop [region] ↔
    region.IsPlaced text ∧ start ≤ region.span.start ∧ region.span.stop ≤ stop := by
  refine ⟨fun ⟨row, each⟩ ↦ ⟨each region List.mem_cons_self, row.1, row.2.2⟩,
    fun ⟨placed, before, behind⟩ ↦ ⟨⟨before, Nat.le_of_lt placed.boundaries.2.2, behind⟩, ?_⟩⟩
  exact List.forall_mem_singleton.mpr placed

/-- Of regions that are placed in a row each starts before the next one. -/
theorem ArePlaced.starts (placed : ArePlaced text start stop regions) :
    regions.Pairwise fun first second ↦ first.span.start < second.span.start := by
  refine (List.pairwise_map.mp placed.row.pairwise).imp_of_mem fun {first second} inside _ order ↦ ?_
  exact Nat.lt_of_lt_of_le (placed.each first inside).boundaries.2.2 order

/-- A region around placed regions is placed, if it takes up room and is no name. -/
theorem ArePlaced.around {kind : Region.Kind} (placed : ArePlaced text start stop regions)
    (opens : IsBoundary text start) (closes : IsBoundary text stop) (room : start < stop)
    (unnamed : ∀ name, kind ≠ .name name) : (Region.mk kind ⟨start, stop⟩ regions).IsPlaced text :=
  .mk opens closes room (fun name same ↦ absurd same (unnamed name)) placed.row placed.each

end Rows

/-! ## Pieces at their places -/

/-- A piece stands at a span of a text: between its boundaries, with its regions placed in it. -/
structure Piece.IsAt (text : List Char) (span : Span) (piece : Piece) : Prop where
  start : IsBoundary text span.start
  stop : IsBoundary text span.stop
  own : ∀ own, piece.span? = some own → own = span
  placed : ArePlaced text span.start span.stop piece.regions

/-- Pieces follow one another between two offsets of a text, each at its place. -/
inductive PiecesAt (text : List Char) : Nat → Nat → List Piece → Prop
  | nil {start stop : Nat} : start ≤ stop → PiecesAt text start stop []
  | cons {start stop : Nat} {span : Span} {piece : Piece} {rest : List Piece} : start ≤ span.start →
      piece.IsAt text span → PiecesAt text span.stop stop rest → PiecesAt text start stop (piece :: rest)

section Pieces

variable {text : List Char} {start start' stop : Nat} {pieces others : List Piece} {piece : Piece}

theorem Piece.IsAt.le {span : Span} (there : piece.IsAt text span) : span.start ≤ span.stop :=
  there.placed.row.le

theorem PiecesAt.arePlaced (there : PiecesAt text start stop pieces) :
    ArePlaced text start stop (regionsOfPieces pieces) := by
  induction there with
  | nil order => exact .nil order
  | cons before first _ ih => exact (first.placed.widen before (Nat.le_refl _)).append ih

theorem PiecesAt.widen (there : PiecesAt text start stop pieces) (before : start' ≤ start) :
    PiecesAt text start' stop pieces := by
  cases there with
  | nil order => exact .nil (Nat.le_trans before order)
  | cons behind first rest => exact .cons (Nat.le_trans before behind) first rest

theorem PiecesAt.split (there : PiecesAt text start stop (pieces ++ others)) :
    ∃ middle, PiecesAt text start middle pieces ∧ PiecesAt text middle stop others := by
  induction pieces generalizing start with
  | nil => exact ⟨start, .nil (Nat.le_refl _), there⟩
  | cons piece rest ih =>
      cases there with
      | cons before first behind =>
          obtain ⟨middle, here, further⟩ := ih behind
          exact ⟨middle, .cons before first here, further⟩

/-- The first of some pieces at its place, and those behind it. -/
theorem PiecesAt.uncons (there : PiecesAt text start stop (piece :: pieces)) :
    ∃ span : Span, start ≤ span.start ∧ piece.IsAt text span ∧ PiecesAt text span.stop stop pieces := by
  cases there with
  | cons before first rest => exact ⟨_, before, first, rest⟩

end Pieces

/-! ## Expressions that are put together -/

/-- An expression is placed between two offsets of a text. -/
structure IsWithin (text : List Char) (start stop : Nat) (value : Expression) : Prop where
  placed : value.region.IsPlaced text
  low : start ≤ value.span.start
  high : value.span.stop ≤ stop

section Expressions

variable {text : List Char} {start middle stop : Nat} {value target : Expression} {span : Span}
  {pieces : List Piece}

theorem arePlaced_region : ArePlaced text start stop [value.region] ↔ IsWithin text start stop value := by
  rw [arePlaced_singleton, value.span_region]
  exact ⟨fun ⟨placed, low, high⟩ ↦ ⟨placed, low, high⟩, fun ⟨placed, low, high⟩ ↦ ⟨placed, low, high⟩⟩

theorem IsWithin.boundaries (within : IsWithin text start stop value) :
    IsBoundary text value.span.start ∧ IsBoundary text value.span.stop ∧
      value.span.start < value.span.stop :=
  value.span_region ▸ within.placed.boundaries

theorem IsWithin.widen {start' stop' : Nat} (within : IsWithin text start stop value)
    (before : start' ≤ start) (behind : stop ≤ stop') : IsWithin text start' stop' value :=
  ⟨within.placed, Nat.le_trans before within.low, Nat.le_trans within.high behind⟩

/-- An expression that starts with another one and goes on to the end of a span, with regions behind the
first in it, is placed there. -/
theorem IsWithin.extend {behind : List Region} (within : IsWithin text start middle target)
    (further : middle ≤ span.start) (ends : IsBoundary text span.stop)
    (placed : ArePlaced text middle span.stop behind)
    (made : value.region = .mk .other (target.span.cover span) (target.region :: behind)) :
    IsWithin text start span.stop value := by
  obtain ⟨opens, -, room⟩ := within.boundaries
  have low := within.low
  have high := within.high
  have order := placed.row.le
  rw [Span.cover_of_le (by omega) (by omega)] at made
  have own : value.span = ⟨target.span.start, span.stop⟩ := by rw [← value.span_region, made]; rfl
  have first : ArePlaced text target.span.start middle [target.region] :=
    arePlaced_region.mpr ⟨within.placed, Nat.le_refl _, high⟩
  refine ⟨?_, own ▸ low, own ▸ Nat.le_refl _⟩
  rw [made]
  exact (first.append placed).around opens ends (by omega) nofun

/-- An operator in front of an expression is in its region. -/
theorem IsWithin.prefixed {operator : UnaryOperator} (within : IsWithin text middle stop target)
    (opens : IsBoundary text span.start) (first : span.start ≤ span.stop) (before : span.stop ≤ middle) :
    IsWithin text span.start stop (.unary operator target (span.cover target.span)) := by
  obtain ⟨-, ends, room⟩ := within.boundaries
  have low := within.low
  have inner : ArePlaced text span.start target.span.stop [target.region] :=
    arePlaced_region.mpr ⟨within.placed, by omega, Nat.le_refl _⟩
  rw [Span.cover_of_le (by omega) (by omega)]
  exact ⟨inner.around opens ends (by omega) nofun, Nat.le_refl _, within.high⟩

/-- The expression of a grouping is placed where its pieces are. -/
theorem PiecesAt.grouping {grouping : Grouping} (there : PiecesAt text start stop grouping.pieces) :
    IsWithin text start stop grouping.toExpression := by
  induction grouping generalizing start stop with
  | operand value => exact arePlaced_region.mp there.arePlaced
  | prefixed operator span inner ih =>
      obtain ⟨here, before, sign, behind⟩ := there.uncons
      obtain rfl := sign.own span rfl
      exact ((ih behind).prefixed sign.start sign.le (Nat.le_refl _)).widen before (Nat.le_refl _)
  | joined operator left right left' right' =>
      obtain ⟨middle, first, second⟩ := there.split
      obtain ⟨sign, before, stands, behind⟩ := second.uncons
      have after : middle ≤ sign.stop := Nat.le_trans before stands.le
      have last := right' behind
      have further : middle ≤ right.toExpression.span.start := Nat.le_trans after last.low
      have placed := arePlaced_region.mpr (IsWithin.mk last.placed further (Nat.le_refl _))
      have whole : IsWithin text start right.toExpression.span.stop
          (Grouping.joined operator left right).toExpression :=
        (left' first).extend further last.boundaries.2.1 placed rfl
      exact whole.widen (Nat.le_refl _) last.high

/-- An expression with suffixes behind it is placed where it and they are. -/
theorem IsWithin.suffixes (within : IsWithin text start middle target)
    (there : PiecesAt text middle stop pieces)
    (applied : Assembly.applySuffixes target pieces = some value) : IsWithin text start stop value := by
  induction target, pieces using Assembly.applySuffixes.induct generalizing middle with
  | case1 target =>
      cases there with
      | nil order =>
          obtain rfl := Option.some.inj applied
          exact within.widen (Nat.le_refl _) order
  | case2 target values span rest ih | case3 target index span rest ih =>
      rw [Assembly.applySuffixes] at applied
      obtain ⟨here, before, suffix, behind⟩ := there.uncons
      obtain rfl := suffix.own span rfl
      have placed := suffix.placed.widen before (Nat.le_refl _)
      exact ih (within.extend before suffix.stop placed rfl) behind applied
  | case4 target name memberSpan values span rest ih =>
      rw [Assembly.applySuffixes] at applied
      obtain ⟨dot, before, named, behind⟩ := there.uncons
      obtain ⟨here, before', suffix, further⟩ := behind.uncons
      obtain rfl := suffix.own span rfl
      have placed := (named.placed.widen before before').append suffix.placed
      have after := Nat.le_trans before (Nat.le_trans named.le before')
      exact ih (within.extend after suffix.stop placed rfl) further applied
  | case5 target name span rest other ih =>
      rw [Assembly.applySuffixes] at applied
      · obtain ⟨here, before, suffix, behind⟩ := there.uncons
        obtain rfl := suffix.own span rfl
        have placed := suffix.placed.widen before (Nat.le_refl _)
        exact ih (within.extend before suffix.stop placed rfl) behind applied
      · exact other
  | case6 target pieces =>
      rw [Assembly.applySuffixes] at applied
      · exact absurd applied nofun
      all_goals assumption

end Expressions

/-! ## The uses in expressions that are put together -/

theorem uses_toExpression (grouping : Grouping) :
    grouping.toExpression.region.uses = usesOf (regionsOfPieces grouping.pieces) := by
  induction grouping with
  | operand value => exact (List.append_nil _).symm
  | prefixed operator span inner ih => exact (List.append_nil _).trans ih
  | joined operator left right left' right' =>
      rw [Grouping.pieces, regionsOfPieces, List.flatMap_append, usesOf_append, ← left']
      exact congrArg (left.toExpression.region.uses ++ ·) ((List.append_nil _).trans right')

theorem uses_suffixes {target value : Expression} {pieces : List Piece}
    (applied : Assembly.applySuffixes target pieces = some value) :
    value.region.uses = target.region.uses ++ usesOf (regionsOfPieces pieces) := by
  induction target, pieces using Assembly.applySuffixes.induct with
  | case1 target =>
      obtain rfl := Option.some.inj applied
      exact (List.append_nil _).symm
  | case2 target values span rest ih | case3 target index span rest ih
  | case4 target name memberSpan values span rest ih =>
      rw [Assembly.applySuffixes] at applied
      rw [ih applied]
      simp [Expression.region, Region.uses, usesOf, Piece.regions, Identifier.region]
  | case5 target name span rest other ih =>
      rw [Assembly.applySuffixes] at applied
      · rw [ih applied]
        simp [Expression.region, Region.uses, usesOf, Piece.regions, Identifier.region]
      · exact other
  | case6 target pieces =>
      rw [Assembly.applySuffixes] at applied
      · cases applied
      all_goals assumption

end Syntax

end GuestScript
