import Mathlib.Data.Prod.Lex
import Mathlib.Order.WithBot
import GuestScript.Proofs.Grammar.Places

/-!
# Locations follow the text

Locations are compared by line and then by column. Every character moves the location on, whatever its
size in bytes and whatever it does to lines, a carriage return and the line feed behind it one after the
other. So of two places between characters of a text the one further on has the greater location, and no
two places share one: `locate_le`.
-/

namespace GuestScript

open Grammar (IsBoundary bytesOf bytesOf_append bytesOf_pos)

namespace Location

/-- What locations are compared by: the line and then the column. -/
def key (location : Location) : ℕ ×ₗ ℕ :=
  toLex (location.line, location.column)

theorem key_le_iff {first second : Location} : first.key ≤ second.key ↔
    first.line < second.line ∨ first.line = second.line ∧ first.column ≤ second.column :=
  Prod.Lex.toLex_le_toLex

/-- A character moves the location on. -/
theorem key_lt_after (here : Location) (character : Char) : here.key < (here.after character).key := by
  unfold after
  split
  · exact Prod.Lex.toLex_lt_toLex.mpr (.inl (Nat.lt_succ_self _))
  · exact Prod.Lex.toLex_lt_toLex.mpr (.inr ⟨rfl, Nat.lt_succ_self _⟩)

/-- Characters move the location on, one after the other. -/
theorem key_lt_foldl {characters : List Char} (some : characters ≠ []) (here : Location) :
    here.key < (characters.foldl after here).key := by
  induction characters generalizing here with
  | nil => exact absurd rfl some
  | cons first rest ih =>
      by_cases last : rest = []
      · subst last
        exact here.key_lt_after first
      · exact lt_trans (here.key_lt_after first) (ih last (here.after first))

/-- A walk over whole characters ends where they lead. -/
theorem walk_append (before behind : List Char) (here : Location) :
    walk (before ++ behind) (bytesOf before) here = some (before.foldl after here) := by
  induction before generalizing here with
  | nil => cases behind <;> rfl
  | cons first rest ih =>
      have bytes : bytesOf (first :: rest) = (bytesOf rest + first.utf8Size - 1) + 1 := by
        rw [bytesOf, List.map_cons, List.sum_cons, ← bytesOf]
        have := first.utf8Size_pos
        omega
      have whole : ¬bytesOf rest + first.utf8Size - 1 + 1 < first.utf8Size := by omega
      have left : bytesOf rest + first.utf8Size - 1 + 1 - first.utf8Size = bytesOf rest := by
        have := first.utf8Size_pos
        omega
      rw [bytes, List.cons_append, walk, if_neg whole, left, ih]
      rfl

end Location

section Locate

variable {source : SourceUnit} {first second : Span}

/-- Of two places of a text, what is up to the one is in front of what is up to the other. -/
theorem exists_between (here : IsBoundary source.text.toList first.start)
    (there : IsBoundary source.text.toList second.start) (order : first.start ≤ second.start) :
    ∃ before between behind, source.text.toList = before ++ (between ++ behind) ∧
      first.start = bytesOf before ∧ second.start = bytesOf (before ++ between) := by
  obtain ⟨before, behind, whole, start⟩ := here
  obtain ⟨before', behind', whole', start'⟩ := there
  obtain ⟨between, rfl, rfl⟩ | ⟨between, rfl, rfl⟩ :=
    List.append_eq_append_iff.mp (whole.symm.trans whole')
  · exact ⟨before, between, behind', whole, start, start'⟩
  · -- what lies in between goes backwards, so it takes up no room
    rw [start, start', bytesOf_append] at order
    obtain rfl : between = [] := by
      by_contra some
      have := bytesOf_pos some
      omega
    rw [List.append_nil] at start
    exact ⟨before', [], behind, whole', start, by rw [List.append_nil, start']⟩

theorem locate_of_append {before behind : List Char} (whole : source.text.toList = before ++ behind)
    (start : first.start = bytesOf before) : source.locate first = before.foldl Location.after .origin := by
  rw [SourceUnit.locate, whole, start, Location.walk_append]
  rfl

/-- Going on in a text goes on in its lines and columns, and no two places have the same. -/
theorem locate_le (here : IsBoundary source.text.toList first.start)
    (there : IsBoundary source.text.toList second.start) (order : first.start ≤ second.start) :
    (source.locate first).key ≤ (source.locate second).key ∧
      ((source.locate first).key = (source.locate second).key ↔ first.start = second.start) := by
  obtain ⟨before, between, behind, whole, start, start'⟩ := exists_between here there order
  rw [locate_of_append whole start,
    locate_of_append (whole.trans (List.append_assoc ..).symm) start', List.foldl_append]
  by_cases none : between = []
  · subst none
    rw [List.append_nil] at start'
    exact ⟨le_refl _, iff_of_true rfl (start.trans start'.symm)⟩
  · have further := Location.key_lt_foldl none (before.foldl Location.after .origin)
    have room := bytesOf_pos none
    refine ⟨le_of_lt further, iff_of_false (ne_of_lt further) fun same ↦ ?_⟩
    rw [start, start', bytesOf_append] at same
    omega

end Locate

namespace Diagnostic

/-- What diagnostics are shown by: their locations, those without one last. -/
def rank (diagnostic : Diagnostic Location) : WithTop (ℕ ×ₗ ℕ) :=
  diagnostic.position.elim ⊤ fun location ↦ ↑location.key

theorem precedes_iff {first second : Diagnostic Location} :
    first.precedes second = true ↔ first.rank ≤ second.rank := by
  obtain ⟨_, _, _, _ | here, _⟩ := first <;> obtain ⟨_, _, _, _ | there, _⟩ := second
  · exact iff_of_true rfl (le_refl _)
  · exact iff_of_false nofun fun below ↦ WithTop.coe_ne_top (top_le_iff.mp below)
  · exact iff_of_true rfl le_top
  · have keys : _ ↔ here.line < there.line ∨ here.line = there.line ∧ here.column ≤ there.column :=
      WithTop.coe_le_coe.trans Location.key_le_iff
    refine Iff.trans ?_ keys.symm
    simp [precedes]

end Diagnostic

end GuestScript
