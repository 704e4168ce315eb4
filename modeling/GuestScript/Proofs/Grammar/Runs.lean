import GuestScript.Grammar.Match

/-!
# Peeling a run of the matcher

Every pattern that has parts runs one of them first and goes on from the answer: behind a failure in
one way, behind a match in another. `resume` is this step. One equation for each kind of pattern says
what is run first and how it goes on, so that what is proved of runs is proved of `resume` once.
-/

namespace GuestScript.Grammar

/-- Go on from an answer: with what to do behind a failure, and behind a match. -/
def resume (failed : Farthest → Option Outcome) (matched : Progress → Option Outcome) :
    Option Outcome → Option Outcome
  | none => none
  | some (.failed farthest) => failed farthest
  | some (.matched after) => matched after

theorem resume_eq_some {failed : Farthest → Option Outcome} {matched : Progress → Option Outcome}
    {answer : Option Outcome} {outcome : Outcome}
    (ended : resume failed matched answer = some outcome) :
    ∃ result, answer = some result ∧ resume failed matched (some result) = some outcome := by
  cases answer with
  | none => exact absurd ended nofun
  | some result => exact ⟨result, rfl, ended⟩

/-- An answer comes from a failure or from a match. -/
theorem resume_cases {failed : Farthest → Option Outcome} {matched : Progress → Option Outcome}
    {answer : Option Outcome} {outcome : Outcome}
    (ended : resume failed matched answer = some outcome) :
    (∃ farthest, answer = some (.failed farthest) ∧ failed farthest = some outcome) ∨
      ∃ after, answer = some (.matched after) ∧ matched after = some outcome := by
  obtain ⟨result, rfl, ended⟩ := resume_eq_some ended
  cases result with
  | failed farthest => exact .inl ⟨farthest, rfl, ended⟩
  | matched after => exact .inr ⟨after, rfl, ended⟩

/-- There is an answer if there is one to go on from and what goes on from it has one. -/
theorem resume_ne_none {failed : Farthest → Option Outcome} {matched : Progress → Option Outcome}
    {answer : Option Outcome} (start : answer ≠ none)
    (failures : ∀ farthest, answer = some (.failed farthest) → failed farthest ≠ none)
    (goes : ∀ after, answer = some (.matched after) → matched after ≠ none) :
    resume failed matched answer ≠ none := by
  rcases answer with _ | after | farthest
  · exact absurd rfl start
  · exact goes after rfl
  · exact failures farthest rfl

section Peeling

variable {fuel : Nat} {mode : Mode} {progress : Progress}

theorem run_sequence (first second : Pattern) :
    run (fuel + 1) mode (.sequence first second) progress =
      resume (fun farthest ↦ some (.failed farthest))
        (fun after ↦ run fuel mode second (after.skipGap mode)) (run fuel mode first progress) := by
  rw [run]
  rcases run fuel mode first progress with _ | _ | _ <;> rfl

theorem run_choice (first second : Pattern) :
    run (fuel + 1) mode (.choice first second) progress =
      resume (fun farthest ↦ run fuel mode second { progress with farthest })
        (fun after ↦ some (.matched after)) (run fuel mode first progress) := by
  rw [run]
  rcases run fuel mode first progress with _ | _ | _ <;> rfl

theorem run_optional (inner : Pattern) :
    run (fuel + 1) mode (.optional inner) progress =
      resume (fun farthest ↦ some (.matched { progress with farthest }))
        (fun after ↦ some (.matched after)) (run fuel mode inner progress) := by
  rw [run]
  rcases run fuel mode inner progress with _ | _ | _ <;> rfl

theorem run_many (inner : Pattern) :
    run (fuel + 1) mode (.many inner) progress =
      resume (fun farthest ↦ some (.matched { progress with farthest }))
        (fun after ↦ runMore fuel mode inner after) (run fuel mode inner progress) := by
  rw [run]
  rcases run fuel mode inner progress with _ | _ | _ <;> rfl

theorem runMore_succ (inner : Pattern) :
    runMore (fuel + 1) mode inner progress =
      resume (fun farthest ↦ some (.matched { progress with farthest }))
        (fun after ↦ runMore fuel mode inner after) (run fuel mode inner (progress.skipGap mode)) := by
  rw [runMore]
  rcases run fuel mode inner (progress.skipGap mode) with _ | _ | _ <;> rfl

theorem run_many_inToken (inner : Pattern) :
    run fuel .atomic (.many inner) progress = runMore fuel .atomic inner progress := by
  cases fuel with
  | zero => rfl
  | succ fuel =>
      rw [run_many, runMore_succ]
      rfl

theorem run_unless (inner : Pattern) :
    run (fuel + 1) mode (.unless inner) progress =
      resume (fun _ ↦ some (.matched progress)) (fun _ ↦ some progress.fail)
        (run fuel .atomic inner progress) := by
  rw [run]
  rcases run fuel .atomic inner progress with _ | _ | _ <;> rfl

/-- A rule that is not inside a token is read in its own way, and leaves a node. -/
theorem run_rule (outside : mode ≠ .atomic) (name : Rule) :
    run (fuel + 1) mode (.rule name) progress =
      resume (fun farthest ↦ some (.failed (farthest.record name progress.cursor.offset
          (progress.farthest.countAt progress.cursor.offset))))
        (fun after ↦ some (.matched (progress.close name after)))
        (run fuel name.mode name.body { progress with nodes := [] }) := by
  cases mode with
  | atomic => exact absurd rfl outside
  | spaced | tight =>
      rw [run]
      · rcases run fuel name.mode name.body { progress with nodes := [] } with _ | _ | _ <;> rfl
      · nofun

/-- What a rule outside a token answers it has from its body. -/
theorem run_rule_eq_some (outside : mode ≠ .atomic) {name : Rule} {outcome : Outcome}
    (ran : run fuel mode (.rule name) progress = some outcome) :
    ∃ less result, run less name.mode name.body { progress with nodes := [] } = some result ∧
      resume (fun farthest ↦ some (.failed (farthest.record name progress.cursor.offset
          (progress.farthest.countAt progress.cursor.offset))))
        (fun after ↦ some (.matched (progress.close name after))) (some result) = some outcome := by
  cases fuel with
  | zero => exact absurd ran nofun
  | succ fuel =>
      rw [run_rule outside] at ran
      exact ⟨fuel, resume_eq_some ran⟩

theorem run_sequence_eq_some {first second : Pattern} {outcome : Outcome}
    (ran : run fuel mode (.sequence first second) progress = some outcome) :
    ∃ less result, run less mode first progress = some result ∧
      resume (fun farthest ↦ some (.failed farthest))
        (fun after ↦ run less mode second (after.skipGap mode)) (some result) = some outcome := by
  cases fuel with
  | zero => exact absurd ran nofun
  | succ fuel =>
      rw [run_sequence] at ran
      exact ⟨fuel, resume_eq_some ran⟩

theorem runMore_eq_some {inner : Pattern} {outcome : Outcome}
    (ran : runMore fuel mode inner progress = some outcome) :
    ∃ less result, run less mode inner (progress.skipGap mode) = some result ∧
      resume (fun farthest ↦ some (.matched { progress with farthest }))
        (fun after ↦ runMore less mode inner after) (some result) = some outcome := by
  cases fuel with
  | zero => exact absurd ran nofun
  | succ fuel =>
      rw [runMore_succ] at ran
      exact ⟨fuel, resume_eq_some ran⟩

end Peeling

end GuestScript.Grammar
