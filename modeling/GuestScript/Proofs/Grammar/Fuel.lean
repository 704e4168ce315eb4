import GuestScript.Proofs.Grammar.Runs

/-!
# Reading a text always ends

No rule of the grammar starts with itself, and nothing is repeated that may match no text. So a chain
of rules and patterns that reads no character is short: `Rule.level` counts the rules that may still
start one, and `Pattern.cost` bounds the chain. With the factor of `fuelFor` for each character there
is always an answer: `run_file_ne_none`.
-/

namespace GuestScript.Grammar

/-! ## What may match no text -/

/-- Whether a rule may match no text. -/
def Rule.mayBeEmpty : Rule → Bool
  | .endOfText | .file | .parameters | .lambdaParameters | .stringBody => true
  | _ => false

/-- Whether a pattern may match no text. -/
def Pattern.mayBeEmpty : Pattern → Bool
  | .text characters => characters.isEmpty
  | .one _ => false
  | .rule name => name.mayBeEmpty
  | .sequence first second => first.mayBeEmpty && second.mayBeEmpty
  | .choice first second => first.mayBeEmpty || second.mayBeEmpty
  | .optional _ | .many _ | .unless _ | .startOfText | .endOfText => true

theorem Rule.mayBeEmpty_of_body (rule : Rule) (empty : rule.body.mayBeEmpty = true) :
    rule.mayBeEmpty = true := by
  cases rule <;> first
    | rfl
    | exact absurd empty Bool.false_ne_true

/-! ## Chains that read nothing -/

/-- How many rules may start one another, the first of them with this one. -/
def Rule.level : Rule → Nat
  | .expressionStatement => 5
  | .expression => 4
  | .parameters | .typeExpression | .assignStatement | .suffixed => 3
  | .file | .dottedName | .parameter | .namedType | .place | .lambdaParameters | .path => 2
  | .identifier | .useDeclaration | .namespaceDeclaration | .typeDeclaration | .fieldDeclaration
  | .functionDeclaration | .functionType | .letStatement | .forStatement | .whileStatement
  | .ifStatement | .returnStatement | .fieldPlace | .newExpression | .literal => 1
  | _ => 0

/-- A bound for the levels of nesting inside a rule before a character is read. -/
def Rule.cost (rule : Rule) : Nat :=
  40 * (rule.level + 1)

/-- A bound for the levels of nesting inside a pattern before a character is read. -/
def Pattern.cost : Pattern → Nat
  | .text _ | .one _ | .startOfText | .endOfText => 1
  | .rule name => name.cost + 1
  | .sequence first second => max first.cost (if first.mayBeEmpty then second.cost else 0) + 1
  | .choice first second => max first.cost second.cost + 1
  | .optional inner | .unless inner => inner.cost + 1
  | .many inner => inner.cost + 2

/-- The fuel for each character. -/
def costLimit : Nat :=
  1000

/-- Whether nothing is repeated that may match no text, and no chain that may follow a character costs
more than the fuel for it. -/
def Pattern.isSound : Pattern → Bool
  | .sequence first second => first.isSound && second.isSound && second.cost ≤ costLimit
  | .choice first second => first.isSound && second.isSound
  | .optional inner | .unless inner => inner.isSound
  | .many inner => inner.isSound && !inner.mayBeEmpty && inner.cost < costLimit
  | _ => true

theorem Pattern.isSound_many {inner : Pattern} (sound : (many inner).isSound = true) :
    inner.isSound = true ∧ inner.mayBeEmpty = false ∧ inner.cost < costLimit := by
  simpa only [isSound, Bool.and_eq_true, Bool.not_eq_true', decide_eq_true_eq, and_assoc] using sound

theorem Rule.isSound_body (rule : Rule) :
    rule.body.isSound = true ∧ rule.body.cost ≤ rule.cost := by
  cases rule <;> exact ⟨rfl, by decide⟩

/-! ## What is left to read -/

namespace Cursor

/-- The number of characters still to be read. -/
def size (cursor : Cursor) : Nat :=
  cursor.rest.length

theorem size_skip? : {characters : List Char} → {cursor after : Cursor} →
    cursor.skip? characters = some after → cursor.size = characters.length + after.size
  | [], cursor, after, skipped => by
      obtain rfl := Option.some.inj skipped
      exact (Nat.zero_add _).symm
  | expected :: more, ⟨offset, rest⟩, after, skipped => by
      cases rest with
      | nil => exact absurd skipped nofun
      | cons found rest =>
          simp only [skip?] at skipped
          split at skipped
          · have others := size_skip? skipped
            simp only [size, past, List.length_cons] at others ⊢
            omega
          · exact absurd skipped nofun

/-- A gap ends where it started or further on. -/
theorem size_gapEnd_le {bound : Nat} (gap : Gap) (offset : Nat) (rest : List Char)
    (inside : rest.length ≤ bound)
    (opened : ∀ opening, gap = .bracketComment opening → opening.size ≤ bound) :
    (gapEnd gap offset rest).size ≤ bound := by
  fun_induction gapEnd gap offset rest with
  | case1 offset rest ih => exact ih (Nat.le_of_succ_le (Nat.le_of_succ_le inside)) nofun
  | case2 offset rest ih =>
      refine ih (Nat.le_of_succ_le (Nat.le_of_succ_le inside)) fun opening same ↦ ?_
      obtain rfl := Gap.bracketComment.inj same
      exact inside
  | case3 | case5 => next ih => exact ih (Nat.le_of_succ_le inside) nofun
  | case6 offset character rest other ih => exact ih (Nat.le_of_succ_le inside) nofun
  | case7 opening offset rest ih => exact ih (Nat.le_of_succ_le (Nat.le_of_succ_le inside)) nofun
  | case8 opening offset character rest other ih =>
      exact ih (Nat.le_of_succ_le inside) opened
  | case11 opening => exact opened opening rfl
  | _ => exact inside

theorem size_skipGap_le (cursor : Cursor) : cursor.skipGap.size ≤ cursor.size :=
  size_gapEnd_le .blanks cursor.offset cursor.rest (Nat.le_refl _) nofun

end Cursor

/-- The number of characters still to be read. -/
abbrev Progress.size (progress : Progress) : Nat :=
  progress.cursor.size

theorem Progress.size_skipGap_le (mode : Mode) (progress : Progress) :
    (progress.skipGap mode).size ≤ progress.size := by
  cases mode with
  | spaced => exact Cursor.size_skipGap_le progress.cursor
  | tight | atomic => exact Nat.le_refl _

mutual

/-- A pattern that matches leaves no more to read than there was, and less unless it may match no
text. -/
theorem size_run_le : (fuel : Nat) → {mode : Mode} → (pattern : Pattern) →
    {progress after : Progress} → run fuel mode pattern progress = some (.matched after) →
    after.size ≤ progress.size ∧ (pattern.mayBeEmpty = false → after.size < progress.size)
  | 0, _, _, _, _, ran => absurd ran nofun
  | fuel + 1, mode, .text characters, progress, after, ran => by
      simp only [run, Progress.orFail, Option.some.injEq] at ran
      split at ran
      · next cursor skipped =>
          obtain rfl := Outcome.matched.inj ran
          have read := Cursor.size_skip? skipped
          refine ⟨by simp only [Progress.size, Progress.moveTo]; omega, fun some ↦ ?_⟩
          cases characters with
          | nil => exact absurd some nofun
          | cons => simp only [Progress.size, Progress.moveTo, List.length_cons] at read ⊢; omega
      · exact absurd ran nofun
  | fuel + 1, mode, .one accepts, ⟨⟨offset, rest⟩, nodes, farthest⟩, after, ran => by
      simp only [run, Progress.one, Option.some.injEq] at ran
      split at ran
      · exact absurd ran nofun
      · split at ran
        · obtain rfl := Outcome.matched.inj ran
          exact ⟨Nat.le_succ _, fun _ ↦ Nat.lt_succ_self _⟩
        · exact absurd ran nofun
  | fuel + 1, mode, .rule name, progress, after, ran => by
      have lift {size : Nat} (body : size ≤ progress.size ∧
          (name.body.mayBeEmpty = false → size < progress.size)) :
          size ≤ progress.size ∧ (name.mayBeEmpty = false → size < progress.size) := by
        refine ⟨body.1, fun some ↦ body.2 (Bool.eq_false_iff.mpr fun empty ↦ ?_)⟩
        exact Bool.eq_false_iff.mp some (name.mayBeEmpty_of_body empty)
      by_cases token : mode = .atomic
      · subst token
        exact lift (size_run_le fuel name.body ran)
      · rw [run_rule token] at ran
        obtain ⟨_, _, ran⟩ | ⟨inside, read, ran⟩ := resume_cases ran
        · exact absurd ran nofun
        · obtain rfl := Outcome.matched.inj (Option.some.inj ran)
          have body := size_run_le fuel name.body read
          exact lift body
  | fuel + 1, mode, .sequence first second, progress, after, ran => by
      rw [run_sequence] at ran
      obtain ⟨_, _, ran⟩ | ⟨middle, read, ran⟩ := resume_cases ran
      · exact absurd ran nofun
      · obtain ⟨less, strict⟩ := size_run_le fuel first read
        obtain ⟨less', strict'⟩ := size_run_le fuel second ran
        have gap := middle.size_skipGap_le mode
        refine ⟨by omega, fun some ↦ ?_⟩
        rw [Pattern.mayBeEmpty, Bool.and_eq_false_iff] at some
        obtain some | some := some
        · have := strict some
          omega
        · have := strict' some
          omega
  | fuel + 1, mode, .choice first second, progress, after, ran => by
      rw [run_choice] at ran
      obtain ⟨_, _, ran⟩ | ⟨matched, read, ran⟩ := resume_cases ran
      · obtain ⟨less, strict⟩ := size_run_le fuel second ran
        exact ⟨less, fun some ↦ strict (Bool.or_eq_false_iff.mp some).2⟩
      · obtain rfl := Outcome.matched.inj (Option.some.inj ran)
        obtain ⟨less, strict⟩ := size_run_le fuel first read
        exact ⟨less, fun some ↦ strict (Bool.or_eq_false_iff.mp some).1⟩
  | fuel + 1, mode, .optional inner, progress, after, ran => by
      rw [run_optional] at ran
      refine ⟨?_, nofun⟩
      obtain ⟨_, _, ran⟩ | ⟨matched, read, ran⟩ := resume_cases ran
      all_goals obtain rfl := Outcome.matched.inj (Option.some.inj ran)
      · exact Nat.le_refl _
      · exact (size_run_le fuel inner read).1
  | fuel + 1, mode, .many inner, progress, after, ran => by
      rw [run_many] at ran
      refine ⟨?_, nofun⟩
      obtain ⟨_, _, ran⟩ | ⟨middle, read, ran⟩ := resume_cases ran
      · obtain rfl := Outcome.matched.inj (Option.some.inj ran)
        exact Nat.le_refl _
      · exact Nat.le_trans (size_runMore_le fuel inner ran) (size_run_le fuel inner read).1
  | fuel + 1, mode, .unless inner, progress, after, ran => by
      rw [run_unless] at ran
      refine ⟨?_, nofun⟩
      obtain ⟨_, _, ran⟩ | ⟨_, _, ran⟩ := resume_cases ran
      · obtain rfl := Outcome.matched.inj (Option.some.inj ran)
        exact Nat.le_refl _
      · exact absurd ran nofun
  | fuel + 1, mode, .startOfText, progress, after, ran
  | fuel + 1, mode, .endOfText, progress, after, ran => by
      simp only [run, Progress.require, Option.some.injEq] at ran
      refine ⟨?_, nofun⟩
      split at ran
      · obtain rfl := Outcome.matched.inj ran
        exact Nat.le_refl _
      · exact absurd ran nofun

/-- What is repeated leaves no more to read than there was. -/
theorem size_runMore_le : (fuel : Nat) → {mode : Mode} → (inner : Pattern) →
    {progress after : Progress} → runMore fuel mode inner progress = some (.matched after) →
    after.size ≤ progress.size
  | 0, _, _, _, _, ran => absurd ran nofun
  | fuel + 1, mode, inner, progress, after, ran => by
      rw [runMore_succ] at ran
      obtain ⟨_, _, ran⟩ | ⟨middle, read, ran⟩ := resume_cases ran
      · obtain rfl := Outcome.matched.inj (Option.some.inj ran)
        exact Nat.le_refl _
      · exact Nat.le_trans (size_runMore_le fuel inner ran)
          (Nat.le_trans (size_run_le fuel inner read).1 (progress.size_skipGap_le mode))

end

/-! ## Enough fuel -/

mutual

/-- A pattern gets an answer where the fuel pays for the characters left and for the chain that it may
start. -/
theorem run_ne_none : (fuel : Nat) → (mode : Mode) → (pattern : Pattern) → (progress : Progress) →
    pattern.isSound = true → costLimit * progress.size + pattern.cost ≤ fuel →
    run fuel mode pattern progress ≠ none
  | 0, _, pattern, _, _, enough => by
      cases pattern <;> exact absurd enough (by simp only [Pattern.cost]; omega)
  | fuel + 1, mode, .text _, progress, _, _ | fuel + 1, mode, .one _, progress, _, _
  | fuel + 1, mode, .startOfText, progress, _, _ | fuel + 1, mode, .endOfText, progress, _, _ => by
      simp only [run, ne_eq, reduceCtorEq, not_false_eq_true]
  | fuel + 1, mode, .rule name, progress, _, enough => by
      obtain ⟨sound, cheap⟩ := name.isSound_body
      have cost : costLimit * progress.size + name.body.cost ≤ fuel := by
        simp only [Pattern.cost] at enough
        omega
      by_cases token : mode = .atomic
      · subst token
        exact run_ne_none fuel .atomic name.body progress sound cost
      · rw [run_rule token]
        have inside := run_ne_none fuel name.mode name.body { progress with nodes := [] } sound cost
        exact resume_ne_none inside nofun nofun
  | fuel + 1, mode, .sequence first second, progress, sound, enough => by
      simp only [Pattern.isSound, Bool.and_eq_true, decide_eq_true_eq] at sound
      simp only [Pattern.cost] at enough
      have start := run_ne_none fuel mode first progress sound.1.1 (by omega)
      rw [run_sequence]
      refine resume_ne_none start nofun fun middle read ↦ ?_
      have ⟨less, strict⟩ := size_run_le fuel first read
      have gap := middle.size_skipGap_le mode
      have limit := sound.2
      refine run_ne_none fuel mode second _ sound.1.2 ?_
      -- The second part is paid for by a character that the first one read, or else by the chain.
      cases empty : first.mayBeEmpty with
      | true =>
          simp only [empty, if_true] at enough
          have := Nat.mul_le_mul_left costLimit (Nat.le_trans gap less)
          omega
      | false =>
          have := Nat.mul_le_mul_left costLimit (Nat.lt_of_le_of_lt gap (strict empty))
          rw [Nat.mul_succ] at this
          omega
  | fuel + 1, mode, .choice first second, progress, sound, enough => by
      simp only [Pattern.isSound, Bool.and_eq_true] at sound
      simp only [Pattern.cost] at enough
      have start := run_ne_none fuel mode first progress sound.1 (by omega)
      rw [run_choice]
      refine resume_ne_none start (fun farthest _ ↦ ?_) nofun
      have cost : costLimit * progress.size + second.cost ≤ fuel := by omega
      exact run_ne_none fuel mode second { progress with farthest } sound.2 cost
  | fuel + 1, mode, .optional inner, progress, sound, enough => by
      have start := run_ne_none fuel mode inner progress sound (Nat.le_of_succ_le_succ enough)
      rw [run_optional]
      exact resume_ne_none start nofun nofun
  | fuel + 1, mode, .many inner, progress, sound, enough => by
      obtain ⟨inner', reads, limit⟩ := Pattern.isSound_many sound
      simp only [Pattern.cost] at enough
      have start := run_ne_none fuel mode inner progress inner' (by omega)
      rw [run_many]
      refine resume_ne_none start nofun fun after read ↦ ?_
      have := Nat.mul_le_mul_left costLimit ((size_run_le fuel inner read).2 reads)
      rw [Nat.mul_succ] at this
      exact runMore_ne_none fuel mode inner after sound (by omega)
  | fuel + 1, mode, .unless inner, progress, sound, enough => by
      have start := run_ne_none fuel .atomic inner progress sound (Nat.le_of_succ_le_succ enough)
      rw [run_unless]
      exact resume_ne_none start nofun nofun

/-- What is repeated gets an answer, since each time reads a character. -/
theorem runMore_ne_none : (fuel : Nat) → (mode : Mode) → (inner : Pattern) →
    (progress : Progress) → (Pattern.many inner).isSound = true →
    costLimit * progress.size + inner.cost + 1 ≤ fuel →
    runMore fuel mode inner progress ≠ none
  | 0, _, _, _, _, enough => absurd enough (Nat.not_succ_le_zero _)
  | fuel + 1, mode, inner, progress, sound, enough => by
      obtain ⟨inner', reads, limit⟩ := Pattern.isSound_many sound
      have gap := Nat.mul_le_mul_left costLimit (progress.size_skipGap_le mode)
      have start := run_ne_none fuel mode inner (progress.skipGap mode) inner' (by omega)
      rw [runMore_succ]
      refine resume_ne_none start nofun fun after read ↦ ?_
      have := Nat.mul_le_mul_left costLimit ((size_run_le fuel inner read).2 reads)
      rw [Nat.mul_succ] at this
      exact runMore_ne_none fuel mode inner after sound (by omega)

end

/-- With the fuel for a text, reading the whole of it gets an answer. -/
theorem run_file_ne_none (characters : List Char) :
    run (fuelFor characters.length) .spaced (.rule .file) ⟨.start characters, [], .none⟩ ≠ none := by
  refine run_ne_none _ _ _ _ rfl ?_
  have cost : (Pattern.rule .file).cost = 121 := rfl
  simp only [cost, Progress.size, Cursor.size, Cursor.start, costLimit, fuelFor]
  omega

end GuestScript.Grammar
