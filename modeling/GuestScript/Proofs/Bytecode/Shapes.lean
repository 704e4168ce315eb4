import GuestScript.Proofs.Machine.Instructions

/-!
# Heights of the operand stack

`Routine.Path position height` says that some path through the code of a routine comes to a position
with so many operands, whatever the values are. A routine that is `Shaped` has one shape for each
position of its code: the number of operands there, and which slots hold the cursor of a loop. Then
all paths to a position agree on the number of operands, and no instruction lacks any. Shapes are
found piece by piece: `Segment` says that code leads from one shape to another, where jumps that
leave the piece go to labels whose shapes are known.
-/

namespace GuestScript.Bytecode

/-! ## Paths -/

namespace Op

/-- The number of operands that an instruction leaves when control goes on behind it. -/
def results : Op → Nat
  | .store _ | .storeField _ | .pop | .jump _ | .jumpUnless _ | .ret => 0
  | _ => 1

/-- Where control may go from an instruction at a position, and with how many operands. -/
def next (op : Op) (position height : Nat) : List (Nat × Nat) :=
  let behind := (position + 1, height - op.operands + op.results)
  match op with
  | .jump target => [(target, height)]
  | .jumpUnless target => [behind, (target, height - 1)]
  | .iterNext _ exit => [behind, (exit, height)]
  | .ret => []
  | _ => [behind]

end Op

/-- Some path through the code of a routine comes to a position with so many operands. -/
inductive Routine.Path (routine : Routine) : Nat → Nat → Prop where
  | start : Path routine 0 0
  | step {position height target reached : Nat} {op : Op} :
      Path routine position height → routine.code[position]? = some op →
      (target, reached) ∈ op.next position height → Path routine target reached

/-! ## Shapes -/

/-- What is known at a position: the number of operands, slots that hold a cursor, and whether the
newest operand is a cursor. -/
structure Shape where
  height : Nat
  cursors : List Nat
  onTop : Bool

namespace Shape

/-- A shape where nothing is known of the newest operand. -/
def plain (height : Nat) (cursors : List Nat) : Shape :=
  ⟨height, cursors, false⟩

/-- One shape tells all that another one does. -/
structure Provides (shape wanted : Shape) : Prop where
  height : shape.height = wanted.height
  cursors : wanted.cursors ⊆ shape.cursors
  onTop : wanted.onTop = true → shape.onTop = true

theorem Provides.refl (shape : Shape) : shape.Provides shape :=
  ⟨rfl, List.Subset.refl _, id⟩

/-- Less is known of slots where the shape of a loop is left. -/
theorem Provides.plain {height : Nat} {cursors fewer : List Nat} (subset : fewer ⊆ cursors) :
    (Shape.plain height cursors).Provides (Shape.plain height fewer) :=
  ⟨rfl, subset, id⟩

end Shape

namespace Op

/-- The shape behind an instruction. -/
def behind (op : Op) (shape : Shape) : Shape :=
  match op with
  | .iterStart => ⟨shape.height, shape.cursors, true⟩
  | .store slot =>
      .plain (shape.height - 1) (if shape.onTop then slot :: shape.cursors else shape.cursors)
  | op => .plain (shape.height - op.operands + op.results) shape.cursors

/-- Where control may go from an instruction at a position, and with which shapes. -/
def leads (op : Op) (position : Nat) (shape : Shape) : List (Nat × Shape) :=
  let behind := (position + 1, op.behind shape)
  match op with
  | .jump target => [(target, .plain shape.height shape.cursors)]
  | .jumpUnless target => [behind, (target, .plain (shape.height - 1) shape.cursors)]
  | .iterNext _ exit => [behind, (exit, .plain shape.height shape.cursors)]
  | .ret => []
  | _ => [behind]

/-- An instruction finds its operands, does not overwrite a cursor by anything else, and finds the
cursor of its loop. -/
structure Suits (op : Op) (shape : Shape) : Prop where
  operands : op.operands ≤ shape.height
  cursors : match op with
    | .store slot => slot ∈ shape.cursors → shape.onTop = true
    | .iterNext slot _ => slot ∈ shape.cursors
    | _ => True

/-- An instruction only takes operands and leaves its results, and control goes on behind it. -/
def isPlain : Op → Bool
  | .store _ | .iterStart | .iterNext .. | .jump _ | .jumpUnless _ | .ret => false
  | _ => true

theorem leads_of_isPlain {op : Op} (isPlain : op.isPlain = true) (position : Nat) (shape : Shape) :
    op.leads position shape
      = [(position + 1, .plain (shape.height - op.operands + op.results) shape.cursors)] := by
  cases op <;> first | rfl | exact absurd isPlain nofun

theorem suits_of_isPlain {op : Op} {shape : Shape} (isPlain : op.isPlain = true)
    (enough : op.operands ≤ shape.height) : op.Suits shape := by
  refine ⟨enough, ?_⟩
  cases op <;> trivial

/-- Heights are those of the shapes, wherever control goes with all operands there. -/
theorem exists_leads {op : Op} {shape : Shape} {position target reached : Nat}
    (suits : op.Suits shape) (next : (target, reached) ∈ op.next position shape.height) :
    ∃ other, (target, other) ∈ op.leads position shape ∧ other.height = reached := by
  have enough := suits.operands
  cases op <;>
    simp only [Op.next, leads, behind, Shape.plain, operands, results, List.mem_cons,
      List.not_mem_nil, or_false, Prod.mk.injEq] at next enough ⊢
  case jumpUnless | iterNext =>
    obtain ⟨rfl, rfl⟩ | ⟨rfl, rfl⟩ := next
    · exact ⟨_, .inl ⟨rfl, rfl⟩, by simp⟩
    · exact ⟨_, .inr ⟨rfl, rfl⟩, rfl⟩
  case iterStart =>
    obtain ⟨rfl, rfl⟩ := next
    exact ⟨_, ⟨rfl, rfl⟩, by simp only; omega⟩
  all_goals
    obtain ⟨rfl, rfl⟩ := next
    exact ⟨_, ⟨rfl, rfl⟩, by simp⟩

/-- Where control goes with a shape, it goes with as many operands. -/
theorem next_of_leads {op : Op} {shape other : Shape} {position target : Nat}
    (enough : op.operands ≤ shape.height) (led : (target, other) ∈ op.leads position shape) :
    (target, other.height) ∈ op.next position shape.height := by
  cases op <;>
    simp only [Op.next, leads, behind, Shape.plain, operands, results, List.mem_cons,
      List.not_mem_nil, or_false, Prod.mk.injEq] at led enough ⊢
  case jumpUnless | iterNext =>
    obtain ⟨rfl, rfl⟩ | ⟨rfl, rfl⟩ := led
    · exact .inl ⟨rfl, by simp⟩
    · exact .inr ⟨rfl, rfl⟩
  case iterStart =>
    obtain ⟨rfl, rfl⟩ := led
    exact ⟨rfl, by simp only; omega⟩
  all_goals
    obtain ⟨rfl, rfl⟩ := led
    exact ⟨rfl, by simp⟩

end Op

/-! ## Pieces of code -/

/-- Code at a position leads from one shape to another: there are shapes for its positions so that
every instruction is allowed, suits the shape before it, and leads to positions of the code with the
shapes there, or to labels. -/
def Segment (allowed : Op → Prop) (labels : List (Nat × Shape)) (start : Nat) (code : List Op)
    (before after : Shape) : Prop :=
  ∃ shapes : Nat → Shape, shapes start = before ∧ shapes (start + code.length) = after ∧
    ∀ {offset : Nat} {op : Op}, code[offset]? = some op →
      allowed op ∧ op.Suits (shapes (start + offset)) ∧
      ∀ target shape, (target, shape) ∈ op.leads (start + offset) (shapes (start + offset)) →
        (start ≤ target ∧ target ≤ start + code.length ∧ shape.Provides (shapes target)) ∨
          ∃ wanted, (target, wanted) ∈ labels ∧ shape.Provides wanted

namespace Segment

variable {allowed : Op → Prop} {labels : List (Nat × Shape)} {start : Nat}
  {code others : List Op} {op : Op} {before middle after last : Shape}

theorem nil : Segment allowed labels start [] before before :=
  ⟨fun _ ↦ before, rfl, rfl, nofun⟩

/-- One instruction, which leads behind itself or to labels. -/
theorem single (permitted : allowed op) (suits : op.Suits before)
    (leads : ∀ target shape, (target, shape) ∈ op.leads start before →
      (target = start + 1 ∧ shape.Provides after) ∨
        ∃ wanted, (target, wanted) ∈ labels ∧ shape.Provides wanted) :
    Segment allowed labels start [op] before after := by
  refine ⟨fun position ↦ if position = start then before else after, if_pos rfl,
    if_neg (by simp), ?_⟩
  intro offset other found
  obtain ⟨rfl, rfl⟩ : offset = 0 ∧ op = other := by
    cases offset with
    | zero => exact ⟨rfl, Option.some.inj found⟩
    | succ => exact absurd found nofun
  simp only [Nat.add_zero, ↓reduceIte]
  refine ⟨permitted, suits, fun target shape led ↦ ?_⟩
  obtain ⟨rfl, provides⟩ | known := leads target shape led
  · exact .inl ⟨by omega, Nat.le_refl _, by rwa [if_neg (by omega)]⟩
  · exact .inr known

/-- Code that follows other code takes up the shape that is there. -/
theorem append (first : Segment allowed labels start code before middle)
    {position : Nat} (here : position = start + code.length)
    (second : Segment allowed labels position others middle after) :
    Segment allowed labels start (code ++ others) before after := by
  subst here
  obtain ⟨shapes, before', middle', each⟩ := first
  obtain ⟨shapes', middle'', after', each'⟩ := second
  let both (position : Nat) : Shape :=
    if position < start + code.length then shapes position else shapes' position
  -- at the seam, both tables have the shape in the middle
  have early {position : Nat} (inside : position ≤ start + code.length) :
      both position = shapes position := by
    obtain less | rfl := Nat.lt_or_eq_of_le inside
    · exact if_pos less
    · rw [middle', ← middle'']
      exact if_neg (Nat.lt_irrefl _)
  have late {position : Nat} (inside : start + code.length ≤ position) :
      both position = shapes' position :=
    if_neg (Nat.not_lt.mpr inside)
  refine ⟨both, (early (Nat.le_add_right _ _)).trans before', ?_, ?_⟩
  · rw [List.length_append, ← Nat.add_assoc, late (Nat.le_add_right _ _), after']
  · intro offset op found
    rw [List.length_append]
    by_cases inside : offset < code.length
    · rw [List.getElem?_append_left inside] at found
      obtain ⟨permitted, suits, leads⟩ := each found
      rw [early (by omega)]
      refine ⟨permitted, suits, fun target shape led ↦ ?_⟩
      obtain ⟨from', to', provides⟩ | known := leads target shape led
      · exact .inl ⟨from', by omega, (early to').symm ▸ provides⟩
      · exact .inr known
    · have outside := Nat.le_of_not_lt inside
      rw [List.getElem?_append_right outside] at found
      obtain ⟨permitted, suits, leads⟩ := each' found
      have same : start + code.length + (offset - code.length) = start + offset := by omega
      rw [same] at suits leads
      rw [late (by omega)]
      refine ⟨permitted, suits, fun target shape led ↦ ?_⟩
      obtain ⟨from', to', provides⟩ | known := leads target shape led
      · exact .inl ⟨by omega, by omega, (late from').symm ▸ provides⟩
      · exact .inr known

/-- A label at the start of the code or at its end need not be known. -/
theorem close {target : Nat} {wanted : Shape}
    (segment : Segment allowed ((target, wanted) :: labels) start code before after)
    (here : target = start ∧ wanted = before ∨ target = start + code.length ∧ wanted = after) :
    Segment allowed labels start code before after := by
  obtain ⟨shapes, before', after', each⟩ := segment
  -- a label that is closed is a place of the code itself, with the shape that is known there
  have known : start ≤ target ∧ target ≤ start + code.length ∧ wanted = shapes target := by
    obtain ⟨rfl, rfl⟩ | ⟨rfl, rfl⟩ := here
    · exact ⟨Nat.le_refl _, Nat.le_add_right _ _, before'.symm⟩
    · exact ⟨Nat.le_add_right _ _, Nat.le_refl _, after'.symm⟩
  refine ⟨shapes, before', after', fun found ↦ ?_⟩
  obtain ⟨permitted, suits, leads⟩ := each found
  refine ⟨permitted, suits, fun other shape led ↦ ?_⟩
  obtain inside | ⟨wanted', listed, provides⟩ := leads other shape led
  · exact .inl inside
  · obtain same | listed := List.mem_cons.mp listed
    · obtain ⟨rfl, rfl⟩ := Prod.mk.inj same
      exact .inl ⟨known.1, known.2.1, known.2.2 ▸ provides⟩
    · exact .inr ⟨wanted', listed, provides⟩

section Instructions

variable {height slot target : Nat} {cursors fewer : List Nat}

/-- An instruction that only takes operands and leaves its results. -/
theorem plain (permitted : allowed op) (isPlain : op.isPlain = true)
    (enough : op.operands ≤ height) :
    Segment allowed labels start [op] (.plain height cursors)
      (.plain (height - op.operands + op.results) cursors) := by
  refine single permitted (op.suits_of_isPlain isPlain enough) fun target shape led ↦ .inl ?_
  rw [op.leads_of_isPlain isPlain, List.mem_singleton] at led
  obtain ⟨rfl, rfl⟩ := Prod.mk.inj led
  exact ⟨rfl, .refl _⟩

theorem jump (permitted : allowed (.jump target))
    (known : (target, .plain height cursors) ∈ labels) :
    Segment allowed labels start [.jump target] (.plain height cursors) after := by
  refine single permitted ⟨Nat.zero_le _, trivial⟩ fun other shape led ↦ .inr ?_
  obtain ⟨rfl, rfl⟩ := Prod.mk.inj (List.mem_singleton.mp led)
  exact ⟨_, known, .refl _⟩

theorem jumpUnless (permitted : allowed (.jumpUnless target))
    (known : (target, .plain height cursors) ∈ labels) :
    Segment allowed labels start [.jumpUnless target] (.plain (height + 1) cursors)
      (.plain height cursors) := by
  refine single permitted ⟨Nat.le_add_left 1 height, trivial⟩ fun other shape led ↦ ?_
  obtain same | same := List.mem_cons.mp led
  · obtain ⟨rfl, rfl⟩ := Prod.mk.inj same
    exact .inl ⟨rfl, .refl _⟩
  · obtain ⟨rfl, rfl⟩ := Prod.mk.inj (List.mem_singleton.mp same)
    exact .inr ⟨_, known, .refl _⟩

/-- Nothing comes behind the end of a routine, so any shape may be assumed there. -/
theorem ret (permitted : allowed .ret) :
    Segment allowed labels start [.ret] (.plain (height + 1) cursors) after :=
  single permitted ⟨Nat.le_add_left 1 height, trivial⟩ fun _ _ led ↦ absurd led List.not_mem_nil

theorem store (permitted : allowed (.store slot)) (other : slot ∉ cursors) :
    Segment allowed labels start [.store slot] (.plain (height + 1) cursors)
      (.plain height cursors) := by
  refine single permitted ⟨Nat.le_add_left 1 height, fun held ↦ absurd held other⟩
    fun target shape led ↦ .inl ?_
  obtain ⟨rfl, rfl⟩ := Prod.mk.inj (List.mem_singleton.mp led)
  exact ⟨rfl, .refl _⟩

/-- A loop puts its cursor into a slot. -/
theorem startLoop (permitted : allowed .iterStart) (permitted' : allowed (.store slot)) :
    Segment allowed labels start [.iterStart, .store slot] (.plain (height + 1) cursors)
      (.plain height (slot :: cursors)) := by
  have first : Segment allowed labels start [.iterStart] (.plain (height + 1) cursors)
      ⟨height + 1, cursors, true⟩ := by
    refine single permitted ⟨Nat.le_add_left 1 height, trivial⟩ fun target shape led ↦ .inl ?_
    obtain ⟨rfl, rfl⟩ := Prod.mk.inj (List.mem_singleton.mp led)
    exact ⟨rfl, .refl _⟩
  refine first.append rfl (single permitted' ⟨Nat.le_add_left 1 height, fun _ ↦ rfl⟩
    fun target shape led ↦ .inl ?_)
  obtain ⟨rfl, rfl⟩ := Prod.mk.inj (List.mem_singleton.mp led)
  exact ⟨rfl, .refl _⟩

/-- A loop goes on with the next element, or is left. -/
theorem iterNext (permitted : allowed (.iterNext slot target)) (held : slot ∈ cursors)
    (known : (target, .plain height fewer) ∈ labels) (subset : fewer ⊆ cursors) :
    Segment allowed labels start [.iterNext slot target] (.plain height cursors)
      (.plain (height + 1) cursors) := by
  refine single permitted ⟨Nat.zero_le _, held⟩ fun other shape led ↦ ?_
  obtain same | same := List.mem_cons.mp led
  · obtain ⟨rfl, rfl⟩ := Prod.mk.inj same
    exact .inl ⟨rfl, .refl _⟩
  · obtain ⟨rfl, rfl⟩ := Prod.mk.inj (List.mem_singleton.mp same)
    exact .inr ⟨_, known, .plain subset⟩

end Instructions

end Segment

/-! ## Routines -/

/-- The code of a routine starts without operands, and no jump leaves it. -/
def Routine.Shaped (allowed : Op → Prop) (routine : Routine) (shapes : Nat → Shape) : Prop :=
  shapes 0 = .plain 0 [] ∧ ∀ {position : Nat} {op : Op}, routine.code[position]? = some op →
    allowed op ∧ op.Suits (shapes position) ∧
      ∀ target shape, (target, shape) ∈ op.leads position (shapes position) →
        target ≤ routine.code.size ∧ shape.Provides (shapes target)

namespace Routine.Shaped

variable {allowed : Op → Prop} {routine : Routine} {shapes : Nat → Shape}

theorem of_segment {after : Shape}
    (segment : Segment allowed [] 0 routine.code.toList (.plain 0 []) after) :
    ∃ shapes, routine.Shaped allowed shapes := by
  obtain ⟨shapes, before, -, each⟩ := segment
  refine ⟨shapes, before, fun {position op} found ↦ ?_⟩
  rw [← Array.getElem?_toList] at found
  obtain ⟨permitted, suits, leads⟩ := each found
  rw [Nat.zero_add] at suits leads
  refine ⟨permitted, suits, fun target shape led ↦ ?_⟩
  obtain ⟨-, inside, provides⟩ | ⟨_, none, -⟩ := leads target shape led
  · rw [Nat.zero_add] at inside
    exact ⟨inside, provides⟩
  · exact absurd none List.not_mem_nil

/-- Less may be asked of instructions. -/
theorem mono {weaker : Op → Prop} (shaped : routine.Shaped allowed shapes)
    (weaken : ∀ op, allowed op → weaker op) : routine.Shaped weaker shapes :=
  ⟨shaped.1, fun found ↦ (shaped.2 found).imp_left (weaken _)⟩

/-- Every path comes to a position with the number of operands of its shape. -/
theorem height_of_path (shaped : routine.Shaped allowed shapes) {position height : Nat}
    (path : routine.Path position height) : (shapes position).height = height := by
  -- a step of a path is one of the places that the instruction leads to
  induction path with
  | start => rw [shaped.1]; rfl
  | step _ found next same =>
      obtain ⟨-, suits, leads⟩ := shaped.2 found
      rw [← same] at next
      obtain ⟨shape, led, rfl⟩ := Op.exists_leads suits next
      exact (leads _ shape led).2.height.symm

/-- All paths to a position agree on the number of operands. -/
theorem path_unique (shaped : routine.Shaped allowed shapes) {position height other : Nat}
    (path : routine.Path position height) (path' : routine.Path position other) : height = other :=
  (shaped.height_of_path path).symm.trans (shaped.height_of_path path')

/-- No instruction lacks operands on any path. -/
theorem operands_le (shaped : routine.Shaped allowed shapes) {position height : Nat} {op : Op}
    (path : routine.Path position height) (found : routine.code[position]? = some op) :
    op.operands ≤ height :=
  shaped.height_of_path path ▸ (shaped.2 found).2.1.operands

end Routine.Shaped

end GuestScript.Bytecode
