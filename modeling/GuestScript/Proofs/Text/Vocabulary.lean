import GuestScript.Bytecode.Image
import GuestScript.Ty

/-!
# Vocabularies

Messages are put together from fixed words, numbers and names of the text. A `Vocabulary` says which
texts are plain: all that are on one line, and what is put together from plain ones. So a message is
plain if the names in it are. The vocabularies of interest are that of everything, and that of the
texts that are on one line.
-/

namespace GuestScript

/-- A notion of plain texts that covers fixed words and is kept by joining texts. -/
structure Vocabulary where
  plain : String → Prop
  plain_of_lineFree : ∀ {text : String}, '\n' ∉ text.toList → plain text
  plain_append : ∀ {first second : String}, plain first → plain second → plain (first ++ second)

namespace Vocabulary

/-- Every text is plain. -/
def everything : Vocabulary where
  plain _ := True
  plain_of_lineFree _ := trivial
  plain_append _ _ := trivial

/-- The texts on one line are plain. -/
def lineFree : Vocabulary where
  plain text := '\n' ∉ text.toList
  plain_of_lineFree := id
  plain_append first second := by
    rw [String.toList_append]
    exact fun inside ↦ (List.mem_append.mp inside).elim first second

variable (words : Vocabulary)

/-- A plain text between fixed ones. -/
theorem plain_between {first text last : String} (left : '\n' ∉ first.toList)
    (plain : words.plain text) (right : '\n' ∉ last.toList) :
    words.plain (first ++ text ++ last) :=
  words.plain_append (words.plain_append (words.plain_of_lineFree left) plain)
    (words.plain_of_lineFree right)

/-- Two plain texts between fixed ones. -/
theorem plain_between_two {first text middle other last : String} (left : '\n' ∉ first.toList)
    (plain : words.plain text) (between : '\n' ∉ middle.toList) (plain' : words.plain other)
    (right : '\n' ∉ last.toList) : words.plain (first ++ text ++ middle ++ other ++ last) :=
  words.plain_append (words.plain_append (words.plain_between left plain between) plain')
    (words.plain_of_lineFree right)

theorem plain_toString (number : Nat) : words.plain (toString number) := by
  refine words.plain_of_lineFree fun inside ↦ ?_
  rw [Nat.toString_eq_ofList_toDigits, String.toList_ofList] at inside
  exact absurd (Nat.isDigit_of_mem_toDigits (by decide) (by decide) inside) (by decide)

theorem plain_intercalate {separator : String} (between : words.plain separator) :
    {texts : List String} → (∀ text ∈ texts, words.plain text) →
      words.plain (separator.intercalate texts)
  | [], _ => by
      rw [String.intercalate_nil]
      exact words.plain_of_lineFree (by decide)
  | [text], each => by
      rw [String.intercalate_singleton]
      exact each text List.mem_cons_self
  | first :: second :: rest, each => by
      obtain ⟨here, others⟩ := List.forall_mem_cons.mp each
      rw [String.intercalate_cons_cons]
      exact words.plain_append (words.plain_append here between) (plain_intercalate between others)

end Vocabulary

/-! ## Types -/

namespace Ty

variable (words : Vocabulary)

mutual

/-- The names in a type are plain. -/
def IsPlain : Ty → Prop
  | .object name => words.plain name
  | .array element | .seq element => element.IsPlain
  | .function parameters result => ArePlain parameters ∧ result.IsPlain
  | _ => True

/-- The names in types are plain. -/
def ArePlain : List Ty → Prop
  | [] => True
  | first :: rest => first.IsPlain ∧ ArePlain rest

end

variable {words}

theorem arePlain_iff {types : List Ty} : ArePlain words types ↔ ∀ type ∈ types, type.IsPlain words := by
  induction types with
  | nil => simp [ArePlain]
  | cons first rest ih => simp [ArePlain, ih]

mutual

/-- A type whose names are plain is written plainly. -/
theorem plain_text : (type : Ty) → type.IsPlain words → words.plain type.text
  | .unit, _ | .int, _ | .bool, _ | .str, _ | .dyn, _ | .parameter, _ | .poison, _ => by
      rw [text]
      exact words.plain_of_lineFree (by decide)
  | .object name, plain => by rwa [text]
  | .array element, plain | .seq element, plain => by
      rw [text]
      exact words.plain_between (by decide) (plain_text element plain) (by decide)
  | .function parameters result, plain => by
      rw [text]
      refine words.plain_append (words.plain_between (by decide) ?_ (by decide))
        (plain_text result plain.2)
      exact words.plain_intercalate (words.plain_of_lineFree (by decide))
        (plain_texts parameters plain.1)

theorem plain_texts : (types : List Ty) → ArePlain words types →
    ∀ text ∈ texts types, words.plain text
  | [], _ => nofun
  | first :: rest, plain => by
      rw [texts]
      exact List.forall_mem_cons.mpr ⟨plain_text first plain.1, plain_texts rest plain.2⟩

end

mutual

/-- All names are plain in the vocabulary of everything. -/
theorem isPlain_everything : (type : Ty) → type.IsPlain .everything
  | .unit | .int | .bool | .str | .dyn | .parameter | .poison | .object _ => trivial
  | .array element | .seq element => isPlain_everything element
  | .function parameters result => ⟨arePlain_everything parameters, isPlain_everything result⟩

theorem arePlain_everything : (types : List Ty) → ArePlain .everything types
  | [] => trivial
  | first :: rest => ⟨isPlain_everything first, arePlain_everything rest⟩

end

/-! ## Substitution -/

mutual

theorem isPlain_substitute {binding : Option Ty} (bound : ∀ type ∈ binding, type.IsPlain words) :
    (type : Ty) → type.IsPlain words → (substitute binding type).IsPlain words
  | .unit, _ | .int, _ | .bool, _ | .str, _ | .dyn, _ | .poison, _ => by
      rw [substitute] <;> first | trivial | exact nofun
  | .object name, plain => plain
  | .parameter, _ => by
      rw [substitute]
      cases binding with
      | none => trivial
      | some type => exact bound type rfl
  | .array element, plain | .seq element, plain => by
      rw [substitute]
      exact isPlain_substitute bound element plain
  | .function parameters result, plain => by
      rw [substitute]
      exact ⟨arePlain_substituteAll bound parameters plain.1,
        isPlain_substitute bound result plain.2⟩

theorem arePlain_substituteAll {binding : Option Ty} (bound : ∀ type ∈ binding, type.IsPlain words) :
    (types : List Ty) → ArePlain words types → ArePlain words (substituteAll binding types)
  | [], _ => trivial
  | first :: rest, plain =>
      ⟨isPlain_substitute bound first plain.1, arePlain_substituteAll bound rest plain.2⟩

end

/-! ## Comparison -/

/-- What a required type comes down to is plain, and so is the binding to go on with. -/
theorem isPlain_demand {expected : Ty} {binding : Option Ty} (plain : expected.IsPlain words)
    (bound : ∀ type ∈ binding, type.IsPlain words) :
    (demand expected binding).1.IsPlain words ∧
      ∀ type ∈ (demand expected binding).2, type.IsPlain words := by
  unfold demand
  split
  · exact ⟨bound _ rfl, fun _ same ↦ by cases same⟩
  · exact ⟨plain, bound⟩

theorem isPlain_bindingAfter {expected : Ty} {binding below : Option Ty}
    (bound : ∀ type ∈ binding, type.IsPlain words) (after : ∀ type ∈ below, type.IsPlain words) :
    ∀ type ∈ bindingAfter expected binding below, type.IsPlain words := by
  unfold bindingAfter
  split
  · exact bound
  · exact after

mutual

/-- What the open type is bound to after a comparison of plain types is plain. -/
theorem isPlain_accepts : (expected actual : Ty) → (binding : Option Ty) →
    expected.IsPlain words → actual.IsPlain words → (∀ type ∈ binding, type.IsPlain words) →
    ∀ type ∈ (accepts expected actual binding).2, type.IsPlain words
  | expected, .array found, binding, plain, plain', bound
  | expected, .seq found, binding, plain, plain', bound => by
      obtain ⟨plain, below⟩ := isPlain_demand plain bound
      rw [accepts]
      refine isPlain_bindingAfter bound ?_
      generalize demand expected binding = demanded at plain below
      obtain ⟨target, binding⟩ := demanded
      have deeper (wanted : Ty) := isPlain_accepts wanted found binding
      cases target with
      | parameter => exact fun type same ↦ Option.some.inj same ▸ plain'
      | array wanted | seq wanted => first | exact deeper wanted plain plain' below | exact below
      | _ => exact below
  | expected, .function founds found, binding, plain, plain', bound => by
      obtain ⟨plain, below⟩ := isPlain_demand plain bound
      rw [accepts]
      refine isPlain_bindingAfter bound ?_
      generalize demand expected binding = demanded at plain below
      obtain ⟨target, binding⟩ := demanded
      have parameters (wanteds : List Ty) := isPlain_acceptsAll wanteds founds binding
      have result (wanted : Ty) (binding : Option Ty) := isPlain_accepts wanted found binding
      cases target with
      | parameter => exact fun type same ↦ Option.some.inj same ▸ plain'
      | function wanteds wanted =>
          have after := parameters wanteds plain.1 plain'.1 below
          dsimp only
          split
          · generalize acceptsAll wanteds founds binding = compared at after
            obtain ⟨_ | _, bound⟩ := compared
            · exact after
            · exact result wanted bound plain.2 plain'.2 after
          · exact below
      | _ => exact below
  | expected, .unit, binding, plain, plain', bound | expected, .int, binding, plain, plain', bound
  | expected, .bool, binding, plain, plain', bound | expected, .str, binding, plain, plain', bound
  | expected, .dyn, binding, plain, plain', bound
  | expected, .parameter, binding, plain, plain', bound
  | expected, .poison, binding, plain, plain', bound
  | expected, .object _, binding, plain, plain', bound => by
      obtain ⟨plain, below⟩ := isPlain_demand plain bound
      rw [accepts]
      refine isPlain_bindingAfter bound ?_
      generalize demand expected binding = demanded at plain below
      obtain ⟨target, binding⟩ := demanded
      cases target with
      | parameter => first | exact fun type same ↦ Option.some.inj same ▸ plain' | exact below
      | _ => exact below

/-- What the open type is bound to after comparisons of plain types is plain. -/
theorem isPlain_acceptsAll : (expected actual : List Ty) → (binding : Option Ty) →
    ArePlain words expected → ArePlain words actual → (∀ type ∈ binding, type.IsPlain words) →
    ∀ type ∈ (acceptsAll expected actual binding).2, type.IsPlain words
  | _, [], _, _, _, bound => by
      rw [acceptsAll]
      exact bound
  | [], _ :: _, _, _, _, bound => by
      rw [acceptsAll]
      exact bound
  | wanted :: wanteds, found :: founds, binding, plain, plain', bound => by
      have first := isPlain_accepts wanted found binding plain.1 plain'.1 bound
      have rest (binding : Option Ty) := isPlain_acceptsAll wanteds founds binding plain.2 plain'.2
      simp only [acceptsAll]
      generalize accepts wanted found binding = compared at first
      obtain ⟨_ | _, after⟩ := compared
      · exact first
      · exact rest after first

end

end Ty

end GuestScript
