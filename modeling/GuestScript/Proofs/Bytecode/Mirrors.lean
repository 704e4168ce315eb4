import GuestScript.Bytecode.Wire
import GuestScript.Proofs.Text.Utf8
import Mathlib.Algebra.Group.Nat.Defs

/-!
# Readers that mirror writers

A reader mirrors a writer if it takes exactly the bytes of a value off the front of whatever bytes
they stand in, and takes nothing else: bytes that it accepts start with what the writer writes for
the value that it gives. The wire form holds positions, counts and lengths in eight bytes, so the
first half is asked only for values whose `numbers` fit; the second half says that no others are
read. `Mirrors` is shown here for numbers, texts, lists and optional values.
-/

namespace GuestScript.Bytecode

/-- The numbers that are held in eight bytes are small enough for them. -/
def Fit (numbers : List Nat) : Prop :=
  ∀ number ∈ numbers, number < 2 ^ 64

instance (numbers : List Nat) : Decidable (Fit numbers) :=
  inferInstanceAs (Decidable (∀ number ∈ numbers, number < 2 ^ 64))

theorem fit_nil : Fit [] :=
  nofun

@[simp] theorem fit_singleton {number : Nat} : Fit [number] ↔ number < 2 ^ 64 :=
  List.forall_mem_singleton

@[simp] theorem fit_cons {number : Nat} {numbers : List Nat} :
    Fit (number :: numbers) ↔ number < 2 ^ 64 ∧ Fit numbers :=
  List.forall_mem_cons

@[simp] theorem fit_append {first second : List Nat} :
    Fit (first ++ second) ↔ Fit first ∧ Fit second :=
  List.forall_mem_append

@[simp] theorem fit_flatMap {Item : Type} {numbers : Item → List Nat} {values : List Item} :
    Fit (values.flatMap numbers) ↔ ∀ value ∈ values, Fit (numbers value) :=
  List.forall_mem_flatMap

/-! ## Readers -/

section Readers

variable {Value Result : Type} {read : Reader Value} {next : Value → Reader Result}
  {value : Value} {result : Result} {first second bytes rest : Bytes}

theorem bind_apply (bytes : Bytes) :
    (read >>= next) bytes = match read bytes with
      | .error error => .error error
      | .ok (value, rest) => next value rest := by
  simp only [bind, StateT.bind, Except.bind]
  cases read bytes <;> rfl

/-- What a reader accepts that goes on with another, both accept one after the other. -/
theorem ok_of_bind (accepted : (read >>= next) bytes = .ok (result, rest)) :
    ∃ value middle, read bytes = .ok (value, middle) ∧ next value middle = .ok (result, rest) := by
  rw [bind_apply] at accepted
  split at accepted
  · exact absurd accepted nofun
  · rename_i value middle front
    exact ⟨value, middle, front, accepted⟩

/-- A reader takes these bytes off the front of any others and gives this value. -/
def Consumes (read : Reader Value) (bytes : Bytes) (value : Value) : Prop :=
  ∀ tail, read (bytes ++ tail) = .ok (value, tail)

theorem Consumes.pure (value : Value) : Consumes (Pure.pure value) [] value :=
  fun _ ↦ rfl

theorem Consumes.bind (front : Consumes read first value)
    (behind : Consumes (next value) second result) :
    Consumes (read >>= next) (first ++ second) result := by
  intro tail
  rw [List.append_assoc, bind_apply, front]
  exact behind tail

/-- The last part of a record. -/
theorem Consumes.map (front : Consumes read bytes value) (make : Value → Result) :
    Consumes (do Pure.pure (make (← read))) bytes (make value) := by
  intro tail
  rw [bind_apply, front]
  rfl

/-- A reader mirrors a writer of values with these numbers. -/
structure Mirrors (read : Reader Value) (write : Value → Bytes) (numbers : Value → List Nat) :
    Prop where
  reads : ∀ {value}, Fit (numbers value) → Consumes read (write value) value
  written : ∀ {bytes value rest}, read bytes = .ok (value, rest) →
    Fit (numbers value) ∧ bytes = write value ++ rest

/-- Accepted bytes start with what was written for the first part of a record. -/
theorem Mirrors.written_bind {write : Value → Bytes} {numbers : Value → List Nat}
    (mirrors : Mirrors read write numbers)
    (accepted : (read >>= next) bytes = .ok (result, rest)) :
    ∃ value middle, Fit (numbers value) ∧ bytes = write value ++ middle ∧
      next value middle = .ok (result, rest) := by
  obtain ⟨value, middle, front, behind⟩ := ok_of_bind accepted
  obtain ⟨fits, same⟩ := mirrors.written front
  exact ⟨value, middle, fits, same, behind⟩

/-- What is made of the last part of a record was written for that part. -/
theorem Mirrors.written_map {write : Value → Bytes} {numbers : Value → List Nat}
    (mirrors : Mirrors read write numbers) {make : Value → Result}
    (accepted : (do Pure.pure (make (← read)) : Reader Result) bytes = .ok (result, rest)) :
    ∃ value, result = make value ∧ Fit (numbers value) ∧ bytes = write value ++ rest := by
  obtain ⟨value, middle, fits, same, behind⟩ := mirrors.written_bind accepted
  obtain ⟨rfl, rfl⟩ := Prod.mk.inj (Except.ok.inj behind)
  exact ⟨value, rfl, fits, same⟩

/-- A reader refuses what a writer wrote if it is cut short. -/
theorem Mirrors.refuses {write : Value → Bytes} {numbers : Value → List Nat}
    (mirrors : Mirrors read write numbers) {cut more : Bytes} (fits : Fit (numbers value))
    (split : write value = cut ++ more) (shorter : more ≠ []) :
    ∃ error, read cut = .error error := by
  cases outcome : read cut with
  | error error => exact ⟨error, rfl⟩
  | ok accepted =>
      obtain ⟨other, rest⟩ := accepted
      obtain ⟨otherFits, same⟩ := mirrors.written outcome
      have whole := mirrors.reads fits []
      rw [split, same, List.append_assoc, List.append_assoc, mirrors.reads otherFits] at whole
      have nothing : rest ++ (more ++ []) = [] := (Prod.mk.inj (Except.ok.inj whole)).2
      simp only [List.append_nil, List.append_eq_nil_iff] at nothing
      exact absurd nothing.2 shorter

end Readers

/-! ## Numbers -/

theorem written_byte {bytes rest : Bytes} {byte : UInt8}
    (accepted : Read.byte bytes = .ok (byte, rest)) : bytes = byte :: rest := by
  cases bytes with
  | nil => exact absurd accepted nofun
  | cons first others =>
      obtain ⟨rfl, rfl⟩ := Prod.mk.inj (Except.ok.inj accepted)
      rfl

theorem consumes_littleEndian {width value : Nat} (small : value < 256 ^ width) :
    Consumes (Read.littleEndian width) (Write.littleEndian width value) value := by
  induction width generalizing value with
  | zero =>
      obtain rfl : value = 0 := by simpa using small
      exact .pure 0
  | succ width ih =>
      have high : value / 256 < 256 ^ width := by
        rw [Nat.div_lt_iff_lt_mul (by decide), ← Nat.pow_succ]
        exact small
      have low : (UInt8.ofNat (value % 256)).toNat = value % 256 :=
        UInt8.toNat_ofNat_of_lt' (Nat.mod_lt _ (by decide))
      have others := (ih high).map fun high ↦ (UInt8.ofNat (value % 256)).toNat + 256 * high
      rw [low, Nat.mod_add_div] at others
      intro tail
      rw [Read.littleEndian, Write.littleEndian, bind_apply]
      simp only [List.cons_append, Read.byte, low]
      exact others tail

theorem written_littleEndian {width value : Nat} {bytes rest : Bytes}
    (accepted : Read.littleEndian width bytes = .ok (value, rest)) :
    value < 256 ^ width ∧ bytes = Write.littleEndian width value ++ rest := by
  induction width generalizing bytes value with
  | zero =>
      obtain ⟨rfl, rfl⟩ := Prod.mk.inj (Except.ok.inj accepted)
      exact ⟨by decide, rfl⟩
  | succ width ih =>
      obtain ⟨low, others, front, others_read⟩ := ok_of_bind accepted
      obtain ⟨high, _, behind, made⟩ := ok_of_bind others_read
      obtain ⟨rfl, rfl⟩ := Prod.mk.inj (Except.ok.inj made)
      obtain ⟨small, rfl⟩ := ih behind
      have byte := low.toNat_lt
      have remainder : (low.toNat + 256 * high) % 256 = low.toNat := by omega
      have quotient : (low.toNat + 256 * high) / 256 = high := by omega
      refine ⟨by rw [Nat.pow_succ]; omega, ?_⟩
      rw [written_byte front, Write.littleEndian, remainder, quotient, UInt8.ofNat_toNat]
      rfl

theorem mirrors_natural : Mirrors Read.natural Write.natural fun value ↦ [value] where
  reads fits := consumes_littleEndian (fit_singleton.mp fits)
  written accepted := (written_littleEndian accepted).imp_left fit_singleton.mpr

theorem mirrors_short : Mirrors Read.short Write.short fun _ ↦ [] where
  reads {value} _ := by
    have small : value.toNat < 256 ^ 2 := value.toNat_lt
    have read := (consumes_littleEndian small).map UInt16.ofNat
    rwa [UInt16.ofNat_toNat] at read
  written accepted := by
    obtain ⟨number, middle, front, behind⟩ := ok_of_bind accepted
    obtain ⟨rfl, rfl⟩ := Prod.mk.inj (Except.ok.inj behind)
    obtain ⟨small, rfl⟩ := written_littleEndian front
    refine ⟨fit_nil, ?_⟩
    rw [Write.short, UInt16.toNat_ofNat_of_lt' small]

theorem mirrors_integer : Mirrors Read.integer Write.integer fun _ ↦ [] where
  reads {value} _ := by
    have small : value.toUInt64.toNat < 256 ^ 8 := value.toUInt64.toNat_lt
    have read := (consumes_littleEndian small).map
      fun number ↦ (UInt64.ofNat number).toInt64
    rwa [UInt64.ofNat_toNat] at read
  written accepted := by
    obtain ⟨number, middle, front, behind⟩ := ok_of_bind accepted
    obtain ⟨rfl, rfl⟩ := Prod.mk.inj (Except.ok.inj behind)
    obtain ⟨small, rfl⟩ := written_littleEndian front
    refine ⟨fit_nil, ?_⟩
    rw [Write.integer, UInt64.toUInt64_toInt64, UInt64.toNat_ofNat_of_lt' small]

theorem consumes_alternative {number count : Nat} (known : number < count)
    (small : number < 256 ^ 4) :
    Consumes (Read.alternative count) (Write.alternative number) number := by
  intro tail
  rw [Read.alternative, bind_apply, Write.alternative, consumes_littleEndian small]
  simp only [if_pos known]
  rfl

theorem written_alternative {number count : Nat} {bytes rest : Bytes}
    (accepted : Read.alternative count bytes = .ok (number, rest)) :
    number < count ∧ bytes = Write.alternative number ++ rest := by
  obtain ⟨found, middle, front, behind⟩ := ok_of_bind accepted
  split at behind
  · rename_i known
    obtain ⟨rfl, rfl⟩ := Prod.mk.inj (Except.ok.inj behind)
    exact ⟨known, (written_littleEndian front).2⟩
  · exact absurd behind nofun

theorem mirrors_bool : Mirrors Read.bool Write.bool fun _ ↦ [] where
  reads {value} _ := by
    cases value with
    | false => exact fun _ ↦ rfl
    | true => exact fun _ ↦ rfl
  written accepted := by
    obtain ⟨found, middle, front, behind⟩ := ok_of_bind accepted
    have written := written_byte front
    split at behind
    case isTrue zero =>
      obtain ⟨rfl, rfl⟩ := Prod.mk.inj (Except.ok.inj behind)
      exact ⟨fit_nil, by rw [written, zero]; rfl⟩
    split at behind
    case isTrue one =>
      obtain ⟨rfl, rfl⟩ := Prod.mk.inj (Except.ok.inj behind)
      exact ⟨fit_nil, by rw [written, one]; rfl⟩
    case isFalse => exact absurd behind nofun

/-! ## Texts -/

/-- The number that the wire form of a text holds: that of its bytes. -/
def textNumbers (value : String) : List Nat :=
  [(Utf8.encode value).length]

theorem split_append (taken front rest : Bytes) :
    Read.split front.length taken (front ++ rest) = some (taken.reverse ++ front, rest) := by
  induction front generalizing taken with
  | nil => simp [Read.split]
  | cons first front ih =>
      rw [List.length_cons, List.cons_append, Read.split, ih]
      simp

theorem split_eq_some {count : Nat} {taken bytes front rest : Bytes}
    (split : Read.split count taken bytes = some (front, rest)) :
    ∃ last, front = taken.reverse ++ last ∧ last.length = count ∧ bytes = last ++ rest := by
  induction count generalizing taken bytes with
  | zero =>
      obtain ⟨rfl, rfl⟩ := Prod.mk.inj (Option.some.inj split)
      exact ⟨[], by simp, rfl, rfl⟩
  | succ count ih =>
      cases bytes with
      | nil => exact absurd split nofun
      | cons first others =>
          obtain ⟨last, rfl, rfl, rfl⟩ := ih split
          exact ⟨first :: last, by simp, rfl, rfl⟩

/-- What remains of reading a text after its length. -/
def Read.textOf (length : Nat) : Reader String := fun bytes ↦
  match Read.split length [] bytes with
  | none => .error .shortText
  | some (bytes, rest) =>
      match Utf8.decode bytes with
      | .ok value => .ok (value, rest)
      | .error problem => .error (.notText problem)

theorem text_eq : Read.text = Read.natural >>= Read.textOf := by
  funext bytes
  rw [Read.text, bind_apply, bind_apply]
  split
  · rfl
  · rename_i length middle _
    rw [bind_apply]
    simp only [get, getThe, MonadStateOf.get, StateT.get, pure, Except.pure, Read.textOf]
    cases Read.split length [] middle with
    | none => rfl
    | some parts =>
        obtain ⟨front, rest⟩ := parts
        simp only [bind_apply]
        cases Utf8.decode front <;> rfl

theorem mirrors_text : Mirrors Read.text Write.text textNumbers where
  reads {value} fits := by
    have decoded : Utf8.decode (Utf8.encode value) = .ok value := Utf8.decode_eq_ok_iff.mpr rfl
    have behind : Consumes (Read.textOf (Utf8.encode value).length) (Utf8.encode value) value := by
      intro tail
      rw [Read.textOf, split_append]
      simp only [List.reverse_nil, List.nil_append, decoded]
    rw [text_eq]
    exact (mirrors_natural.reads fits).bind behind
  written {bytes value rest} accepted := by
    rw [text_eq] at accepted
    obtain ⟨length, middle, small, rfl, behind⟩ := mirrors_natural.written_bind accepted
    rw [Read.textOf] at behind
    split at behind
    · exact absurd behind nofun
    rename_i last _ split
    obtain ⟨_, rfl, rfl, rfl⟩ := split_eq_some split
    split at behind
    · rename_i decoded
      obtain ⟨rfl, rfl⟩ := Prod.mk.inj (Except.ok.inj behind)
      obtain rfl := Utf8.decode_eq_ok_iff.mp decoded
      exact ⟨small, (List.append_assoc ..).symm⟩
    · exact absurd behind nofun

/-! ## Lists and optional values -/

section Containers

variable {Item : Type} {read : Reader Item} {write : Item → Bytes} {numbers : Item → List Nat}

/-- The numbers that the wire form of a list holds: its length, and those of its items. -/
def listNumbers (numbers : Item → List Nat) (values : List Item) : List Nat :=
  values.length :: values.flatMap numbers

/-- The numbers that the wire form of a value that may be missing holds. -/
def optionNumbers (numbers : Item → List Nat) : Option Item → List Nat
  | none => []
  | some value => numbers value

theorem Mirrors.consumes_repeated (mirrors : Mirrors read write numbers) {values : List Item}
    (fits : ∀ value ∈ values, Fit (numbers value)) (before : List Item) :
    Consumes (Read.repeated read values.length before) (values.flatMap write)
      (before.reverse ++ values) := by
  induction values generalizing before with
  | nil => simpa [Read.repeated] using Consumes.pure before.reverse
  | cons first others ih =>
      have behind := ih (fun value member ↦ fits value (List.mem_cons_of_mem _ member))
        (first :: before)
      rw [List.reverse_cons, List.append_assoc] at behind
      exact (mirrors.reads (fits first List.mem_cons_self)).bind behind

theorem Mirrors.written_repeated (mirrors : Mirrors read write numbers) {count : Nat}
    {before values : List Item} {bytes rest : Bytes}
    (accepted : Read.repeated read count before bytes = .ok (values, rest)) :
    ∃ others, values = before.reverse ++ others ∧ others.length = count ∧
      (∀ value ∈ others, Fit (numbers value)) ∧ bytes = others.flatMap write ++ rest := by
  induction count generalizing before bytes with
  | zero =>
      obtain ⟨rfl, rfl⟩ := Prod.mk.inj (Except.ok.inj accepted)
      exact ⟨[], by simp, rfl, nofun, rfl⟩
  | succ count ih =>
      obtain ⟨first, middle, fits, rfl, behind⟩ := mirrors.written_bind accepted
      obtain ⟨others, rfl, rfl, all, rfl⟩ := ih behind
      refine ⟨first :: others, by simp, rfl, List.forall_mem_cons.mpr ⟨fits, all⟩, ?_⟩
      rw [List.flatMap_cons, List.append_assoc]

theorem Mirrors.list (mirrors : Mirrors read write numbers) :
    Mirrors (Read.list read) (Write.list write) (listNumbers numbers) where
  reads fits := by
    obtain ⟨length, all⟩ := fit_cons.mp fits
    exact (mirrors_natural.reads (fit_singleton.mpr length)).bind
      (mirrors.consumes_repeated (fit_flatMap.mp all) [])
  written accepted := by
    obtain ⟨length, middle, small, rfl, behind⟩ := mirrors_natural.written_bind accepted
    obtain ⟨others, rfl, rfl, all, rfl⟩ := mirrors.written_repeated behind
    refine ⟨fit_cons.mpr ⟨fit_singleton.mp small, fit_flatMap.mpr all⟩, ?_⟩
    rw [Write.list, List.append_assoc]

theorem Mirrors.option (mirrors : Mirrors read write numbers) :
    Mirrors (Read.option read) (Write.option write) (optionNumbers numbers) where
  reads {value} fits := by
    cases value with
    | none => exact fun _ ↦ rfl
    | some value => exact (mirrors.reads fits).map some
  written {bytes value rest} accepted := by
    obtain ⟨found, middle, front, behind⟩ := ok_of_bind accepted
    have written := written_byte front
    split at behind
    case isTrue zero =>
      obtain ⟨rfl, rfl⟩ := Prod.mk.inj (Except.ok.inj behind)
      exact ⟨fit_nil, by rw [written, zero]; rfl⟩
    split at behind
    case isTrue one =>
      obtain ⟨value, rfl, fits, rfl⟩ := mirrors.written_map behind
      exact ⟨fits, by rw [written, one]; rfl⟩
    case isFalse => exact absurd behind nofun

end Containers

/-! ## Values with numbers -/

/-- One of few values, each written by its place among them. -/
theorem mirrors_oneOf {Value : Type} {values : List Value} (place : Value → Nat)
    (few : values.length ≤ 256) (at_place : ∀ value, values[place value]? = some value)
    (placed : ∀ {number : Nat} {value : Value}, values[number]? = some value →
      place value = number) :
    Mirrors (Read.oneOf values) (fun value ↦ Write.alternative (place value)) fun _ ↦ [] where
  reads {value} _ := by
    have known : place value < values.length := (List.getElem?_eq_some_iff.mp (at_place value)).1
    intro tail
    rw [Read.oneOf, bind_apply, Write.alternative, consumes_littleEndian (by omega)]
    simp only [at_place]
    rfl
  written accepted := by
    obtain ⟨found, middle, front, behind⟩ := ok_of_bind accepted
    obtain ⟨-, rfl⟩ := written_littleEndian front
    cases known : values[found]? with
    | none =>
        rw [known] at behind
        exact absurd behind nofun
    | some value =>
        rw [known] at behind
        obtain ⟨rfl, rfl⟩ := Prod.mk.inj (Except.ok.inj behind)
        exact ⟨fit_nil, by rw [placed known]; rfl⟩

end GuestScript.Bytecode
