import GuestScript.Proofs.Bytecode.Mirrors

/-!
# Images and their bytes

Every part of an image is read by a reader that mirrors its writer. So decoding undoes encoding,
whatever follows the image, up to the check of the decoded image; the bytes of an image are the only
ones that it is decoded from; and an image that is cut short is refused, wherever the cut is.
-/

namespace GuestScript.Bytecode

open Read (alternative)

/-! ## The numbers of an image -/

/-- The numbers that the wire form of a constant holds in eight bytes. -/
def Constant.numbers : Constant → List Nat
  | .str value => textNumbers value
  | _ => []

/-- The numbers that the wire form of an instruction holds in eight bytes. -/
def Op.numbers : Op → List Nat
  | .push value => value.numbers
  | .load number | .store number | .loadField number | .storeField number | .makeArray number
  | .construct number | .callClosure number | .jump number | .jumpUnless number => [number]
  | .makeClosure first second | .call first second | .callHost first second
  | .iterNext first second => [first, second]
  | .pop | .unary _ | .binary _ | .index | .iterStart | .ret => []

/-- The numbers that the wire form of a binding holds in eight bytes. -/
def Binding.numbers : Binding → List Nat
  | .closure captures => [captures]
  | _ => []

/-- The numbers that the wire form of a routine holds in eight bytes. -/
def Routine.numbers (routine : Routine) : List Nat :=
  textNumbers routine.name ++ optionNumbers (fun owner ↦ [owner]) routine.owner
    ++ routine.binding.numbers ++ [routine.arity, routine.locals]
    ++ listNumbers Op.numbers routine.code.toList

/-- The numbers that the wire form of a type holds in eight bytes. -/
def TypeDefinition.numbers (type : TypeDefinition) : List Nat :=
  textNumbers type.namespaceName ++ textNumbers type.name ++ listNumbers textNumbers type.fields
    ++ optionNumbers (fun initializer ↦ [initializer]) type.initializer
    ++ listNumbers (fun method ↦ [method]) type.methods

/-- The numbers that the wire form of an import holds in eight bytes. -/
def Import.numbers (imported : Import) : List Nat :=
  textNumbers imported.moduleName ++ textNumbers imported.function

/-- The numbers that the wire form of an image holds in eight bytes: positions, counts, and the
lengths of its texts and lists. -/
def Image.numbers (image : Image) : List Nat :=
  textNumbers image.name ++ listNumbers Import.numbers image.imports.toList
    ++ listNumbers TypeDefinition.numbers image.types.toList
    ++ listNumbers Routine.numbers image.routines.toList
    ++ optionNumbers (fun entry ↦ [entry]) image.entry

/-! ## The parts of an image -/

section Parts

variable {Value : Type} {bytes rest : Bytes}

theorem consumes_two {first second : Nat} (fits : Fit [first, second]) (make : Nat → Nat → Value) :
    Consumes (do let first ← Read.natural; pure (make first (← Read.natural)))
      (Write.natural first ++ Write.natural second) (make first second) := by
  obtain ⟨first, second⟩ := fit_cons.mp fits
  exact (mirrors_natural.reads (fit_singleton.mpr first)).bind
    ((mirrors_natural.reads second).map _)

theorem written_two {make : Nat → Nat → Value} {value : Value}
    (accepted : (do let first ← Read.natural; pure (make first (← Read.natural)) : Reader Value)
      bytes = .ok (value, rest)) :
    ∃ first second, value = make first second ∧ Fit [first, second] ∧
      bytes = Write.natural first ++ Write.natural second ++ rest := by
  obtain ⟨first, middle, small, rfl, behind⟩ := mirrors_natural.written_bind accepted
  obtain ⟨second, rfl, fits, rfl⟩ := mirrors_natural.written_map behind
  exact ⟨first, second, rfl, fit_cons.mpr ⟨fit_singleton.mp small, fits⟩,
    (List.append_assoc ..).symm⟩

end Parts

theorem mirrors_constant : Mirrors Read.constant Write.constant Constant.numbers where
  reads {value} fits := by
    have number (number : Nat) (known : number < 4) :=
      consumes_alternative known (Nat.lt_trans known (by decide))
    cases value with
    | unit => exact (number 0 (by decide)).bind (.pure _)
    | int value =>
        exact (number 1 (by decide)).bind ((mirrors_integer.reads fit_nil).map _)
    | bool value =>
        exact (number 2 (by decide)).bind ((mirrors_bool.reads fit_nil).map _)
    | str value => exact (number 3 (by decide)).bind ((mirrors_text.reads fits).map _)
  written {bytes value rest} accepted := by
    obtain ⟨number, middle, front, behind⟩ := ok_of_bind accepted
    obtain ⟨known, rfl⟩ := written_alternative front
    split at behind
    · obtain ⟨rfl, rfl⟩ := Prod.mk.inj (Except.ok.inj behind)
      exact ⟨fit_nil, rfl⟩
    · obtain ⟨value, rfl, fits, rfl⟩ := mirrors_integer.written_map behind
      exact ⟨fits, (List.append_assoc ..).symm⟩
    · obtain ⟨value, rfl, fits, rfl⟩ := mirrors_bool.written_map behind
      exact ⟨fits, (List.append_assoc ..).symm⟩
    · obtain rfl : number = 3 := by grind
      obtain ⟨value, rfl, fits, rfl⟩ := mirrors_text.written_map behind
      exact ⟨fits, (List.append_assoc ..).symm⟩

theorem mirrors_unaryOperator :
    Mirrors (Read.oneOf UnaryOperator.all) Write.unaryOperator fun _ ↦ [] :=
  mirrors_oneOf _ (by decide) (by intro value; cases value <;> rfl) fun {number value} known ↦ by
    obtain ⟨small, rfl⟩ := List.getElem?_eq_some_iff.mp known
    exact (by decide : UnaryOperator.all.Nodup).idxOf_getElem number small

theorem mirrors_binaryOperator :
    Mirrors (Read.oneOf BinaryOperator.all) Write.binaryOperator fun _ ↦ [] :=
  mirrors_oneOf _ (by decide) (by intro value; cases value <;> rfl) fun {number value} known ↦ by
    obtain ⟨small, rfl⟩ := List.getElem?_eq_some_iff.mp known
    exact (by decide : BinaryOperator.all.Nodup).idxOf_getElem number small

/-- What is read behind the number of an instruction was written behind it. -/
theorem written_operands {number : Nat} {value : Op} {bytes rest : Bytes} (known : number < 20)
    (accepted : Read.operands number bytes = .ok (value, rest)) :
    Fit value.numbers ∧ Write.alternative number ++ bytes = Write.op value ++ rest := by
  fun_cases Read.operands number with
  | case1 =>
      obtain ⟨value, rfl, fits, rfl⟩ := mirrors_constant.written_map accepted
      exact ⟨fits, (List.append_assoc ..).symm⟩
  | case7 =>
      obtain ⟨value, rfl, fits, rfl⟩ := mirrors_unaryOperator.written_map accepted
      exact ⟨fits, (List.append_assoc ..).symm⟩
  | case8 =>
      obtain ⟨value, rfl, fits, rfl⟩ := mirrors_binaryOperator.written_map accepted
      exact ⟨fits, (List.append_assoc ..).symm⟩
  | case6 | case10 | case16 =>
      obtain ⟨rfl, rfl⟩ := Prod.mk.inj (Except.ok.inj accepted)
      exact ⟨fit_nil, rfl⟩
  | case2 | case3 | case4 | case5 | case9 | case12 | case14 | case18 | case19 =>
      obtain ⟨value, rfl, fits, rfl⟩ := mirrors_natural.written_map accepted
      exact ⟨fits, (List.append_assoc ..).symm⟩
  | case11 | case13 | case15 | case17 =>
      obtain ⟨first, second, rfl, fits, rfl⟩ := written_two accepted
      exact ⟨fits, by simp only [Write.op, List.append_assoc]⟩
  | case20 =>
      obtain rfl : number = 19 := by grind
      obtain ⟨rfl, rfl⟩ := Prod.mk.inj (Except.ok.inj accepted)
      exact ⟨fit_nil, rfl⟩

theorem mirrors_op : Mirrors Read.op Write.op Op.numbers where
  reads {value} fits := by
    have numbered (number : Nat) {operands : Bytes} (known : number < 20)
        (behind : Consumes (Read.operands number) operands value) :
        Consumes Read.op (Write.alternative number ++ operands) value :=
      (consumes_alternative known (Nat.lt_trans known (by decide))).bind behind
    cases value with
    | push value => exact numbered 0 (by decide) ((mirrors_constant.reads fits).map Op.push)
    | load slot => exact numbered 1 (by decide) ((mirrors_natural.reads fits).map Op.load)
    | store slot => exact numbered 2 (by decide) ((mirrors_natural.reads fits).map Op.store)
    | loadField field => exact numbered 3 (by decide) ((mirrors_natural.reads fits).map Op.loadField)
    | storeField field => exact numbered 4 (by decide) ((mirrors_natural.reads fits).map Op.storeField)
    | pop => exact numbered 5 (by decide) (.pure Op.pop)
    | unary operator =>
        exact numbered 6 (by decide) ((mirrors_unaryOperator.reads fits).map Op.unary)
    | binary operator =>
        exact numbered 7 (by decide) ((mirrors_binaryOperator.reads fits).map Op.binary)
    | makeArray length => exact numbered 8 (by decide) ((mirrors_natural.reads fits).map Op.makeArray)
    | index => exact numbered 9 (by decide) (.pure Op.index)
    | makeClosure routine captures =>
        rw [Write.op, List.append_assoc]
        exact numbered 10 (by decide) (consumes_two fits Op.makeClosure)
    | construct type => exact numbered 11 (by decide) ((mirrors_natural.reads fits).map Op.construct)
    | call routine count =>
        rw [Write.op, List.append_assoc]
        exact numbered 12 (by decide) (consumes_two fits Op.call)
    | callClosure count =>
        exact numbered 13 (by decide) ((mirrors_natural.reads fits).map Op.callClosure)
    | callHost imported count =>
        rw [Write.op, List.append_assoc]
        exact numbered 14 (by decide) (consumes_two fits Op.callHost)
    | iterStart => exact numbered 15 (by decide) (.pure Op.iterStart)
    | iterNext slot exit =>
        rw [Write.op, List.append_assoc]
        exact numbered 16 (by decide) (consumes_two fits Op.iterNext)
    | jump target => exact numbered 17 (by decide) ((mirrors_natural.reads fits).map Op.jump)
    | jumpUnless target =>
        exact numbered 18 (by decide) ((mirrors_natural.reads fits).map Op.jumpUnless)
    | ret => exact numbered 19 (by decide) (.pure Op.ret)
  written accepted := by
    obtain ⟨number, middle, front, behind⟩ := ok_of_bind accepted
    obtain ⟨known, rfl⟩ := written_alternative front
    exact written_operands known behind

theorem mirrors_visibility : Mirrors Read.visibility Write.visibility fun _ ↦ [] := by
  have placed {number : Nat} {value : Visibility}
      (known : [Visibility.everyone, .owner][number]? = some value) :
      (if value = .everyone then 0 else 1) = number := by
    match number, known with
    | 0, known | 1, known =>
        obtain rfl := Option.some.inj known
        rfl
    | _ + 2, known => exact absurd known nofun
  have same : Write.visibility
      = fun value ↦ Write.alternative (if value = .everyone then 0 else 1) := by
    funext value
    cases value <;> rfl
  rw [same]
  exact mirrors_oneOf _ (by decide) (by intro value; cases value <;> rfl) placed

theorem mirrors_binding : Mirrors Read.binding Write.binding Binding.numbers where
  reads {value} fits := by
    have number (number : Nat) (known : number < 3) :=
      consumes_alternative known (Nat.lt_trans known (by decide))
    cases value with
    | static => exact (number 0 (by decide)).bind (.pure _)
    | onInstance => exact (number 1 (by decide)).bind (.pure _)
    | closure captures =>
        exact (number 2 (by decide)).bind ((mirrors_natural.reads fits).map _)
  written {bytes value rest} accepted := by
    obtain ⟨number, middle, front, behind⟩ := ok_of_bind accepted
    obtain ⟨known, rfl⟩ := written_alternative front
    split at behind
    · obtain ⟨rfl, rfl⟩ := Prod.mk.inj (Except.ok.inj behind)
      exact ⟨fit_nil, rfl⟩
    · obtain ⟨rfl, rfl⟩ := Prod.mk.inj (Except.ok.inj behind)
      exact ⟨fit_nil, rfl⟩
    · obtain rfl : number = 2 := by grind
      obtain ⟨captures, rfl, fits, rfl⟩ := mirrors_natural.written_map behind
      exact ⟨fits, (List.append_assoc ..).symm⟩

theorem mirrors_routine : Mirrors Read.routine Write.routine Routine.numbers where
  reads {value} fits := by
    simp only [Routine.numbers, fit_append] at fits
    obtain ⟨⟨⟨⟨name, owner⟩, binding⟩, sizes⟩, code⟩ := fits
    obtain ⟨arity, locals⟩ := fit_cons.mp sizes
    simp only [Write.routine, List.append_assoc]
    exact (mirrors_text.reads name).bind <| (mirrors_natural.option.reads owner).bind <|
      (mirrors_visibility.reads fit_nil).bind <| (mirrors_binding.reads binding).bind <|
      (mirrors_natural.reads (fit_singleton.mpr arity)).bind <|
      (mirrors_natural.reads locals).bind <| (mirrors_op.list.reads code).map _
  written accepted := by
    obtain ⟨name, _, nameFits, rfl, afterName⟩ := mirrors_text.written_bind accepted
    obtain ⟨owner, _, ownerFits, rfl, afterOwner⟩ :=
      mirrors_natural.option.written_bind afterName
    obtain ⟨visibility, _, -, rfl, afterVisibility⟩ := mirrors_visibility.written_bind afterOwner
    obtain ⟨binding, _, bindingFits, rfl, afterBinding⟩ :=
      mirrors_binding.written_bind afterVisibility
    obtain ⟨arity, _, arityFits, rfl, afterArity⟩ := mirrors_natural.written_bind afterBinding
    obtain ⟨locals, _, localsFits, rfl, afterLocals⟩ := mirrors_natural.written_bind afterArity
    obtain ⟨code, rfl, codeFits, rfl⟩ := mirrors_op.list.written_map afterLocals
    have sizes : Fit [arity, locals] := fit_cons.mpr ⟨fit_singleton.mp arityFits, localsFits⟩
    refine ⟨?_, by simp only [Write.routine, List.append_assoc]⟩
    simp only [Routine.numbers, fit_append]
    exact ⟨⟨⟨⟨nameFits, ownerFits⟩, bindingFits⟩, sizes⟩, codeFits⟩

theorem mirrors_typeDefinition :
    Mirrors Read.typeDefinition Write.typeDefinition TypeDefinition.numbers where
  reads {value} fits := by
    simp only [TypeDefinition.numbers, fit_append] at fits
    obtain ⟨⟨⟨⟨namespaceName, name⟩, fields⟩, initializer⟩, methods⟩ := fits
    simp only [Write.typeDefinition, List.append_assoc]
    exact (mirrors_text.reads namespaceName).bind <| (mirrors_text.reads name).bind <|
      (mirrors_text.list.reads fields).bind <| (mirrors_natural.option.reads initializer).bind <|
      (mirrors_natural.list.reads methods).map _
  written accepted := by
    obtain ⟨namespaceName, _, namespaceFits, rfl, afterNamespace⟩ :=
      mirrors_text.written_bind accepted
    obtain ⟨name, _, nameFits, rfl, afterName⟩ := mirrors_text.written_bind afterNamespace
    obtain ⟨fields, _, fieldsFit, rfl, afterFields⟩ := mirrors_text.list.written_bind afterName
    obtain ⟨initializer, _, initializerFits, rfl, afterInitializer⟩ :=
      mirrors_natural.option.written_bind afterFields
    obtain ⟨methods, rfl, methodsFit, rfl⟩ := mirrors_natural.list.written_map afterInitializer
    refine ⟨?_, by simp only [Write.typeDefinition, List.append_assoc]⟩
    simp only [TypeDefinition.numbers, fit_append]
    exact ⟨⟨⟨⟨namespaceFits, nameFits⟩, fieldsFit⟩, initializerFits⟩, methodsFit⟩

theorem mirrors_import : Mirrors Read.imported Write.imported Import.numbers where
  reads {value} fits := by
    obtain ⟨moduleName, function⟩ := fit_append.mp fits
    simp only [Write.imported, List.append_assoc]
    exact (mirrors_text.reads moduleName).bind <| (mirrors_short.reads fit_nil).bind <|
      (mirrors_short.reads fit_nil).bind <| (mirrors_text.reads function).map _
  written accepted := by
    obtain ⟨moduleName, _, moduleFits, rfl, afterModule⟩ := mirrors_text.written_bind accepted
    obtain ⟨major, _, -, rfl, afterMajor⟩ := mirrors_short.written_bind afterModule
    obtain ⟨minor, _, -, rfl, afterMinor⟩ := mirrors_short.written_bind afterMajor
    obtain ⟨function, rfl, functionFits, rfl⟩ := mirrors_text.written_map afterMinor
    exact ⟨fit_append.mpr ⟨moduleFits, functionFits⟩,
      by simp only [Write.imported, List.append_assoc]⟩

theorem mirrors_payload : Mirrors Read.payload Write.payload Image.numbers where
  reads {value} fits := by
    simp only [Image.numbers, fit_append] at fits
    obtain ⟨⟨⟨⟨name, imports⟩, types⟩, routines⟩, entry⟩ := fits
    simp only [Write.payload, List.append_assoc]
    exact (mirrors_text.reads name).bind <| (mirrors_import.list.reads imports).bind <|
      (mirrors_typeDefinition.list.reads types).bind <|
      (mirrors_routine.list.reads routines).bind <| (mirrors_natural.option.reads entry).map _
  written accepted := by
    obtain ⟨name, _, nameFits, rfl, afterName⟩ := mirrors_text.written_bind accepted
    obtain ⟨imports, _, importsFit, rfl, afterImports⟩ :=
      mirrors_import.list.written_bind afterName
    obtain ⟨types, _, typesFit, rfl, afterTypes⟩ :=
      mirrors_typeDefinition.list.written_bind afterImports
    obtain ⟨routines, _, routinesFit, rfl, afterRoutines⟩ :=
      mirrors_routine.list.written_bind afterTypes
    obtain ⟨entry, rfl, entryFits, rfl⟩ := mirrors_natural.option.written_map afterRoutines
    refine ⟨?_, by simp only [Write.payload, List.append_assoc]⟩
    simp only [Image.numbers, fit_append]
    exact ⟨⟨⟨⟨nameFits, importsFit⟩, typesFit⟩, routinesFit⟩, entryFits⟩

/-! ## Images -/

/-- The bytes in front of the fields of an image. -/
def header : Bytes :=
  Image.magic ++ Write.littleEndian 2 Image.formatVersion

theorem encode_eq (image : Image) : image.encode = header ++ Write.payload image :=
  rfl

theorem decode_header (payload : Bytes) :
    Image.decode (header ++ payload) = Image.decodePayload payload :=
  rfl

/-- Bytes that are an image are the header and the fields of this image. -/
theorem decodePayload_of_decode {bytes : Bytes} {image : Image}
    (decoded : Image.decode bytes = .ok image) :
    ∃ payload, bytes = header ++ payload ∧ Image.decodePayload payload = .ok image := by
  match bytes with
  | [] | [_] | [_, _] | [_, _, _] | [_, _, _, _] | [_, _, _, _, _] => exact absurd decoded nofun
  | first :: second :: third :: fourth :: low :: high :: payload =>
      simp only [Image.decode] at decoded
      split at decoded
      · exact absurd decoded nofun
      split at decoded
      · exact absurd decoded nofun
      rename_i magic version
      rw [Decidable.not_not] at magic version
      -- the two bytes of the version are settled by their number
      change low.toNat + 256 * high.toNat = 1 at version
      obtain rfl : low = 1 := UInt8.toNat_inj.mp (by change low.toNat = 1; omega)
      obtain rfl : high = 0 := UInt8.toNat_inj.mp (by change high.toNat = 0; omega)
      simp only [Image.magic, List.cons.injEq, and_true] at magic
      obtain ⟨rfl, rfl, rfl, rfl⟩ := magic
      exact ⟨payload, rfl, decoded⟩

/-- The fields of an image are read back, and then the image is checked. -/
theorem decodePayload_append {image : Image} (fits : Fit image.numbers) (tail : Bytes) :
    Image.decodePayload (Write.payload image ++ tail) = match image.verify with
      | .ok () => .ok image
      | .error invalid => .error (.invalid invalid) := by
  rw [Image.decodePayload, mirrors_payload.reads fits]
  simp only
  cases image.verify <;> rfl

/-- A verified image comes back from its bytes. -/
theorem decode_encode {image : Image} (fits : Fit image.numbers) (passed : image.verify = .ok ()) :
    Image.decode image.encode = .ok image := by
  rw [encode_eq, decode_header, ← List.append_nil (Write.payload image), decodePayload_append fits,
    passed]

/-- Decoding what an image was encoded to gives the image if it passes the check, and otherwise
fails with what the check says, whatever stands behind it. -/
theorem Image.decode_encode_append {image : Image} (fits : Fit image.numbers) (tail : Bytes) :
    Image.decode (image.encode ++ tail) = match image.verify with
      | .ok () => .ok image
      | .error invalid => .error (.invalid invalid) := by
  rw [encode_eq, List.append_assoc, decode_header, decodePayload_append fits]

/-- An image with an import, a type with a field, a method and its lambda. The code holds numbers
and texts of every kind. -/
def lambdaImage : Image :=
  { name := "äß€😀"
    imports := #[⟨"io", 1, 65535, "print"⟩]
    types := #[⟨"a.b", "T", ["f"], none, [0]⟩]
    routines := #[
      ⟨"main", some 0, .owner, .static, 1, 2,
        #[.push (.int (-5)), .push (.str "é\n"), .binary .or, .unary .negate, .load 0, .store 1,
          .makeClosure 1 1, .callHost 0 1, .iterNext 1 10, .jumpUnless 3, .ret]⟩,
      ⟨"main$lambda1", some 0, .everyone, .closure 1, 1, 1, #[.load 0, .push (.bool true), .ret]⟩]
    entry := some 0 }

theorem verify_lambdaImage : lambdaImage.verify = .ok () := by
  have valid : lambdaImage.invalid? = none := by decide +kernel
  rw [Image.verify, valid]

/-- This image comes back from its bytes, and one with a missing entry gets the answer of the
check. -/
theorem Image.decode_encode_append_lambdaImage :
    (Fit lambdaImage.numbers ∧ Image.decode (lambdaImage.encode ++ [0xC3]) = .ok lambdaImage) ∧
      Fit { lambdaImage with entry := some 2 }.numbers ∧
      Image.decode ({ lambdaImage with entry := some 2 }.encode ++ [])
        = .error (.invalid (.badEntry 2)) := by
  have fits : Fit lambdaImage.numbers := by decide +kernel
  have entryFits : Fit { lambdaImage with entry := some 2 }.numbers := by decide +kernel
  refine ⟨⟨fits, ?_⟩, entryFits, ?_⟩
  · rw [Image.decode_encode_append fits, verify_lambdaImage]
  · rw [Image.decode_encode_append entryFits]
    rfl

/-! ## One form for each image -/

/-- Bytes that are decoded to an image start with its wire form. -/
theorem encode_prefix_of_decode {bytes : Bytes} {image : Image}
    (decoded : Image.decode bytes = .ok image) : image.encode <+: bytes := by
  obtain ⟨payload, rfl, read⟩ := decodePayload_of_decode decoded
  rw [Image.decodePayload] at read
  split at read
  · exact absurd read nofun
  rename_i image' rest accepted
  split at read
  · exact absurd read nofun
  obtain rfl := Except.ok.inj read
  obtain ⟨-, rfl⟩ := mirrors_payload.written accepted
  exact ⟨rest, by rw [encode_eq, List.append_assoc]⟩

/-- What is left of the fields of an image that is cut short cannot be read. -/
theorem decode_cut {image : Image} (fits : Fit image.numbers) {cut : Bytes}
    (part : cut <+: image.encode) (shorter : cut ≠ image.encode) (long : 6 ≤ cut.length) :
    ∃ error, Image.decode cut = .error (.payload error) := by
  obtain ⟨more, whole⟩ := part
  have someMore : more ≠ [] := by
    rintro rfl
    exact shorter (by rw [← whole, List.append_nil])
  -- six bytes reach behind the header, so only the fields can be cut
  have start : header <+: cut :=
    List.prefix_of_prefix_length_le ⟨Write.payload image, rfl⟩ ⟨more, whole⟩ long
  obtain ⟨payload, rfl⟩ := start
  rw [encode_eq, List.append_assoc, List.append_cancel_left_eq] at whole
  obtain ⟨error, refused⟩ := mirrors_payload.refuses fits whole.symm someMore
  exact ⟨error, by rw [decode_header, Image.decodePayload, refused]⟩

/-- The bytes of an image are the only ones that it is decoded from, up to what follows them, and no
part of them is decoded: what is left says how short it is while it does not reach behind the
header, and cannot be read if it does. -/
theorem Image.encode_canonical :
    (∀ {bytes : Bytes} {image : Image}, Image.decode bytes = .ok image → image.encode <+: bytes) ∧
      ∀ {image : Image}, Fit image.numbers → ∀ {cut : Bytes}, cut <+: image.encode →
        cut ≠ image.encode →
        (cut.length = 0 → Image.decode cut = .error .empty) ∧
        (1 ≤ cut.length → cut.length ≤ 5 → Image.decode cut = .error (.truncated cut.length)) ∧
        (6 ≤ cut.length → ∃ error, Image.decode cut = .error (.payload error)) := by
  refine ⟨encode_prefix_of_decode, fun {_} fits {cut} part shorter ↦
    ⟨?_, ?_, decode_cut fits part shorter⟩⟩
  · intro empty
    rw [List.eq_nil_of_length_eq_zero empty]
    rfl
  · intro some few
    match cut, some, few with
    | [_], _, _ | [_, _], _, _ | [_, _, _], _, _ | [_, _, _, _], _, _ | [_, _, _, _, _], _, _ => rfl

/-- The bytes of an image with something behind them start with the bytes of what they are decoded
to. The same bytes are refused when they are cut to nothing, inside the header, and one byte before
the end. -/
theorem Image.encode_canonical_lambdaImage :
    lambdaImage.encode <+: lambdaImage.encode ++ [1, 2] ∧
      Image.decode (lambdaImage.encode.take 0) = .error .empty ∧
      Image.decode (lambdaImage.encode.take 4) = .error (.truncated 4) ∧
      ∃ error, Image.decode lambdaImage.encode.dropLast = .error (.payload error) := by
  have fits : Fit lambdaImage.numbers := by decide +kernel
  have decoded : Image.decode (lambdaImage.encode ++ [1, 2]) = .ok lambdaImage := by
    rw [encode_eq, List.append_assoc, decode_header, decodePayload_append fits, verify_lambdaImage]
  have cuts {cut : Bytes} (part : cut <+: lambdaImage.encode) :=
    Image.encode_canonical.2 fits part
  refine ⟨Image.encode_canonical.1 decoded, ?_, ?_, ?_⟩
  · exact (cuts (List.take_prefix ..) (by decide +kernel)).1 rfl
  · exact (cuts (List.take_prefix 4 _) (by decide +kernel)).2.1 (by decide +kernel)
      (by decide +kernel)
  · exact (cuts (List.dropLast_prefix _) (by decide +kernel)).2.2 (by decide +kernel)

end GuestScript.Bytecode
