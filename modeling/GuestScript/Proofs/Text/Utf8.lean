import GuestScript.Text.Utf8

/-!
# Reading back text

`decode` reads back what `encode` wrote and accepts nothing else: `decode_eq_ok_iff`. One character
is followed through both directions for each number of bytes that it can take, and the bytes of a
text through a run of the reader. Texts are in the order of their bytes: `lt_iff_encode_lt`.
-/

namespace GuestScript.Utf8

/-! ## Bytes and numbers -/

theorem isContinuation_iff {byte : UInt8} :
    isContinuation byte = true ↔ 0x80 ≤ byte.toNat ∧ byte.toNat ≤ 0xBF := by
  simp only [isContinuation, Bool.and_eq_true, decide_eq_true_eq, UInt8.le_iff_toNat_le]
  rfl

theorem mayFollowOfThree_iff {first second : UInt8} :
    mayFollowOfThree first second = true ↔
      (0x80 ≤ second.toNat ∧ second.toNat ≤ 0xBF) ∧ (first.toNat = 0xE0 → 0xA0 ≤ second.toNat) ∧
        (first.toNat = 0xED → second.toNat ≤ 0x9F) := by
  have low : first = 0xE0 ↔ first.toNat = 0xE0 := UInt8.toNat_inj.symm
  have high : first = 0xED ↔ first.toNat = 0xED := UInt8.toNat_inj.symm
  simp only [mayFollowOfThree, low, high]
  split
  · simp only [Bool.and_eq_true, decide_eq_true_eq, UInt8.le_iff_toNat_le, UInt8.reduceToNat]
    omega
  split
  · simp only [Bool.and_eq_true, decide_eq_true_eq, UInt8.le_iff_toNat_le, UInt8.reduceToNat]
    omega
  · rw [isContinuation_iff]
    omega

theorem mayFollowOfFour_iff {first second : UInt8} :
    mayFollowOfFour first second = true ↔
      (0x80 ≤ second.toNat ∧ second.toNat ≤ 0xBF) ∧ (first.toNat = 0xF0 → 0x90 ≤ second.toNat) ∧
        (first.toNat = 0xF4 → second.toNat ≤ 0x8F) := by
  have low : first = 0xF0 ↔ first.toNat = 0xF0 := UInt8.toNat_inj.symm
  have high : first = 0xF4 ↔ first.toNat = 0xF4 := UInt8.toNat_inj.symm
  simp only [mayFollowOfFour, low, high]
  split
  · simp only [Bool.and_eq_true, decide_eq_true_eq, UInt8.le_iff_toNat_le, UInt8.reduceToNat]
    omega
  split
  · simp only [Bool.and_eq_true, decide_eq_true_eq, UInt8.le_iff_toNat_le, UInt8.reduceToNat]
    omega
  · rw [isContinuation_iff]
    omega

/-- Whether a byte lies between two others, by its number. -/
theorem between_iff {low high byte : UInt8} :
    (decide (low ≤ byte) && decide (byte ≤ high)) = true ↔
      low.toNat ≤ byte.toNat ∧ byte.toNat ≤ high.toNat := by
  simp only [Bool.and_eq_true, decide_eq_true_eq, UInt8.le_iff_toNat_le]

theorem ofNat_eq_of_toNat (byte : UInt8) {number : Nat} (same : number = byte.toNat) :
    UInt8.ofNat number = byte := by
  rw [same, UInt8.ofNat_toNat]

theorem toNat_ofNat_of_lt {number : Nat} (small : number < 256) :
    (UInt8.ofNat number).toNat = number :=
  UInt8.toNat_ofNat_of_lt' small

theorem toNat_val_ofNat {number : Nat} (valid : number.isValidChar) :
    (Char.ofNat number).val.toNat = number := by
  rw [Char.ofNat, dif_pos valid]
  rfl

theorem ofNat_eq_of_val (char : Char) {number : Nat} (same : number = char.val.toNat) :
    Char.ofNat number = char := by
  rw [same]
  exact Char.ofNat_toNat char

/-- The numbers of characters leave out the surrogates and end before 0x110000. -/
theorem val_valid (char : Char) :
    char.val.toNat < 0xD800 ∨ 0xDFFF < char.val.toNat ∧ char.val.toNat < 0x110000 :=
  char.valid

/-! ## The bytes of a character that was read -/

theorem encodeChar_ofOne {first : UInt8} (small : first < 0x80) :
    String.utf8EncodeChar (Char.ofNat first.toNat) = [first] := by
  simp only [UInt8.lt_iff_toNat_lt, UInt8.reduceToNat] at small
  have number : (Char.ofNat first.toNat).val.toNat = first.toNat :=
    toNat_val_ofNat (.inl (by omega))
  simp only [String.utf8EncodeChar, number]
  rw [if_pos (by omega), UInt8.ofNat_toNat]

theorem encodeChar_ofTwo {first second : UInt8} (low : 0xC2 ≤ first.toNat)
    (high : first.toNat ≤ 0xDF) (continues : isContinuation second = true) :
    String.utf8EncodeChar (ofTwo first second) = [first, second] := by
  rw [isContinuation_iff] at continues
  have number : (ofTwo first second).val.toNat = first.toNat % 32 * 64 + second.toNat % 64 :=
    toNat_val_ofNat (.inl (by rw [payload]; omega))
  simp only [String.utf8EncodeChar, number]
  rw [if_neg (by omega), if_pos (by omega), ofNat_eq_of_toNat first (by omega),
    ofNat_eq_of_toNat second (by omega)]

theorem encodeChar_ofThree {first second third : UInt8} (low : 0xE0 ≤ first.toNat)
    (high : first.toNat ≤ 0xEF) (follows : mayFollowOfThree first second = true)
    (continues : isContinuation third = true) :
    String.utf8EncodeChar (ofThree first second third) = [first, second, third] := by
  rw [mayFollowOfThree_iff] at follows
  rw [isContinuation_iff] at continues
  have number : (ofThree first second third).val.toNat
      = (first.toNat % 16 * 64 + second.toNat % 64) * 64 + third.toNat % 64 :=
    toNat_val_ofNat (by simp only [Nat.isValidChar, payload]; omega)
  simp only [String.utf8EncodeChar, number]
  rw [if_neg (by omega), if_neg (by omega), if_pos (by omega),
    ofNat_eq_of_toNat first (by omega), ofNat_eq_of_toNat second (by omega),
    ofNat_eq_of_toNat third (by omega)]

theorem encodeChar_ofFour {first second third fourth : UInt8} (low : 0xF0 ≤ first.toNat)
    (high : first.toNat ≤ 0xF4) (follows : mayFollowOfFour first second = true)
    (continues : isContinuation third = true) (ends : isContinuation fourth = true) :
    String.utf8EncodeChar (ofFour first second third fourth) = [first, second, third, fourth] := by
  rw [mayFollowOfFour_iff] at follows
  rw [isContinuation_iff] at continues ends
  have number : (ofFour first second third fourth).val.toNat
      = ((first.toNat % 8 * 64 + second.toNat % 64) * 64 + third.toNat % 64) * 64
        + fourth.toNat % 64 :=
    toNat_val_ofNat (by simp only [Nat.isValidChar, payload]; omega)
  simp only [String.utf8EncodeChar, number]
  rw [if_neg (by omega), if_neg (by omega), if_neg (by omega),
    ofNat_eq_of_toNat first (by omega), ofNat_eq_of_toNat second (by omega),
    ofNat_eq_of_toNat third (by omega), ofNat_eq_of_toNat fourth (by omega)]

/-! ## Reading the bytes of a character -/

section Reading

variable {first second third fourth : UInt8} (rest : List UInt8) (index : Nat) (text : String)

theorem decodeFrom_one (small : first.toNat < 0x80) :
    decodeFrom (first :: rest) index text
      = decodeFrom rest (index + 1) (text.push (Char.ofNat first.toNat)) := by
  have ascii : first < 0x80 := UInt8.lt_iff_toNat_lt.mpr small
  rw [decodeFrom.eq_def]
  simp only [if_pos ascii]

theorem decodeFrom_two (low : 0xC2 ≤ first.toNat) (high : first.toNat ≤ 0xDF)
    (continues : isContinuation second = true) :
    decodeFrom (first :: second :: rest) index text
      = decodeFrom rest (index + 2) (text.push (ofTwo first second)) := by
  have ascii : ¬ first < 0x80 := by
    simp only [UInt8.lt_iff_toNat_lt, UInt8.reduceToNat]
    omega
  have two : (decide (0xC2 ≤ first) && decide (first ≤ 0xDF)) = true := between_iff.mpr ⟨low, high⟩
  rw [decodeFrom.eq_def]
  simp only [if_neg ascii, if_pos two, if_pos continues]

theorem decodeFrom_three (low : 0xE0 ≤ first.toNat) (high : first.toNat ≤ 0xEF)
    (follows : mayFollowOfThree first second = true) (continues : isContinuation third = true) :
    decodeFrom (first :: second :: third :: rest) index text
      = decodeFrom rest (index + 3) (text.push (ofThree first second third)) := by
  have ascii : ¬ first < 0x80 := by
    simp only [UInt8.lt_iff_toNat_lt, UInt8.reduceToNat]
    omega
  have notTwo : ¬ (decide (0xC2 ≤ first) && decide (first ≤ 0xDF)) = true := by
    simp only [between_iff, UInt8.reduceToNat]
    omega
  have three : (decide (0xE0 ≤ first) && decide (first ≤ 0xEF)) = true :=
    between_iff.mpr ⟨low, high⟩
  rw [decodeFrom.eq_def]
  simp only [if_neg ascii, if_neg notTwo, if_pos three, if_pos follows, if_pos continues]

theorem decodeFrom_four (low : 0xF0 ≤ first.toNat) (high : first.toNat ≤ 0xF4)
    (follows : mayFollowOfFour first second = true) (continues : isContinuation third = true)
    (ends : isContinuation fourth = true) :
    decodeFrom (first :: second :: third :: fourth :: rest) index text
      = decodeFrom rest (index + 4) (text.push (ofFour first second third fourth)) := by
  have ascii : ¬ first < 0x80 := by
    simp only [UInt8.lt_iff_toNat_lt, UInt8.reduceToNat]
    omega
  have notTwo : ¬ (decide (0xC2 ≤ first) && decide (first ≤ 0xDF)) = true := by
    simp only [between_iff, UInt8.reduceToNat]
    omega
  have notThree : ¬ (decide (0xE0 ≤ first) && decide (first ≤ 0xEF)) = true := by
    simp only [between_iff, UInt8.reduceToNat]
    omega
  have four : (decide (0xF0 ≤ first) && decide (first ≤ 0xF4)) = true := between_iff.mpr ⟨low, high⟩
  rw [decodeFrom.eq_def]
  simp only [if_neg ascii, if_neg notTwo, if_neg notThree, if_pos four, if_pos follows,
    if_pos continues, if_pos ends]

end Reading

/-- The bytes of a character are read as this character. -/
theorem decodeFrom_encodeChar (char : Char) (rest : List UInt8) (index : Nat) (text : String) :
    decodeFrom (String.utf8EncodeChar char ++ rest) index text
      = decodeFrom rest (index + (String.utf8EncodeChar char).length) (text.push char) := by
  have valid := val_valid char
  rw [String.utf8EncodeChar]
  split
  case isTrue small =>
    have first : (UInt8.ofNat char.val.toNat).toNat = char.val.toNat :=
      toNat_ofNat_of_lt (by omega)
    simp only [List.cons_append, List.nil_append, List.length_cons, List.length_nil]
    rw [decodeFrom_one _ _ _ (by omega), ofNat_eq_of_val char first]
  split
  case isTrue =>
    have first : (UInt8.ofNat (char.val.toNat / 64 % 32 + 192)).toNat
        = char.val.toNat / 64 % 32 + 192 := toNat_ofNat_of_lt (by omega)
    have second : (UInt8.ofNat (char.val.toNat % 64 + 128)).toNat
        = char.val.toNat % 64 + 128 := toNat_ofNat_of_lt (by omega)
    simp only [List.cons_append, List.nil_append, List.length_cons, List.length_nil]
    rw [decodeFrom_two _ _ _ (by omega) (by omega) (isContinuation_iff.mpr (by omega)), ofTwo,
      payload, first, second, ofNat_eq_of_val char (by omega)]
  split
  case isTrue =>
    have first : (UInt8.ofNat (char.val.toNat / 4096 % 16 + 224)).toNat
        = char.val.toNat / 4096 % 16 + 224 := toNat_ofNat_of_lt (by omega)
    have second : (UInt8.ofNat (char.val.toNat / 64 % 64 + 128)).toNat
        = char.val.toNat / 64 % 64 + 128 := toNat_ofNat_of_lt (by omega)
    have third : (UInt8.ofNat (char.val.toNat % 64 + 128)).toNat
        = char.val.toNat % 64 + 128 := toNat_ofNat_of_lt (by omega)
    simp only [List.cons_append, List.nil_append, List.length_cons, List.length_nil]
    rw [decodeFrom_three _ _ _ (by omega) (by omega) (mayFollowOfThree_iff.mpr (by omega))
        (isContinuation_iff.mpr (by omega)),
      ofThree, payload, payload, first, second, third, ofNat_eq_of_val char (by omega)]
  case isFalse =>
    have first : (UInt8.ofNat (char.val.toNat / 262144 % 8 + 240)).toNat
        = char.val.toNat / 262144 % 8 + 240 := toNat_ofNat_of_lt (by omega)
    have second : (UInt8.ofNat (char.val.toNat / 4096 % 64 + 128)).toNat
        = char.val.toNat / 4096 % 64 + 128 := toNat_ofNat_of_lt (by omega)
    have third : (UInt8.ofNat (char.val.toNat / 64 % 64 + 128)).toNat
        = char.val.toNat / 64 % 64 + 128 := toNat_ofNat_of_lt (by omega)
    have fourth : (UInt8.ofNat (char.val.toNat % 64 + 128)).toNat
        = char.val.toNat % 64 + 128 := toNat_ofNat_of_lt (by omega)
    simp only [List.cons_append, List.nil_append, List.length_cons, List.length_nil]
    rw [decodeFrom_four _ _ _ (by omega) (by omega) (mayFollowOfFour_iff.mpr (by omega))
        (isContinuation_iff.mpr (by omega)) (isContinuation_iff.mpr (by omega)),
      ofFour, payload, payload, payload, first, second, third, fourth,
      ofNat_eq_of_val char (by omega)]

/-! ## Reading texts -/

theorem push_append_ofList (text : String) (char : Char) (chars : List Char) :
    text.push char ++ String.ofList chars = text ++ String.ofList (char :: chars) := by
  rw [← String.toList_inj]
  simp

theorem decodeFrom_flatMap (chars : List Char) (index : Nat) (text : String) :
    decodeFrom (chars.flatMap String.utf8EncodeChar) index text
      = .ok (text ++ String.ofList chars) := by
  induction chars generalizing index text with
  | nil =>
      rw [List.flatMap_nil, decodeFrom.eq_def]
      simp
  | cons char chars ih =>
      rw [List.flatMap_cons, decodeFrom_encodeChar, ih, push_append_ofList]

/-- Bytes that are read as the end of a text are the bytes of that end. -/
theorem decodeFrom_eq_ok {bytes : List UInt8} {index : Nat} {text result : String}
    (read : decodeFrom bytes index text = .ok result) :
    ∃ chars : List Char, bytes = chars.flatMap String.utf8EncodeChar ∧
      result = text ++ String.ofList chars := by
  have behind {bytes rest : List UInt8} {char : Char} {text result : String}
      (same : String.utf8EncodeChar char ++ rest = bytes)
      (others : ∃ chars : List Char, rest = chars.flatMap String.utf8EncodeChar ∧
        result = text.push char ++ String.ofList chars) :
      ∃ chars : List Char, bytes = chars.flatMap String.utf8EncodeChar ∧
        result = text ++ String.ofList chars := by
    obtain ⟨chars, rfl, rfl⟩ := others
    exact ⟨char :: chars, same.symm, push_append_ofList text char chars⟩
  fun_induction decodeFrom bytes index text with
  | case1 => exact ⟨[], rfl, by simpa using (Except.ok.inj read).symm⟩
  | case2 first rest index text small ih =>
      exact behind (by rw [encodeChar_ofOne small]; rfl) (ih read)
  | case4 first index text _ inside second rest continues ih =>
      obtain ⟨low, high⟩ := between_iff.mp inside
      exact behind (by rw [encodeChar_ofTwo low high continues]; rfl) (ih read)
  | case8 first index text _ _ inside second follows third rest continues ih =>
      obtain ⟨low, high⟩ := between_iff.mp inside
      exact behind (by rw [encodeChar_ofThree low high follows continues]; rfl) (ih read)
  | case14 first index text _ _ _ inside second follows third continues fourth rest ends ih =>
      obtain ⟨low, high⟩ := between_iff.mp inside
      exact behind (by rw [encodeChar_ofFour low high follows continues ends]; rfl) (ih read)
  | _ => exact absurd read nofun

/-- Bytes are read as a text exactly if they are the bytes of this text. -/
theorem decode_eq_ok_iff {bytes : List UInt8} {text : String} :
    decode bytes = .ok text ↔ bytes = encode text := by
  constructor
  · intro read
    obtain ⟨chars, rfl, same⟩ := decodeFrom_eq_ok read
    rw [encode, same]
    simp
  · rintro rfl
    rw [decode, encode, decodeFrom_flatMap]
    simp

/-! ## The order of texts is that of their bytes

Of two characters the greater one has the greater bytes, also where it takes more of them. So the
first characters that two texts differ in decide about their bytes, whatever stands behind them.
-/

theorem ofNat_lt_ofNat_iff {less more : Nat} (small : less < 256) (small' : more < 256) :
    UInt8.ofNat less < UInt8.ofNat more ↔ less < more := by
  rw [UInt8.lt_iff_toNat_lt, toNat_ofNat_of_lt small, toNat_ofNat_of_lt small']

/-- A first byte that is less decides. -/
theorem cons_lt_of_lt {less more : Nat} (below : less < more) (small : more < 256)
    (rest others : List UInt8) : UInt8.ofNat less :: rest < UInt8.ofNat more :: others :=
  List.cons_lt_cons_iff.mpr
    (.inl ((ofNat_lt_ofNat_iff (Nat.lt_trans below small) small).mpr below))

/-- A first byte that is not greater leaves it to the others if it is the same. -/
theorem cons_lt_of_le {less more : Nat} (below : less ≤ more) (small : more < 256)
    {rest others : List UInt8} (behind : less = more → rest < others) :
    UInt8.ofNat less :: rest < UInt8.ofNat more :: others := by
  obtain below | same := Nat.lt_or_eq_of_le below
  · exact cons_lt_of_lt below small rest others
  · subst same
    exact List.cons_lt_cons_iff.mpr (.inr ⟨rfl, behind rfl⟩)

/-- The bytes of a lesser character are less, whatever stands behind both. -/
theorem encodeChar_append_lt {first second : Char} (below : first < second)
    (rest others : List UInt8) :
    String.utf8EncodeChar first ++ rest < String.utf8EncodeChar second ++ others := by
  have below : first.val.toNat < second.val.toNat := UInt32.lt_iff_toNat_lt.mp below
  have valid := val_valid second
  rw [String.utf8EncodeChar, String.utf8EncodeChar]
  generalize first.val.toNat = less, second.val.toNat = more at below valid
  -- forms of different lengths differ in their first bytes, and others where the numbers do
  by_cases one : less ≤ 127
  · rw [if_pos one]
    split
    · exact cons_lt_of_lt below (by omega) rest others
    split
    · exact cons_lt_of_lt (by omega) (by omega) rest _
    split
    · exact cons_lt_of_lt (by omega) (by omega) rest _
    · exact cons_lt_of_lt (by omega) (by omega) rest _
  rw [if_neg one, if_neg (by omega : ¬ more ≤ 127)]
  by_cases two : less ≤ 2047
  · rw [if_pos two]
    split
    · exact cons_lt_of_le (by omega) (by omega) fun _ ↦ cons_lt_of_lt (by omega) (by omega) _ _
    split
    · exact cons_lt_of_lt (by omega) (by omega) _ _
    · exact cons_lt_of_lt (by omega) (by omega) _ _
  rw [if_neg two, if_neg (by omega : ¬ more ≤ 2047)]
  by_cases three : less ≤ 65535
  · rw [if_pos three]
    split
    · exact cons_lt_of_le (by omega) (by omega) fun _ ↦
        cons_lt_of_le (by omega) (by omega) fun _ ↦ cons_lt_of_lt (by omega) (by omega) _ _
    · exact cons_lt_of_lt (by omega) (by omega) _ _
  rw [if_neg three, if_neg (by omega : ¬ more ≤ 65535)]
  exact cons_lt_of_le (by omega) (by omega) fun _ ↦ cons_lt_of_le (by omega) (by omega) fun _ ↦
    cons_lt_of_le (by omega) (by omega) fun _ ↦ cons_lt_of_lt (by omega) (by omega) _ _

theorem flatMap_lt_flatMap {firsts seconds : List Char} (below : firsts < seconds) :
    firsts.flatMap String.utf8EncodeChar < seconds.flatMap String.utf8EncodeChar := by
  induction below with
  | @nil char rest =>
      have some : 0 < (String.utf8EncodeChar char).length :=
        (String.length_utf8EncodeChar char).symm ▸ Char.utf8Size_pos char
      obtain ⟨byte, bytes, same⟩ := List.exists_cons_of_length_pos some
      rw [List.flatMap_cons, same]
      exact List.Lex.nil
  | cons _ ih =>
      rw [List.flatMap_cons, List.flatMap_cons]
      exact List.append_left_lt ih
  | rel below => exact encodeChar_append_lt below _ _

/-- The order of two texts is the lexicographic order of their bytes. -/
theorem lt_iff_encode_lt {first second : String} :
    first < second ↔ List.Lex (· < ·) (encode first) (encode second) := by
  refine ⟨flatMap_lt_flatMap, fun below ↦ Decidable.byContradiction fun notLess ↦ ?_⟩
  by_cases more : second < first
  · exact List.lt_asymm (flatMap_lt_flatMap more) below
  · have same : first = second := String.le_antisymm more notLess
    exact List.lt_irrefl (encode second) (same ▸ below)

end GuestScript.Utf8
