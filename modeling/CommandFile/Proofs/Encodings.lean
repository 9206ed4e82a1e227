import CommandFile.Text.Utf8
import Mathlib.Data.List.Basic

/-!
# Encodings

Reading UTF-8 undoes writing it, and reads nothing else: bytes are read as a text exactly when
they are the encoding of that text.  Pieces of bytes answer to single characters, by the four
widths of an encoding.
-/

namespace CommandFile.Utf8

variable {byte : UInt8} {rest : Bytes} {character : Char} {width : Nat}

/-! ## First bytes -/

theorem lead?_one (upper : byte.toNat < 0x80) :
    lead? byte = some ⟨0, 0x80, 0xBF, byte.toNat⟩ := by
  simp only [lead?, if_pos upper]

theorem lead?_two (lower : 0xC2 ≤ byte.toNat) (upper : byte.toNat < 0xE0) :
    lead? byte = some ⟨1, 0x80, 0xBF, byte.toNat - 0xC0⟩ := by
  have first : ¬ byte.toNat < 0x80 := by omega
  have second : ¬ byte.toNat < 0xC2 := by omega
  simp only [lead?, if_neg first, if_neg second, if_pos upper]

/-- The first continuation has a range of its own behind the first and the last but two leads of
three bytes. -/
theorem lead?_three (lower : 0xE0 ≤ byte.toNat) (upper : byte.toNat < 0xF0) :
    lead? byte =
      some ⟨2, if byte.toNat = 0xE0 then 0xA0 else 0x80,
        if byte.toNat = 0xED then 0x9F else 0xBF, byte.toNat - 0xE0⟩ := by
  have first : ¬ byte.toNat < 0x80 := by omega
  have second : ¬ byte.toNat < 0xC2 := by omega
  have third : ¬ byte.toNat < 0xE0 := by omega
  simp only [lead?, if_neg first, if_neg second, if_neg third, if_pos upper]
  split
  · next least => simp [least]
  · split
    · next last => simp [last]
    · rfl

theorem lead?_four (lower : 0xF0 ≤ byte.toNat) (upper : byte.toNat < 0xF5) :
    lead? byte =
      some ⟨3, if byte.toNat = 0xF0 then 0x90 else 0x80,
        if byte.toNat = 0xF4 then 0x8F else 0xBF, byte.toNat - 0xF0⟩ := by
  have first : ¬ byte.toNat < 0x80 := by omega
  have second : ¬ byte.toNat < 0xC2 := by omega
  have third : ¬ byte.toNat < 0xE0 := by omega
  have fourth : ¬ byte.toNat = 0xE0 := by omega
  have fifth : ¬ byte.toNat = 0xED := by omega
  have sixth : ¬ byte.toNat < 0xF0 := by omega
  simp only [lead?, if_neg first, if_neg second, if_neg third, if_neg fourth, if_neg fifth,
    if_neg sixth]
  split
  · next least => simp [least]
  · split
    · next less =>
        have other : ¬ byte.toNat = 0xF4 := by omega
        simp [other]
    · have last : byte.toNat = 0xF4 := by omega
      simp [last]

theorem lead?_cases {lead : Lead} (found : lead? byte = some lead) :
    byte.toNat < 0x80 ∨ (0xC2 ≤ byte.toNat ∧ byte.toNat < 0xE0) ∨
      (0xE0 ≤ byte.toNat ∧ byte.toNat < 0xF0) ∨ (0xF0 ≤ byte.toNat ∧ byte.toNat < 0xF5) := by
  by_contra outside
  have nothing : lead? byte = none := by
    unfold lead?
    dsimp only
    split_ifs <;> first | rfl | omega
  rw [nothing] at found
  nomatch found

/-! ## Pieces -/

theorem continueWith_cons {lowest highest : Nat} (lower : lowest ≤ byte.toNat)
    (upper : byte.toNat ≤ highest) (value taken remaining : Nat) (rest : Bytes) :
    continueWith lowest highest value taken (remaining + 1) (byte :: rest) =
      continueWith 0x80 0xBF (value * 0x40 + (byte.toNat - 0x80)) (taken + 1) remaining rest := by
  simp only [continueWith, lower, upper, decide_true, Bool.and_self, if_true]

theorem continueWith_succ {lowest highest value taken remaining : Nat} {bytes : Bytes}
    (found : continueWith lowest highest value taken (remaining + 1) bytes =
      .character character width) :
    ∃ byte rest, bytes = byte :: rest ∧ lowest ≤ byte.toNat ∧ byte.toNat ≤ highest ∧
      continueWith 0x80 0xBF (value * 0x40 + (byte.toNat - 0x80)) (taken + 1) remaining rest =
        .character character width := by
  cases bytes with
  | nil => nomatch found
  | cons byte rest =>
      by_cases inside : lowest ≤ byte.toNat ∧ byte.toNat ≤ highest
      · rw [continueWith_cons inside.1 inside.2] at found
        exact ⟨byte, rest, rfl, inside.1, inside.2, found⟩
      · have outside : (decide (lowest ≤ byte.toNat) && decide (byte.toNat ≤ highest)) = false := by
          simpa using inside
        simp only [continueWith, outside, Bool.false_eq_true, if_false] at found
        nomatch found

theorem toNat_toUInt8 (value : Nat) (small : value < 0x100) : value.toUInt8.toNat = value := by
  simp only [Nat.toUInt8_eq, UInt8.toNat_ofNat']
  omega

theorem continueWith_written {lowest highest bits : Nat} (small : bits < 0x40)
    (lower : lowest ≤ 0x80 + bits) (upper : 0x80 + bits ≤ highest)
    (value taken remaining : Nat) (rest : Bytes) :
    continueWith lowest highest value taken (remaining + 1) ((0x80 + bits).toUInt8 :: rest) =
      continueWith 0x80 0xBF (value * 0x40 + bits) (taken + 1) remaining rest := by
  have written := toNat_toUInt8 (0x80 + bits) (by omega)
  rw [continueWith_cons (by omega) (by omega), written, Nat.add_sub_cancel_left]

theorem continueWith_zero (lowest highest value taken : Nat) (bytes : Bytes) :
    continueWith lowest highest value taken 0 bytes = .character (Char.ofNat value) taken := by
  cases bytes <;> rfl

theorem piece_encodeChar (character : Char) (rest : Bytes) :
    ∃ byte more, encodeChar character = byte :: more ∧
      piece byte (more ++ rest) = .character character (more.length + 1) := by
  have range : character.toNat < 0xD800 ∨ 0xDFFF < character.toNat ∧ character.toNat < 0x110000 :=
    character.valid
  have same : Char.ofNat character.toNat = character := Char.ofNat_toNat character
  unfold encodeChar
  dsimp only
  split
  · next one =>
      have lead := toNat_toUInt8 character.toNat (by omega)
      refine ⟨_, _, rfl, ?_⟩
      rw [piece, lead?_one (by omega), lead]
      dsimp only
      rw [continueWith_zero, same]
      rfl
  split
  · next two =>
      have lead := toNat_toUInt8 (0xC0 + character.toNat / 0x40) (by omega)
      have whole : (0xC0 + character.toNat / 0x40 - 0xC0) * 0x40 + character.toNat % 0x40 =
          character.toNat := by omega
      refine ⟨_, _, rfl, ?_⟩
      rw [piece, lead?_two (by omega) (by omega), lead]
      dsimp only [List.cons_append, List.nil_append]
      rw [continueWith_written (by omega) (by omega) (by omega), continueWith_zero, whole, same]
      rfl
  split
  · next three =>
      have lead := toNat_toUInt8 (0xE0 + character.toNat / 0x1000) (by omega)
      have whole : ((0xE0 + character.toNat / 0x1000 - 0xE0) * 0x40 +
          character.toNat / 0x40 % 0x40) * 0x40 + character.toNat % 0x40 = character.toNat := by
        omega
      refine ⟨_, _, rfl, ?_⟩
      rw [piece, lead?_three (by omega) (by omega), lead]
      dsimp only [List.cons_append, List.nil_append]
      rw [continueWith_written (by omega) (by split <;> omega) (by split <;> omega),
        continueWith_written (by omega) (by omega) (by omega), continueWith_zero, whole, same]
      rfl
  · next four =>
      have lead := toNat_toUInt8 (0xF0 + character.toNat / 0x40000) (by omega)
      have whole : (((0xF0 + character.toNat / 0x40000 - 0xF0) * 0x40 +
          character.toNat / 0x1000 % 0x40) * 0x40 + character.toNat / 0x40 % 0x40) * 0x40 +
          character.toNat % 0x40 = character.toNat := by omega
      refine ⟨_, _, rfl, ?_⟩
      rw [piece, lead?_four (by omega) (by omega), lead]
      dsimp only [List.cons_append, List.nil_append]
      rw [continueWith_written (by omega) (by split <;> omega) (by split <;> omega),
        continueWith_written (by omega) (by omega) (by omega),
        continueWith_written (by omega) (by omega) (by omega), continueWith_zero, whole, same]
      rfl

theorem toUInt8_of_toNat (byte : UInt8) {value : Nat} (same : value = byte.toNat) :
    value.toUInt8 = byte := by
  rw [same]
  exact UInt8.ofNat_toNat

theorem toNat_ofNat {value : Nat} (valid : value.isValidChar) :
    (Char.ofNat value).toNat = value := by
  have chosen : Char.ofNat value = Char.ofNatAux value valid := dif_pos valid
  rw [chosen]
  exact UInt32.toNat_ofNatLT

theorem of_continueWith_zero {lowest highest value taken : Nat} {bytes : Bytes}
    (found : continueWith lowest highest value taken 0 bytes = .character character width) :
    character = Char.ofNat value ∧ width = taken := by
  rw [continueWith_zero, Piece.character.injEq] at found
  exact ⟨found.1.symm, found.2.symm⟩

/-! ## Characters of one to four bytes -/

theorem encodeChar_one (upper : byte.toNat < 0x80) :
    encodeChar (Char.ofNat byte.toNat) = [byte] := by
  have valid : byte.toNat.isValidChar := .inl (by omega)
  simp only [encodeChar, toNat_ofNat valid, if_pos upper]
  rw [toUInt8_of_toNat byte rfl]

theorem encodeChar_two {second : UInt8} (lower : 0xC2 ≤ byte.toNat) (upper : byte.toNat < 0xE0)
    (above : 0x80 ≤ second.toNat) (below : second.toNat ≤ 0xBF) :
    encodeChar (Char.ofNat ((byte.toNat - 0xC0) * 0x40 + (second.toNat - 0x80))) =
      [byte, second] := by
  have valid : ((byte.toNat - 0xC0) * 0x40 + (second.toNat - 0x80)).isValidChar :=
    .inl (by omega)
  simp only [encodeChar, toNat_ofNat valid]
  rw [if_neg (by omega), if_pos (by omega), toUInt8_of_toNat byte (by omega),
    toUInt8_of_toNat second (by omega)]

/-- The range of the second byte leaves out the characters of two bytes and the surrogates. -/
theorem encodeChar_three {second third : UInt8} (lower : 0xE0 ≤ byte.toNat)
    (upper : byte.toNat < 0xF0)
    (above : (if byte.toNat = 0xE0 then 0xA0 else 0x80) ≤ second.toNat)
    (below : second.toNat ≤ if byte.toNat = 0xED then 0x9F else 0xBF)
    (aboveThen : 0x80 ≤ third.toNat) (belowThen : third.toNat ≤ 0xBF) :
    encodeChar (Char.ofNat (((byte.toNat - 0xE0) * 0x40 + (second.toNat - 0x80)) * 0x40 +
      (third.toNat - 0x80))) = [byte, second, third] := by
  have lowest : 0x80 ≤ second.toNat ∧ (byte.toNat = 0xE0 → 0xA0 ≤ second.toNat) := by
    split at above <;> omega
  have highest : second.toNat ≤ 0xBF ∧ (byte.toNat = 0xED → second.toNat ≤ 0x9F) := by
    split at below <;> omega
  have valid : (((byte.toNat - 0xE0) * 0x40 + (second.toNat - 0x80)) * 0x40 +
      (third.toNat - 0x80)).isValidChar :=
    or_iff_not_imp_left.mpr fun surrogate => by omega
  simp only [encodeChar, toNat_ofNat valid]
  rw [if_neg (by omega), if_neg (by omega), if_pos (by omega), toUInt8_of_toNat byte (by omega),
    toUInt8_of_toNat second (by omega), toUInt8_of_toNat third (by omega)]

/-- The range of the second byte leaves out the characters of three bytes and what is none. -/
theorem encodeChar_four {second third fourth : UInt8} (lower : 0xF0 ≤ byte.toNat)
    (upper : byte.toNat < 0xF5)
    (above : (if byte.toNat = 0xF0 then 0x90 else 0x80) ≤ second.toNat)
    (below : second.toNat ≤ if byte.toNat = 0xF4 then 0x8F else 0xBF)
    (aboveThen : 0x80 ≤ third.toNat) (belowThen : third.toNat ≤ 0xBF)
    (aboveLast : 0x80 ≤ fourth.toNat) (belowLast : fourth.toNat ≤ 0xBF) :
    encodeChar (Char.ofNat ((((byte.toNat - 0xF0) * 0x40 + (second.toNat - 0x80)) * 0x40 +
      (third.toNat - 0x80)) * 0x40 + (fourth.toNat - 0x80))) = [byte, second, third, fourth] := by
  have lowest : 0x80 ≤ second.toNat ∧ (byte.toNat = 0xF0 → 0x90 ≤ second.toNat) := by
    split at above <;> omega
  have highest : second.toNat ≤ 0xBF ∧ (byte.toNat = 0xF4 → second.toNat ≤ 0x8F) := by
    split at below <;> omega
  have valid : ((((byte.toNat - 0xF0) * 0x40 + (second.toNat - 0x80)) * 0x40 +
      (third.toNat - 0x80)) * 0x40 + (fourth.toNat - 0x80)).isValidChar :=
    .inr ⟨by omega, by omega⟩
  simp only [encodeChar, toNat_ofNat valid]
  rw [if_neg (by omega), if_neg (by omega), if_neg (by omega), toUInt8_of_toNat byte (by omega),
    toUInt8_of_toNat second (by omega), toUInt8_of_toNat third (by omega),
    toUInt8_of_toNat fourth (by omega)]

theorem encodeChar_of_piece (found : piece byte rest = .character character width) :
    ∃ more, rest = more ++ rest.drop (width - 1) ∧ encodeChar character = byte :: more := by
  unfold piece at found
  cases first : lead? byte with
  | none =>
      rw [first] at found
      nomatch found
  | some lead =>
      rw [first] at found
      dsimp only at found
      rcases lead?_cases first with one | ⟨lower, upper⟩ | ⟨lower, upper⟩ | ⟨lower, upper⟩
      · rw [lead?_one one, Option.some.injEq] at first
        subst first
        obtain ⟨rfl, rfl⟩ := of_continueWith_zero found
        exact ⟨[], rfl, encodeChar_one one⟩
      · rw [lead?_two lower upper, Option.some.injEq] at first
        subst first
        obtain ⟨second, rest, rfl, above, below, found⟩ := continueWith_succ found
        obtain ⟨named, wide⟩ := of_continueWith_zero found
        rw [named, wide]
        exact ⟨[second], rfl, encodeChar_two lower upper above below⟩
      · rw [lead?_three lower upper, Option.some.injEq] at first
        subst first
        obtain ⟨second, rest, rfl, above, below, found⟩ := continueWith_succ found
        obtain ⟨third, rest, rfl, aboveThen, belowThen, found⟩ := continueWith_succ found
        obtain ⟨named, wide⟩ := of_continueWith_zero found
        rw [named, wide]
        exact ⟨[second, third], rfl,
          encodeChar_three lower upper above below aboveThen belowThen⟩
      · rw [lead?_four lower upper, Option.some.injEq] at first
        subst first
        obtain ⟨second, rest, rfl, above, below, found⟩ := continueWith_succ found
        obtain ⟨third, rest, rfl, aboveThen, belowThen, found⟩ := continueWith_succ found
        obtain ⟨fourth, rest, rfl, aboveLast, belowLast, found⟩ := continueWith_succ found
        obtain ⟨named, wide⟩ := of_continueWith_zero found
        rw [named, wide]
        exact ⟨[second, third, fourth], rfl,
          encodeChar_four lower upper above below aboveThen belowThen aboveLast belowLast⟩

/-! ## Whole texts -/

theorem scanFrom_skip (offset skip : Nat) (bytes : Bytes) :
    scanFrom offset skip bytes = scanFrom (offset + skip) 0 (bytes.drop skip) := by
  induction skip generalizing offset bytes with
  | zero => rfl
  | succ skip ih =>
      cases bytes with
      | nil => rfl
      | cons byte rest =>
          rw [scanFrom, ih, List.drop_succ_cons, Nat.add_assoc, Nat.add_comm 1 skip]

theorem scanFrom_cons (offset : Nat) (byte : UInt8) (rest : Bytes) :
    scanFrom offset 0 (byte :: rest) =
      (offset, piece byte rest) ::
        scanFrom (offset + 1 + ((piece byte rest).width - 1)) 0
          (rest.drop ((piece byte rest).width - 1)) := by
  rw [scanFrom, scanFrom_skip]

theorem scanFrom_encode (offset : Nat) (text : Text) :
    (scanFrom offset 0 (encode text)).map Prod.snd =
      text.map fun character => .character character (encodeChar character).length := by
  induction text generalizing offset with
  | nil => rfl
  | cons character text ih =>
      obtain ⟨byte, more, written, found⟩ := piece_encodeChar character (encode text)
      have split : encode (character :: text) = byte :: (more ++ encode text) := by
        rw [encode, List.flatMap_cons, written, List.cons_append]
        rfl
      rw [split, scanFrom_cons, found]
      simp only [Piece.width, Nat.add_sub_cancel, List.drop_left, List.map_cons, ih, written,
        List.length_cons]

def Clean (pieces : List (Nat × Piece)) : Prop :=
  ∀ found ∈ pieces, ∃ character width, found.2 = .character character width

theorem firstRefusal?_eq_none_iff (bytes : Bytes) :
    firstRefusal? bytes = none ↔ Clean (scan bytes) := by
  simp only [firstRefusal?, List.findSome?_eq_none_iff, Clean]
  refine forall₂_congr fun found inside => ?_
  obtain ⟨offset, _ | _⟩ := found <;> simp

theorem decode_eq_ok_iff (bytes : Bytes) (text : Text) :
    decode bytes = .ok text ↔ Clean (scan bytes) ∧ decodeReplacing bytes = text := by
  rw [← firstRefusal?_eq_none_iff, decode]
  cases firstRefusal? bytes <;> simp

def Piece.value : Piece → Char
  | .character value _ => value
  | .defect _ _ => replacement

theorem decodeReplacing_eq_map (bytes : Bytes) :
    decodeReplacing bytes = ((scan bytes).map Prod.snd).map Piece.value := by
  rw [decodeReplacing, List.map_map]
  refine List.map_congr_left fun found _ => ?_
  obtain ⟨offset, _ | _⟩ := found <;> rfl

theorem encode_values (offset : Nat) (bytes : Bytes) (clean : Clean (scanFrom offset 0 bytes)) :
    encode (((scanFrom offset 0 bytes).map Prod.snd).map Piece.value) = bytes := by
  -- A piece takes up to four bytes, so the induction is on how many are left.
  induction size : bytes.length using Nat.strongRecOn generalizing offset bytes with
  | ind count ih =>
      cases bytes with
      | nil => rfl
      | cons byte rest =>
          rw [scanFrom_cons] at clean ⊢
          obtain ⟨⟨character, width, found⟩, clean⟩ := List.forall_mem_cons.mp clean
          dsimp only at found
          rw [found] at clean ⊢
          obtain ⟨more, split, encoded⟩ := encodeChar_of_piece found
          have shorter : (rest.drop (width - 1)).length < count := by
            simp only [List.length_cons] at size
            simp only [List.length_drop]
            omega
          have others := ih _ shorter _ _ clean rfl
          rw [List.map_cons, List.map_cons, encode, List.flatMap_cons, Piece.value, encoded,
            List.cons_append]
          exact congrArg (byte :: ·) ((congrArg (more ++ ·) others).trans split.symm)

theorem decode_eq_ok_iff_encode (bytes : Bytes) (text : Text) :
    decode bytes = .ok text ↔ encode text = bytes := by
  rw [decode_eq_ok_iff, decodeReplacing_eq_map]
  constructor
  · rintro ⟨clean, rfl⟩
    exact encode_values 0 bytes clean
  · rintro rfl
    have pieces : (scan (encode text)).map Prod.snd = _ := scanFrom_encode 0 text
    constructor
    · intro found inside
      have listed := List.mem_map_of_mem (f := Prod.snd) inside
      rw [pieces] at listed
      obtain ⟨character, -, same⟩ := List.mem_map.mp listed
      exact ⟨character, _, same.symm⟩
    · rw [pieces, List.map_map]
      exact List.map_id text

theorem decode_encode (text : Text) : decode (encode text) = .ok text :=
  (decode_eq_ok_iff_encode (encode text) text).mpr rfl

theorem encode_injective : Function.Injective encode := by
  intro text other same
  have decoded := decode_encode other
  rw [← same, decode_encode text] at decoded
  exact Except.ok.inj decoded

end CommandFile.Utf8
