import Mathlib.Data.List.Basic

/-! Percent-encoding: a character outside a kept set is written as the hexadecimal bytes of its
UTF-8 form.  Decoding gives the bytes of the text back, for every kept set without the percent
sign. -/

namespace Donna.PercentCoding

/-- The digit of a number below 16, in upper case. -/
def hexDigit (n : ℕ) : Char := "0123456789ABCDEF".toList.getD n '0'

def hexValue (c : Char) : Option ℕ :=
  if '0' ≤ c ∧ c ≤ '9' then some (c.toNat - 48)
  else if 'A' ≤ c ∧ c ≤ 'F' then some (c.toNat - 55)
  else if 'a' ≤ c ∧ c ≤ 'f' then some (c.toNat - 87)
  else none

def encodeByte (b : UInt8) : List Char :=
  ['%', hexDigit (b.toNat / 16), hexDigit (b.toNat % 16)]

def encodeChar (kept : Char → Bool) (c : Char) : List Char :=
  if kept c then [c] else (String.utf8EncodeChar c).flatMap encodeByte

def encode (kept : Char → Bool) (text : List Char) : List Char := text.flatMap (encodeChar kept)

/-- The bytes of a text in which each `%` with two hexadecimal digits stands for a byte. -/
def decode : List Char → List UInt8
  | '%' :: high :: low :: rest =>
    match hexValue high, hexValue low with
    | some h, some l => UInt8.ofNat (h * 16 + l) :: decode rest
    | _, _ => String.utf8EncodeChar '%' ++ decode (high :: low :: rest)
  | c :: rest => String.utf8EncodeChar c ++ decode rest
  | [] => []

def utf8 (text : List Char) : List UInt8 := text.flatMap String.utf8EncodeChar

theorem utf8_injective {text other : List Char} (same : utf8 text = utf8 other) : text = other := by
  have bytes : text.utf8Encode = other.utf8Encode := congrArg List.toByteArray same
  rw [← String.toByteArray_ofList, ← String.toByteArray_ofList, String.toByteArray_inj] at bytes
  exact String.ofList_injective bytes

theorem hexValue_hexDigit : ∀ n < 16, hexValue (hexDigit n) = some n := by decide

theorem decode_encodeByte (b : UInt8) (rest : List Char) :
    decode (encodeByte b ++ rest) = b :: decode rest := by
  have size := b.toNat_lt
  have high := hexValue_hexDigit (b.toNat / 16) (by omega)
  have low := hexValue_hexDigit (b.toNat % 16) (by omega)
  have byte : b.toNat / 16 * 16 + b.toNat % 16 = b.toNat := by omega
  simp only [encodeByte, List.cons_append, List.nil_append, decode, high, low, byte,
    UInt8.ofNat_toNat]

theorem decode_encodeBytes (bytes : List UInt8) (rest : List Char) :
    decode (bytes.flatMap encodeByte ++ rest) = bytes ++ decode rest := by
  induction bytes with
  | nil => rfl
  | cons b bytes ih =>
    rw [List.flatMap_cons, List.append_assoc, decode_encodeByte, ih, List.cons_append]

theorem decode_cons {c : Char} (plain : c ≠ '%') (rest : List Char) :
    decode (c :: rest) = String.utf8EncodeChar c ++ decode rest := by
  rw [decode]
  intro high low later
  simp [plain]

variable {kept : Char → Bool}

theorem decode_encodeChar (escaped : kept '%' = false) (c : Char) (rest : List Char) :
    decode (encodeChar kept c ++ rest) = String.utf8EncodeChar c ++ decode rest := by
  unfold encodeChar
  split
  next keeps =>
    refine decode_cons (fun percent => ?_) rest
    rw [percent, escaped] at keeps
    cases keeps
  next => exact decode_encodeBytes _ rest

/-- Decoding undoes encoding. -/
theorem decode_encode (escaped : kept '%' = false) (text : List Char) :
    decode (encode kept text) = utf8 text := by
  induction text with
  | nil => rfl
  | cons c text ih =>
    rw [encode, List.flatMap_cons, decode_encodeChar escaped, utf8, List.flatMap_cons]
    exact congrArg _ ih

/-- What an encoded text is made of. -/
theorem mem_encode {text : List Char} {c : Char} (present : c ∈ encode kept text) :
    kept c = true ∨ c = '%' ∨ ∃ n < 16, c = hexDigit n := by
  obtain ⟨source, -, inner⟩ := List.mem_flatMap.mp present
  unfold encodeChar at inner
  split at inner
  next keeps =>
    rw [List.mem_singleton.mp inner]
    exact .inl keeps
  next =>
    obtain ⟨b, -, digit⟩ := List.mem_flatMap.mp inner
    have size := b.toNat_lt
    simp only [encodeByte, List.mem_cons, List.not_mem_nil, or_false] at digit
    rcases digit with rfl | rfl | rfl
    · exact .inr (.inl rfl)
    · exact .inr (.inr ⟨_, by omega, rfl⟩)
    · exact .inr (.inr ⟨_, by omega, rfl⟩)

end Donna.PercentCoding
