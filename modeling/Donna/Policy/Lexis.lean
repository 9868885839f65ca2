import Donna.Policy.Scope
import Mathlib.Data.Rat.Defs

/-! A lexis for examples.  Printable ASCII and integers are written as `JSON.stringify` writes them;
every other code unit is written as an escape, and every other rational under an exponent sign. -/

namespace Donna

open Js Json

/-! ### Strings -/

def isPlainUnit (unit : Fin 0x10000) : Bool :=
  decide (0x20 ≤ unit.val) && decide (unit.val < 0x7F) && decide (unit.val ≠ 0x22) &&
    decide (unit.val ≠ 0x5C)

def hexEscape (unit : Fin 0x10000) : List Char :=
  [Nat.digitChar (unit.val / 4096), Nat.digitChar (unit.val / 256 % 16),
    Nat.digitChar (unit.val / 16 % 16), Nat.digitChar (unit.val % 16)]

def writeUnit (unit : Fin 0x10000) : List Char :=
  if isPlainUnit unit then [Char.ofNat unit.val] else '\\' :: 'u' :: hexEscape unit

theorem digitChar_injective : ∀ a < 16, ∀ b < 16, Nat.digitChar a = Nat.digitChar b → a = b := by
  decide

theorem digitChar_plain : ∀ a < 16, Nat.digitChar a ≠ '"' ∧ Nat.digitChar a ≠ '\\' := by decide

theorem toNat_ofNat_ascii : ∀ n < 0x7F, (Char.ofNat n).toNat = n := by decide

theorem isPlainUnit_iff {unit : Fin 0x10000} : isPlainUnit unit = true ↔
    0x20 ≤ unit.val ∧ unit.val < 0x7F ∧ unit.val ≠ 0x22 ∧ unit.val ≠ 0x5C := by
  simp [isPlainUnit, and_assoc]

theorem plain_char {unit : Fin 0x10000} (plain : isPlainUnit unit = true) :
    (Char.ofNat unit.val).toNat = unit.val ∧ Char.ofNat unit.val ≠ '"' ∧
      Char.ofNat unit.val ≠ '\\' := by
  obtain ⟨-, ascii, noQuote, noEscape⟩ := isPlainUnit_iff.mp plain
  have same := toNat_ofNat_ascii unit.val ascii
  refine ⟨same, fun h => noQuote ?_, fun h => noEscape ?_⟩
  · rw [← same, h]
    rfl
  · rw [← same, h]
    rfl

theorem hexEscape_injective {a b : Fin 0x10000} (same : hexEscape a = hexEscape b) : a = b := by
  simp only [hexEscape, List.cons.injEq, and_true] at same
  obtain ⟨first, second, third, fourth⟩ := same
  have h1 := digitChar_injective _ (by omega) _ (by omega) first
  have h2 := digitChar_injective _ (by omega) _ (by omega) second
  have h3 := digitChar_injective _ (by omega) _ (by omega) third
  have h4 := digitChar_injective _ (by omega) _ (by omega) fourth
  omega

/-- The text of a code unit is read in one way. -/
theorem writeUnit_unique {a b : Fin 0x10000} {rest rest' : List Char}
    (same : writeUnit a ++ rest = writeUnit b ++ rest') : a = b ∧ rest = rest' := by
  unfold writeUnit at same
  split at same <;> split at same
  next left right =>
    obtain ⟨head, tail⟩ := List.cons.inj same
    refine ⟨Fin.ext ?_, tail⟩
    rw [← (plain_char left).1, head, (plain_char right).1]
  next left right => exact absurd (List.cons.inj same).1 (plain_char left).2.2
  next left right => exact absurd (List.cons.inj same).1.symm (plain_char right).2.2
  next left right =>
    simp only [List.cons_append, List.cons.injEq, true_and] at same
    obtain ⟨digits, tail⟩ := List.append_inj same rfl
    exact ⟨hexEscape_injective digits, tail⟩

theorem writeUnit_ne_nil (unit : Fin 0x10000) (rest : List Char) :
    writeUnit unit ++ rest ≠ [] := by
  unfold writeUnit
  split <;> simp

theorem flatMap_writeUnit_injective {s t : JsString}
    (same : s.flatMap writeUnit = t.flatMap writeUnit) : s = t := by
  induction s generalizing t with
  | nil =>
    cases t with
    | nil => rfl
    | cons unit t => exact absurd same.symm (writeUnit_ne_nil unit _)
  | cons unit s ih =>
    cases t with
    | nil => exact absurd same (writeUnit_ne_nil unit _)
    | cons other t =>
      obtain ⟨rfl, rest⟩ := writeUnit_unique same
      rw [ih rest]

theorem stringBody_writeUnit (unit : Fin 0x10000) {rest : List Char} (body : StringBody rest) :
    StringBody (writeUnit unit ++ rest) := by
  unfold writeUnit
  split
  next plain => exact .plain (plain_char plain).2.1 (plain_char plain).2.2 body
  next =>
    have digit : ∀ {d : ℕ} {rest : List Char}, d < 16 → StringBody rest →
        StringBody (Nat.digitChar d :: rest) :=
      fun small body => .plain (digitChar_plain _ small).1 (digitChar_plain _ small).2 body
    exact .escape 'u' (digit (by omega) (digit (by omega) (digit (by omega)
      (digit (by omega) body))))

theorem stringBody_flatMap (s : JsString) : StringBody (s.flatMap writeUnit) := by
  induction s with
  | nil => exact .nil
  | cons unit s ih => exact stringBody_writeUnit unit ih

/-! ### Numbers -/

theorem digit_mem : ∀ n < 10, Char.ofNat (48 + n) ∈ numberAlphabet ∧ Char.ofNat (48 + n) ≠ 'e' := by
  decide

theorem isDigit_mem {c : Char} (digit : c.isDigit = true) : c ∈ numberAlphabet ∧ c ≠ 'e' := by
  obtain ⟨low, high⟩ : 48 ≤ c.toNat ∧ c.toNat ≤ 57 := by
    simpa [Char.isDigit, UInt32.le_iff_toNat_le] using digit
  have known := digit_mem (c.toNat - 48) (by omega)
  rwa [Nat.add_sub_cancel' low, Char.ofNat_toNat] at known

theorem mem_natRepr {n : ℕ} {c : Char} (h : c ∈ n.repr.toList) : c ∈ numberAlphabet ∧ c ≠ 'e' := by
  rw [Nat.toList_repr] at h
  exact isDigit_mem (Nat.isDigit_of_mem_toDigits (by decide) (by decide) h)

theorem natRepr_injective {m n : ℕ} (same : m.repr = n.repr) : m = n := by
  have digits : Nat.toDigits 10 m = Nat.toDigits 10 n := by
    rw [← Nat.toList_repr, same, Nat.toList_repr]
  rw [← Nat.ofDigitChars_ten_toDigits (n := m), digits, Nat.ofDigitChars_ten_toDigits]

theorem minus_notMem_natRepr (n : ℕ) : '-' ∉ n.repr.toList := by
  rw [Nat.toList_repr]
  intro h
  exact absurd (Nat.isDigit_of_mem_toDigits (by decide) (by decide) h) (by decide)

theorem intRepr_injective {a b : ℤ} (same : a.repr = b.repr) : a = b := by
  rw [Int.repr_eq_if, Int.repr_eq_if] at same
  split at same <;> split at same
  next => have := natRepr_injective same; omega
  next => exact absurd (by simp [same]) (minus_notMem_natRepr a.toNat)
  next => exact absurd (by simp [← same]) (minus_notMem_natRepr b.toNat)
  next =>
    have := natRepr_injective ((String.append_right_inj "-").mp same)
    omega

theorem mem_intRepr {z : ℤ} {c : Char} (h : c ∈ z.repr.toList) : c ∈ numberAlphabet ∧ c ≠ 'e' := by
  rw [Int.repr_eq_if] at h
  split at h
  next => exact mem_natRepr h
  next =>
    rw [String.toList_append, List.mem_append] at h
    rcases h with sign | digits
    · obtain rfl : c = '-' := by simpa using sign
      decide
    · exact mem_natRepr digits

/-- What follows the numerator. -/
def writeDenominator (q : ℚ) : List Char := if q.den = 1 then [] else 'e' :: q.den.repr.toList

def writeRational (q : ℚ) : String := String.ofList (q.num.repr.toList ++ writeDenominator q)

theorem writeDenominator_inj {p q : ℚ} (same : writeDenominator p = writeDenominator q) :
    p.den = q.den := by
  unfold writeDenominator at same
  split at same <;> split at same
  next left right => rw [left, right]
  next => cases same
  next => cases same
  next => exact natRepr_injective (String.toList_inj.mp (List.cons.inj same).2)

theorem writeRational_injective : Function.Injective writeRational := by
  intro p q same
  have texts := String.ofList_injective same
  -- The numerator ends at the exponent sign, if there is one.
  have numerator : ∀ r : ℚ, (r.num.repr.toList ++ writeDenominator r).takeWhile (· ≠ 'e') =
      r.num.repr.toList := by
    intro r
    rw [List.takeWhile_append_of_pos (by simpa using fun c h => (mem_intRepr h).2)]
    unfold writeDenominator
    split <;> simp
  have digits : p.num.repr.toList = q.num.repr.toList := by
    rw [← numerator p, texts, numerator q]
  rw [digits] at texts
  exact Rat.ext (intRepr_injective (String.toList_inj.mp digits))
    (writeDenominator_inj (List.append_cancel_left texts))

theorem writeRational_grammar (q : ℚ) : ∀ c ∈ (writeRational q).toList, c ∈ numberAlphabet := by
  intro c present
  rw [writeRational, String.toList_ofList, List.mem_append] at present
  rcases present with numerator | denominator
  · exact (mem_intRepr numerator).1
  · unfold writeDenominator at denominator
    split at denominator
    next => cases denominator
    next =>
      rcases List.mem_cons.mp denominator with rfl | digits
      · decide
      · exact (mem_natRepr digits).1

theorem intRepr_ne_nil (z : ℤ) : z.repr.toList ≠ [] := by
  rw [Int.repr_eq_if]
  split <;> simp

/-! ### The lexis -/

def JsonLexis.plain : JsonLexis where
  quote s := String.ofList ('"' :: (s.flatMap writeUnit ++ ['"']))
  number := writeRational
  quote_injective s t same := by
    have texts := (List.cons.inj (String.ofList_injective same)).2
    exact flatMap_writeUnit_injective (List.append_cancel_right texts)
  quote_grammar s := ⟨s.flatMap writeUnit, String.toList_ofList, stringBody_flatMap s⟩
  number_injective := writeRational_injective
  number_nonempty q := by
    rw [writeRational, String.toList_ofList]
    exact List.append_ne_nil_of_left_ne_nil (intRepr_ne_nil q.num) _
  number_grammar := writeRational_grammar

end Donna
