import Mathlib.Data.List.Basic
import Mathlib.Data.List.TakeWhile

/-!
# Strings of UTF-16 code units

A JavaScript string is any sequence of code units. Searching, slicing and matching go by code
units, so that a surrogate is a unit like the others.
-/

namespace SaccoPlatform.Lib

/-- A UTF-16 code unit. -/
abbrev CodeUnit := UInt16

/-- A string: its surrogates need not be paired. -/
abbrev JsString := List CodeUnit

/-- The code unit of a character of the basic plane. -/
def unit (c : Char) : CodeUnit := c.val.toUInt16

/-- The string of a text of the basic plane. -/
def units (s : List Char) : JsString := s.map unit

namespace CodeUnit

/-- `\d` -/
def isDigit (c : CodeUnit) : Bool := unit '0' ≤ c && c ≤ unit '9'

/-- `\w` -/
def isWord (c : CodeUnit) : Bool :=
  isDigit c || (unit 'A' ≤ c && c ≤ unit 'Z') || (unit 'a' ≤ c && c ≤ unit 'z') || c == unit '_'

/-- White space and line terminators, as `trim` removes them. -/
def isSpace (c : CodeUnit) : Bool :=
  (9 ≤ c && c ≤ 13) || c == 0x20 || c == 0xA0 || c == 0x1680 || (0x2000 ≤ c && c ≤ 0x200A) ||
  c == 0x2028 || c == 0x2029 || c == 0x202F || c == 0x205F || c == 0x3000 || c == 0xFEFF

@[simp] theorem isDigit_dot : isDigit (unit '.') = false := by decide

@[simp] theorem isDigit_comma : isDigit (unit ',') = false := by decide

@[simp] theorem isDigit_minus : isDigit (unit '-') = false := by decide

theorem isWord_of_isDigit {c : CodeUnit} (hc : isDigit c = true) : isWord c = true := by
  simp [isWord, hc]

/-- A digit is no white space. -/
theorem isSpace_of_isDigit {c : CodeUnit} (hc : isDigit c = true) : isSpace c = false := by
  have hlow : unit '0' ≤ c := by
    simp only [isDigit, Bool.and_eq_true, decide_eq_true_eq] at hc
    exact hc.1
  have hhigh : c ≤ unit '9' := by
    simp only [isDigit, Bool.and_eq_true, decide_eq_true_eq] at hc
    exact hc.2
  have hlow' : 48 ≤ c.toNat := hlow
  have hhigh' : c.toNat ≤ 57 := hhigh
  simp only [isSpace, UInt16.le_iff_toNat_le, Bool.or_eq_false_iff, Bool.and_eq_false_iff,
    decide_eq_false_iff_not, beq_eq_false_iff_ne, ne_eq, ← UInt16.toNat_inj, UInt16.reduceToNat]
  omega

end CodeUnit

open CodeUnit

/-- `trimStart` -/
def trimStart (s : JsString) : JsString := s.dropWhile isSpace

/-- `startsWith` for one code unit. -/
def startsWith (c : CodeUnit) (s : JsString) : Bool := s.head? == some c

/-- A string that no white space starts is left as it is. -/
theorem trimStart_eq_self {s : JsString} (hs : ∀ c, s.head? = some c → isSpace c = false) :
    trimStart s = s := by
  cases s with
  | nil => rfl
  | cons c rest =>
    have hc : isSpace c = false := hs c rfl
    simp [trimStart, hc]

/-- All the units are digits. -/
def Digits (s : JsString) : Prop := ∀ c ∈ s, isDigit c = true

theorem Digits.not_mem {s : JsString} (hs : Digits s) {c : CodeUnit} (hc : isDigit c = false) :
    c ∉ s := by
  intro hmem
  rw [hs c hmem] at hc
  exact absurd hc (by decide)

@[simp] theorem digits_nil : Digits [] := by
  intro c hc
  simp at hc

@[simp] theorem digits_cons {c : CodeUnit} {s : JsString} :
    Digits (c :: s) ↔ isDigit c = true ∧ Digits s := by
  simp [Digits]

@[simp] theorem digits_append {s t : JsString} : Digits (s ++ t) ↔ Digits s ∧ Digits t := by
  simp only [Digits, List.mem_append]
  constructor
  · intro h
    exact ⟨fun c hc => h c (Or.inl hc), fun c hc => h c (Or.inr hc)⟩
  · rintro ⟨hs, ht⟩ c (hc | hc)
    · exact hs c hc
    · exact ht c hc

/-- A filter that keeps every digit keeps a string of digits. -/
theorem Digits.filter_eq {s : JsString} (hs : Digits s) {keep : CodeUnit → Bool}
    (hkeep : ∀ c, isDigit c = true → keep c = true) : s.filter keep = s :=
  List.filter_eq_self.mpr fun c hc => hkeep c (hs c hc)

theorem Digits.takeWhile_eq {s : JsString} (hs : Digits s) : s.takeWhile isDigit = s :=
  List.takeWhile_eq_self_iff.mpr hs

/-! ## Plain decimals -/

/-- A decimal numeral without exponent: any of its parts may be empty. -/
structure PlainDecimal where
  negative : Bool
  integer : JsString
  /-- What follows the dot, where there is one. -/
  fraction : Option JsString
  integer_digits : Digits integer
  fraction_digits : ∀ f ∈ fraction, Digits f

namespace PlainDecimal

/-- The minus sign, where there is one. -/
def sign (p : PlainDecimal) : JsString := if p.negative then [unit '-'] else []

/-- The dot and the digits behind it. -/
def tail (p : PlainDecimal) : JsString := p.fraction.elim [] (unit '.' :: ·)

/-- The numeral without its sign. -/
def unsigned (p : PlainDecimal) : JsString := p.integer ++ p.tail

/-- The numeral as it is written. -/
def text (p : PlainDecimal) : JsString := p.sign ++ p.unsigned

/-- The numeral of the empty string. -/
def empty : PlainDecimal := ⟨false, [], none, digits_nil, by simp⟩

/-- The numeral without its minus sign. -/
def abs (p : PlainDecimal) : PlainDecimal := { p with negative := false }

@[simp] theorem text_empty : empty.text = [] := rfl

/-- The units of an unsigned numeral are its digits and the dot. -/
theorem mem_unsigned {p : PlainDecimal} {c : CodeUnit} (hc : c ∈ p.unsigned) :
    isDigit c = true ∨ c = unit '.' := by
  rw [unsigned, List.mem_append] at hc
  cases hc with
  | inl hinteger => exact Or.inl (p.integer_digits c hinteger)
  | inr htail =>
    rw [tail] at htail
    cases hf : p.fraction with
    | none =>
      rw [hf] at htail
      simp at htail
    | some f =>
      rw [hf] at htail
      simp only [Option.elim_some, List.mem_cons] at htail
      exact htail.symm.imp_left (p.fraction_digits f hf c)

/-- Neither a minus sign nor white space starts an unsigned numeral. -/
theorem head_unsigned {p : PlainDecimal} {c : CodeUnit} (hc : p.unsigned.head? = some c) :
    isSpace c = false ∧ c ≠ unit '-' := by
  cases mem_unsigned (List.mem_of_mem_head? hc) with
  | inl hdigit =>
    refine ⟨isSpace_of_isDigit hdigit, fun heq => ?_⟩
    rw [heq] at hdigit
    exact absurd hdigit (by decide)
  | inr hdot =>
    rw [hdot]
    decide

theorem startsWith_minus_unsigned (p : PlainDecimal) : startsWith (unit '-') p.unsigned = false := by
  rw [startsWith, beq_eq_false_iff_ne]
  intro hhead
  exact (head_unsigned hhead).2 rfl

@[simp] theorem startsWith_minus_text (p : PlainDecimal) :
    startsWith (unit '-') p.text = p.negative := by
  rw [text, sign]
  cases p.negative with
  | true => rfl
  | false => exact startsWith_minus_unsigned p

/-- No white space starts a numeral. -/
theorem isSpace_head_text {p : PlainDecimal} {c : CodeUnit} (hc : p.text.head? = some c) :
    isSpace c = false := by
  rw [text, sign] at hc
  cases hneg : p.negative with
  | true =>
    simp only [hneg, if_true, List.cons_append, List.head?_cons, Option.some.injEq] at hc
    rw [← hc]
    decide
  | false =>
    simp only [hneg, Bool.false_eq_true, if_false, List.nil_append] at hc
    exact (head_unsigned hc).1

/-- A text that starts like a numeral has its sign. -/
theorem startsWith_minus_of_head {p : PlainDecimal} {s : JsString} (hs : s.head? = p.text.head?) :
    startsWith (unit '-') (trimStart s) = p.negative := by
  have htrim : trimStart s = s := trimStart_eq_self fun c hc => isSpace_head_text (hs ▸ hc)
  rw [htrim, startsWith, hs, ← startsWith, startsWith_minus_text]

end PlainDecimal

end SaccoPlatform.Lib
