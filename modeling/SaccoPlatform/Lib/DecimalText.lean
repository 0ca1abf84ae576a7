import Mathlib.Data.Rat.Defs
import Mathlib.Algebra.Order.Field.Rat
import Mathlib.Tactic.Linarith

/-!
# Decimals as text

A finite decimal is a sign, a coefficient and an exponent. Its text is the scientific notation of
the general decimal arithmetic: without an exponent part as long as the point stands among the
digits or at most six places before them. Reading the text gives back sign, coefficient and
exponent, not only the value.
-/

namespace SaccoPlatform.Lib

structure Decimal where
  negative : Bool
  coefficient : ℕ
  exponent : ℤ
deriving DecidableEq, Repr

namespace Decimal

def value (d : Decimal) : ℚ := (if d.negative then -1 else 1) * d.coefficient * 10 ^ d.exponent

/-! ## Writing -/

/-- The digits of the coefficient. -/
def digits (d : Decimal) : List Char := Nat.toDigits 10 d.coefficient

/-- How many digits stand before the point, if there is no exponent part. -/
def leftDigits (d : Decimal) : ℤ := d.exponent + d.digits.length

/-- How many digits are written before the point. -/
def dotPlace (d : Decimal) : ℤ := if d.exponent ≤ 0 ∧ -6 < d.leftDigits then d.leftDigits else 1

def intPart (d : Decimal) : List Char :=
  if d.dotPlace ≤ 0 then ['0']
  else if d.digits.length ≤ d.dotPlace then
    d.digits ++ List.replicate (d.dotPlace - d.digits.length).toNat '0'
  else d.digits.take d.dotPlace.toNat

def fracPart (d : Decimal) : List Char :=
  if d.dotPlace ≤ 0 then '.' :: (List.replicate (-d.dotPlace).toNat '0' ++ d.digits)
  else if d.digits.length ≤ d.dotPlace then []
  else '.' :: d.digits.drop d.dotPlace.toNat

/-- An integer with its sign. -/
def signed (n : ℤ) : List Char := (if n < 0 then '-' else '+') :: Nat.toDigits 10 n.natAbs

def expPart (d : Decimal) : List Char :=
  if d.leftDigits = d.dotPlace then [] else 'E' :: signed (d.leftDigits - d.dotPlace)

/-- `str(d)`. -/
def str (d : Decimal) : String :=
  String.ofList ((if d.negative then ['-'] else []) ++ d.intPart ++ d.fracPart ++ d.expPart)

example : (⟨false, 1234, -2⟩ : Decimal).str = "12.34" := by decide

example : (⟨true, 12, -9⟩ : Decimal).str = "-1.2E-8" := by decide

/-! ## Reading -/

/-- A nonempty row of digits. -/
def number? (cs : List Char) : Option ℕ :=
  if cs ≠ [] ∧ cs.all Char.isDigit = true then some (Nat.ofDigitChars 10 cs 0) else none

/-- An optional sign: whether it is a minus, and the rest. -/
def splitSign : List Char → Bool × List Char
  | '-' :: cs => (true, cs)
  | '+' :: cs => (false, cs)
  | cs => (false, cs)

def integer? (cs : List Char) : Option ℤ :=
  (number? (splitSign cs).2).map fun n => if (splitSign cs).1 then -(n : ℤ) else n

def isExponentMark (c : Char) : Bool := c = 'e' || c = 'E'

/-- The exponent part, if there is one. -/
def exponent? : List Char → Option ℤ
  | [] => some 0
  | _ :: cs => integer? cs

/-- `Decimal(text)`, for the text of a finite number. -/
def parse? (text : String) : Option Decimal :=
  let body := (splitSign text.toList).2
  let mantissa := body.takeWhile fun c => !isExponentMark c
  let frac := (mantissa.dropWhile (· ≠ '.')).drop 1
  match number? (mantissa.takeWhile (· ≠ '.') ++ frac),
      exponent? (body.dropWhile fun c => !isExponentMark c) with
  | some coefficient, some exponent =>
    some ⟨(splitSign text.toList).1, coefficient, exponent - frac.length⟩
  | _, _ => none

/-! ## Reading what was written -/

theorem isDigit_of_mem_digits {d : Decimal} {c : Char} (hc : c ∈ d.digits) : c.isDigit = true :=
  Nat.isDigit_of_mem_toDigits (by omega) (by omega) hc

theorem ne_of_isDigit {c c' : Char} (hc : c.isDigit = true) (hc' : c'.isDigit = false) : c ≠ c' := by
  rintro rfl
  rw [hc] at hc'
  cases hc'

theorem number?_toDigits (n : ℕ) : number? (Nat.toDigits 10 n) = some n := by
  have hdigits : ∀ c ∈ Nat.toDigits 10 n, c.isDigit = true := fun c hc =>
    Nat.isDigit_of_mem_toDigits (by omega) (by omega) hc
  rw [number?, if_pos ⟨Nat.toDigits_ne_nil, List.all_eq_true.mpr hdigits⟩, Nat.ofDigitChars_ten_toDigits]

theorem integer?_signed (n : ℤ) : integer? (signed n) = some n := by
  unfold integer? signed
  by_cases hneg : n < 0
  · rw [if_pos hneg]
    simp only [splitSign, number?_toDigits]
    show some (-(n.natAbs : ℤ)) = some n
    congr 1
    omega
  · rw [if_neg hneg]
    simp only [splitSign, number?_toDigits]
    show some (n.natAbs : ℤ) = some n
    congr 1
    omega

theorem exponent?_expPart (d : Decimal) : exponent? d.expPart = some (d.leftDigits - d.dotPlace) := by
  unfold expPart
  split
  · rename_i heq
    rw [heq, sub_self]
    rfl
  · exact integer?_signed _

/-- The point stands behind the last digit at the latest. -/
theorem dotPlace_le (d : Decimal) : d.dotPlace ≤ d.digits.length := by
  have hpos : 0 < d.digits.length := Nat.length_toDigits_pos
  unfold dotPlace leftDigits
  split
  · omega
  · omega

/-- The fraction without its point. -/
def frac (d : Decimal) : List Char := d.fracPart.drop 1

theorem length_frac (d : Decimal) : (d.frac.length : ℤ) = d.digits.length - d.dotPlace := by
  have hle := d.dotPlace_le
  unfold frac fracPart
  split
  · rw [List.drop_succ_cons, List.drop_zero, List.length_append, List.length_replicate]
    omega
  · split
    · show ((0 : ℕ) : ℤ) = _
      omega
    · rw [List.drop_succ_cons, List.drop_zero, List.length_drop]
      omega

/-- The digits before and behind the point are those of the coefficient. -/
theorem ofDigitChars_parts (d : Decimal) : Nat.ofDigitChars 10 (d.intPart ++ d.frac) 0 = d.coefficient := by
  have hdigits : Nat.ofDigitChars 10 d.digits 0 = d.coefficient := Nat.ofDigitChars_ten_toDigits
  have hle := d.dotPlace_le
  unfold intPart frac fracPart
  split
  · -- zeros in front
    rw [List.drop_succ_cons, List.drop_zero, Nat.ofDigitChars_append, Nat.ofDigitChars_append,
      Nat.ofDigitChars_replicate_zero]
    exact hdigits
  · split
    · have hnone : (d.dotPlace - d.digits.length).toNat = 0 := by omega
      rw [hnone, List.replicate_zero, List.append_nil, List.drop_nil, List.append_nil]
      exact hdigits
    · rw [List.drop_succ_cons, List.drop_zero, List.take_append_drop]
      exact hdigits

theorem isDigit_parts (d : Decimal) : ∀ c ∈ d.intPart ++ d.frac, c.isDigit = true := by
  have hzeros : ∀ n, ∀ c ∈ List.replicate n '0', c.isDigit = true := by
    intro n c hc
    rw [List.eq_of_mem_replicate hc]
    rfl
  intro c hc
  unfold intPart frac fracPart at hc
  split at hc
  · rw [List.drop_succ_cons, List.drop_zero, List.mem_append, List.mem_append, List.mem_singleton] at hc
    rcases hc with rfl | hzero | hdigit
    · rfl
    · exact hzeros _ c hzero
    · exact isDigit_of_mem_digits hdigit
  · split at hc
    · rw [List.drop_nil, List.append_nil, List.mem_append] at hc
      rcases hc with hdigit | hzero
      · exact isDigit_of_mem_digits hdigit
      · exact hzeros _ c hzero
    · rw [List.drop_succ_cons, List.drop_zero, List.take_append_drop] at hc
      exact isDigit_of_mem_digits hc

theorem intPart_ne_nil (d : Decimal) : d.intPart ≠ [] := by
  have hpos : 0 < d.digits.length := Nat.length_toDigits_pos
  unfold intPart
  split
  · exact List.cons_ne_nil _ _
  · split
    · exact List.append_ne_nil_of_left_ne_nil Nat.toDigits_ne_nil _
    · apply List.ne_nil_of_length_pos
      rw [List.length_take]
      omega

/-- There is a point exactly when there is a fraction. -/
theorem fracPart_eq (d : Decimal) : d.fracPart = if d.frac = [] then [] else '.' :: d.frac := by
  have hne : d.digits ≠ [] := Nat.toDigits_ne_nil
  unfold frac fracPart
  split
  · rw [List.drop_succ_cons, List.drop_zero, if_neg (List.append_ne_nil_of_right_ne_nil _ hne)]
  · split
    · rfl
    · have hrest : d.digits.drop d.dotPlace.toNat ≠ [] := by
        apply List.ne_nil_of_length_pos
        rw [List.length_drop]
        omega
      rw [List.drop_succ_cons, List.drop_zero, if_neg hrest]

/-! ### Taking the text apart -/

theorem number?_parts (d : Decimal) : number? (d.intPart ++ d.frac) = some d.coefficient := by
  have hne : d.intPart ++ d.frac ≠ [] := List.append_ne_nil_of_left_ne_nil d.intPart_ne_nil _
  rw [number?, if_pos ⟨hne, List.all_eq_true.mpr d.isDigit_parts⟩, ofDigitChars_parts]

theorem takeWhile_intPart (d : Decimal) : (d.intPart ++ d.fracPart).takeWhile (· ≠ '.') = d.intPart := by
  have hall : ∀ c ∈ d.intPart, decide (c ≠ '.') = true := fun c hc =>
    decide_eq_true (ne_of_isDigit (d.isDigit_parts c (List.mem_append_left _ hc)) rfl)
  rw [List.takeWhile_append_of_pos hall, fracPart_eq]
  split
  · exact List.append_nil _
  · rw [List.takeWhile_cons_of_neg (by simp), List.append_nil]

theorem dropWhile_fracPart (d : Decimal) :
    ((d.intPart ++ d.fracPart).dropWhile (· ≠ '.')).drop 1 = d.frac := by
  have hall : ∀ c ∈ d.intPart, decide (c ≠ '.') = true := fun c hc =>
    decide_eq_true (ne_of_isDigit (d.isDigit_parts c (List.mem_append_left _ hc)) rfl)
  rw [List.dropWhile_append_of_pos hall, fracPart_eq]
  split
  · rename_i hnone
    rw [hnone]
    rfl
  · rw [List.dropWhile_cons_of_neg (by simp), List.drop_succ_cons, List.drop_zero]

theorem not_isExponentMark (d : Decimal) :
    ∀ c ∈ d.intPart ++ d.fracPart, (!isExponentMark c) = true := by
  have hdigit : ∀ c : Char, c.isDigit = true → (!isExponentMark c) = true := by
    intro c hc
    have he : c ≠ 'e' := ne_of_isDigit hc rfl
    have hE : c ≠ 'E' := ne_of_isDigit hc rfl
    simp [isExponentMark, he, hE]
  intro c hc
  rcases List.mem_append.mp hc with hint | hfrac
  · exact hdigit c (d.isDigit_parts c (List.mem_append_left _ hint))
  · rw [fracPart_eq] at hfrac
    split at hfrac
    · cases hfrac
    · rcases List.mem_cons.mp hfrac with rfl | hfrac
      · rfl
      · exact hdigit c (d.isDigit_parts c (List.mem_append_right _ hfrac))

theorem expPart_head (d : Decimal) : d.expPart = [] ∨ ∃ cs, d.expPart = 'E' :: cs := by
  unfold expPart
  split
  · exact .inl rfl
  · exact .inr ⟨_, rfl⟩

theorem splitSign_body (d : Decimal) :
    splitSign ((if d.negative then ['-'] else []) ++ (d.intPart ++ d.fracPart ++ d.expPart)) =
      (d.negative, d.intPart ++ d.fracPart ++ d.expPart) := by
  cases hneg : d.negative with
  | true => rfl
  | false =>
    obtain ⟨c, rest, hint⟩ := List.exists_cons_of_ne_nil d.intPart_ne_nil
    have hdigit : c.isDigit = true := d.isDigit_parts c (by rw [hint]; exact List.mem_cons_self)
    have hminus : c ≠ '-' := ne_of_isDigit hdigit rfl
    have hplus : c ≠ '+' := ne_of_isDigit hdigit rfl
    rw [hint]
    show splitSign (c :: _) = _
    unfold splitSign
    split
    · rename_i heq
      exact absurd (List.head_eq_of_cons_eq heq) hminus
    · rename_i heq
      exact absurd (List.head_eq_of_cons_eq heq) hplus
    · rfl

/-- Reading the text of a decimal gives the decimal. -/
theorem parse?_str (d : Decimal) : parse? d.str = some d := by
  have hbody : splitSign d.str.toList = (d.negative, d.intPart ++ d.fracPart ++ d.expPart) := by
    rw [str, String.toList_ofList, List.append_assoc, List.append_assoc, ← List.append_assoc d.intPart]
    exact d.splitSign_body
  have hmantissa : (d.intPart ++ d.fracPart ++ d.expPart).takeWhile (fun c => !isExponentMark c) =
      d.intPart ++ d.fracPart := by
    rw [List.takeWhile_append_of_pos d.not_isExponentMark]
    rcases d.expPart_head with hnone | ⟨cs, hsome⟩
    · rw [hnone]
      exact List.append_nil _
    · rw [hsome, List.takeWhile_cons_of_neg (by decide), List.append_nil]
  have hrest : (d.intPart ++ d.fracPart ++ d.expPart).dropWhile (fun c => !isExponentMark c) = d.expPart := by
    rw [List.dropWhile_append_of_pos d.not_isExponentMark]
    rcases d.expPart_head with hnone | ⟨cs, hsome⟩
    · rw [hnone]
      rfl
    · rw [hsome, List.dropWhile_cons_of_neg (by decide)]
  have hexponent : d.leftDigits - d.dotPlace - d.frac.length = d.exponent := by
    rw [length_frac, leftDigits]
    omega
  simp only [parse?, hbody, hmantissa, hrest, takeWhile_intPart, dropWhile_fracPart, number?_parts,
    exponent?_expPart, hexponent]

end Decimal

end SaccoPlatform.Lib
