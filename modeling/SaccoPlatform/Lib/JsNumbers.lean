import SaccoPlatform.Lib.DecimalContext
import SaccoPlatform.Lib.JsStrings
import Mathlib.Data.Int.Log
import Mathlib.Data.List.DropRight

/-!
# Numbers between texts and doubles

`parseFloat` reads the longest decimal literal that a text starts with and rounds its value once
to a double, all its digits read. `toFixed` writes a double with a fixed number of decimals;
from `10 ^ 21` on it falls back to the shortest decimal that reads as the double, which is
written with an exponent.
-/

namespace SaccoPlatform.Lib

open CodeUnit

/-- A double: a finite one by its sign and its magnitude. -/
inductive JsNumber
  | nan
  | infinity (negative : Bool)
  | finite (negative : Bool) (magnitude : ℚ)
deriving DecidableEq, Repr

/-- `Number.isFinite` -/
def JsNumber.isFinite : JsNumber → Bool
  | .finite _ _ => true
  | _ => false

/-! ## Rounding to a double -/

/-- The exponent of the last binary place that a double near `q` has. -/
def lastPlace (q : ℚ) : ℤ := max (Int.log 2 q - 52) (-1074)

/-- A magnitude to 53 significant binary digits, half to even, as if there were no largest double. -/
def roundDouble (q : ℚ) : ℚ := roundHalfEven (q / 2 ^ lastPlace q) * 2 ^ lastPlace q

/-- The double nearest to a value. -/
def toDouble (negative : Bool) (q : ℚ) : JsNumber :=
  if roundDouble q < 2 ^ 1024 then .finite negative (roundDouble q) else .infinity negative

/-! ## Reading -/

/-- The value of a string of digits. -/
def digitsValue (ds : JsString) : ℕ := ds.foldl (fun n c => 10 * n + (c.toNat - (unit '0').toNat)) 0

/-- The value of a plain decimal, whatever its sign: its digits with the dot among them. -/
def magnitude (s : JsString) : ℚ :=
  digitsValue (s.filter isDigit) / 10 ^ ((s.dropWhile (· != unit '.')).filter isDigit).length

/-- The exponent that a text starts with, or zero. -/
def exponentPart (s : JsString) : ℤ :=
  if startsWith (unit 'e') s || startsWith (unit 'E') s then
    let s := s.drop 1
    let negative := startsWith (unit '-') s
    let s := if negative || startsWith (unit '+') s then s.drop 1 else s
    let exponent : ℤ := digitsValue (s.takeWhile isDigit)
    if negative then -exponent else exponent
  else 0

/-- `parseFloat` behind the sign. -/
def parseUnsigned (negative : Bool) (s : JsString) : JsNumber :=
  if (units "Infinity".toList).isPrefixOf s then .infinity negative
  else
    let integer := s.takeWhile isDigit
    let rest := s.dropWhile isDigit
    let dotted := startsWith (unit '.') rest
    let fraction := if dotted then (rest.drop 1).takeWhile isDigit else []
    let rest := if dotted then (rest.drop 1).dropWhile isDigit else rest
    if integer = [] ∧ fraction = [] then .nan
    else
      toDouble negative
        (digitsValue (integer ++ fraction) * 10 ^ (exponentPart rest - fraction.length))

/-- `parseFloat` -/
def parseFloat (input : JsString) : JsNumber :=
  let s := trimStart input
  let negative := startsWith (unit '-') s
  parseUnsigned negative (if negative || startsWith (unit '+') s then s.drop 1 else s)

/-! ## Writing -/

/-- A natural number in decimal digits. -/
def natText (n : ℕ) : JsString := (Nat.toDigits 10 n).map unit

/-- Of the multiples of `10 ^ j` on both sides of `m`, the one that reads as the double `m`: for
the largest `j` that has one, and the nearer where both do. -/
def shortestFrom (m : ℕ) : ℕ → ℕ
  | 0 => m
  | j + 1 =>
    let below := m / 10 ^ (j + 1) * 10 ^ (j + 1)
    let above := below + 10 ^ (j + 1)
    if roundDouble below = m then
      if roundDouble above = m ∧
          (above - m < m - below ∨ above - m = m - below ∧ m / 10 ^ (j + 1) % 2 = 1) then above
      else below
    else if roundDouble above = m then above
    else shortestFrom m j

/-- The integral double `m` as a number turns into a string from `10 ^ 21` on. -/
def exponentText (m : ℕ) : JsString :=
  let digits := natText (shortestFrom m (Nat.log 10 m))
  let significant := digits.rdropWhile (· == unit '0')
  significant.take 1 ++ (if significant.length ≤ 1 then [] else unit '.' :: significant.drop 1) ++
    (unit 'e' :: unit '+' :: natText (digits.length - 1))

/-- The digits of `toFixed`: `n / 10 ^ decimals` with all its decimals. -/
def fixedText (decimals n : ℕ) : JsString :=
  if decimals = 0 then natText n
  else
    let m := natText n
    let m := List.replicate (decimals + 1 - m.length) (unit '0') ++ m
    m.take (m.length - decimals) ++ unit '.' :: m.drop (m.length - decimals)

/-- `toFixed` -/
def toFixed (decimals : ℕ) : JsNumber → JsString
  | .nan => units "NaN".toList
  | .infinity negative => (if negative then [unit '-'] else []) ++ units "Infinity".toList
  | .finite negative magnitude =>
    (if negative && decide (0 < magnitude) then [unit '-'] else []) ++
      if 10 ^ 21 ≤ magnitude then exponentText ⌊magnitude⌋₊
      else fixedText decimals ⌊magnitude * 10 ^ decimals + 1 / 2⌋₊

example : toFixed 2 (parseFloat (units " -12.567kg".toList)) = units "-12.57".toList := by decide +kernel


example : toFixed 0 (parseFloat (units "123456789012345678901234".toList)) =
    units "1.2345678901234569e+23".toList := by decide +kernel

/-! ## Which values round up to a bound -/

theorem two_zpow_pos (a : ℤ) : (0 : ℚ) < 2 ^ a := zpow_pos (by norm_num) a

theorem roundDouble_zero : roundDouble 0 = 0 := by decide +kernel

section

variable {q : ℚ} {k : ℤ}

/-- From its last place on, a power of two is a multiple of it. -/
theorem exists_zpow_eq (hk : lastPlace q ≤ k) : ∃ n : ℤ, (2 : ℚ) ^ k = n * 2 ^ lastPlace q := by
  obtain ⟨j, hj⟩ := Int.le.dest hk
  refine ⟨2 ^ j, ?_⟩
  rw [← hj, zpow_add₀ (by norm_num), zpow_natCast]
  push_cast
  ring

/-- Rounding does not go below a power of two … -/
theorem zpow_le_roundDouble (hk : lastPlace q ≤ k) (hle : 2 ^ k ≤ q) : 2 ^ k ≤ roundDouble q := by
  obtain ⟨n, hn⟩ := exists_zpow_eq hk
  have hpos := two_zpow_pos (lastPlace q)
  have hround : n ≤ roundHalfEven (q / 2 ^ lastPlace q) := by
    apply le_roundHalfEven
    rw [le_div_iff₀ hpos, ← hn]
    exact hle
  rw [hn, roundDouble]
  exact mul_le_mul_of_nonneg_right (by exact_mod_cast hround) hpos.le

/-- … nor above one. -/
theorem roundDouble_le_zpow (hk : lastPlace q ≤ k) (hle : q ≤ 2 ^ k) : roundDouble q ≤ 2 ^ k := by
  obtain ⟨n, hn⟩ := exists_zpow_eq hk
  have hpos := two_zpow_pos (lastPlace q)
  have hround : roundHalfEven (q / 2 ^ lastPlace q) < n + 1 := by
    apply roundHalfEven_lt
    have : q / 2 ^ lastPlace q ≤ n := by
      rw [div_le_iff₀ hpos, ← hn]
      exact hle
    push_cast
    linarith
  rw [hn, roundDouble]
  exact mul_le_mul_of_nonneg_right (by exact_mod_cast Int.lt_add_one_iff.mp hround) hpos.le

end

/-- A bound with an even 53-bit significand is reached from half a place below on. -/
theorem le_roundDouble_iff {q : ℚ} (hq : 0 < q) {n a : ℤ} (heven : n % 2 = 0) (hlow : 2 ^ 52 < n)
    (hhigh : n ≤ 2 ^ 53) (ha : -1074 ≤ a) :
    (n : ℚ) * 2 ^ a ≤ roundDouble q ↔ ((n : ℚ) - 1 / 2) * 2 ^ a ≤ q := by
  have hpos := two_zpow_pos a
  have hbelow : (2 : ℚ) ^ (a + 52) = 2 ^ 52 * 2 ^ a := by
    rw [zpow_add₀ (by norm_num), mul_comm]
    norm_num
  have habove : (2 : ℚ) ^ (a + 53) = 2 ^ 53 * 2 ^ a := by
    rw [zpow_add₀ (by norm_num), mul_comm]
    norm_num
  have hn : (2 : ℚ) ^ 52 + 1 ≤ n := by exact_mod_cast hlow
  have hn' : (n : ℚ) ≤ 2 ^ 53 := by exact_mod_cast hhigh
  by_cases hsmall : q < 2 ^ (a + 52)
  · -- below the binade of the bound
    have hlog : Int.log 2 q < a + 52 := (Int.lt_zpow_iff_log_lt (by norm_num) hq).mp hsmall
    have hround : roundDouble q ≤ 2 ^ (a + 52) := by
      refine roundDouble_le_zpow ?_ hsmall.le
      unfold lastPlace
      omega
    have hlt : (2 : ℚ) ^ (a + 52) < ((n : ℚ) - 1 / 2) * 2 ^ a := by
      rw [hbelow]
      exact mul_lt_mul_of_pos_right (by linarith) hpos
    have hlt' : ((n : ℚ) - 1 / 2) * 2 ^ a < n * 2 ^ a := mul_lt_mul_of_pos_right (by linarith) hpos
    constructor
    · intro h
      linarith
    · intro h
      linarith
  · by_cases hlarge : 2 ^ (a + 53) ≤ q
    · -- above it
      have hlog : a + 53 ≤ Int.log 2 q := (Int.zpow_le_iff_le_log (by norm_num) hq).mp hlarge
      have hbound : (n : ℚ) * 2 ^ a ≤ 2 ^ (a + 53) := by
        rw [habove]
        exact mul_le_mul_of_nonneg_right hn' hpos.le
      have hround : (2 : ℚ) ^ Int.log 2 q ≤ roundDouble q := by
        apply zpow_le_roundDouble
        · unfold lastPlace
          omega
        · exact_mod_cast Int.zpow_log_le_self (by norm_num) hq
      have hpow : (2 : ℚ) ^ (a + 53) ≤ 2 ^ Int.log 2 q := zpow_le_zpow_right₀ (by norm_num) hlog
      have hlt : ((n : ℚ) - 1 / 2) * 2 ^ a ≤ n * 2 ^ a :=
        mul_le_mul_of_nonneg_right (by linarith) hpos.le
      constructor
      · intro _
        linarith
      · intro _
        linarith
    · -- in it, where the last place is `a`
      have hlog : a + 52 ≤ Int.log 2 q :=
        (Int.zpow_le_iff_le_log (by norm_num) hq).mp (le_of_not_gt hsmall)
      have hlog' : Int.log 2 q < a + 53 :=
        (Int.lt_zpow_iff_log_lt (by norm_num) hq).mp (lt_of_not_ge hlarge)
      have hplace : lastPlace q = a := by
        unfold lastPlace
        omega
      rw [roundDouble, hplace, mul_le_mul_iff_of_pos_right hpos, ← le_div_iff₀ hpos, Int.cast_le,
        le_roundHalfEven_iff heven]

theorem magnitude_nonneg (s : JsString) : 0 ≤ magnitude s := by
  unfold magnitude
  positivity

/-- Half a place above the largest double, values round to no double any more. -/
theorem pow_le_roundDouble_iff {q : ℚ} (hq : 0 ≤ q) :
    2 ^ 1024 ≤ roundDouble q ↔ 2 ^ 1024 - 2 ^ 970 ≤ q := by
  have hpow : (2 : ℚ) ^ 1024 = 2 ^ 54 * 2 ^ 970 := by rw [← pow_add]
  have hplace : (2 : ℚ) ^ (971 : ℤ) = 2 * 2 ^ 970 := (zpow_natCast 2 971).trans (pow_succ' 2 970)
  have hpos : (0 : ℚ) < 2 ^ 970 := by positivity
  rw [hpow]
  rcases hq.eq_or_lt with rfl | hq
  · rw [roundDouble_zero]
    generalize (2 : ℚ) ^ 970 = half at hpos
    constructor
    · intro h
      linarith
    · intro h
      linarith
  · have h := @le_roundDouble_iff q hq (2 ^ 53) 971 (by norm_num) (by norm_num) le_rfl (by norm_num)
    rw [hplace] at h
    generalize (2 : ℚ) ^ 970 = half at h
    push_cast at h
    convert h using 2
    · ring
    · ring

/-- Half a place below `10 ^ 21`, values round up to it. -/
theorem exponent_le_roundDouble_iff {q : ℚ} (hq : 0 ≤ q) :
    10 ^ 21 ≤ roundDouble q ↔ 10 ^ 21 - 2 ^ 16 ≤ q := by
  rcases hq.eq_or_lt with rfl | hq
  · rw [roundDouble_zero]
    norm_num
  · have h := @le_roundDouble_iff q hq (2 ^ 4 * 5 ^ 21) 17 (by norm_num) (by norm_num) (by norm_num)
      (by norm_num)
    convert h using 2
    · norm_num
    · norm_num

/-! ## Reading a plain decimal -/

namespace PlainDecimal

theorem filter_isDigit_tail (p : PlainDecimal) : p.tail.filter isDigit = p.fraction.getD [] := by
  unfold tail
  cases hf : p.fraction with
  | none => rfl
  | some f => simpa using (p.fraction_digits f hf).filter_eq fun c hc => hc

theorem filter_isDigit_text (p : PlainDecimal) :
    p.text.filter isDigit = p.integer ++ p.fraction.getD [] := by
  have hsign : p.sign.filter isDigit = [] := by
    unfold sign
    split
    · decide
    · rfl
  rw [text, unsigned, List.filter_append, List.filter_append, hsign, filter_isDigit_tail,
    p.integer_digits.filter_eq fun c hc => hc, List.nil_append]

/-- Up to its dot a numeral has its sign and its integer part. -/
theorem dropWhile_text (p : PlainDecimal) : p.text.dropWhile (· != unit '.') = p.tail := by
  have hfront : ∀ c ∈ p.sign ++ p.integer, (c != unit '.') = true := by
    intro c hc
    rw [bne_iff_ne]
    rcases List.mem_append.mp hc with hsign | hdigit
    · unfold sign at hsign
      split at hsign
      · rw [List.mem_singleton.mp hsign]
        decide
      · simp at hsign
    · exact ne_of_mem_of_not_mem hdigit (p.integer_digits.not_mem isDigit_dot)
  rw [text, unsigned, ← List.append_assoc, List.dropWhile_append_of_pos hfront]
  unfold tail
  cases p.fraction with
  | none => rfl
  | some f => simp

theorem magnitude_text (p : PlainDecimal) : magnitude p.text =
    digitsValue (p.integer ++ p.fraction.getD []) / 10 ^ (p.fraction.getD []).length := by
  rw [magnitude, filter_isDigit_text, dropWhile_text, filter_isDigit_tail]

theorem takeWhile_tail (p : PlainDecimal) : p.tail.takeWhile isDigit = [] := by
  unfold tail
  cases p.fraction with
  | none => rfl
  | some f => simp

/-- A numeral does not contain a letter or another sign. -/
theorem not_mem_unsigned (p : PlainDecimal) {c : CodeUnit} (hdigit : isDigit c = false)
    (hdot : c ≠ unit '.') : c ∉ p.unsigned := by
  intro hc
  cases mem_unsigned hc with
  | inl h => exact absurd (h.symm.trans hdigit) (by decide)
  | inr h => exact hdot h

/-- No other text than of digits and a dot stands behind the sign. -/
theorem parseUnsigned_unsigned (p : PlainDecimal) (negative : Bool) : parseUnsigned negative p.unsigned =
    if p.text.filter isDigit = [] then .nan else toDouble negative (magnitude p.text) := by
  have hword : ¬(units "Infinity".toList).isPrefixOf p.unsigned = true := by
    rw [List.isPrefixOf_iff_prefix]
    intro hprefix
    have hletter : unit 'I' ∈ p.unsigned := hprefix.subset (by decide)
    exact not_mem_unsigned p (by decide) (by decide) hletter
  have hinteger : p.unsigned.takeWhile isDigit = p.integer := by
    rw [unsigned, List.takeWhile_append_of_pos p.integer_digits, takeWhile_tail, List.append_nil]
  have hrest : p.unsigned.dropWhile isDigit = p.tail := by
    rw [unsigned, List.dropWhile_append_of_pos p.integer_digits]
    unfold tail
    cases p.fraction with
    | none => rfl
    | some f => simp
  unfold parseUnsigned
  rw [if_neg hword]
  dsimp only
  rw [hinteger, hrest, filter_isDigit_text, magnitude_text]
  unfold tail
  cases hf : p.fraction with
  | none => simp [startsWith, exponentPart]
  | some f =>
    have hf' : f.takeWhile isDigit = f := (p.fraction_digits f hf).takeWhile_eq
    have hnil : f.dropWhile isDigit = [] := List.dropWhile_eq_nil_iff.mpr (p.fraction_digits f hf)
    simp [startsWith, exponentPart, hf', hnil, div_eq_mul_inv]

theorem parseFloat_text (p : PlainDecimal) : parseFloat p.text =
    if p.text.filter isDigit = [] then .nan else toDouble p.negative (magnitude p.text) := by
  have hplus : startsWith (unit '+') p.unsigned = false := by
    rw [startsWith, beq_eq_false_iff_ne]
    intro hhead
    exact not_mem_unsigned p (by decide) (by decide) (List.mem_of_mem_head? hhead)
  have hbody :
      (if p.negative || startsWith (unit '+') p.text then p.text.drop 1 else p.text) = p.unsigned := by
    rw [text, sign]
    cases p.negative with
    | true => rfl
    | false => simp [hplus]
  unfold parseFloat
  rw [trimStart_eq_self fun c hc => isSpace_head_text hc]
  dsimp only
  rw [startsWith_minus_text, hbody, parseUnsigned_unsigned]

end PlainDecimal

/-! ## Writing below the bound -/

theorem isDigit_unit {c : Char} (hc : c.isDigit = true) : isDigit (unit c) = true := by
  have hrange : 48 ≤ c.toNat ∧ c.toNat ≤ 57 := Char.isDigit_iff_toNat.mp hc
  have hunit : (unit c).toNat = c.toNat := by
    show c.toNat % 2 ^ 16 = c.toNat
    omega
  simp only [isDigit, Bool.and_eq_true, decide_eq_true_eq, UInt16.le_iff_toNat_le, hunit]
  exact hrange

theorem digits_natText (n : ℕ) : Digits (natText n) := by
  intro c hc
  obtain ⟨d, hd, rfl⟩ := List.mem_map.mp hc
  exact isDigit_unit (Nat.isDigit_of_mem_toDigits (by norm_num) le_rfl hd)

/-- Digits, a dot and as many decimals as asked for. -/
theorem exists_fixedText (negative : Bool) (decimals n : ℕ) : ∃ p : PlainDecimal,
    (if negative then [unit '-'] else []) ++ fixedText decimals n = p.text := by
  have hn := digits_natText n
  by_cases hdecimals : decimals = 0
  · refine ⟨⟨negative, natText n, none, hn, by simp⟩, ?_⟩
    simp [fixedText, hdecimals, PlainDecimal.text, PlainDecimal.sign, PlainDecimal.unsigned,
      PlainDecimal.tail]
  · rw [fixedText, if_neg hdecimals]
    dsimp only
    set m := List.replicate (decimals + 1 - (natText n).length) (unit '0') ++ natText n with hm
    have hzeros : Digits (List.replicate (decimals + 1 - (natText n).length) (unit '0')) := by
      intro c hc
      rw [List.eq_of_mem_replicate hc]
      decide
    have hdigits : Digits m := digits_append.mpr ⟨hzeros, hn⟩
    have hinteger : Digits (m.take (m.length - decimals)) :=
      fun c hc => hdigits c (List.mem_of_mem_take hc)
    have hfraction : Digits (m.drop (m.length - decimals)) :=
      fun c hc => hdigits c (List.mem_of_mem_drop hc)
    exact ⟨⟨negative, _, some _, hinteger, by simpa using hfraction⟩, rfl⟩

/-! ## Writing from the bound on -/

/-- What a number with an exponent is written with, apart from a dot. -/
def isMark (c : CodeUnit) : Bool := isDigit c || c == unit 'e' || c == unit '+'

theorem isMark_of_isDigit {c : CodeUnit} (hc : isDigit c = true) : isMark c = true := by
  simp [isMark, hc]

/-- Digits with an exponent behind them, and a dot after the first of them if there are more. -/
theorem exponentText_cases (m : ℕ) : ∃ (integer : JsString) (fraction : Option JsString),
    exponentText m = integer ++ fraction.elim [] (unit '.' :: ·) ∧
    (∀ c ∈ integer, isMark c = true) ∧ ∀ f ∈ fraction, ∀ c ∈ f, isMark c = true := by
  unfold exponentText
  dsimp only
  set digits := natText (shortestFrom m (Nat.log 10 m)) with hdigits
  set significant := digits.rdropWhile (· == unit '0') with hsignificant
  set exponent := unit 'e' :: unit '+' :: natText (digits.length - 1) with hexponent
  have hmarks : ∀ c ∈ significant, isMark c = true := by
    intro c hc
    exact isMark_of_isDigit (digits_natText _ c ((List.rdropWhile_prefix _ _).subset hc))
  have hexp : ∀ c ∈ exponent, isMark c = true := by
    simp only [hexponent, List.forall_mem_cons]
    exact ⟨by decide, by decide, fun c hc => isMark_of_isDigit (digits_natText _ c hc)⟩
  have hfirst : ∀ c ∈ significant.take 1, isMark c = true :=
    fun c hc => hmarks c (List.mem_of_mem_take hc)
  have hrest : ∀ c ∈ significant.drop 1, isMark c = true :=
    fun c hc => hmarks c (List.mem_of_mem_drop hc)
  by_cases hone : significant.length ≤ 1
  · refine ⟨significant.take 1 ++ exponent, none, ?_, ?_, by simp⟩
    · simp [hone]
    · exact List.forall_mem_append.mpr ⟨hfirst, hexp⟩
  · refine ⟨significant.take 1, some (significant.drop 1 ++ exponent), ?_, hfirst, ?_⟩
    · simp [hone]
    · intro f hf
      rw [← Option.some.inj hf]
      exact List.forall_mem_append.mpr ⟨hrest, hexp⟩

/-- The exponent is not negative, nor is what it belongs to. -/
theorem minus_not_mem_exponentText (m : ℕ) : unit '-' ∉ exponentText m := by
  obtain ⟨integer, fraction, htext, hinteger, hfraction⟩ := exponentText_cases m
  rw [htext, List.mem_append]
  rintro (hmem | hmem)
  · exact absurd (hinteger _ hmem) (by decide)
  · cases fraction with
    | none => simp at hmem
    | some f =>
      rw [Option.elim_some, List.mem_cons] at hmem
      cases hmem with
      | inl hdot => exact absurd hdot (by decide)
      | inr hmem => exact absurd (hfraction f rfl _ hmem) (by decide)

theorem mem_exponentText (m : ℕ) : unit 'e' ∈ exponentText m := by
  simp [exponentText]

end SaccoPlatform.Lib
