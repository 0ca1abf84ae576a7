import SaccoPlatform.Lib.DecimalText
import SaccoPlatform.Lib.Tables
import SaccoPlatform.Lib.Uuid
import Mathlib.Data.List.DropRight

/-!
# Texts that Python reads as numbers

`Decimal` and `uuid.UUID` of an arbitrary text. Both read the decimal digits of every script, and
both pass over underscores, the one anywhere and the other between digits. `Decimal` also has
infinities and values that are no numbers.
-/

namespace SaccoPlatform.Lib

/-! ## Characters -/

/-- `str.isspace` of one character. -/
def isPySpace (c : Char) : Bool :=
  (9 ≤ c.toNat && c.toNat ≤ 13) || (28 ≤ c.toNat && c.toNat ≤ 32) || c.toNat == 0x85 ||
  c.toNat == 0xA0 || c.toNat == 0x1680 || (0x2000 ≤ c.toNat && c.toNat ≤ 0x200A) ||
  c.toNat == 0x2028 || c.toNat == 0x2029 || c.toNat == 0x202F || c.toNat == 0x205F ||
  c.toNat == 0x3000

/-- `str.strip` -/
def pyStrip (text : String) : String :=
  String.ofList ((text.toList.dropWhile isPySpace).rdropWhile isPySpace)

/-- The zeros of the scripts of Unicode 14; the nine other digits follow each. -/
def decimalZeros : List ℕ :=
  [0x30, 0x660, 0x6F0, 0x7C0, 0x966, 0x9E6, 0xA66, 0xAE6, 0xB66, 0xBE6, 0xC66, 0xCE6, 0xD66,
    0xDE6, 0xE50, 0xED0, 0xF20, 0x1040, 0x1090, 0x17E0, 0x1810, 0x1946, 0x19D0, 0x1A80, 0x1A90,
    0x1B50, 0x1BB0, 0x1C40, 0x1C50, 0xA620, 0xA8D0, 0xA900, 0xA9D0, 0xA9F0, 0xAA50, 0xABF0,
    0xFF10, 0x104A0, 0x10D30, 0x11066, 0x110F0, 0x11136, 0x111D0, 0x112F0, 0x11450, 0x114D0,
    0x11650, 0x116C0, 0x11730, 0x118E0, 0x11950, 0x11C50, 0x11D50, 0x11DA0, 0x16A60, 0x16AC0,
    0x16B50, 0x1D7CE, 0x1D7D8, 0x1D7E2, 0x1D7EC, 0x1D7F6, 0x1E140, 0x1E2F0, 0x1E950, 0x1FBF0]

/-- The value of a decimal digit. -/
def decimalDigit? (c : Char) : Option ℕ :=
  (decimalZeros.find? fun start => start ≤ c.toNat && c.toNat < start + 10).map (c.toNat - ·)

/-- White space and digits of any script as ASCII has them; no other character outside it. -/
def ascii? (c : Char) : Option Char :=
  if c.toNat < 128 then some c
  else if isPySpace c then some ' '
  else (decimalDigit? c).map Nat.digitChar

/-! ## Decimals -/

/-- A `Decimal`. -/
inductive PyDecimal where
  | finite (d : Decimal)
  | infinity (negative : Bool)
  | nan (negative signaling : Bool) (payload : ℕ)
deriving DecidableEq, Repr

/-- The exponents stay between `MIN_ETINY` and `MAX_EMAX`. -/
def Decimal.InLimits (d : Decimal) : Prop :=
  d.leftDigits - 1 ≤ 999999999999999999 ∧ -1999999999999999997 ≤ d.exponent

instance (d : Decimal) : Decidable d.InLimits := inferInstanceAs (Decidable (_ ∧ _))

namespace PyDecimal

/-- The digits behind `NaN`. -/
def payload? (cs : List Char) : Option ℕ :=
  if cs.all Char.isDigit then some (Nat.ofDigitChars 10 cs 0) else none

/-- What `Decimal` reads of an ASCII text without white space around it. -/
def ofAscii? (cs : List Char) : Option PyDecimal :=
  let negative := (Decimal.splitSign cs).1
  let word := (Decimal.splitSign cs).2.map Char.toLower
  if word = "inf".toList ∨ word = "infinity".toList then some (.infinity negative)
  else if "nan".toList.isPrefixOf word then (payload? (word.drop 3)).map (.nan negative false)
  else if "snan".toList.isPrefixOf word then (payload? (word.drop 4)).map (.nan negative true)
  else (Decimal.parse? (String.ofList cs)).bind fun d => if d.InLimits then some (.finite d) else none

/-- `Decimal(text)`, `none` where it raises `InvalidOperation`. -/
def ofText? (text : String) : Option PyDecimal :=
  (((pyStrip text).toList.filter (· ≠ '_')).mapM ascii?).bind fun cs =>
    if '\x00' ∈ cs then none else ofAscii? cs

/-- `str(d)` -/
def str : PyDecimal → String
  | .finite d => d.str
  | .infinity negative => if negative then "-Infinity" else "Infinity"
  | .nan negative signaling payload =>
    (if negative then "-" else "") ++ (if signaling then "sNaN" else "NaN") ++
      (if payload = 0 then "" else toString payload)

end PyDecimal

/-! ## UUIDs -/

/-- `text.replace(old, "")`, with how many characters of an occurrence are still to be left out. -/
def removeAll (old : List Char) : ℕ → List Char → List Char
  | _, [] => []
  | skip + 1, _ :: rest => removeAll old skip rest
  | 0, c :: rest =>
    if old.isPrefixOf (c :: rest) then removeAll old (old.length - 1) rest
    else c :: removeAll old 0 rest

/-- Hexadecimal digits with single underscores between them. -/
def hexNumber? (cs : List Char) : Option ℕ :=
  if [] ∈ cs.splitOn '_' then none else readHex (cs.filter (· ≠ '_'))

def isAsciiSpace (c : Char) : Bool := (9 ≤ c.toNat && c.toNat ≤ 13) || c.toNat == 32

/-- The digits behind `0x`. -/
def dropHexMark : List Char → List Char
  | '0' :: 'x' :: '_' :: cs => cs
  | '0' :: 'X' :: '_' :: cs => cs
  | '0' :: 'x' :: cs => cs
  | '0' :: 'X' :: cs => cs
  | cs => cs

/-- `int(text, 16)` of an ASCII text. -/
def pyHex? (cs : List Char) : Option ℤ :=
  let sign := Decimal.splitSign ((cs.dropWhile isAsciiSpace).rdropWhile isAsciiSpace)
  (hexNumber? (dropHexMark sign.2)).map fun n => if sign.1 then -(n : ℤ) else n

/-- `uuid.UUID(text)`, `none` where it raises `ValueError`. -/
def pyUuid? (text : String) : Option UUID :=
  let plain := removeAll "uuid:".toList 0 (removeAll "urn:".toList 0 text.toList)
  let isBrace := fun c => c = '{' || c = '}'
  let hex := ((plain.dropWhile isBrace).rdropWhile isBrace).filter (· ≠ '-')
  if hex.length = 32 then
    ((hex.mapM ascii?).bind pyHex?).bind fun n =>
      if h : n.toNat < 2 ^ 128 ∧ 0 ≤ n then some ⟨n.toNat, h.1⟩ else none
  else none

/-! ## Reading what was written -/

/-- A character that a finite decimal is written with. -/
def isNumeral (c : Char) : Bool := c.isDigit || c = '.' || c = 'E' || c = '+' || c = '-'

theorem isNumeral_of_isDigit {c : Char} (hc : c.isDigit = true) : isNumeral c = true := by
  simp [isNumeral, hc]

theorem isNumeral_str (d : Decimal) : ∀ c ∈ d.str.toList, isNumeral c = true := by
  have hparts : ∀ c ∈ d.intPart ++ d.frac, isNumeral c = true := fun c hc =>
    isNumeral_of_isDigit (d.isDigit_parts c hc)
  have hexp : ∀ c ∈ d.expPart, isNumeral c = true := by
    unfold Decimal.expPart Decimal.signed
    split
    · simp
    · rw [List.forall_mem_cons, List.forall_mem_cons]
      refine ⟨by decide, by split <;> decide, fun c hc => ?_⟩
      exact isNumeral_of_isDigit (Nat.isDigit_of_mem_toDigits (by omega) (by omega) hc)
  have hfrac : ∀ c ∈ d.fracPart, isNumeral c = true := by
    rw [Decimal.fracPart_eq]
    split
    · simp
    · rw [List.forall_mem_cons]
      exact ⟨by decide, fun c hc => hparts c (List.mem_append_right _ hc)⟩
  have hsign : ∀ c ∈ (if d.negative then ['-'] else []), isNumeral c = true := by
    split
    · simp [isNumeral]
    · simp
  rw [Decimal.str, String.toList_ofList]
  simp only [List.forall_mem_append]
  exact ⟨⟨⟨hsign, fun c hc => hparts c (List.mem_append_left _ hc)⟩, hfrac⟩, hexp⟩

/-- Such a character is ASCII, neither white space nor an underscore, and in no word for a special
value. -/
theorem isNumeral_cases {c : Char} (hc : isNumeral c = true) :
    c.toNat < 128 ∧ isPySpace c = false ∧ c ≠ '_' ∧ c ≠ '\x00' ∧ c.toLower ≠ 'i' ∧ c.toLower ≠ 'n' := by
  have hlt : c.toNat < 70 := by
    simp only [isNumeral, Bool.or_eq_true, decide_eq_true_eq] at hc
    rcases hc with (((hdigit | rfl) | rfl) | rfl) | rfl
    · have hle : c.toNat ≤ 57 := (Char.isDigit_iff_toNat.mp hdigit).2
      omega
    all_goals decide
  have hall : ∀ n < 70, isNumeral (Char.ofNat n) = true →
      (Char.ofNat n).toNat < 128 ∧ isPySpace (Char.ofNat n) = false ∧ Char.ofNat n ≠ '_' ∧
      Char.ofNat n ≠ '\x00' ∧ (Char.ofNat n).toLower ≠ 'i' ∧ (Char.ofNat n).toLower ≠ 'n' := by decide
  rw [← Char.ofNat_toNat c] at hc ⊢
  exact hall c.toNat hlt hc

/-- A text without white space has none to strip. -/
theorem pyStrip_eq_self {text : String} (h : ∀ c ∈ text.toList, isPySpace c = false) :
    pyStrip text = text := by
  have hfront : text.toList.dropWhile isPySpace = text.toList := by
    cases hcs : text.toList with
    | nil => rfl
    | cons c cs =>
      rw [hcs, List.forall_mem_cons] at h
      simp [h.1]
  have hback : text.toList.rdropWhile isPySpace = text.toList := by
    rw [List.rdropWhile_eq_self_iff]
    intro hne
    rw [h _ (List.getLast_mem hne)]
    exact Bool.false_ne_true
  rw [pyStrip, hfront, hback, String.ofList_toList]

theorem Decimal.splitSign_subset (cs : List Char) : (splitSign cs).2 ⊆ cs := by
  unfold splitSign
  split
  · exact List.subset_cons_self _ _
  · exact List.subset_cons_self _ _
  · exact List.Subset.refl _

/-- The text of a finite decimal is taken for no special value. -/
theorem PyDecimal.ofAscii?_str {d : Decimal} (hd : d.InLimits) :
    ofAscii? d.str.toList = some (.finite d) := by
  have hword : ∀ c ∈ (Decimal.splitSign d.str.toList).2.map Char.toLower, c ≠ 'i' ∧ c ≠ 'n' := by
    intro c hc
    obtain ⟨c', hc', rfl⟩ := List.mem_map.mp hc
    exact (isNumeral_cases (isNumeral_str d c' (Decimal.splitSign_subset _ hc'))).2.2.2.2
  have hinf : ¬((Decimal.splitSign d.str.toList).2.map Char.toLower = "inf".toList ∨
      (Decimal.splitSign d.str.toList).2.map Char.toLower = "infinity".toList) := by
    rintro (heq | heq)
    · exact (hword 'i' (heq ▸ by decide)).1 rfl
    · exact (hword 'i' (heq ▸ by decide)).1 rfl
  have hstart : ∀ word : List Char, 'n' ∈ word →
      ¬word.isPrefixOf ((Decimal.splitSign d.str.toList).2.map Char.toLower) = true := by
    intro word hn hpre
    exact (hword 'n' ((List.isPrefixOf_iff_prefix.mp hpre).subset hn)).2 rfl
  unfold ofAscii?
  dsimp only
  rw [if_neg hinf, if_neg (hstart _ (by decide)), if_neg (hstart _ (by decide)), String.ofList_toList,
    Decimal.parse?_str, Option.bind_some, if_pos hd]

/-- What is read of a text stays in the limits. -/
theorem PyDecimal.inLimits_of_ofText? {text : String} {d : Decimal} (h : ofText? text = some (.finite d)) :
    d.InLimits := by
  obtain ⟨cs, -, h⟩ := Option.bind_eq_some_iff.mp h
  split at h
  · cases h
  · unfold ofAscii? at h
    dsimp only at h
    split at h
    · cases h
    · split at h
      · simp at h
      · split at h
        · simp at h
        · obtain ⟨d', -, h⟩ := Option.bind_eq_some_iff.mp h
          split at h
          · next hlimits =>
            cases h
            exact hlimits
          · cases h

/-- `Decimal(str(d))` is `d`. -/
theorem PyDecimal.ofText?_str {d : Decimal} (hd : d.InLimits) : ofText? d.str = some (.finite d) := by
  have hchars := fun c hc => isNumeral_cases (isNumeral_str d c hc)
  have hstrip : pyStrip d.str = d.str := pyStrip_eq_self fun c hc => (hchars c hc).2.1
  have hfilter : d.str.toList.filter (· ≠ '_') = d.str.toList :=
    List.filter_eq_self.mpr fun c hc => decide_eq_true (hchars c hc).2.2.1
  have hascii : d.str.toList.mapM ascii? = some d.str.toList := by
    rw [mapM_eq_some, List.forall₂_same]
    intro c hc
    rw [ascii?, if_pos (hchars c hc).1]
  have hnul : '\x00' ∉ d.str.toList := fun hc => (hchars _ hc).2.2.2.1 rfl
  rw [ofText?, hstrip, hfilter, hascii, Option.bind_some, if_neg hnul, ofAscii?_str hd]

end SaccoPlatform.Lib
