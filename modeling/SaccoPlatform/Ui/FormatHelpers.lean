import SaccoPlatform.Lib.JsNumbers

/-!
# Typing an amount of money

The field shows an amount with thousands separators and hands on the bare numeral.
`stripFormatting` goes from the first to the second, `formatTyping` back. What the first leaves
of any text is a plain decimal, and on the plain decimals the two are inverse to each other.
On blur `canonicalise` rounds the numeral to the decimals of the currency, by way of a double.
-/

namespace SaccoPlatform

open Lib Lib.CodeUnit

/-! ## The helpers -/

/-- `[0-9.]` -/
def kept (c : CodeUnit) : Bool := isDigit c || c == unit '.'

/-- Keep the digits, the first dot and a leading minus sign. -/
def stripFormatting (input : JsString) : JsString :=
  if input = [] then []
  else
    let leadingMinus := if startsWith (unit '-') (trimStart input) then [unit '-'] else []
    let digits := input.filter kept
    match digits.idxOf? (unit '.') with
    | none => leadingMinus ++ digits
    | some firstDot =>
      let integer := digits.take firstDot
      let fraction := (digits.drop (firstDot + 1)).filter (· != unit '.')
      leadingMinus ++ (integer ++ unit '.' :: fraction)

/-- Whether `\B(?=(\d{3})+(?!\d))` matches between the unit `before` and `ahead`. -/
def separates (before : Option CodeUnit) (ahead : JsString) : Bool :=
  let run := (ahead.takeWhile isDigit).length
  before.any isWord == ahead.head?.any isWord && decide (0 < run) && run % 3 == 0

/-- The replacement of every such match by a comma. -/
def insertCommas : Option CodeUnit → JsString → JsString
  | before, [] => if separates before [] then [unit ','] else []
  | before, c :: rest =>
    (if separates before (c :: rest) then [unit ','] else []) ++ c :: insertCommas (some c) rest

/-- Put in the thousands separators; a trailing dot and trailing zeros stay. -/
def formatTyping (stripped : JsString) : JsString :=
  if stripped = [] then []
  else
    let negative := startsWith (unit '-') stripped
    let body := if negative then stripped.drop 1 else stripped
    let pieces := body.splitOn (unit '.')
    let withThousands := insertCommas none (pieces[0]?.getD [])
    let result := match pieces[1]? with
      | none => withThousands
      | some fracPart => withThousands ++ unit '.' :: fracPart
    (if negative then [unit '-'] else []) ++ result

/-! ## Currencies -/

structure CurrencyConfig where
  decimals : ℕ
deriving DecidableEq

def currencies : List (JsString × CurrencyConfig) :=
  [(units "UGX".toList, ⟨0⟩), (units "KES".toList, ⟨2⟩), (units "TZS".toList, ⟨2⟩),
    (units "RWF".toList, ⟨0⟩), (units "USD".toList, ⟨2⟩), (units "EUR".toList, ⟨2⟩),
    (units "GBP".toList, ⟨2⟩)]

/-- `toUpperCase`, as far as it can lead to a key of the table: the long s and the dotless i have
capitals among its letters too. -/
def upperUnit (c : CodeUnit) : CodeUnit :=
  if unit 'a' ≤ c ∧ c ≤ unit 'z' then c - 32
  else if c = 0x17F then unit 'S'
  else if c = 0x131 then unit 'I'
  else c

def getCurrencyConfig (code : JsString) : CurrencyConfig :=
  (currencies.lookup (code.map upperUnit)).getD ⟨2⟩

/-- The numeral with the decimals of the currency; nothing where there is no number. -/
def canonicalise (stripped currencyCode : JsString) : JsString :=
  if stripped = [] ∨ stripped = [unit '-'] then []
  else
    let numeric := parseFloat stripped
    if ¬numeric.isFinite then []
    else toFixed (getCurrencyConfig currencyCode).decimals numeric

example : canonicalise (units "12.567".toList) (units "usd".toList) = units "12.57".toList := by
  decide +kernel

/-! ## What is shown -/

/-- A digit and its index among `n`, with a comma before it where there are digits to its left
and, itself among them, a multiple of three to its right. -/
def separated (n : ℕ) (digit : CodeUnit × ℕ) : JsString :=
  if 0 < digit.2 ∧ 3 ∣ n - digit.2 then [unit ',', digit.1] else [digit.1]

/-- The digits with all their commas. -/
def grouped (digits : JsString) : JsString := digits.zipIdx.flatMap (separated digits.length)

/-- The numeral with its integer part grouped. -/
def Lib.PlainDecimal.display (p : PlainDecimal) : JsString := p.sign ++ (grouped p.integer ++ p.tail)

/-! ## The separators -/

/-- Among digits the expression matches where a multiple of three digits is left. -/
theorem separates_digits {before : Option CodeUnit} {ahead : JsString}
    (hbefore : ∀ c ∈ before, isDigit c = true) (hahead : Digits ahead) :
    separates before ahead = true ↔ before.isSome ∧ ahead ≠ [] ∧ 3 ∣ ahead.length := by
  unfold separates
  rw [hahead.takeWhile_eq]
  cases ahead with
  | nil => simp
  | cons c rest =>
    have hc : isWord c = true := isWord_of_isDigit (digits_cons.mp hahead).1
    cases before with
    | none => simp [hc]
    | some b =>
      have hb : isWord b = true := isWord_of_isDigit (hbefore b rfl)
      simp [hb, hc, Nat.dvd_iff_mod_eq_zero]

/-- The replacement in a run of digits whose first one has the index `k`. -/
theorem insertCommas_digits {ds : JsString} (hds : Digits ds) (k : ℕ) {before : Option CodeUnit}
    (hbefore : ∀ c ∈ before, isDigit c = true) (hk : before.isSome ↔ 0 < k) :
    insertCommas before ds = (ds.zipIdx k).flatMap (separated (k + ds.length)) := by
  induction ds generalizing k before with
  | nil =>
    have hnone : ¬separates before [] = true := by
      rw [separates_digits hbefore hds]
      simp
    rw [insertCommas, if_neg hnone]
    rfl
  | cons c rest ih =>
    have hc : isDigit c = true := (digits_cons.mp hds).1
    have hcomma : separates before (c :: rest) = true ↔ 0 < k ∧ 3 ∣ k + (c :: rest).length - k := by
      rw [separates_digits hbefore hds, Nat.add_sub_cancel_left, ← hk]
      simp
    -- the rest starts one index later and is one digit shorter
    have hlength : k + 1 + rest.length = k + (c :: rest).length := by
      rw [List.length_cons]
      omega
    have hrest := @ih (digits_cons.mp hds).2 (k + 1) (some c) (by simpa using hc) (by simp)
    rw [hlength] at hrest
    rw [insertCommas, hrest, List.zipIdx_cons, List.flatMap_cons, separated]
    by_cases h : 0 < k ∧ 3 ∣ k + (c :: rest).length - k
    · rw [if_pos (hcomma.mpr h), if_pos h]
      rfl
    · rw [if_neg (fun hs => h (hcomma.mp hs)), if_neg h]
      rfl

theorem insertCommas_eq_grouped {ds : JsString} (hds : Digits ds) :
    insertCommas none ds = grouped ds := by
  rw [insertCommas_digits hds 0 (by simp) (by simp), grouped]
  simp only [Nat.zero_add]

/-- The replacement only adds. -/
theorem mem_insertCommas {before : Option CodeUnit} {s : JsString} {c : CodeUnit} (hc : c ∈ s) :
    c ∈ insertCommas before s := by
  induction s generalizing before with
  | nil => simp at hc
  | cons d rest ih =>
    rw [insertCommas, List.mem_append, List.mem_cons]
    cases List.mem_cons.mp hc with
    | inl heq => exact Or.inr (Or.inl heq)
    | inr hrest => exact Or.inr (Or.inr (ih hrest))

theorem mem_grouped {ds : JsString} {c : CodeUnit} (hc : c ∈ grouped ds) : c = unit ',' ∨ c ∈ ds := by
  obtain ⟨digit, hmem, hc⟩ := List.mem_flatMap.mp hc
  have hdigit : digit.1 ∈ ds := List.fst_mem_of_mem_zipIdx hmem
  unfold separated at hc
  split at hc
  · rw [List.mem_cons, List.mem_singleton] at hc
    cases hc with
    | inl hcomma => exact Or.inl hcomma
    | inr heq =>
      rw [heq]
      exact Or.inr hdigit
  · rw [List.mem_singleton.mp hc]
    exact Or.inr hdigit

/-- The commas are all that the grouping adds. -/
theorem filter_grouped {ds : JsString} (hds : Digits ds) {keep : CodeUnit → Bool}
    (hkeep : ∀ c, isDigit c = true → keep c = true) (hcomma : keep (unit ',') = false) :
    (grouped ds).filter keep = ds := by
  have hpieces : ∀ digit ∈ ds.zipIdx, (separated ds.length digit).filter keep = [digit.1] := by
    intro digit hmem
    have hdigit : keep digit.1 = true := hkeep _ (hds _ (List.fst_mem_of_mem_zipIdx hmem))
    unfold separated
    split
    · simp [hcomma, hdigit]
    · simp [hdigit]
  calc (grouped ds).filter keep
      = ds.zipIdx.flatMap fun digit => [digit.1] := by
        rw [grouped, List.filter_flatMap]
        exact List.flatMap_congr hpieces
    _ = ds := by
        rw [← List.map_eq_flatMap, List.zipIdx_map_fst]

/-! ## The two directions -/

theorem kept_of_isDigit {c : CodeUnit} (hc : isDigit c = true) : kept c = true := by
  simp [kept, hc]

theorem isDigit_of_kept {c : CodeUnit} (hc : kept c = true) (hdot : c ≠ unit '.') :
    isDigit c = true := by
  simpa [kept, hdot] using hc

theorem filter_kept_tail (p : PlainDecimal) : p.tail.filter kept = p.tail := by
  apply List.filter_eq_self.mpr
  intro c hc
  cases PlainDecimal.mem_unsigned (List.mem_append_right p.integer hc) with
  | inl hdigit => exact kept_of_isDigit hdigit
  | inr hdot =>
    rw [hdot]
    decide

/-- A text whose digits and dots are those of a plain decimal, and whose sign is the same. -/
theorem stripFormatting_eq {s : JsString} {p : PlainDecimal}
    (hsign : startsWith (unit '-') (trimStart s) = p.negative) (hkept : s.filter kept = p.unsigned) :
    stripFormatting s = p.text := by
  unfold stripFormatting
  split
  · rename_i hempty
    subst hempty
    rw [PlainDecimal.text, PlainDecimal.sign, ← hsign, ← hkept]
    rfl
  · dsimp only
    rw [hkept, hsign, ← PlainDecimal.sign, PlainDecimal.text]
    unfold PlainDecimal.unsigned PlainDecimal.tail
    cases hf : p.fraction with
    | none =>
      have hnone : p.integer.idxOf? (unit '.') = none :=
        List.idxOf?_eq_none_iff.mpr (p.integer_digits.not_mem isDigit_dot)
      simp [hnone]
    | some f =>
      have hsome : (p.integer ++ unit '.' :: f).idxOf? (unit '.') = some p.integer.length := by
        rw [List.idxOf?_eq_some_iff]
        refine ⟨by simp, by simp, fun j hj => ?_⟩
        rw [List.getElem_append_left hj]
        exact ne_of_mem_of_not_mem (List.getElem_mem hj) (p.integer_digits.not_mem isDigit_dot)
      have hfilter : f.filter (· != unit '.') = f := by
        apply List.filter_eq_self.mpr
        intro c hc
        rw [bne_iff_ne]
        exact ne_of_mem_of_not_mem hc ((p.fraction_digits f hf).not_mem isDigit_dot)
      simp [hsome, hfilter]

/-- What is kept of a text, less the dots, are digits. -/
theorem digits_of_kept {s t : JsString} (hsub : t ⊆ s.filter kept) (hdot : unit '.' ∉ t) : Digits t := by
  intro c hc
  have hkept : kept c = true := (List.mem_filter.mp (hsub hc)).2
  exact isDigit_of_kept hkept (ne_of_mem_of_not_mem hc hdot)

/-- Any text leaves a plain decimal. -/
theorem exists_plainDecimal (s : JsString) : ∃ p : PlainDecimal, stripFormatting s = p.text := by
  unfold stripFormatting
  split
  · exact ⟨PlainDecimal.empty, rfl⟩
  · dsimp only
    generalize startsWith (unit '-') (trimStart s) = negative
    split
    · rename_i hnone
      have hdigits : Digits (s.filter kept) :=
        digits_of_kept (List.Subset.refl _) (List.idxOf?_eq_none_iff.mp hnone)
      refine ⟨⟨negative, s.filter kept, none, hdigits, by simp⟩, ?_⟩
      simp [PlainDecimal.text, PlainDecimal.sign, PlainDecimal.unsigned, PlainDecimal.tail]
    · rename_i firstDot hsome
      obtain ⟨hlt, -, hbefore⟩ := List.idxOf?_eq_some_iff.mp hsome
      have hinteger : Digits ((s.filter kept).take firstDot) := by
        apply digits_of_kept (List.take_subset _ _)
        intro hdot
        obtain ⟨j, hj, heq⟩ := List.mem_take_iff_getElem.mp hdot
        exact hbefore j (by omega) heq
      have hfraction : Digits (((s.filter kept).drop (firstDot + 1)).filter (· != unit '.')) := by
        apply digits_of_kept (fun c hc => List.mem_of_mem_drop (List.mem_filter.mp hc).1)
        simp
      refine ⟨⟨negative, _, some _, hinteger, by simpa using hfraction⟩, ?_⟩
      simp [PlainDecimal.text, PlainDecimal.sign, PlainDecimal.unsigned, PlainDecimal.tail]

theorem filter_kept_sign (p : PlainDecimal) : p.sign.filter kept = [] := by
  unfold PlainDecimal.sign
  split
  · decide
  · rfl

/-- A plain decimal is left as it is. -/
theorem stripFormatting_text (p : PlainDecimal) : stripFormatting p.text = p.text := by
  apply stripFormatting_eq (PlainDecimal.startsWith_minus_of_head rfl)
  rw [PlainDecimal.text, PlainDecimal.unsigned, List.filter_append, List.filter_append, filter_kept_sign,
    filter_kept_tail, p.integer_digits.filter_eq fun c => kept_of_isDigit, List.nil_append]

/-- A text with one dot at most is split there, behind its minus sign. -/
theorem formatTyping_split (negative : Bool) {integer : JsString} {fraction : Option JsString}
    (hinteger : unit '.' ∉ integer) (hfraction : ∀ f ∈ fraction, unit '.' ∉ f)
    (hsign : startsWith (unit '-') (integer ++ fraction.elim [] (unit '.' :: ·)) = false) :
    formatTyping ((if negative then [unit '-'] else []) ++
        (integer ++ fraction.elim [] (unit '.' :: ·))) =
      (if negative then [unit '-'] else []) ++
        (insertCommas none integer ++ fraction.elim [] (unit '.' :: ·)) := by
  set unsigned := integer ++ fraction.elim [] (unit '.' :: ·) with hunsigned
  have hnegative :
      startsWith (unit '-') ((if negative then [unit '-'] else []) ++ unsigned) = negative := by
    cases negative with
    | true => rfl
    | false => exact hsign
  have hbody : (if negative then ((if negative then [unit '-'] else []) ++ unsigned).drop 1
      else (if negative then [unit '-'] else []) ++ unsigned) = unsigned := by
    cases negative with
    | true => rfl
    | false => rfl
  by_cases hempty : (if negative then [unit '-'] else []) ++ unsigned = []
  · rw [formatTyping, if_pos hempty]
    rw [List.append_eq_nil_iff, hunsigned, List.append_eq_nil_iff] at hempty
    rw [hempty.1, hempty.2.1, hempty.2.2]
    rfl
  · rw [formatTyping, if_neg hempty]
    dsimp only
    rw [hnegative, hbody, hunsigned]
    cases fraction with
    | none =>
      have hpieces : integer.splitOn (unit '.') = [integer] := List.splitOn_eq_singleton hinteger
      simp [hpieces]
    | some f =>
      have hpieces : (integer ++ unit '.' :: f).splitOn (unit '.') = [integer, f] := by
        rw [List.splitOn_append_cons_self, List.splitOn_eq_singleton hinteger,
          List.splitOn_eq_singleton (hfraction f rfl)]
        rfl
      simp [hpieces]

/-- A plain decimal is shown with its integer part grouped. -/
theorem formatTyping_text (p : PlainDecimal) : formatTyping p.text = p.display := by
  have hgrouped : insertCommas none p.integer = grouped p.integer :=
    insertCommas_eq_grouped p.integer_digits
  rw [PlainDecimal.display, ← hgrouped]
  exact formatTyping_split p.negative (p.integer_digits.not_mem isDigit_dot)
    (fun f hf => (p.fraction_digits f hf).not_mem isDigit_dot) p.startsWith_minus_unsigned

theorem head_grouped (ds : JsString) : (grouped ds).head? = ds.head? := by
  cases ds with
  | nil => rfl
  | cons c rest => simp [grouped, separated]

/-- What is shown of a plain decimal leads back to it. -/
theorem stripFormatting_display (p : PlainDecimal) : stripFormatting p.display = p.text := by
  apply stripFormatting_eq
  · apply PlainDecimal.startsWith_minus_of_head
    simp only [PlainDecimal.display, PlainDecimal.text, PlainDecimal.unsigned, List.head?_append,
      head_grouped]
  · rw [PlainDecimal.display, PlainDecimal.unsigned, List.filter_append, List.filter_append,
      filter_kept_sign, filter_kept_tail,
      filter_grouped p.integer_digits (fun c => kept_of_isDigit) (by decide), List.nil_append]

/-- What the field hands on is a plain decimal, what it shows is this decimal with its integer
part grouped, and going back and forth changes neither. -/
theorem stripFormatting_formatTyping (s : JsString) :
    (∃ p : PlainDecimal, stripFormatting s = p.text ∧ formatTyping (stripFormatting s) = p.display) ∧
    stripFormatting (stripFormatting s) = stripFormatting s ∧
    stripFormatting (formatTyping (stripFormatting s)) = stripFormatting s := by
  obtain ⟨p, hp⟩ := exists_plainDecimal s
  rw [hp, stripFormatting_text, formatTyping_text, stripFormatting_display]
  exact ⟨⟨p, rfl, rfl⟩, rfl, rfl⟩

example : formatTyping (units "-1234567.50".toList) = units "-1,234,567.50".toList := by decide +kernel

end SaccoPlatform
