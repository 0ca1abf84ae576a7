import SaccoPlatform.Ui.FormatHelpers
import SaccoPlatform.Lib.Runs

/-!
# The money field between its display and its value

The field keeps the string it displays, its parent the value handed on. When a render finds that
the display does not belong to the value it sets the display anew and renders again: once, unless
what it has set does not belong to the value either, when it never stops.
-/

namespace SaccoPlatform

open Lib Lib.CodeUnit

/-! ## The component -/

/-- The display, and the value that the parent has stored and passes back. -/
structure MoneyInput where
  display : JsString
  value : JsString
deriving DecidableEq

namespace MoneyInput

/-- A render leaves the display as it is. -/
def InSync (m : MoneyInput) : Prop := formatTyping (stripFormatting m.display) = formatTyping m.value

instance (m : MoneyInput) : Decidable m.InSync := inferInstanceAs (Decidable (_ = _))

/-- What a render does about the display. -/
def render (m : MoneyInput) : MoneyInput :=
  if m.InSync then m else { m with display := formatTyping m.value }

/-- The first render. -/
def mount (value : JsString) : MoneyInput := render ⟨formatTyping value, value⟩

/-- What the user does: puts a text into the field, or leaves the field. -/
inductive Op
  | change (text : JsString) (allowNegative : Bool)
  | blur (currency : JsString)

/-- `onChange` -/
def onChange (text : JsString) (allowNegative : Bool) : MoneyInput :=
  let stripped := stripFormatting text
  let stripped := if !allowNegative && startsWith (unit '-') stripped then stripped.drop 1 else stripped
  ⟨formatTyping stripped, stripped⟩

def handleBlur (currency : JsString) (m : MoneyInput) : MoneyInput :=
  let canonical := canonicalise (stripFormatting m.display) currency
  ⟨formatTyping canonical, canonical⟩

/-- An event and the render that follows. -/
def step (m : MoneyInput) : Op → MoneyInput
  | .change text allowNegative => render (onChange text allowNegative)
  | .blur currency => render (handleBlur currency m)

/-- A field that is left shows a number that rounds to a double below `10 ^ 21`, or to none. -/
def Moderate (m : MoneyInput) : Op → Prop
  | .change _ _ => True
  | .blur _ => magnitude (stripFormatting m.display) < 10 ^ 21 - 2 ^ 16 ∨
      2 ^ 1024 - 2 ^ 970 ≤ magnitude (stripFormatting m.display)

/-! ## A render after an event -/

/-- Where the display has been made from the value, a render changes nothing. -/
theorem render_formatTyping (value : JsString) :
    render ⟨formatTyping value, value⟩ = ⟨formatTyping value, value⟩ := by
  unfold render
  split <;> rfl

/-- A second render does nothing that the first has not done, so that what one leaves out of step
stays so however many follow. -/
theorem render_render (m : MoneyInput) : render (render m) = render m := by
  by_cases h : m.InSync
  · rw [render, render, if_pos h, if_pos h]
  · have hset : render m = ⟨formatTyping m.value, m.value⟩ := if_neg h
    rw [hset, render_formatTyping]

theorem exists_inSync_iff (m : MoneyInput) : (∃ n, (render^[n] m).InSync) ↔ (render m).InSync := by
  constructor
  · rintro ⟨n, hn⟩
    cases n with
    | zero =>
      have hm : m.InSync := hn
      rwa [render, if_pos hm]
    | succ n =>
      rwa [Function.iterate_succ_apply, Function.iterate_fixed (render_render m)] at hn
  · intro h
    exact ⟨1, h⟩

/-- A plain decimal as the value. -/
theorem inSync_text (p : PlainDecimal) : InSync ⟨formatTyping p.text, p.text⟩ := by
  rw [InSync, formatTyping_text, stripFormatting_display, formatTyping_text]

theorem inSync_onChange (text : JsString) (allowNegative : Bool) :
    (onChange text allowNegative).InSync := by
  obtain ⟨p, hp⟩ := exists_plainDecimal text
  have hvalue : ∃ q : PlainDecimal, (if !allowNegative && startsWith (unit '-') p.text then p.text.drop 1
      else p.text) = q.text := by
    split
    · rename_i hminus
      rw [Bool.and_eq_true, PlainDecimal.startsWith_minus_text] at hminus
      refine ⟨p.abs, ?_⟩
      simp [PlainDecimal.text, PlainDecimal.sign, PlainDecimal.abs, PlainDecimal.unsigned,
        PlainDecimal.tail, hminus.2]
    · exact ⟨p, rfl⟩
  obtain ⟨q, hq⟩ := hvalue
  rw [onChange, hp, hq]
  exact inSync_text q

/-! ## The blur -/

theorem exponent_lt_pow : (10 : ℚ) ^ 21 < 2 ^ 1024 :=
  calc (10 : ℚ) ^ 21 < 2 ^ 70 := by norm_num
    _ ≤ 2 ^ 1024 := pow_le_pow_right₀ (by norm_num) (by norm_num)

/-- A number is written in plain notation exactly below the bound, and no number not at all. -/
theorem canonicalise_plain (p : PlainDecimal) (currency : JsString)
    (hp : magnitude p.text < 10 ^ 21 - 2 ^ 16 ∨ 2 ^ 1024 - 2 ^ 970 ≤ magnitude p.text) :
    ∃ q : PlainDecimal, canonicalise p.text currency = q.text := by
  have hnonneg := magnitude_nonneg p.text
  unfold canonicalise
  rw [PlainDecimal.parseFloat_text]
  split
  · exact ⟨PlainDecimal.empty, rfl⟩
  · dsimp only
    by_cases hdigits : p.text.filter isDigit = []
    · rw [if_pos hdigits]
      exact ⟨PlainDecimal.empty, rfl⟩
    · rw [if_neg hdigits, toDouble]
      cases hp with
      | inl hsmall =>
        have hround : roundDouble (magnitude p.text) < 10 ^ 21 := by
          rw [← not_le, exponent_le_roundDouble_iff hnonneg]
          exact not_le.mpr hsmall
        have hfinite : roundDouble (magnitude p.text) < 2 ^ 1024 := hround.trans exponent_lt_pow
        rw [if_pos hfinite]
        simp only [JsNumber.isFinite, not_true, if_false, toFixed, if_neg (not_le.mpr hround)]
        exact exists_fixedText _ _ _
      | inr hlarge =>
        have hround : 2 ^ 1024 ≤ roundDouble (magnitude p.text) :=
          (pow_le_roundDouble_iff hnonneg).mpr hlarge
        rw [if_neg (not_lt.mpr hround)]
        exact ⟨PlainDecimal.empty, rfl⟩

theorem canonicalise_exponent (p : PlainDecimal) (currency : JsString)
    (hlow : 10 ^ 21 - 2 ^ 16 ≤ magnitude p.text) (hhigh : magnitude p.text < 2 ^ 1024 - 2 ^ 970) :
    ∃ (negative : Bool) (m : ℕ),
      canonicalise p.text currency = (if negative then [unit '-'] else []) ++ exponentText m := by
  have hnonneg := magnitude_nonneg p.text
  have hround : 10 ^ 21 ≤ roundDouble (magnitude p.text) :=
    (exponent_le_roundDouble_iff hnonneg).mpr hlow
  have hfinite : roundDouble (magnitude p.text) < 2 ^ 1024 := by
    rw [← not_le, pow_le_roundDouble_iff hnonneg]
    exact not_le.mpr hhigh
  have hdigits : p.text.filter isDigit ≠ [] := by
    intro hnone
    have hzero : magnitude p.text = 0 := by
      rw [magnitude, hnone]
      simp [digitsValue]
    rw [hzero] at hlow
    norm_num at hlow
  have hguard : ¬(p.text = [] ∨ p.text = [unit '-']) := by
    intro hempty
    apply hdigits
    cases hempty with
    | inl hempty =>
      rw [hempty]
      rfl
    | inr hminus =>
      rw [hminus]
      decide
  rw [canonicalise, if_neg hguard, PlainDecimal.parseFloat_text, if_neg hdigits, toDouble,
    if_pos hfinite]
  simp only [JsNumber.isFinite, not_true, if_false, toFixed, if_pos hround]
  exact ⟨_, _, rfl⟩

/-- No numeral is shown with an exponent. -/
theorem letter_not_mem_display (p : PlainDecimal) : unit 'e' ∉ p.display := by
  rw [PlainDecimal.display, List.mem_append, List.mem_append]
  rintro (hsign | hgrouped | htail)
  · unfold PlainDecimal.sign at hsign
    split at hsign
    · exact absurd (List.mem_singleton.mp hsign) (by decide)
    · simp at hsign
  · cases mem_grouped hgrouped with
    | inl hcomma => exact absurd hcomma (by decide)
    | inr hdigit => exact p.integer_digits.not_mem (by decide) hdigit
  · exact p.not_mem_unsigned (by decide) (by decide) (List.mem_append_right _ htail)

/-- A value with an exponent is shown with it. -/
theorem letter_mem_formatTyping (negative : Bool) (m : ℕ) :
    unit 'e' ∈ formatTyping ((if negative then [unit '-'] else []) ++ exponentText m) := by
  obtain ⟨integer, fraction, htext, hinteger, hfraction⟩ := exponentText_cases m
  have hdot : unit '.' ∉ integer := fun h => absurd (hinteger _ h) (by decide)
  have hdot' : ∀ f ∈ fraction, unit '.' ∉ f := fun f hf h => absurd (hfraction f hf _ h) (by decide)
  have hsign : startsWith (unit '-') (integer ++ fraction.elim [] (unit '.' :: ·)) = false := by
    rw [startsWith, beq_eq_false_iff_ne]
    intro hhead
    have hminus := List.mem_of_mem_head? hhead
    rw [← htext] at hminus
    exact minus_not_mem_exponentText m hminus
  have hletter : unit 'e' ∈ integer ++ fraction.elim [] (unit '.' :: ·) := htext ▸ mem_exponentText m
  rw [htext, formatTyping_split negative hdot hdot' hsign]
  refine List.mem_append_right _ ?_
  cases List.mem_append.mp hletter with
  | inl h => exact List.mem_append_left _ (mem_insertCommas h)
  | inr h => exact List.mem_append_right _ h

/-- The display of a plain decimal leads to no such value. -/
theorem not_inSync_exponent (display : JsString) (negative : Bool) (m : ℕ) :
    ¬InSync ⟨display, (if negative then [unit '-'] else []) ++ exponentText m⟩ := by
  obtain ⟨p, hp⟩ := exists_plainDecimal display
  intro hsync
  have heq : p.display = formatTyping ((if negative then [unit '-'] else []) ++ exponentText m) := by
    rw [← formatTyping_text, ← hp]
    exact hsync
  exact letter_not_mem_display p (heq ▸ letter_mem_formatTyping negative m)

/-- The render after an event leaves the field in step exactly if the event was a moderate one. -/
theorem inSync_step_iff (m : MoneyInput) (op : Op) : (m.step op).InSync ↔ m.Moderate op := by
  cases op with
  | change text allowNegative =>
    have hsync := inSync_onChange text allowNegative
    rw [step, render, if_pos hsync]
    exact iff_of_true hsync trivial
  | blur currency =>
    obtain ⟨p, hp⟩ := exists_plainDecimal m.display
    rw [step, handleBlur, render_formatTyping, Moderate, hp]
    by_cases hmoderate : magnitude p.text < 10 ^ 21 - 2 ^ 16 ∨ 2 ^ 1024 - 2 ^ 970 ≤ magnitude p.text
    · obtain ⟨q, hq⟩ := canonicalise_plain p currency hmoderate
      rw [hq]
      exact iff_of_true (inSync_text q) hmoderate
    · obtain ⟨negative, n, hvalue⟩ := canonicalise_exponent p currency
        (not_lt.mp fun h => hmoderate (Or.inl h)) (not_le.mp fun h => hmoderate (Or.inr h))
      rw [hvalue]
      exact iff_of_false (not_inSync_exponent _ negative n) hmoderate

/-! ## Runs -/

/-- A field that is given a plain decimal is in step with its value at every render of a run, the
display set anew once at most, exactly if every field that is left shows a moderate number. -/
theorem inSync_run_iff (value : PlainDecimal) (ops : List Op) :
    (∀ front, front <+: ops → (run step (mount value.text) front).InSync) ↔
      Along step Moderate (mount value.text) ops := by
  have hmount : (mount value.text).InSync := by
    rw [mount, render_formatTyping]
    exact inSync_text value
  exact @always_iff_along _ _ step Moderate (fun _ => True) InSync (fun _ _ _ _ => trivial)
    (fun m op _ _ => inSync_step_iff m op) _ trivial hmount ops

/-- A number of 22 digits comes back from the blur with an exponent, and the renders go on for ever. -/
theorem run_exponent :
    let ops : List Op :=
      [.change (units "1000000000000000000000".toList) false, .blur (units "UGX".toList)]
    run step (mount []) ops = ⟨units "1e+21".toList, units "1e+21".toList⟩ ∧
    (¬∃ n, (render^[n] (run step (mount []) ops)).InSync) ∧
    ¬∀ (value : PlainDecimal) (ops : List Op), (run step (mount value.text) ops).InSync := by
  intro ops
  have hrun : run step (mount []) ops = ⟨units "1e+21".toList, units "1e+21".toList⟩ := by decide +kernel
  have hout : ¬(run step (mount []) ops).InSync := by
    rw [hrun]
    decide +kernel
  refine ⟨hrun, ?_, fun hall => hout (hall PlainDecimal.empty ops)⟩
  rw [exists_inSync_iff, hrun]
  decide +kernel

end MoneyInput

end SaccoPlatform
