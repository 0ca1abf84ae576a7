import Mathlib.Data.List.Basic
import Mathlib.Tactic.NormNum

/-!
# UUIDs

128 bits, written as 32 hexadecimal digits in five groups. The text determines the bits.
-/

namespace SaccoPlatform.Lib

/-- The `width` low hexadecimal digits, the highest first. -/
def hexDigits (n : ℕ) : ℕ → List Char
  | 0 => []
  | width + 1 => hexDigits (n / 16) width ++ [(n % 16).digitChar]

theorem digitChar_inj {m n : ℕ} (hm : m < 16) (hn : n < 16) (h : m.digitChar = n.digitChar) :
    m = n := by
  have hall : ∀ i < 16, ∀ j < 16, Nat.digitChar i = Nat.digitChar j → i = j := by decide
  exact hall m hm n hn h

theorem hexDigits_inj {m n width : ℕ} (hm : m < 16 ^ width) (hn : n < 16 ^ width)
    (h : hexDigits m width = hexDigits n width) : m = n := by
  induction width generalizing m n with
  | zero =>
    rw [Nat.pow_zero] at hm hn
    omega
  | succ width ih =>
    rw [Nat.pow_succ] at hm hn
    have ⟨hfront, hlast⟩ := List.append_inj' h rfl
    have hdiv : m / 16 = n / 16 := by
      apply ih _ _ hfront
      · exact Nat.div_lt_of_lt_mul (by omega)
      · exact Nat.div_lt_of_lt_mul (by omega)
    have hmod : m % 16 = n % 16 :=
      digitChar_inj (Nat.mod_lt m (by omega)) (Nat.mod_lt n (by omega)) (List.singleton_inj.mp hlast)
    omega

theorem notMem_hexDigits {c : Char} (hc : ∀ i < 16, c ≠ Nat.digitChar i) (n width : ℕ) :
    c ∉ hexDigits n width := by
  induction width generalizing n with
  | zero => exact List.not_mem_nil
  | succ width ih =>
    rw [hexDigits, List.mem_append, List.mem_singleton]
    rintro (hin | heq)
    · exact ih _ hin
    · exact hc (n % 16) (Nat.mod_lt n (by omega)) heq

/-- The value of a hexadecimal digit, in either case. -/
def hexDigit? (c : Char) : Option ℕ :=
  (List.range 16).find? fun i => Nat.digitChar i = c || (Nat.digitChar i).toUpper = c

/-- The number that a row of hexadecimal digits denotes. -/
def readHex (cs : List Char) : Option ℕ :=
  cs.foldlM (fun n c => (hexDigit? c).map (16 * n + ·)) 0

theorem hexDigit?_digitChar {i : ℕ} (hi : i < 16) : hexDigit? i.digitChar = some i := by
  have hall : ∀ i < 16, hexDigit? (Nat.digitChar i) = some i := by decide
  exact hall i hi

theorem readHex_hexDigits (n width : ℕ) : readHex (hexDigits n width) = some (n % 16 ^ width) := by
  induction width generalizing n with
  | zero =>
    rw [Nat.pow_zero, Nat.mod_one]
    rfl
  | succ width ih =>
    have hdigit : n % 16 < 16 := Nat.mod_lt n (by omega)
    have hfront : readHex (hexDigits (n / 16) width) = some (n / 16 % 16 ^ width) := ih (n / 16)
    rw [readHex, hexDigits, List.foldlM_append]
    show (readHex _).bind _ = _
    rw [hfront, Option.bind_some, List.foldlM_cons, hexDigit?_digitChar hdigit]
    show some (16 * (n / 16 % 16 ^ width) + n % 16) = some (n % 16 ^ (width + 1))
    rw [Nat.pow_succ, Nat.mul_comm (16 ^ width), Nat.mod_mul]
    congr 1
    omega

/-- A UUID, as the integer of its 128 bits. -/
structure UUID where
  int : ℕ
  lt : int < 2 ^ 128
deriving DecidableEq

namespace UUID

/-- The 32 digits. -/
def hex (id : UUID) : List Char := hexDigits id.int 32

/-- `str(id)`: groups of 8, 4, 4, 4 and 12 digits. -/
def str (id : UUID) : String :=
  String.ofList (id.hex.take 8 ++ '-' :: (id.hex.drop 8).take 4 ++ '-' :: (id.hex.drop 12).take 4 ++
    '-' :: (id.hex.drop 16).take 4 ++ '-' :: id.hex.drop 20)

/-- Without the dashes the text is the digits. -/
theorem filter_str (id : UUID) : id.str.toList.filter (· ≠ '-') = id.hex := by
  have hkeep : ∀ cs : List Char, cs ⊆ id.hex → cs.filter (· ≠ '-') = cs := by
    intro cs hcs
    apply List.filter_eq_self.mpr
    intro c hc
    have hne : c ≠ '-' := by
      rintro rfl
      exact notMem_hexDigits (by decide) id.int 32 (hcs hc)
    simpa using hne
  have hgroup : ∀ i n, (id.hex.drop i).take n ++ id.hex.drop (i + n) = id.hex.drop i := by
    intro i n
    rw [← List.drop_drop, List.take_append_drop]
  have hdrop : ∀ i, id.hex.drop i ⊆ id.hex := fun i => List.drop_subset i id.hex
  have htake : ∀ i n, (id.hex.drop i).take n ⊆ id.hex := fun i n c hc =>
    hdrop i (List.take_subset n _ hc)
  have hdash : ∀ cs : List Char, ('-' :: cs).filter (· ≠ '-') = cs.filter (· ≠ '-') := by
    intro cs
    rw [List.filter_cons_of_neg (by simp)]
  simp only [str, String.toList_ofList, List.filter_append, List.append_assoc, List.cons_append, hdash]
  rw [hkeep _ (List.take_subset 8 _), hkeep _ (htake 8 4), hkeep _ (htake 12 4), hkeep _ (htake 16 4),
    hkeep _ (hdrop 20), hgroup 16 4, hgroup 12 4, hgroup 8 4, List.take_append_drop]

theorem colon_notMem_str (id : UUID) : ':' ∉ id.str.toList := by
  intro hin
  have hhex : ':' ∈ id.hex := by
    rw [← filter_str, List.mem_filter]
    exact ⟨hin, rfl⟩
  exact notMem_hexDigits (by decide) id.int 32 hhex

theorem str_injective : Function.Injective str := by
  intro id id' h
  have hhex : id.hex = id'.hex := by
    rw [← filter_str, h, filter_str]
  have hint : id.int = id'.int := by
    apply hexDigits_inj _ _ hhex
    · exact lt_of_lt_of_eq id.lt (by norm_num)
    · exact lt_of_lt_of_eq id'.lt (by norm_num)
  cases id
  cases id'
  congr

/-- `uuid.UUID(text)`, for a text of digits and hyphens: the hyphens are dropped. The braces and the
prefix of a URN that may surround the digits are not read. -/
def parse? (text : String) : Option UUID :=
  let hex := text.toList.filter (· ≠ '-')
  if hex.length = 32 then
    match readHex hex with
    | some n => if hlt : n < 2 ^ 128 then some ⟨n, hlt⟩ else none
    | none => none
  else none

theorem length_hexDigits (n width : ℕ) : (hexDigits n width).length = width := by
  induction width generalizing n with
  | zero => rfl
  | succ width ih => rw [hexDigits, List.length_append, ih, List.length_singleton]

/-- Reading the text of a UUID gives the UUID. -/
theorem parse?_str (id : UUID) : parse? id.str = some id := by
  have hread : readHex id.hex = some id.int := by
    have hlt : id.int < 16 ^ 32 := lt_of_lt_of_eq id.lt (by norm_num)
    rw [hex, readHex_hexDigits, Nat.mod_eq_of_lt hlt]
  have hlength : id.hex.length = 32 := length_hexDigits id.int 32
  simp only [parse?, filter_str, hlength, if_true, hread, dif_pos id.lt]

end UUID

end SaccoPlatform.Lib
