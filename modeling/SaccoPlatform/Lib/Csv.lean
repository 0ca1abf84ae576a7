import SaccoPlatform.Lib.JsStrings

/-!
# Reading comma-separated values

A field may stand in quotes, with the quotes in it doubled. Outside quotes a line feed, a carriage
return or the two in a row end a record; a separator at the very end starts no other record.
-/

namespace SaccoPlatform.Lib.Csv

def quote : CodeUnit := unit '"'
def comma : CodeUnit := unit ','
def lineFeed : CodeUnit := 10
def carriageReturn : CodeUnit := 13

/-- Where the reader stands. -/
inductive Mode
  /-- Before a record, and whether a carriage return has just ended one. -/
  | record (afterReturn : Bool)
  /-- Behind a comma. -/
  | field
  /-- In a field without quotes. -/
  | plain
  /-- Between quotes. -/
  | quoted
  /-- Behind a quote that ends the field or is the first of two. -/
  | closing
deriving DecidableEq

/-- The records from here on, with the field and the fields of the record read so far. -/
def scan : Mode → JsString → List JsString → JsString → List (List JsString)
  | .record _, _, _, [] => []
  | _, field, fields, [] => [fields ++ [field]]
  | mode, field, fields, c :: rest =>
    if mode = .quoted then
      if c = quote then scan .closing field fields rest else scan .quoted (field ++ [c]) fields rest
    else if c = lineFeed ∧ mode = .record true then scan (.record false) [] [] rest
    else if c = lineFeed then (fields ++ [field]) :: scan (.record false) [] [] rest
    else if c = carriageReturn then (fields ++ [field]) :: scan (.record true) [] [] rest
    else if c = comma then scan .field [] (fields ++ [field]) rest
    else if c = quote ∧ mode = .closing then scan .quoted (field ++ [c]) fields rest
    -- a quote within a field that has not started with one is a unit like the others
    else if c = quote ∧ mode ≠ .plain then scan .quoted field fields rest
    else scan .plain (field ++ [c]) fields rest

/-- The records of a text. -/
def parse (text : JsString) : List (List JsString) := scan (.record false) [] [] text

/-- A text with its quotes doubled. -/
def doubled (s : JsString) : JsString := s.flatMap fun c => if c = quote then [quote, quote] else [c]

/-- A field in quotes. -/
def inQuotes (s : JsString) : JsString := quote :: doubled s ++ [quote]

/-- A unit without a meaning of its own. -/
def Ordinary (c : CodeUnit) : Prop := c ≠ quote ∧ c ≠ comma ∧ c ≠ lineFeed ∧ c ≠ carriageReturn

/-- A unit that ends a field without quotes. -/
def Ends (c : CodeUnit) : Prop := c = comma ∨ c = lineFeed ∨ c = carriageReturn

example : parse (units "a,\"b\"\"c\",\r\n\"d,\ne\"".toList) =
    [[units ['a'], units ['b', '"', 'c'], []], [units ['d', ',', '\n', 'e']]] := by decide +kernel

/-! ## One field -/

section

variable {mode : Mode} {fields : List JsString} {field rest : JsString} {c : CodeUnit}

/-- Where a field may start, apart from the place behind a carriage return. -/
def Mode.Opening (mode : Mode) : Prop := mode = .record false ∨ mode = .field

theorem scan_cons_ordinary (hmode : mode ≠ .quoted) (hc : Ordinary c) :
    scan mode field fields (c :: rest) = scan .plain (field ++ [c]) fields rest := by
  obtain ⟨hquote, hcomma, hlf, hcr⟩ := hc
  simp [scan, hmode, hquote, hcomma, hlf, hcr]

theorem scan_plain {u : JsString} (hu : ∀ c ∈ u, Ordinary c) :
    scan .plain field fields (u ++ rest) = scan .plain (field ++ u) fields rest := by
  induction u generalizing field with
  | nil => simp
  | cons c u ih =>
    rw [List.forall_mem_cons] at hu
    rw [List.cons_append, scan_cons_ordinary (by simp) hu.1, ih hu.2, List.append_assoc,
      List.singleton_append]

/-- A separator is read the same way wherever a field may end. -/
theorem scan_cons_ends (hmode : mode.Opening ∨ mode = .closing) (hc : Ends c) :
    scan mode field fields (c :: rest) = scan .plain field fields (c :: rest) := by
  rcases hc with rfl | rfl | rfl
  all_goals
    rcases hmode with (rfl | rfl) | rfl
    · rfl
    · rfl
    · rfl

/-- A field of ordinary units stands for itself. -/
theorem scan_text (hmode : mode.Opening) {u : JsString} (hu : ∀ c ∈ u, Ordinary c) (hc : Ends c) :
    scan mode [] fields (u ++ c :: rest) = scan .plain u fields (c :: rest) := by
  cases u with
  | nil => exact scan_cons_ends (Or.inl hmode) hc
  | cons d u =>
    rw [List.forall_mem_cons] at hu
    have hquoted : mode ≠ .quoted := by
      rintro rfl
      cases hmode with
      | inl h => cases h
      | inr h => cases h
    rw [List.cons_append, scan_cons_ordinary hquoted hu.1, scan_plain hu.2]
    rfl

/-- Between quotes every unit stands for itself, a quote doubled. -/
theorem scan_quoted (u : JsString) :
    scan .quoted field fields (doubled u ++ rest) = scan .quoted (field ++ u) fields rest := by
  induction u generalizing field with
  | nil => simp [doubled]
  | cons c u ih =>
    rw [doubled, List.flatMap_cons, ← doubled, List.append_assoc]
    by_cases hc : c = quote
    · -- the first of the two quotes may have ended the field, the second takes that back
      have hpair : scan .quoted field fields (quote :: quote :: (doubled u ++ rest)) =
          scan .quoted (field ++ [quote]) fields (doubled u ++ rest) := rfl
      rw [if_pos hc, hc, List.cons_append, List.singleton_append, hpair, ih, List.append_assoc,
        List.singleton_append]
    · rw [if_neg hc, List.singleton_append, scan, if_pos rfl, if_neg hc, ih, List.append_assoc,
        List.singleton_append]

/-- A field in quotes stands for what is in them. -/
theorem scan_inQuotes (hmode : mode.Opening) (u : JsString) (hc : Ends c) :
    scan mode [] fields (inQuotes u ++ c :: rest) = scan .plain u fields (c :: rest) := by
  have hopen : ∀ text, scan mode [] fields (quote :: text) = scan .quoted [] fields text := by
    intro text
    rcases hmode with rfl | rfl
    · rfl
    · rfl
  have hclose : scan .quoted u fields (quote :: c :: rest) = scan .closing u fields (c :: rest) := rfl
  rw [inQuotes, List.append_assoc, List.cons_append, hopen, scan_quoted, List.nil_append]
  rw [List.singleton_append, hclose]
  exact scan_cons_ends (Or.inr rfl) hc

end

end SaccoPlatform.Lib.Csv
