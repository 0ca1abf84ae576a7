import SaccoPlatform.Lib.Session

/-!
# Python's reader of comma-separated values

`csv.reader` with its default dialect, over a text that `io.StringIO` cuts into lines, and the
rows that `csv.DictReader` makes of its records. The reader takes a character at a time and the
end of a line as one more.
-/

namespace SaccoPlatform.Lib.PyCsv

/-- Where the reader stands. -/
inductive State where
  | startRecord | startField | inField | inQuotedField | quoteInQuotedField | eatCrnl
deriving DecidableEq, Repr

/-- The record read so far and the field read so far. -/
structure Reader where
  state : State
  field : List Char
  fields : List String
deriving DecidableEq

/-- `csv.Error`: a line end in the middle of a record, or a field that is too long. -/
inductive Error where
  | newLineInField | fieldLimit
deriving DecidableEq, Repr

namespace Reader

def start : Reader := ⟨.startRecord, [], []⟩

/-- `parse_save_field`, and the state behind it. -/
def saveField (r : Reader) (state : State) : Reader := ⟨state, [], r.fields ++ [String.ofList r.field]⟩

/-- `parse_add_char`, and the state behind it. -/
def addChar (r : Reader) (c : Char) (state : State) : Except Error Reader :=
  if 131072 ≤ r.field.length then .error .fieldLimit
  else .ok { r with field := r.field ++ [c], state }

def isLineEnd (c : Char) : Bool := c = '\n' || c = '\r'

/-- One character. -/
def read (r : Reader) (c : Char) : Except Error Reader :=
  match r.state with
  | .startRecord | .startField =>
    if isLineEnd c then
      .ok (if r.state = .startRecord then { r with state := .eatCrnl } else r.saveField .eatCrnl)
    else if c = '"' then .ok { r with state := .inQuotedField }
    else if c = ',' then .ok (r.saveField .startField)
    else r.addChar c .inField
  | .inField =>
    if isLineEnd c then .ok (r.saveField .eatCrnl)
    else if c = ',' then .ok (r.saveField .startField)
    else r.addChar c .inField
  | .inQuotedField =>
    if c = '"' then .ok { r with state := .quoteInQuotedField } else r.addChar c .inQuotedField
  | .quoteInQuotedField =>
    if c = '"' then r.addChar c .inQuotedField
    else if c = ',' then .ok (r.saveField .startField)
    else if isLineEnd c then .ok (r.saveField .eatCrnl)
    else r.addChar c .inField
  | .eatCrnl => if isLineEnd c then .ok r else .error .newLineInField

/-- The end of a line. -/
def endLine (r : Reader) : Reader :=
  match r.state with
  | .startRecord | .inQuotedField => r
  | .startField | .inField | .quoteInQuotedField => r.saveField .startRecord
  | .eatCrnl => { r with state := .startRecord }

/-- The records of the lines that are left. A record left open at the end of the text is kept. -/
def readLines : Reader → List (List Char) → Except Error (List (List String))
  | r, [] => .ok (if r.state = .inQuotedField then [(r.saveField .startRecord).fields] else [])
  | r, line :: lines => do
    let r ← line.foldlM read r
    let r := r.endLine
    if r.state = .startRecord then
      let records ← readLines start lines
      pure (r.fields :: records)
    else readLines r lines

end Reader

/-- The lines of a text, each with its line feed. -/
def lines : List Char → List (List Char)
  | [] => []
  | c :: rest =>
    if c = '\n' then [c] :: lines rest
    else match lines rest with
      | [] => [[c]]
      | line :: others => (c :: line) :: others

/-- `csv.reader(io.StringIO(text))` -/
def reader (text : String) : Except Error (List (List String)) := Reader.start.readLines (lines text.toList)

/-- A text as `csv.DictReader` reads it: the first record has the names of the fields, and blank
records are passed over. -/
def dictReader (text : String) : Except Error (List String × List (List String)) :=
  (reader text).map fun records =>
    match records with
    | [] => ([], [])
    | fieldnames :: rest => (fieldnames, rest.filter (· ≠ []))

/-- `row.get(name, "")`: the last of the fields with this name, `none` where the record is too
short to have it. -/
def getField (fieldnames : List String) (record : List String) (name : String) : Option String :=
  match (fieldnames.zipIdx.reverse.find? fun field => field.1 = name) with
  | none => some ""
  | some field => record[field.2]?

example : dictReader "member_id,amount\r\n\r\n\"a \"\"b\"\"\",\"1\n2\"\r\n7\r\n" =
    .ok (["member_id", "amount"], [["a \"b\"", "1\n2"], ["7"]]) := by decide +kernel

end SaccoPlatform.Lib.PyCsv
