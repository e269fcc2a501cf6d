import Recouple.Lib.KeyedFold
import Recouple.Lib.Text

/-!
# CSV at the door: `csv.ts` (37-98)

| here | there |
| --- | --- |
| `CsvState` | `rows`, `row`, `field`, `quoted`, `fieldStarted` |
| `readCsv` | the loop of `parseCsv`, on what is left of the text |
| `parseCsv` | `parseCsv` |

`Written` is the text a writer makes of a table, with its choices: the line end, the fields it quotes, and whether the
last record ends in a line end. `Fields` is a run of fields as RFC 4180 has them, each with what ends it.

* **`parse_csv_inverts_and_refuses`**: what any such writer writes is read back as the table, and a text is refused
  exactly where, after a run of fields, a quoted field is left open or goes on after its closing quote.
-/

namespace Recouple.Ingest
open Js KeyedFold

/-! ## The reader -/

inductive CsvDelimiter
  | comma | tab
deriving DecidableEq

def CsvDelimiter.char : CsvDelimiter → Char
  | .comma => ','
  | .tab => '\t'

structure CsvState where
  rows : List (List Text)
  row : List Text
  field : Text
  quoted : Bool
  fieldStarted : Bool
deriving DecidableEq

/-- Where a field begins. -/
def CsvState.atField (rows : List (List Text)) (row : List Text) : CsvState := ⟨rows, row, [], false, false⟩

/-- `row.push(field)` where the delimiter ends a field. -/
def CsvState.pushField (s : CsvState) : CsvState := ⟨s.rows, s.row ++ [s.field], [], s.quoted, false⟩

/-- `row.push(field); rows.push(row)` where a line end does. -/
def CsvState.pushRow (s : CsvState) : CsvState := ⟨s.rows ++ [s.row ++ [s.field]], [], [], s.quoted, false⟩

def afterClosingQuote : Text := "text after a closing quote".toList

def unterminatedQuote : Text := "unterminated quote".toList

/-- The loop of `parseCsv`. -/
def readCsv (delimiter : Char) : CsvState → Text → Except Text CsvState
  | s, [] => .ok s
  | s, c :: cs =>
    if s.quoted then
      if c = '"' then
        match cs with
        | [] => readCsv delimiter { s with quoted := false } []
        | next :: rest =>
          if next = '"' then readCsv delimiter { s with field := s.field ++ ['"'] } rest
          else if next ≠ delimiter ∧ next ≠ '\n' ∧ next ≠ '\r' then .error afterClosingQuote
          else readCsv delimiter { s with quoted := false } (next :: rest)
      else readCsv delimiter { s with field := s.field ++ [c] } cs
    else if c = '"' ∧ s.fieldStarted = false then
      readCsv delimiter { s with quoted := true, fieldStarted := true } cs
    else if c = delimiter then readCsv delimiter s.pushField cs
    else if c = '\n' ∨ c = '\r' then
      match cs with
      | [] => readCsv delimiter s.pushRow []
      | next :: rest =>
        if c = '\r' ∧ next = '\n' then readCsv delimiter s.pushRow rest
        else readCsv delimiter s.pushRow (next :: rest)
    else readCsv delimiter { s with field := s.field ++ [c], fieldStarted := true } cs

/-- `parseCsv` -/
def parseCsv (text : Text) (delimiter : CsvDelimiter) : Except Text (List (List Text)) := do
  let s ← readCsv delimiter.char (.atField [] []) text
  if s.quoted then throw unterminatedQuote
  if s.fieldStarted ∨ s.field ≠ [] ∨ s.row ≠ [] then return s.rows ++ [s.row ++ [s.field]]
  return s.rows

example : parseCsv "a,\"b \"\"c\"\"\"\r\n,\r".toList .comma =
    .ok [["a".toList, "b \"c\"".toList], [[], []]] := by decide +kernel

/-! ## The writer -/

inductive LineEnd
  | lf | crlf | cr
deriving DecidableEq

def LineEnd.text : LineEnd → Text
  | .lf => ['\n']
  | .crlf => ['\r', '\n']
  | .cr => ['\r']

/-- Every quote twice. -/
def doubled (content : Text) : Text := content.flatMap fun c => if c = '"' then ['"', '"'] else [c]

/-- A field, and whether the writer quotes it. -/
structure CsvField where
  quoted : Bool
  value : Text
deriving DecidableEq

def CsvField.text (field : CsvField) : Text :=
  if field.quoted then '"' :: (doubled field.value ++ ['"']) else field.value

/-- A character a field has to be quoted for. -/
def mustQuote (delimiter : CsvDelimiter) (c : Char) : Prop := c = delimiter.char ∨ c = '"' ∨ c = '\n' ∨ c = '\r'

def recordText (delimiter : CsvDelimiter) (record : List CsvField) : Text :=
  [delimiter.char].intercalate (record.map CsvField.text)

/-- A table with a writer's choices. -/
structure Written where
  delimiter : CsvDelimiter
  lineEnd : LineEnd
  records : List (List CsvField)
  /-- The last record ends in a line end. -/
  ended : Bool

def Written.table (w : Written) : List (List Text) := w.records.map fun record => record.map CsvField.value

def Written.text (w : Written) : Text :=
  if w.ended then w.records.flatMap fun record => recordText w.delimiter record ++ w.lineEnd.text
  else w.lineEnd.text.intercalate (w.records.map (recordText w.delimiter))

/-- What a writer may choose: it quotes each field it has to, and a lone empty field of a last record no line end
closes. -/
structure Written.Proper (w : Written) : Prop where
  record_ne_nil : ∀ record ∈ w.records, record ≠ []
  quotes : ∀ record ∈ w.records, ∀ field ∈ record, field.quoted = false →
    ∀ c ∈ field.value, ¬ mustQuote w.delimiter c
  lone_empty : w.ended = false → w.records.getLast? ≠ some [⟨false, []⟩]

/-! ## The grammar of what is refused -/

/-- A whole field of a text: quoted, or with no separator in it and no quote in front. -/
def IsField (delimiter : CsvDelimiter) (field : CsvField) : Prop :=
  field.quoted = false → (∀ c ∈ field.value, c ≠ delimiter.char ∧ c ≠ '\n' ∧ c ≠ '\r') ∧ field.value.head? ≠ some '"'

/-- What ends a field. -/
inductive Separator
  | field
  | record (lineEnd : LineEnd)

def Separator.text (delimiter : CsvDelimiter) : Separator → Text
  | .field => [delimiter.char]
  | .record lineEnd => lineEnd.text

/-- A run of fields and what ends each of them; a carriage return with a line feed after it is one line end. -/
inductive Fields (delimiter : CsvDelimiter) : Text → Prop
  | nil : Fields delimiter []
  | cons {field : CsvField} {sep : Separator} {rest : Text} (hfield : IsField delimiter field)
      (hcr : sep.text delimiter = ['\r'] → rest.head? ≠ some '\n') (hrest : Fields delimiter rest) :
      Fields delimiter (field.text ++ sep.text delimiter ++ rest)

/-- The quoted field that begins with these characters is left open. -/
def LeftOpen (text : Text) : Prop := ∃ content, text = '"' :: doubled content

/-- The quoted field is followed by something other than what ends a field. -/
def GoesOn (delimiter : CsvDelimiter) (text : Text) : Prop :=
  ∃ content c rest, text = '"' :: (doubled content ++ '"' :: c :: rest) ∧ ¬ mustQuote delimiter c

/-! ## One turn at a time -/

section
variable {delimiter : CsvDelimiter} {s : CsvState} {rest after : Text}

theorem CsvDelimiter.char_ne (delimiter : CsvDelimiter) :
    delimiter.char ≠ '"' ∧ delimiter.char ≠ '\n' ∧ delimiter.char ≠ '\r' := by
  cases delimiter <;> decide

/-- Whether a character ends a field that is not quoted. -/
def EndsField (delimiter : CsvDelimiter) (c : Char) : Prop := c = delimiter.char ∨ c = '\n' ∨ c = '\r'

instance (c : Char) : Decidable (EndsField delimiter c) := inferInstanceAs (Decidable (_ ∨ _ ∨ _))

/-- Nothing is left, or what ends a field is next. -/
def AtEnd (delimiter : CsvDelimiter) (text : Text) : Prop := ∀ c ∈ text.head?, EndsField delimiter c

theorem readCsv_nil (delimiter : Char) (s : CsvState) : readCsv delimiter s [] = .ok s := by
  rw [readCsv]

/-- One turn of the loop. -/
theorem readCsv_cons (delimiter : Char) (s : CsvState) (c : Char) (cs : Text) : readCsv delimiter s (c :: cs) =
    if s.quoted then
      if c = '"' then
        match cs with
        | [] => readCsv delimiter { s with quoted := false } []
        | next :: rest =>
          if next = '"' then readCsv delimiter { s with field := s.field ++ ['"'] } rest
          else if next ≠ delimiter ∧ next ≠ '\n' ∧ next ≠ '\r' then .error afterClosingQuote
          else readCsv delimiter { s with quoted := false } (next :: rest)
      else readCsv delimiter { s with field := s.field ++ [c] } cs
    else if c = '"' ∧ s.fieldStarted = false then
      readCsv delimiter { s with quoted := true, fieldStarted := true } cs
    else if c = delimiter then readCsv delimiter s.pushField cs
    else if c = '\n' ∨ c = '\r' then
      match cs with
      | [] => readCsv delimiter s.pushRow []
      | next :: rest =>
        if c = '\r' ∧ next = '\n' then readCsv delimiter s.pushRow rest
        else readCsv delimiter s.pushRow (next :: rest)
    else readCsv delimiter { s with field := s.field ++ [c], fieldStarted := true } cs := by
  rw [readCsv.eq_def]
  cases cs <;> rfl

/-- A quoted field takes its characters, a doubled quote as one. -/
theorem readCsv_doubled (content : Text) (h : s.quoted = true) : readCsv delimiter.char s (doubled content ++ after) =
    readCsv delimiter.char { s with field := s.field ++ content } after := by
  induction content generalizing s with
  | nil => simp [doubled]
  | cons c content ih =>
    by_cases hc : c = '"'
    · subst hc
      have htext : doubled ('"' :: content) ++ after = '"' :: '"' :: (doubled content ++ after) := by simp [doubled]
      rw [htext, readCsv_cons, if_pos h, if_pos rfl]
      dsimp only
      rw [if_pos rfl, ih (s := { s with field := s.field ++ ['"'] }) h]
      simp
    · have htext : doubled (c :: content) ++ after = c :: (doubled content ++ after) := by simp [doubled, hc]
      rw [htext, readCsv_cons, if_pos h, if_neg hc, ih (s := { s with field := s.field ++ [c] }) h]
      simp

/-- A closing quote with the field's end after it. -/
theorem readCsv_closing (h : s.quoted = true) (hafter : AtEnd delimiter after) :
    readCsv delimiter.char s ('"' :: after) = readCsv delimiter.char { s with quoted := false } after := by
  rw [readCsv_cons, if_pos h, if_pos rfl]
  cases after with
  | nil => rfl
  | cons next rest =>
    have hnext : EndsField delimiter next := hafter next rfl
    have hquote : next ≠ '"' := by
      rintro rfl
      rcases hnext with h | h | h
      · exact delimiter.char_ne.1 h.symm
      · exact absurd h (by decide)
      · exact absurd h (by decide)
    dsimp only
    rw [if_neg hquote, if_neg]
    rintro ⟨h1, h2, h3⟩
    rcases hnext with h | h | h
    · exact h1 h
    · exact h2 h
    · exact h3 h

/-- Characters of a field that is not quoted. -/
theorem readCsv_plain {value : Text} (h : s.quoted = false)
    (hvalue : ∀ c ∈ value, c ≠ delimiter.char ∧ c ≠ '\n' ∧ c ≠ '\r')
    (hstart : s.fieldStarted = false → value.head? ≠ some '"') :
    readCsv delimiter.char s (value ++ after) = readCsv delimiter.char
      { s with field := s.field ++ value, fieldStarted := s.fieldStarted || !value.isEmpty } after := by
  induction value generalizing s with
  | nil => simp
  | cons c value ih =>
    obtain ⟨hd, hlf, hcr⟩ := hvalue c (by simp)
    have hquote : ¬ (c = '"' ∧ s.fieldStarted = false) := by
      rintro ⟨rfl, hnot⟩
      exact hstart hnot rfl
    have hend : ¬ (c = '\n' ∨ c = '\r') := not_or.2 ⟨hlf, hcr⟩
    rw [List.cons_append, readCsv_cons, if_neg (by simp [h]), if_neg hquote, if_neg hd, if_neg hend,
      ih (s := { s with field := s.field ++ [c], fieldStarted := true }) h (fun d hd => hvalue d (by simp [hd]))
        (by simp)]
    simp

/-- The state past a separator. -/
def CsvState.past (s : CsvState) : Separator → CsvState
  | .field => s.pushField
  | .record _ => s.pushRow

theorem readCsv_separator {sep : Separator} (h : s.quoted = false)
    (hcr : sep.text delimiter = ['\r'] → rest.head? ≠ some '\n') :
    readCsv delimiter.char s (sep.text delimiter ++ rest) = readCsv delimiter.char (s.past sep) rest := by
  obtain ⟨hquote, hlf, hret⟩ := delimiter.char_ne
  cases sep with
  | field =>
    show readCsv delimiter.char s (delimiter.char :: rest) = _
    rw [readCsv_cons, if_neg (by simp [h]), if_neg (fun h => hquote h.1), if_pos rfl]
    rfl
  | record lineEnd =>
    cases lineEnd with
    | lf =>
      show readCsv delimiter.char s ('\n' :: rest) = _
      rw [readCsv_cons, if_neg (by simp [h]), if_neg (by simp), if_neg hlf.symm, if_pos (.inl rfl)]
      cases rest with
      | nil => rfl
      | cons next rest => exact if_neg (by simp)
    | crlf =>
      show readCsv delimiter.char s ('\r' :: '\n' :: rest) = _
      rw [readCsv_cons, if_neg (by simp [h]), if_neg (by simp), if_neg hret.symm, if_pos (.inr rfl)]
      exact if_pos ⟨rfl, rfl⟩
    | cr =>
      show readCsv delimiter.char s ('\r' :: rest) = _
      rw [readCsv_cons, if_neg (by simp [h]), if_neg (by simp), if_neg hret.symm, if_pos (.inr rfl)]
      cases rest with
      | nil => rfl
      | cons next rest => exact if_neg fun hnext => hcr rfl (by rw [hnext.2]; rfl)

/-- Where the reader stands once it has read a field. -/
def CsvState.read (rows : List (List Text)) (row : List Text) (field : CsvField) : CsvState :=
  ⟨rows, row, field.value, false, field.quoted || !field.value.isEmpty⟩

theorem readCsv_field {field : CsvField} (hfield : IsField delimiter field) (hafter : AtEnd delimiter after)
    (rows : List (List Text)) (row : List Text) :
    readCsv delimiter.char (.atField rows row) (field.text ++ after) =
      readCsv delimiter.char (.read rows row field) after := by
  obtain ⟨quoted, value⟩ := field
  cases quoted with
  | true =>
    show readCsv delimiter.char _ ('"' :: ((doubled value ++ ['"']) ++ after)) = _
    rw [readCsv_cons, if_neg (by simp [CsvState.atField]), if_pos ⟨rfl, rfl⟩, List.append_assoc,
      readCsv_doubled value rfl, List.singleton_append, readCsv_closing rfl hafter]
    rfl
  | false =>
    obtain ⟨hvalue, hhead⟩ := hfield rfl
    show readCsv delimiter.char _ (value ++ after) = _
    rw [readCsv_plain rfl hvalue fun _ => hhead]
    rfl

end

/-! ## What a writer writes is read back -/

/-- The rows with the record the text ends in, where one was begun. -/
def CsvState.finish (s : CsvState) : List (List Text) :=
  if s.fieldStarted ∨ s.field ≠ [] ∨ s.row ≠ [] then s.rows ++ [s.row ++ [s.field]] else s.rows

theorem parseCsv_of_read {text : Text} {delimiter : CsvDelimiter} {s : CsvState}
    (hread : readCsv delimiter.char (.atField [] []) text = .ok s) (hquoted : s.quoted = false) :
    parseCsv text delimiter = .ok s.finish := by
  unfold parseCsv CsvState.finish
  rw [hread]
  show (do
    if s.quoted then throw unterminatedQuote
    if s.fieldStarted ∨ s.field ≠ [] ∨ s.row ≠ [] then return s.rows ++ [s.row ++ [s.field]]
    return s.rows : Except Text (List (List Text))) = _
  rw [hquoted]
  split <;> rfl

section
variable {delimiter : CsvDelimiter} {after : Text}

theorem recordText_cons_cons (f g : CsvField) (record : List CsvField) : recordText delimiter (f :: g :: record) =
    f.text ++ (delimiter.char :: recordText delimiter (g :: record)) := by
  simp [recordText, List.intercalate_cons_cons]

theorem recordText_singleton (f : CsvField) : recordText delimiter [f] = f.text := by
  simp [recordText]

/-- A record is read up to its last field, which what comes next ends. -/
theorem readCsv_record {record : List CsvField} (hne : record ≠ []) (hfields : ∀ f ∈ record, IsField delimiter f)
    (hafter : AtEnd delimiter after) (rows : List (List Text)) (row : List Text) :
    ∃ s, readCsv delimiter.char (.atField rows row) (recordText delimiter record ++ after) =
        readCsv delimiter.char s after ∧
      s.quoted = false ∧ s.rows = rows ∧ s.row ++ [s.field] = row ++ record.map CsvField.value ∧
      ((s.fieldStarted = false ∧ s.field = [] ∧ s.row = []) ↔ (row = [] ∧ record = [⟨false, []⟩])) := by
  induction record generalizing row with
  | nil => exact absurd rfl hne
  | cons f record ih =>
    cases record with
    | nil =>
      refine ⟨.read rows row f, ?_, rfl, rfl, rfl, ?_⟩
      · rw [recordText_singleton, readCsv_field (hfields f (by simp)) hafter]
      · obtain ⟨quoted, value⟩ := f
        simp only [CsvState.read, Bool.or_eq_false_iff, Bool.not_eq_false', List.isEmpty_iff, List.cons.injEq,
          CsvField.mk.injEq, and_true]
        tauto
    | cons g record =>
      obtain ⟨s, hread, hquoted, hrows, hrow, -⟩ :=
        ih (List.cons_ne_nil _ _) (fun h hh => hfields h (by simp [hh])) (row ++ [f.value])
      have hstep : readCsv delimiter.char (.atField rows row) (recordText delimiter (f :: g :: record) ++ after) =
          readCsv delimiter.char (.atField rows (row ++ [f.value])) (recordText delimiter (g :: record) ++ after) := by
        have hend : AtEnd delimiter (delimiter.char :: (recordText delimiter (g :: record) ++ after)) := by
          rintro c ⟨⟩
          exact .inl rfl
        rw [recordText_cons_cons, List.append_assoc, List.cons_append, readCsv_field (hfields f (by simp)) hend]
        exact @readCsv_separator _ _ _ .field rfl fun h => by
          simp [Separator.text, delimiter.char_ne.2.2] at h
      refine ⟨s, hstep.trans hread, hquoted, hrows, by simpa using hrow, ?_⟩
      have hlong : s.row ≠ [] := by
        intro hnil
        have hlength := congrArg List.length hrow
        simp [hnil] at hlength
        omega
      simp [hlong]

theorem atEnd_lineEnd (lineEnd : LineEnd) (rest : Text) : AtEnd delimiter (lineEnd.text ++ rest) := by
  cases lineEnd
  all_goals
    rintro c ⟨⟩
    simp [EndsField]

/-- A record begins with a line feed only where what comes after it does. -/
theorem head_recordText {record : List CsvField} (hfields : ∀ f ∈ record, IsField delimiter f)
    (h : (recordText delimiter record ++ after).head? = some '\n') : after.head? = some '\n' := by
  have hfield : ∀ {f : CsvField} {rest : Text}, IsField delimiter f → (f.text ++ rest).head? = some '\n' →
      rest.head? = some '\n' := by
    rintro ⟨quoted, value⟩ rest hf hhead
    cases quoted with
    | true => simp [CsvField.text] at hhead
    | false =>
      cases value with
      | nil => exact hhead
      | cons c value => exact absurd (Option.some.inj hhead) ((hf rfl).1 c (by simp)).2.1
  rcases record with - | ⟨f, - | ⟨g, record⟩⟩
  · exact h
  · rw [recordText_singleton] at h
    exact hfield (hfields f (by simp)) h
  · rw [recordText_cons_cons, List.append_assoc] at h
    exact absurd (Option.some.inj (hfield (hfields f (by simp)) h)) delimiter.char_ne.2.1

/-- A record with its line end adds one row, whatever record comes next. -/
theorem readCsv_recordLine {record : List CsvField} (hne : record ≠ [])
    (hfields : ∀ f ∈ record, IsField delimiter f) {lineEnd : LineEnd} {rest : Text}
    (hrest : lineEnd = .cr → rest.head? ≠ some '\n') (rows : List (List Text)) :
    readCsv delimiter.char (.atField rows []) (recordText delimiter record ++ (lineEnd.text ++ rest)) =
      readCsv delimiter.char (.atField (rows ++ [record.map CsvField.value]) []) rest := by
  obtain ⟨s, hread, hquoted, hrows, hrow, -⟩ := readCsv_record hne hfields (atEnd_lineEnd lineEnd rest) rows []
  have hcr : (Separator.record lineEnd).text delimiter = ['\r'] → rest.head? ≠ some '\n' := by
    intro htext
    refine hrest ?_
    cases lineEnd with
    | cr => rfl
    | lf => simp [Separator.text, LineEnd.text] at htext
    | crlf => simp [Separator.text, LineEnd.text] at htext
  have hpast : s.past (.record lineEnd) = .atField (rows ++ [record.map CsvField.value]) [] := by
    rw [List.nil_append] at hrow
    simp only [CsvState.past, CsvState.pushRow, CsvState.atField, hquoted, hrows, hrow]
  rw [hread, ← hpast]
  exact readCsv_separator hquoted hcr

end

section
variable {w : Written}

theorem Written.Proper.isField (h : w.Proper) : ∀ record ∈ w.records, ∀ f ∈ record, IsField w.delimiter f := by
  intro record hrecord f hf hquoted
  have hplain := h.quotes record hrecord f hf hquoted
  refine ⟨fun c hc => ?_, fun hhead => ?_⟩
  · have hnot := hplain c hc
    simp only [mustQuote, not_or] at hnot
    exact ⟨hnot.1, hnot.2.2⟩
  · exact hplain '"' (List.mem_of_mem_head? hhead) (.inr (.inl rfl))

theorem readCsv_ended {delimiter : CsvDelimiter} {lineEnd : LineEnd} {records : List (List CsvField)}
    (hne : ∀ record ∈ records, record ≠ []) (hfields : ∀ record ∈ records, ∀ f ∈ record, IsField delimiter f)
    (rows : List (List Text)) :
    readCsv delimiter.char (.atField rows []) (records.flatMap fun r => recordText delimiter r ++ lineEnd.text) =
      .ok (.atField (rows ++ records.map fun r => r.map CsvField.value) []) := by
  induction records generalizing rows with
  | nil => simp [readCsv_nil]
  | cons record records ih =>
    have hrest : lineEnd = .cr →
        (records.flatMap fun r => recordText delimiter r ++ lineEnd.text).head? ≠ some '\n' := by
      rintro rfl hhead
      cases records with
      | nil => cases hhead
      | cons next records =>
        rw [List.flatMap_cons, List.append_assoc] at hhead
        have hafter := head_recordText (hfields next (by simp)) hhead
        cases hafter
    rw [List.flatMap_cons, List.append_assoc, readCsv_recordLine (hne record (by simp)) (hfields record (by simp)) hrest,
      ih (fun r hr => hne r (by simp [hr])) (fun r hr => hfields r (by simp [hr]))]
    simp

theorem readCsv_open {delimiter : CsvDelimiter} {lineEnd : LineEnd} {records : List (List CsvField)}
    (hne : ∀ record ∈ records, record ≠ []) (hfields : ∀ record ∈ records, ∀ f ∈ record, IsField delimiter f)
    (hlone : records.getLast? ≠ some [⟨false, []⟩]) (rows : List (List Text)) :
    ∃ s, readCsv delimiter.char (.atField rows []) (lineEnd.text.intercalate (records.map (recordText delimiter))) =
        .ok s ∧ s.quoted = false ∧ s.finish = rows ++ records.map fun r => r.map CsvField.value := by
  induction records generalizing rows with
  | nil => exact ⟨.atField rows [], readCsv_nil _ _, rfl, by simp [CsvState.finish, CsvState.atField]⟩
  | cons record records ih =>
    cases records with
    | nil =>
      obtain ⟨s, hread, hquoted, hrows, hrow, hfresh⟩ := @readCsv_record delimiter [] record
        (hne record (by simp)) (hfields record (by simp)) (by rintro c ⟨⟩) rows []
      refine ⟨s, ?_, hquoted, ?_⟩
      · rw [List.map_singleton, List.intercalate_singleton, ← List.append_nil (recordText delimiter record), hread,
          readCsv_nil]
      · have hbegun : s.fieldStarted = true ∨ s.field ≠ [] ∨ s.row ≠ [] := by
          by_contra hnot
          simp only [not_or, not_not, Bool.not_eq_true] at hnot
          obtain ⟨-, rfl⟩ := hfresh.1 hnot
          exact hlone rfl
        rw [CsvState.finish, if_pos hbegun, hrows, hrow]
        simp
    | cons next records =>
      have hrest : lineEnd = .cr →
          (lineEnd.text.intercalate ((next :: records).map (recordText delimiter))).head? ≠ some '\n' := by
        rintro rfl hhead
        cases records with
        | nil =>
          rw [List.map_singleton, List.intercalate_singleton, ← List.append_nil (recordText delimiter next)] at hhead
          cases head_recordText (hfields next (by simp)) hhead
        | cons third records =>
          rw [List.map_cons, List.map_cons, List.intercalate_cons_cons, List.append_assoc] at hhead
          cases head_recordText (hfields next (by simp)) hhead
      obtain ⟨s, hread, hquoted, hfinish⟩ := ih (fun r hr => hne r (by simp [hr])) (fun r hr => hfields r (by simp [hr]))
        (by simpa using hlone) (rows ++ [record.map CsvField.value])
      refine ⟨s, ?_, hquoted, by rw [hfinish]; simp⟩
      have htext : lineEnd.text.intercalate ((record :: next :: records).map (recordText delimiter)) =
          recordText delimiter record ++
            (lineEnd.text ++ lineEnd.text.intercalate ((next :: records).map (recordText delimiter))) := by
        rw [List.map_cons, List.map_cons, List.intercalate_cons_cons, List.append_assoc]
      rw [htext, readCsv_recordLine (hne record (by simp)) (hfields record (by simp)) hrest]
      exact hread

/-- Whatever the writer chose, its text is read back as its table. -/
theorem parseCsv_written (h : w.Proper) : parseCsv w.text w.delimiter = .ok w.table := by
  unfold Written.text Written.table
  split
  case isTrue =>
    rw [parseCsv_of_read (readCsv_ended h.record_ne_nil h.isField []) rfl]
    simp [CsvState.finish, CsvState.atField]
  case isFalse hopen =>
    obtain ⟨s, hread, hquoted, hfinish⟩ :=
      @readCsv_open _ w.lineEnd _ h.record_ne_nil h.isField (h.lone_empty (by simpa using hopen)) []
    rw [parseCsv_of_read hread hquoted, hfinish, List.nil_append]

end

/-! ## What is refused -/

section
variable {delimiter : CsvDelimiter} {text : Text}

/-- From a quoted field's content on, a text closes the field, leaves it open, or goes on after it. -/
theorem content_cases (text : Text) : ∃ content after, text = doubled content ++ after ∧
    (after = [] ∨ after = ['"'] ∨ ∃ c rest, after = '"' :: c :: rest ∧ c ≠ '"') := by
  induction h : text.length using Nat.strong_induction_on generalizing text with
  | h n ih =>
    subst h
    rcases text with - | ⟨c, cs⟩
    · exact ⟨[], [], rfl, .inl rfl⟩
    by_cases hc : c = '"'
    · subst hc
      rcases cs with - | ⟨next, rest⟩
      · exact ⟨[], ['"'], rfl, .inr (.inl rfl)⟩
      by_cases hnext : next = '"'
      · subst hnext
        obtain ⟨content, after, hsplit, hafter⟩ := ih rest.length (by simp) rest rfl
        exact ⟨'"' :: content, after, by rw [hsplit]; simp [doubled], hafter⟩
      · exact ⟨[], '"' :: next :: rest, rfl, .inr (.inr ⟨next, rest, rfl, hnext⟩)⟩
    · obtain ⟨content, after, hsplit, hafter⟩ := ih cs.length (by simp) cs rfl
      exact ⟨c :: content, after, by rw [hsplit]; simp [doubled, hc], hafter⟩

/-- What ends a field begins with a separator. -/
theorem separator_cases {c : Char} (hc : EndsField delimiter c) (rest : Text) :
    ∃ sep after, c :: rest = Separator.text delimiter sep ++ after ∧
      (Separator.text delimiter sep = ['\r'] → after.head? ≠ some '\n') := by
  rcases hc with rfl | rfl | rfl
  · exact ⟨.field, rest, rfl, fun h => by simp [Separator.text, delimiter.char_ne.2.2] at h⟩
  · exact ⟨.record .lf, rest, rfl, fun h => by simp [Separator.text, LineEnd.text] at h⟩
  · by_cases hlf : rest.head? = some '\n'
    · obtain ⟨after, rfl⟩ : ∃ after, rest = '\n' :: after := by
        cases rest with
        | nil => cases hlf
        | cons d after => exact ⟨after, by rw [Option.some.inj hlf]⟩
      exact ⟨.record .crlf, after, rfl, fun h => by simp [Separator.text, LineEnd.text] at h⟩
    · exact ⟨.record .cr, rest, rfl, fun _ => hlf⟩

/-- A text is one field, a field and what ends it before a shorter text, or a quoted field that is refused. -/
theorem field_cases (delimiter : CsvDelimiter) (text : Text) :
    (∃ field, IsField delimiter field ∧ text = field.text) ∨
    (∃ field sep rest, IsField delimiter field ∧
      (Separator.text delimiter sep = ['\r'] → rest.head? ≠ some '\n') ∧
      text = field.text ++ sep.text delimiter ++ rest) ∨
    LeftOpen text ∨ GoesOn delimiter text := by
  by_cases hquote : text.head? = some '"'
  · obtain ⟨cs, rfl⟩ : ∃ cs, text = '"' :: cs := by
      cases text with
      | nil => cases hquote
      | cons c cs => exact ⟨cs, by rw [Option.some.inj hquote]⟩
    obtain ⟨content, after, rfl, rfl | rfl | ⟨c, rest, rfl, hc⟩⟩ := content_cases cs
    · exact .inr (.inr (.inl ⟨content, by rw [List.append_nil]⟩))
    · exact .inl ⟨⟨true, content⟩, fun h => absurd h (by simp), rfl⟩
    · by_cases hend : EndsField delimiter c
      · obtain ⟨sep, after, hsplit, hcr⟩ := separator_cases hend rest
        refine .inr (.inl ⟨⟨true, content⟩, sep, after, fun h => absurd h (by simp), hcr, ?_⟩)
        rw [hsplit]
        simp [CsvField.text]
      · refine .inr (.inr (.inr ⟨content, c, rest, rfl, ?_⟩))
        rintro (h | h | h)
        · exact hend (.inl h)
        · exact hc h
        · exact hend (.inr h)
  · have hfield : IsField delimiter ⟨false, text.takeWhile fun c => !decide (EndsField delimiter c)⟩ := by
      intro _
      refine ⟨fun c hc => ?_, fun hhead => hquote ?_⟩
      · have hnot : ¬ EndsField delimiter c := by simpa using List.mem_takeWhile_imp hc
        simpa only [EndsField, not_or] using hnot
      · cases text with
        | nil => cases hhead
        | cons c cs =>
          rw [List.takeWhile_cons] at hhead
          split at hhead
          · exact hhead
          · cases hhead
    have hsplit : text = (text.takeWhile fun c => !decide (EndsField delimiter c)) ++
        text.dropWhile fun c => !decide (EndsField delimiter c) := (List.takeWhile_append_dropWhile).symm
    rcases hrest : text.dropWhile fun c => !decide (EndsField delimiter c) with - | ⟨c, rest⟩
    · rw [hrest, List.append_nil] at hsplit
      exact .inl ⟨_, hfield, hsplit⟩
    · have hc : EndsField delimiter c := by
        have hhead := List.head?_dropWhile_not (fun c => !decide (EndsField delimiter c)) text
        rw [hrest] at hhead
        simpa using hhead
      obtain ⟨sep, after, hsep, hcr⟩ := separator_cases hc rest
      refine .inr (.inl ⟨_, sep, after, hfield, hcr, ?_⟩)
      rw [hrest, hsep, ← List.append_assoc] at hsplit
      exact hsplit

/-- The loop refuses the text, or ends within a quoted field. -/
def Refuses (delimiter : CsvDelimiter) (s : CsvState) (text : Text) : Prop :=
  (∃ e, readCsv delimiter.char s text = .error e) ∨ ∃ t, readCsv delimiter.char s text = .ok t ∧ t.quoted = true

theorem parseCsv_refuses : (∃ e, parseCsv text delimiter = .error e) ↔ Refuses delimiter (.atField [] []) text := by
  unfold Refuses
  cases hread : readCsv delimiter.char (.atField [] []) text with
  | error e =>
    have hparse : parseCsv text delimiter = .error e := by
      unfold parseCsv
      rw [hread]
      rfl
    exact ⟨fun _ => .inl ⟨e, rfl⟩, fun _ => ⟨e, hparse⟩⟩
  | ok s =>
    cases hquoted : s.quoted with
    | true =>
      have hparse : parseCsv text delimiter = .error unterminatedQuote := by
        unfold parseCsv
        rw [hread]
        show (do
          if s.quoted then throw unterminatedQuote
          if s.fieldStarted ∨ s.field ≠ [] ∨ s.row ≠ [] then return s.rows ++ [s.row ++ [s.field]]
          return s.rows : Except Text (List (List Text))) = _
        rw [hquoted]
        rfl
      exact ⟨fun _ => .inr ⟨s, rfl, hquoted⟩, fun _ => ⟨_, hparse⟩⟩
    | false =>
      rw [parseCsv_of_read hread hquoted]
      constructor
      · rintro ⟨e, h⟩
        cases h
      · rintro (⟨e, h⟩ | ⟨t, h, ht⟩)
        · cases h
        · rw [← Except.ok.inj h, hquoted] at ht
          cases ht

theorem refuses_leftOpen (h : LeftOpen text) (rows : List (List Text)) (row : List Text) :
    Refuses delimiter (.atField rows row) text := by
  obtain ⟨content, rfl⟩ := h
  refine .inr ⟨⟨rows, row, content, true, true⟩, ?_, rfl⟩
  rw [readCsv_cons, if_neg (by simp [CsvState.atField]), if_pos ⟨rfl, rfl⟩, ← List.append_nil (doubled content),
    readCsv_doubled content rfl, readCsv_nil]
  rfl

theorem refuses_goesOn (h : GoesOn delimiter text) (rows : List (List Text)) (row : List Text) :
    Refuses delimiter (.atField rows row) text := by
  obtain ⟨content, c, rest, rfl, hc⟩ := h
  simp only [mustQuote, not_or] at hc
  refine .inl ⟨afterClosingQuote, ?_⟩
  rw [readCsv_cons, if_neg (by simp [CsvState.atField]), if_pos ⟨rfl, rfl⟩, readCsv_doubled content rfl, readCsv_cons,
    if_pos rfl, if_pos rfl]
  dsimp only
  rw [if_neg hc.2.1, if_pos ⟨hc.1, hc.2.2.1, hc.2.2.2⟩]

theorem not_refuses_field {field : CsvField} (hfield : IsField delimiter field) (rows : List (List Text))
    (row : List Text) : ¬ Refuses delimiter (.atField rows row) field.text := by
  have hread : readCsv delimiter.char (.atField rows row) field.text = .ok (.read rows row field) := by
    have h := @readCsv_field delimiter [] field hfield (by rintro c ⟨⟩) rows row
    rwa [List.append_nil, readCsv_nil] at h
  rintro (⟨e, h⟩ | ⟨t, h, ht⟩)
  · rw [hread] at h
    cases h
  · rw [hread] at h
    rw [← Except.ok.inj h] at ht
    cases ht

theorem refuses_past {field : CsvField} {sep : Separator} {rest : Text} (hfield : IsField delimiter field)
    (hcr : sep.text delimiter = ['\r'] → rest.head? ≠ some '\n') (rows : List (List Text)) (row : List Text) :
    ∃ rows' row', Refuses delimiter (.atField rows row) (field.text ++ sep.text delimiter ++ rest) ↔
      Refuses delimiter (.atField rows' row') rest := by
  have hend : AtEnd delimiter (sep.text delimiter ++ rest) := by
    cases sep with
    | field =>
      rintro c ⟨⟩
      exact .inl rfl
    | record lineEnd => exact atEnd_lineEnd lineEnd rest
  have hread := readCsv_field hfield hend rows row
  rw [← List.append_assoc, readCsv_separator (s := .read rows row field) rfl hcr] at hread
  cases sep with
  | field => exact ⟨rows, row ++ [field.value], by rw [Refuses, hread]; rfl⟩
  | record lineEnd => exact ⟨rows ++ [row ++ [field.value]], [], by rw [Refuses, hread]; rfl⟩

/-- A run of fields, then a quoted field that is left open or goes on. -/
def Malformed (delimiter : CsvDelimiter) (text : Text) : Prop :=
  ∃ before after, text = before ++ after ∧ Fields delimiter before ∧ (LeftOpen after ∨ GoesOn delimiter after)

theorem malformed_of_refuses {rows : List (List Text)} {row : List Text}
    (h : Refuses delimiter (.atField rows row) text) : Malformed delimiter text := by
  induction hn : text.length using Nat.strong_induction_on generalizing text rows row with
  | h n ih =>
    subst hn
    rcases field_cases delimiter text with ⟨field, hfield, rfl⟩ | ⟨field, sep, rest, hfield, hcr, rfl⟩ | hbad | hbad
    · exact absurd h (not_refuses_field hfield rows row)
    · obtain ⟨rows', row', hpast⟩ := refuses_past hfield hcr rows row
      have hshorter : rest.length < (field.text ++ sep.text delimiter ++ rest).length := by
        have hsep : 0 < (sep.text delimiter).length := by
          cases sep with
          | field => exact Nat.one_pos
          | record lineEnd => cases lineEnd <;> simp [Separator.text, LineEnd.text]
        rw [List.length_append, List.length_append]
        omega
      obtain ⟨before, after, rfl, hbefore, hbad⟩ := ih rest.length hshorter (hpast.1 h) rfl
      refine ⟨field.text ++ sep.text delimiter ++ before, after, by simp, .cons hfield (fun hsep => ?_) hbefore, hbad⟩
      intro hhead
      refine hcr hsep ?_
      cases before with
      | nil => cases hhead
      | cons c before => exact hhead
    · exact ⟨[], text, rfl, .nil, .inl hbad⟩
    · exact ⟨[], text, rfl, .nil, .inr hbad⟩

theorem refuses_of_malformed {before after : Text} (hbefore : Fields delimiter before)
    (hbad : LeftOpen after ∨ GoesOn delimiter after) (rows : List (List Text)) (row : List Text) :
    Refuses delimiter (.atField rows row) (before ++ after) := by
  induction hbefore generalizing rows row with
  | nil => exact hbad.elim (fun h => refuses_leftOpen h rows row) fun h => refuses_goesOn h rows row
  | @cons field sep rest hfield hcr _ ih =>
    have hnext : sep.text delimiter = ['\r'] → (rest ++ after).head? ≠ some '\n' := by
      intro hsep hhead
      cases rest with
      | nil =>
        rcases hbad with ⟨content, rfl⟩ | ⟨content, c, rest, rfl, -⟩
        · simp at hhead
        · simp at hhead
      | cons c rest => exact hcr hsep hhead
    obtain ⟨rows', row', hpast⟩ := refuses_past hfield hnext rows row
    rw [List.append_assoc, hpast]
    exact ih rows' row'

end

/-- **The reader inverts every RFC 4180 writer**, whatever it quotes and whichever line end it writes; and it refuses a
text exactly where a quoted field is left open or goes on after its closing quote. -/
theorem parse_csv_inverts_and_refuses :
    (∀ w : Written, w.Proper → parseCsv w.text w.delimiter = .ok w.table) ∧
    ∀ (delimiter : CsvDelimiter) (text : Text),
      (∃ e, parseCsv text delimiter = .error e) ↔ Malformed delimiter text := by
  refine ⟨fun w => parseCsv_written, fun delimiter text => ?_⟩
  rw [parseCsv_refuses]
  constructor
  · exact malformed_of_refuses
  · rintro ⟨before, after, rfl, hbefore, hbad⟩
    exact refuses_of_malformed hbefore hbad [] []

/-- Two records, the second with nothing in it but a quoted and a bare empty field. -/
def quotedTable : Written where
  delimiter := .comma
  lineEnd := .crlf
  records := [[⟨false, ['a']⟩, ⟨true, "b, \"c\"\nd".toList⟩], [⟨true, []⟩, ⟨false, []⟩]]
  ended := false

/-- It is read back; and of its text cut within the quoted field nothing is. -/
theorem quotedTable_read_back :
    parseCsv quotedTable.text .comma = .ok quotedTable.table ∧ Malformed .comma (quotedTable.text.take 5) := by
  have hbare : ∀ record ∈ quotedTable.records, ∀ field ∈ record, field.quoted = false →
      field.value = ['a'] ∨ field.value = [] := by decide
  refine ⟨parse_csv_inverts_and_refuses.1 quotedTable ⟨by decide, fun record hrecord field hfield hquoted => ?_, by decide⟩,
    (parse_csv_inverts_and_refuses.2 .comma _).1 ⟨unterminatedQuote, by decide +kernel⟩⟩
  intro c hc
  rcases hbare record hrecord field hfield hquoted with h | h
  · rw [h, List.mem_singleton] at hc
    subst hc
    exact show ¬ ('a' = ',' ∨ 'a' = '"' ∨ 'a' = '\n' ∨ 'a' = '\r') from by decide
  · rw [h] at hc
    cases hc

end Recouple.Ingest
