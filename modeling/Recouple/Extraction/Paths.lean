import Recouple.Lib.FirstSeen
import Recouple.Lib.Number

/-!
# Field paths: `packages/extraction/src/paths.ts`

A document type's fields have paths: `payer_name` for a field outside every repeating group,
`lines[].net_amount` for one inside the group `lines`. A reply names a field of a row by its number,
`lines[3].net_amount`; `templatePath` (113-115) forgets the number and `rowIndexOf` (118-121) reads it.

`path_of_row` is what the two say together: a path that has a group and a number is the group, the
number in brackets and the field's name, and nothing else.
-/

namespace Recouple.Extraction
open Js FirstSeen

/-- A property name of a schema: an identifier, so no brackets. -/
structure Key where
  text : Text
  plain : ∀ c ∈ text, c ≠ '[' ∧ c ≠ ']'
deriving DecidableEq

/-- One property of a document type's schema: a field, or an array of objects of fields. -/
inductive SchemaProperty
  | field (key : Key)
  | rows (key : Key) (fields : List Key)
deriving DecidableEq

structure FieldDescriptor where
  path : Text
  group : Option Text
deriving DecidableEq

/-- `describeFields`, as far as paths and groups. -/
def describeFields (schema : List SchemaProperty) : List FieldDescriptor :=
  schema.flatMap fun property =>
    match property with
    | .field key => [⟨key.text, none⟩]
    | .rows key fields => fields.map fun sub => ⟨key.text ++ '[' :: ']' :: '.' :: sub.text, some key.text⟩

/-- The digits of `[\d+]`, where a text starts with that. -/
def bracketed : Text → Option Text
  | [] => none
  | c :: cs =>
    let digits := cs.takeWhile Char.isDigit
    if c = '[' ∧ digits ≠ [] ∧ (cs.dropWhile Char.isDigit).head? = some ']' then some digits else none

/-- The rest of `templatePath` where this many characters are still part of a match. -/
def templateFrom : Nat → Text → Text
  | _, [] => []
  | k + 1, _ :: cs => templateFrom k cs
  | 0, c :: cs =>
    match bracketed (c :: cs) with
    | some digits => '[' :: ']' :: templateFrom (digits.length + 1) cs
    | none => c :: templateFrom 0 cs

/-- `path.replace(/\[\d+\]/g, '[]')`. -/
def templatePath (path : Text) : Text := templateFrom 0 path

/-- The digits of the first `[\d+]`. -/
def rowDigits : Text → Option Text
  | [] => none
  | c :: cs => (bracketed (c :: cs)).or (rowDigits cs)

/-- `rowIndexOf`: `Number` of the digits. -/
def rowIndexOf (path : Text) : Option (WithTop Nat) :=
  (rowDigits path).map fun digits => numberOf (Nat.ofDigitChars 10 digits 0)

example : templatePath "lines[12].net_amount" = "lines[].net_amount".toList ∧
    rowIndexOf "lines[12].net_amount" = some ((12 : Nat) : WithTop Nat) := by decide

/-! ## Paths of rows -/

/-- The text holds no bracket. -/
def Plain (t : Text) : Prop := ∀ c ∈ t, c ≠ '[' ∧ c ≠ ']'

instance : DecidablePred Plain := fun t => List.decidableBAll _ t

theorem takeWhile_digits {digits rest : Text} (h : ∀ c ∈ digits, c.isDigit = true) :
    (digits ++ ']' :: rest).takeWhile Char.isDigit = digits ∧
      (digits ++ ']' :: rest).dropWhile Char.isDigit = ']' :: rest := by
  have hclose : Char.isDigit ']' = false := by decide
  rw [List.takeWhile_append_of_pos h, List.dropWhile_append_of_pos h, List.takeWhile_cons_of_neg (by simp [hclose]),
    List.dropWhile_cons_of_neg (by simp [hclose]), List.append_nil]
  exact ⟨rfl, rfl⟩

theorem bracketed_eq_some {t digits : Text} :
    bracketed t = some digits ↔ ∃ rest, t = '[' :: (digits ++ ']' :: rest) ∧ digits ≠ [] ∧
      ∀ c ∈ digits, c.isDigit = true := by
  cases t with
  | nil => simp [bracketed]
  | cons c cs =>
    simp only [bracketed]
    split
    · rename_i h
      obtain ⟨rfl, hne, hclose⟩ := h
      constructor
      · intro hd
        rw [Option.some.injEq] at hd
        subst hd
        obtain ⟨rest, hrest⟩ : ∃ rest, cs.dropWhile Char.isDigit = ']' :: rest := by
          cases hdrop : cs.dropWhile Char.isDigit with
          | nil => rw [hdrop] at hclose; cases hclose
          | cons x xs =>
            rw [hdrop, List.head?_cons, Option.some.injEq] at hclose
            exact ⟨xs, by rw [hclose]⟩
        refine ⟨rest, ?_, hne, fun x hx => List.mem_takeWhile_imp hx⟩
        rw [← hrest, List.takeWhile_append_dropWhile]
      · rintro ⟨rest, heq, -, hdigits⟩
        rw [List.cons.injEq] at heq
        rw [heq.2, (takeWhile_digits hdigits).1]
    · rename_i h
      constructor
      · intro hd; cases hd
      · rintro ⟨rest, heq, hne, hdigits⟩
        rw [List.cons.injEq] at heq
        obtain ⟨rfl, rfl⟩ := heq
        refine absurd ⟨rfl, ?_, ?_⟩ h
        · rwa [(takeWhile_digits hdigits).1]
        · rw [(takeWhile_digits hdigits).2]; rfl

theorem bracketed_of_ne {c : Char} (cs : Text) (h : c ≠ '[') : bracketed (c :: cs) = none := by
  simp [bracketed, h]

theorem templateFrom_drop : ∀ (k : Nat) (t : Text), templateFrom k t = templatePath (t.drop k)
  | 0, t => rfl
  | k + 1, [] => by simp [templateFrom, templatePath]
  | k + 1, _ :: cs => by rw [templateFrom, templateFrom_drop k cs, List.drop_succ_cons]

theorem templatePath_cons_of_none {c : Char} {cs : Text} (h : bracketed (c :: cs) = none) :
    templatePath (c :: cs) = c :: templatePath cs := by simp [templatePath, templateFrom, h]

theorem templatePath_bracketed {digits rest : Text} (hne : digits ≠ [])
    (hd : ∀ c ∈ digits, c.isDigit = true) :
    templatePath ('[' :: (digits ++ ']' :: rest)) = '[' :: ']' :: templatePath rest := by
  have hb : bracketed ('[' :: (digits ++ ']' :: rest)) = some digits :=
    bracketed_eq_some.2 ⟨rest, rfl, hne, hd⟩
  rw [templatePath, templateFrom, hb]
  simp only [templateFrom_drop]
  rw [List.drop_append, List.drop_eq_nil_of_le (by omega), List.nil_append,
    show digits.length + 1 - digits.length = 1 by omega]
  rfl

theorem templatePath_plain : ∀ {t : Text} (rest : Text), Plain t →
    templatePath (t ++ rest) = t ++ templatePath rest
  | [], _, _ => rfl
  | c :: cs, rest, h => by
    rw [List.cons_append, templatePath_cons_of_none (bracketed_of_ne _ (h c (by simp)).1),
      templatePath_plain rest fun d hd => h d (by simp [hd])]
    rfl

theorem rowDigits_plain : ∀ {t : Text} (rest : Text), Plain t → rowDigits (t ++ rest) = rowDigits rest
  | [], _, _ => rfl
  | c :: cs, rest, h => by
    rw [List.cons_append, rowDigits, bracketed_of_ne _ (h c (by simp)).1, Option.none_or,
      rowDigits_plain rest fun d hd => h d (by simp [hd])]

/-- The path of a field of a row. -/
def rowPath (group digits leaf : Text) : Text := group ++ '[' :: (digits ++ ']' :: '.' :: leaf)

theorem plain_dot {leaf : Text} (h : Plain leaf) : Plain ('.' :: leaf) := by
  intro c hc
  rcases List.mem_cons.1 hc with rfl | hc
  · decide
  · exact h c hc

theorem templatePath_rowPath {group digits leaf : Text} (hg : Plain group) (hl : Plain leaf)
    (hne : digits ≠ []) (hd : ∀ c ∈ digits, c.isDigit = true) :
    templatePath (rowPath group digits leaf) = group ++ '[' :: ']' :: '.' :: leaf := by
  have hleaf : templatePath ('.' :: leaf) = '.' :: leaf := by
    have := templatePath_plain [] (plain_dot hl)
    simpa [templatePath, templateFrom] using this
  rw [rowPath, templatePath_plain _ hg, templatePath_bracketed hne hd, hleaf]

theorem rowDigits_rowPath {group digits leaf : Text} (hg : Plain group) (hne : digits ≠ [])
    (hd : ∀ c ∈ digits, c.isDigit = true) : rowDigits (rowPath group digits leaf) = some digits := by
  rw [rowPath, rowDigits_plain _ hg, rowDigits, bracketed_eq_some.2 ⟨_, rfl, hne, hd⟩, Option.some_or]

/-- A template without an opening bracket is the path itself. -/
theorem eq_of_templatePath : ∀ {path : Text}, (∀ c ∈ templatePath path, c ≠ '[') →
    templatePath path = path
  | [], _ => rfl
  | c :: cs, h => by
    cases hb : bracketed (c :: cs) with
    | some digits =>
      obtain ⟨rest, heq, hne, hd⟩ := bracketed_eq_some.1 hb
      rw [heq, templatePath_bracketed hne hd] at h
      exact absurd rfl (h '[' (by simp))
    | none =>
      rw [templatePath_cons_of_none hb] at h ⊢
      rw [eq_of_templatePath fun d hd => h d (by simp [hd])]

theorem rowDigits_none : ∀ {t : Text}, (∀ c ∈ t, c ≠ '[') → rowDigits t = none
  | [], _ => rfl
  | c :: cs, h => by
    rw [rowDigits, bracketed_of_ne _ (h c (by simp)), Option.none_or,
      rowDigits_none fun d hd => h d (by simp [hd])]

theorem rowDigits_eq_some : ∀ {t digits : Text}, rowDigits t = some digits →
    digits ≠ [] ∧ ∀ c ∈ digits, c.isDigit = true
  | c :: cs, digits, h => by
    rw [rowDigits, Option.or_eq_some_iff] at h
    rcases h with h | ⟨-, h⟩
    · obtain ⟨-, -, hne, hd⟩ := bracketed_eq_some.1 h
      exact ⟨hne, hd⟩
    · exact rowDigits_eq_some h

/-- A path without a row number is its own template. -/
theorem eq_of_rowDigits_none : ∀ {path : Text}, rowDigits path = none → templatePath path = path
  | [], _ => rfl
  | c :: cs, h => by
    rw [rowDigits, Option.or_eq_none_iff] at h
    rw [templatePath_cons_of_none h.1, eq_of_rowDigits_none h.2]

/-- **The path of a row.** A path whose template is a field of a group, and that has a row number, is
the group, the number in brackets and the field's name. -/
theorem path_of_row {group leaf digits : Text} (hg : Plain group) (hl : Plain leaf) :
    ∀ {path : Text}, templatePath path = group ++ '[' :: ']' :: '.' :: leaf →
      rowDigits path = some digits → path = rowPath group digits leaf := by
  induction group with
  | nil =>
    intro path ht hr
    cases path with
    | nil => cases hr
    | cons c cs =>
      cases hb : bracketed (c :: cs) with
      | some ds =>
        obtain ⟨rest, heq, hne, hd⟩ := bracketed_eq_some.1 hb
        rw [heq, templatePath_bracketed hne hd, List.nil_append, List.cons.injEq, List.cons.injEq] at ht
        have hrest : templatePath rest = rest := eq_of_templatePath (by
          rw [ht.2.2]; exact fun d hd => (plain_dot hl d hd).1)
        rw [rowDigits, hb, Option.some_or, Option.some.injEq] at hr
        subst hr
        rw [heq, ← hrest, ht.2.2]
        rfl
      | none =>
        -- a `[` that opens no number is followed by `]`, and then no number is left to read
        rw [templatePath_cons_of_none hb, List.nil_append, List.cons.injEq] at ht
        have hopen : ∀ d ∈ templatePath cs, d ≠ '[' := by
          rw [ht.2]
          intro d hd
          rcases List.mem_cons.1 hd with rfl | hd
          · decide
          · exact (plain_dot hl d hd).1
        rw [rowDigits, hb, Option.none_or, rowDigits_none (by rwa [← eq_of_templatePath hopen])] at hr
        cases hr
  | cons x xs ih =>
    intro path ht hr
    cases path with
    | nil => cases hr
    | cons c cs =>
      cases hb : bracketed (c :: cs) with
      | some ds =>
        obtain ⟨rest, heq, hne, hd⟩ := bracketed_eq_some.1 hb
        rw [heq, templatePath_bracketed hne hd, List.cons_append, List.cons.injEq] at ht
        exact absurd ht.1.symm (hg x (by simp)).1
      | none =>
        rw [templatePath_cons_of_none hb, List.cons_append, List.cons.injEq] at ht
        rw [rowDigits, hb, Option.none_or] at hr
        rw [ht.1, ih (fun d hd => hg d (by simp [hd])) ht.2 hr]
        rfl

end Recouple.Extraction
