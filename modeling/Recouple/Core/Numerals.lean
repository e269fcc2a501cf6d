import Recouple.Core.UnitPrice
import Recouple.Lib.OneRun
import Recouple.Lib.UpperCase

/-!
# What an accepted amount prints: `packages/core-domain/src/money.ts` (141-223, 305-329)

| here | there |
| --- | --- |
| `Layout` | the steps of `readPrinted` (150-170): parentheses, `CR` or `DR`, and what is left between them |
| `isDecoration` | what `replace` removes (167): white space, `$`, and the letters of `USD` |
| `numeralOf` | the digits, commas and points of the text, in order |

* **`prints_one_numeral_iff`**: an accepted text prints one numeral, whose value it is read as, exactly where no white
  space, `$` or letter of `USD` stands between two of its digits, commas and points.
* `two_numbers_joined`: the decorations are removed before the numeral is checked, so two numbers become one.
-/

namespace Recouple
open Js Runs

/-- A digit, a comma or a point. -/
def isNumeral (c : Char) : Bool := c.isDigit || c == ',' || c == '.'

/-- White space, `$`, or a letter of `USD`. -/
def isDecoration (c : Char) : Bool := isSpace c || c == '$' || c == 'U' || c == 'S' || c == 'D'

/-- What `readPrinted` leaves of the text between the parentheses and the marker. -/
def undecorated (t : Text) : Text := ((dropUSD false t).filter (· ≠ '$')).filter fun c => !isSpace c

/-! ## What is removed -/

theorem dropUSD_filter (inWord : Bool) (t : Text) :
    (dropUSD inWord t).filter (fun c => !isDecoration c) = t.filter fun c => !isDecoration c := by
  induction inWord, t using dropUSD.induct with
  | case1 => rfl
  | case2 inWord rest hword ih =>
    rw [dropUSD, if_pos hword, ih]
    rfl
  | case3 inWord rest hword ih =>
    rw [dropUSD, if_neg hword, List.filter_cons_of_neg (by decide), List.filter_cons_of_neg (by decide), ih]
  | case4 inWord c cs hne ih =>
    rw [dropUSD, List.filter_cons, List.filter_cons, ih]
    exact hne

/-- A text without the letters of `USD` left is one whose decorations are all gone. -/
theorem undecorated_eq_filter {t : Text} (h : ∀ c ∈ undecorated t, isDecoration c = false) :
    undecorated t = t.filter fun c => !isDecoration c := by
  have hself : undecorated t = (undecorated t).filter fun c => !isDecoration c :=
    (List.filter_eq_self.2 fun c hc => by rw [h c hc]; rfl).symm
  rw [hself, ← dropUSD_filter false t, undecorated, List.filter_filter, List.filter_filter]
  refine List.filter_congr fun c _ => ?_
  unfold isDecoration
  cases isSpace c <;> by_cases hc : c = '$' <;> simp [hc]

/-! ## How the text is laid out -/

/-- White space and nothing else. -/
def Blank (t : Text) : Prop := ∀ c ∈ t, isSpace c = true

theorem trim_split (t : Text) : ∃ lead tail, Blank lead ∧ Blank tail ∧ t = lead ++ trim t ++ tail := by
  refine ⟨t.takeWhile isSpace, (t.dropWhile isSpace).rtakeWhile isSpace, fun c hc => List.mem_takeWhile_imp hc,
    fun c hc => List.mem_rtakeWhile_imp hc, ?_⟩
  rw [List.append_assoc, trim, List.rdropWhile_append_rtakeWhile, List.takeWhile_append_dropWhile]

/-- `CR`, `DR` or nothing. -/
def markerText : Option Bool → Text
  | none => []
  | some true => ['C', 'R']
  | some false => ['D', 'R']

/-- The text is `core` between its parentheses and before its marker. -/
def Layout (t : Text) (parens : Bool) (marker : Option Bool) (core : Text) : Prop :=
  ∃ lead gap tail, Blank lead ∧ Blank gap ∧ Blank tail ∧
    t = (if parens then ['('] else []) ++ lead ++ core ++ gap ++ markerText marker ++ tail ++
      if parens then [')'] else []

theorem parenthesised_eq {t inner : Text} (h : parenthesised t = some inner) : t = '(' :: (inner ++ [')']) := by
  unfold parenthesised at h
  split at h
  · split at h
    case isTrue hend =>
      obtain rfl := Option.some.inj h
      rw [List.dropLast_append_getLast? _ hend.1]
    case isFalse => cases h
  · cases h

theorem markerOf_eq {t before : Text} {credit : Bool} (h : markerOf t = some (before, credit)) :
    ∃ gap, Blank gap ∧ t = before ++ gap ++ markerText (some credit) := by
  unfold markerOf at h
  dsimp only at h
  split at h
  case isTrue hmark =>
    obtain ⟨rfl, rfl⟩ := Prod.mk.inj (Option.some.inj h)
    refine ⟨(t.take (t.length - 2)).rtakeWhile isSpace, fun c hc => List.mem_rtakeWhile_imp hc, ?_⟩
    have hsplit := List.take_append_drop (t.length - 2) t
    rw [List.rdropWhile_append_rtakeWhile]
    rcases hmark.1 with hcr | hdr
    · rw [hcr] at hsplit ⊢
      exact hsplit.symm
    · rw [hdr] at hsplit ⊢
      exact hsplit.symm
  case isFalse => cases h

/-- The text between its parentheses, and whether it has them. -/
def unparenthesised (t : Text) : Bool × Text :=
  match parenthesised t with
  | some inner => (true, trim inner)
  | none => (false, t)

/-- The text before its marker. -/
def unmarked (read : Bool × Text) : Bool × Text :=
  match markerOf read.2 with
  | some (before, credit) => (read.1 ^^ credit, trim before)
  | none => read

/-- The text after its sign. -/
def unsigned (read : Bool × Text) : Bool × Text :=
  match read.2 with
  | '-' :: rest => (!read.1, rest)
  | '+' :: rest => (read.1, rest)
  | _ => read

/-- The digits of the whole part, with its separators. -/
def wholeOf (numeral : Text) : Text := numeral.takeWhile (· ≠ '.')

/-- The digits after the point. -/
def fractionOf (numeral : Text) : Text := (numeral.dropWhile (· ≠ '.')).drop 1

/-- The numeral taken apart, or refused. -/
def partsOf (text : Text) (read : Bool × Text) : Except MoneyError PrintedNumber :=
  if !amountShape read.2 || read.2 = [] || read.2 = ['.'] then .error (.unreadable text)
  else if !groupedInThrees (wholeOf read.2) then .error (.ambiguousSeparators text)
  else if (wholeOf read.2).filter (· ≠ ',') = [] ∧ fractionOf read.2 = [] then .error (.unreadable text)
  else .ok ⟨read.1, (wholeOf read.2).filter (· ≠ ','), fractionOf read.2⟩

theorem readPrinted_eq (T : CaseTables) (text : Text) : readPrinted T text =
    if T.toUpperCase (trim text) = [] then .error .emptyText
    else
      let read := unmarked (unparenthesised (T.toUpperCase (trim text)))
      partsOf text (unsigned (read.1, undecorated read.2)) := by
  rfl

theorem unparenthesised_layout (t : Text) : Layout t (unparenthesised t).1 none (unparenthesised t).2 := by
  have hnil : Blank [] := fun _ h => absurd h List.not_mem_nil
  unfold unparenthesised
  cases hparen : parenthesised t with
  | none => exact ⟨[], [], [], hnil, hnil, hnil, by simp [markerText]⟩
  | some inner =>
    obtain ⟨lead, tail, hlead, htail, hsplit⟩ := trim_split inner
    refine ⟨lead, [], tail, hlead, hnil, htail, ?_⟩
    rw [parenthesised_eq hparen]
    conv_lhs => rw [hsplit]
    simp [markerText]

theorem unmarked_layout {t : Text} {read : Bool × Text} {parens : Bool} (h : Layout t parens none read.2) :
    ∃ marker, (unmarked read).1 = (read.1 ^^ (marker == some true)) ∧ Layout t parens marker (unmarked read).2 := by
  unfold unmarked
  cases hmarker : markerOf read.2 with
  | none => exact ⟨none, by simp, h⟩
  | some found =>
    obtain ⟨before, credit⟩ := found
    obtain ⟨lead, gap, tail, hlead, hgap, htail, ht⟩ := h
    obtain ⟨space, hspace, hmark⟩ := markerOf_eq hmarker
    obtain ⟨lead', gap', hlead', hgap', hsplit⟩ := trim_split before
    refine ⟨some credit, by cases credit <;> rfl, lead ++ lead', gap' ++ space, gap ++ tail, ?_, ?_, ?_, ?_⟩
    · exact fun c hc => (List.mem_append.1 hc).elim (hlead c) (hlead' c)
    · exact fun c hc => (List.mem_append.1 hc).elim (hgap' c) (hspace c)
    · exact fun c hc => (List.mem_append.1 hc).elim (hgap c) (htail c)
    · rw [ht, hmark]
      conv_lhs => rw [hsplit]
      simp [markerText]

theorem unsigned_split (read : Bool × Text) : ∃ sign, read.2 = sign ++ (unsigned read).2 ∧
    (sign = [] ∨ sign = ['-'] ∨ sign = ['+']) ∧ (unsigned read).1 = (read.1 ^^ (sign == ['-'])) := by
  unfold unsigned
  split
  case h_1 rest hread => exact ⟨['-'], hread, .inr (.inl rfl), by simp⟩
  case h_2 rest hread => exact ⟨['+'], hread, .inr (.inr rfl), by simp⟩
  case h_3 => exact ⟨[], rfl, .inl rfl, by simp⟩

theorem partsOf_ok {text : Text} {read : Bool × Text} {printed : PrintedNumber} :
    partsOf text read = .ok printed ↔ (amountShape read.2 = true ∧ read.2 ≠ [] ∧ read.2 ≠ ['.'] ∧
      groupedInThrees (wholeOf read.2) = true ∧
      ¬ ((wholeOf read.2).filter (· ≠ ',') = [] ∧ fractionOf read.2 = [])) ∧
      printed = ⟨read.1, (wholeOf read.2).filter (· ≠ ','), fractionOf read.2⟩ := by
  unfold partsOf
  by_cases hshape : amountShape read.2 = true
  · by_cases hnil : read.2 = []
    · simp [hnil]
    · by_cases hpoint : read.2 = ['.']
      · simp [hpoint]
      · by_cases hgrouped : groupedInThrees (wholeOf read.2) = true
        · by_cases hempty : (wholeOf read.2).filter (· ≠ ',') = [] ∧ fractionOf read.2 = []
          · rw [if_neg (by simp [hshape, hnil, hpoint]), if_neg (by simp [hgrouped]), if_pos hempty]
            constructor
            · intro h
              cases h
            · exact fun h => absurd hempty h.1.2.2.2.2
          · rw [if_neg (by simp [hshape, hnil, hpoint]), if_neg (by simp [hgrouped]), if_neg hempty]
            constructor
            · intro h
              exact ⟨⟨hshape, hnil, hpoint, hgrouped, hempty⟩, (Except.ok.inj h).symm⟩
            · rintro ⟨-, rfl⟩
              rfl
        · simp [hshape, hnil, hpoint, hgrouped]
  · simp [hshape]

/-- What a text that was read is made of. -/
structure Printing (t : Text) (printed : PrintedNumber) (parens : Bool) (marker : Option Bool)
    (core sign numeral : Text) : Prop where
  layout : Layout t parens marker core
  left : undecorated core = sign ++ numeral
  signed : sign = [] ∨ sign = ['-'] ∨ sign = ['+']
  shape : amountShape numeral = true
  grouped : groupedInThrees (wholeOf numeral) = true
  printed : printed =
    ⟨(parens ^^ (marker == some true)) ^^ (sign == ['-']), (wholeOf numeral).filter (· ≠ ','), fractionOf numeral⟩

theorem readPrinted_printing {T : CaseTables} {text : Text} {printed : PrintedNumber}
    (h : readPrinted T text = .ok printed) : ∃ parens marker core sign numeral,
      Printing (T.toUpperCase (trim text)) printed parens marker core sign numeral := by
  rw [readPrinted_eq] at h
  split at h
  case isTrue => cases h
  case isFalse =>
    dsimp only at h
    obtain ⟨marker, hcredit, hlayout⟩ := unmarked_layout (unparenthesised_layout (T.toUpperCase (trim text)))
    obtain ⟨⟨hshape, -, -, hgrouped, -⟩, hprinted⟩ := partsOf_ok.1 h
    obtain ⟨sign, hleft, hsign, hnegative⟩ := unsigned_split
      ((unmarked (unparenthesised (T.toUpperCase (trim text)))).1,
        undecorated (unmarked (unparenthesised (T.toUpperCase (trim text)))).2)
    refine ⟨_, marker, _, sign, _, hlayout, hleft, hsign, hshape, hgrouped, ?_⟩
    rw [hprinted, hnegative, hcredit]

/-! ## The numeral -/

theorem isNumeral_of_isDigit {c : Char} (h : c.isDigit = true) : isNumeral c = true := by simp [isNumeral, h]

/-- A numeral's characters are ASCII without case, and no white space. -/
theorem isNumeral_plain {c : Char} (h : isNumeral c = true) :
    c.toNat < 128 ∧ c.isAlpha = false ∧ isSpace c = false ∧ isDecoration c = false := by
  unfold isNumeral at h
  rw [Bool.or_eq_true, Bool.or_eq_true, beq_iff_eq, beq_iff_eq] at h
  rcases h with (h | rfl) | rfl
  · have hrange : 48 ≤ c.toNat ∧ c.toNat ≤ 57 := by simpa [Char.isDigit, UInt32.le_iff_toNat_le] using h
    have hne : ∀ d : Char, (d.toNat < 48 ∨ 57 < d.toNat) → c ≠ d := by
      rintro d hd rfl
      omega
    have halpha : c.isAlpha = false := by
      by_contra ha
      rw [Bool.not_eq_false] at ha
      have := toNat_of_isAlpha ha
      omega
    refine ⟨by omega, halpha, isSpace_of_isDigit h, ?_⟩
    simp [isDecoration, isSpace_of_isDigit h, hne '$' (by decide), hne 'U' (by decide), hne 'S' (by decide),
      hne 'D' (by decide)]
  · decide
  · decide

/-- Digits and commas, then perhaps a point and more digits. -/
theorem amountShape_split {numeral : Text} (h : amountShape numeral = true) :
    (∀ c ∈ wholeOf numeral, c.isDigit = true ∨ c = ',') ∧ (∀ c ∈ fractionOf numeral, c.isDigit = true) ∧
      (numeral = wholeOf numeral ∧ fractionOf numeral = [] ∨
        numeral = wholeOf numeral ++ '.' :: fractionOf numeral) := by
  have hsplit := List.takeWhile_append_dropWhile (p := fun c : Char => c.isDigit || c == ',') (l := numeral)
  have hwhole : ∀ c ∈ numeral.takeWhile fun c => c.isDigit || c == ',', c.isDigit = true ∨ c = ',' := by
    intro c hc
    simpa using List.mem_takeWhile_imp hc
  have hnotPoint : ∀ c ∈ numeral.takeWhile fun c => c.isDigit || c == ',', (decide (c ≠ '.')) = true := by
    intro c hc
    rcases hwhole c hc with hdigit | rfl
    · refine decide_eq_true fun e => ?_
      subst e
      exact absurd hdigit (by decide)
    · decide
  generalize numeral.takeWhile (fun c => c.isDigit || c == ',') = whole at *
  unfold amountShape at h
  cases hrest : numeral.dropWhile fun c => c.isDigit || c == ',' with
  | nil =>
    rw [hrest, List.append_nil] at hsplit
    subst hsplit
    have htake : wholeOf whole = whole := List.takeWhile_eq_self_iff.2 hnotPoint
    have hdrop : fractionOf whole = [] := by
      rw [fractionOf, List.dropWhile_eq_nil_iff.2 hnotPoint]
      rfl
    rw [htake, hdrop]
    exact ⟨hwhole, fun _ hc => absurd hc List.not_mem_nil, .inl ⟨rfl, rfl⟩⟩
  | cons c rest =>
    rw [hrest] at h hsplit
    dsimp only at h
    rw [Bool.and_eq_true, beq_iff_eq, List.all_eq_true] at h
    obtain ⟨rfl, hdigits⟩ := h
    subst hsplit
    have htake : wholeOf (whole ++ '.' :: rest) = whole := by
      rw [wholeOf, List.takeWhile_append_of_pos hnotPoint, List.takeWhile_cons_of_neg (by decide), List.append_nil]
    have hdrop : fractionOf (whole ++ '.' :: rest) = rest := by
      rw [fractionOf, List.dropWhile_append_of_pos hnotPoint, List.dropWhile_cons_of_neg (by decide)]
      rfl
    rw [htake, hdrop]
    exact ⟨hwhole, hdigits, .inr rfl⟩

theorem isNumeral_of_amountShape {numeral : Text} (h : amountShape numeral = true) :
    ∀ c ∈ numeral, isNumeral c = true := by
  obtain ⟨hwhole, hfraction, hsplit⟩ := amountShape_split h
  have hwhole' : ∀ c ∈ wholeOf numeral, isNumeral c = true := by
    intro c hc
    rcases hwhole c hc with hdigit | rfl
    · exact isNumeral_of_isDigit hdigit
    · decide
  intro c hc
  rcases hsplit with ⟨hsplit, -⟩ | hsplit
  · exact hwhole' c (hsplit ▸ hc)
  · rw [hsplit, List.mem_append, List.mem_cons] at hc
    rcases hc with hc | rfl | hc
    · exact hwhole' c hc
    · decide
    · exact isNumeral_of_isDigit (hfraction c hc)

section
variable {t core sign numeral : Text} {printed : PrintedNumber} {parens : Bool} {marker : Option Bool}

/-- What blank text and the two ends have none of is filtered from the middle. -/
theorem Layout.filter (h : Layout t parens marker core) {p : Char → Bool}
    (hspace : ∀ c, isSpace c = true → p c = false) :
    t.filter p = (if parens then ['('] else []).filter p ++ core.filter p ++ (markerText marker).filter p ++
      (if parens then [')'] else []).filter p := by
  obtain ⟨lead, gap, tail, hlead, hgap, htail, rfl⟩ := h
  have hblank : ∀ s : Text, Blank s → s.filter p = [] := fun s hs =>
    List.filter_eq_nil_iff.2 fun c hc => by rw [hspace c (hs c hc)]; simp
  simp only [List.filter_append, hblank lead hlead, hblank gap hgap, hblank tail htail, List.append_nil]

/-- The sign is no decoration, and neither is the numeral. -/
theorem Printing.core_filter (h : Printing t printed parens marker core sign numeral) :
    core.filter (fun c => !isDecoration c) = sign ++ numeral := by
  rw [← h.left]
  refine (undecorated_eq_filter fun c hc => ?_).symm
  rw [h.left, List.mem_append] at hc
  rcases hc with hc | hc
  · rcases h.signed with rfl | rfl | rfl
    · exact absurd hc List.not_mem_nil
    · rw [List.mem_singleton.1 hc]
      decide
    · rw [List.mem_singleton.1 hc]
      decide
  · exact (isNumeral_plain (isNumeral_of_amountShape h.shape c hc)).2.2.2

/-- The characters of the text that are no decoration. -/
theorem Printing.kept (h : Printing t printed parens marker core sign numeral) :
    t.filter (fun c => !isDecoration c) = (if parens then ['('] else []) ++ sign ++ numeral ++
      (markerText marker).filter (fun c => !isDecoration c) ++ if parens then [')'] else [] := by
  have hspace : ∀ c, isSpace c = true → (!isDecoration c) = false := fun c hc => by simp [isDecoration, hc]
  rw [h.layout.filter hspace, h.core_filter]
  cases parens with
  | false => simp
  | true => simp [show isDecoration '(' = false by decide, show isDecoration ')' = false by decide]

theorem filter_of_kept {p : Char → Bool} (hp : ∀ c, p c = true → isDecoration c = false) (t : Text) :
    (t.filter fun c => !isDecoration c).filter p = t.filter p := by
  rw [List.filter_filter]
  refine List.filter_congr fun c _ => ?_
  by_cases hc : p c = true
  · simp [hc, hp c hc]
  · simp [hc]

theorem mem_markerText {marker : Option Bool} {c : Char} (h : c ∈ markerText marker) : c = 'C' ∨ c = 'D' ∨ c = 'R' := by
  cases marker with
  | none => exact absurd h List.not_mem_nil
  | some credit =>
    cases credit with
    | false => exact (List.mem_pair.1 h).elim (fun e => .inr (.inl e)) fun e => .inr (.inr e)
    | true => exact (List.mem_pair.1 h).elim .inl fun e => .inr (.inr e)

theorem markerText_not_numeral (marker : Option Bool) : ∀ c ∈ markerText marker, isNumeral c = false := by
  intro c hc
  rcases mem_markerText hc with rfl | rfl | rfl <;> decide

/-- The numeral is what the text has of digits, commas and points. -/
theorem Printing.numeral_eq (h : Printing t printed parens marker core sign numeral) :
    t.filter isNumeral = numeral := by
  rw [← filter_of_kept (fun c hc => (isNumeral_plain hc).2.2.2) t, h.kept]
  have hnone : ∀ s : Text, (∀ c ∈ s, isNumeral c = false) → s.filter isNumeral = [] := fun s hs =>
    List.filter_eq_nil_iff.2 fun c hc => by simp [hs c hc]
  have hparens : ∀ c : Char, isNumeral c = false → (if parens then [c] else []).filter isNumeral = [] := by
    intro c hc
    cases parens with
    | false => rfl
    | true => simp [hc]
  have hsign : sign.filter isNumeral = [] := by
    rcases h.signed with rfl | rfl | rfl <;> decide
  have hmarker : ((markerText marker).filter fun c => !isDecoration c).filter isNumeral = [] :=
    hnone _ fun c hc => markerText_not_numeral marker c (List.mem_of_mem_filter hc)
  simp only [List.filter_append, hparens '(' (by decide), hparens ')' (by decide), hsign, hmarker,
    List.filter_eq_self.2 (isNumeral_of_amountShape h.shape), List.nil_append, List.append_nil]

/-- Between two characters of the numeral stand others of it, and decorations. -/
theorem Printing.between (h : Printing t printed parens marker core sign numeral) :
    Between (fun c => isNumeral c = true) (fun c => isNumeral c = true ∨ isDecoration c = true) t := by
  have hrun : OneRun (fun c => isNumeral c = true) (t.filter fun c => !isDecoration c) := by
    refine ⟨(if parens then ['('] else []) ++ sign, numeral, (markerText marker).filter (fun c => !isDecoration c) ++
      (if parens then [')'] else []), by rw [h.kept]; simp, fun d hd => ?_, isNumeral_of_amountShape h.shape,
      fun d hd => ?_⟩
    · rw [Bool.not_eq_true]
      rcases List.mem_append.1 hd with hd | hd
      · cases parens with
        | false => exact absurd hd List.not_mem_nil
        | true =>
          rw [List.mem_singleton.1 hd]
          decide
      · rcases h.signed with rfl | rfl | rfl
        · exact absurd hd List.not_mem_nil
        · rw [List.mem_singleton.1 hd]
          decide
        · rw [List.mem_singleton.1 hd]
          decide
    · rw [Bool.not_eq_true]
      rcases List.mem_append.1 hd with hd | hd
      · exact markerText_not_numeral marker d (List.mem_of_mem_filter hd)
      · cases parens with
        | false => exact absurd hd List.not_mem_nil
        | true =>
          rw [List.mem_singleton.1 hd]
          decide
  have hkept : ∀ d, isNumeral d = true → (!isDecoration d) = true := fun d hd => by simp [(isNumeral_plain hd).2.2.2]
  exact (hrun.of_filter hkept).mono fun c hc => hc.imp_right fun hc => by simpa using hc

/-! ## The sign marks -/

/-- The minus signs, opening parentheses and `C`s of a text in capitals. -/
def signMarks (t : Text) : Nat := t.count '-' + t.count '(' + t.count 'C'

theorem count_of_kept {c : Char} (hc : isDecoration c = false) (t : Text) :
    (t.filter fun d => !isDecoration d).count c = t.count c :=
  List.count_filter (by simp [hc])

theorem Printing.count_numeral (h : Printing t printed parens marker core sign numeral) {c : Char}
    (hc : isNumeral c = false) : numeral.count c = 0 :=
  List.count_eq_zero.2 fun hmem => by simp [isNumeral_of_amountShape h.shape c hmem] at hc

theorem Printing.count_eq (h : Printing t printed parens marker core sign numeral) {c : Char}
    (hnumeral : isNumeral c = false) (hdecoration : isDecoration c = false) : t.count c =
      (if parens then ['('] else []).count c + sign.count c + (markerText marker).count c +
        (if parens then [')'] else []).count c := by
  rw [← count_of_kept hdecoration t, h.kept]
  simp only [List.count_append, h.count_numeral hnumeral, count_of_kept hdecoration, Nat.add_zero]

/-- An odd number of marks is a negative amount. -/
theorem Printing.negative_iff (h : Printing t printed parens marker core sign numeral) :
    printed.negative = true ↔ Odd (signMarks t) := by
  rw [signMarks, h.count_eq (by decide) (by decide), h.count_eq (by decide) (by decide),
    h.count_eq (by decide) (by decide), h.printed]
  dsimp only
  rcases h.signed with rfl | rfl | rfl <;> cases parens <;> cases marker with
  | none => decide
  | some credit => cases credit <;> decide

/-- Where the marks stand: a minus before the numeral, parentheses around the whole text, `CR` at its end. -/
structure MarksPlaced (t : Text) : Prop where
  minus : ∀ before after, t = before ++ '-' :: after → ∀ c ∈ before, isNumeral c = false
  parens : '(' ∈ t → ∃ inner, t = '(' :: (inner ++ [')']) ∧ '(' ∉ inner
  credit : ∀ before after, t = before ++ 'C' :: after →
    ∃ rest, after = 'R' :: rest ∧ ∀ c ∈ rest, isSpace c = true ∨ c = ')'

theorem Printing.not_mem_core (h : Printing t printed parens marker core sign numeral) {c : Char}
    (hnumeral : isNumeral c = false) (hdecoration : isDecoration c = false) (hsign : c ∉ sign) : c ∉ core := by
  rw [← List.count_eq_zero, ← count_of_kept hdecoration, h.core_filter, List.count_append, h.count_numeral hnumeral,
    List.count_eq_zero.2 hsign]

theorem Printing.minus_leads (h : Printing t printed parens marker core sign numeral) {before after : Text}
    (ht : t = before ++ '-' :: after) : ∀ c ∈ before, isNumeral c = false := by
  have hsplit : before.filter (fun c => !isDecoration c) ++ '-' :: after.filter (fun c => !isDecoration c) =
      ((if parens then ['('] else []) ++ sign) ++ (numeral ++
        ((markerText marker).filter (fun c => !isDecoration c) ++ if parens then [')'] else [])) := by
    have hkept := h.kept
    rw [ht, List.filter_append, List.filter_cons_of_pos (by decide)] at hkept
    rw [hkept]
    simp
  have hnumeral : '-' ∉ numeral := List.count_eq_zero.1 (h.count_numeral (by decide))
  have hafter : '-' ∉ numeral ++
      ((markerText marker).filter (fun c => !isDecoration c) ++ if parens then [')'] else []) := by
    rw [List.mem_append, List.mem_append]
    rintro (hmem | hmem | hmem)
    · exact hnumeral hmem
    · rcases mem_markerText (List.mem_of_mem_filter hmem) with e | e | e <;> exact absurd e (by decide)
    · cases parens with
      | false => exact absurd hmem List.not_mem_nil
      | true => exact absurd (List.mem_singleton.1 hmem) (by decide)
  have hopening : ∀ c ∈ (if parens then ['('] else []) ++ sign, isNumeral c = false := by
    intro c hc
    rcases List.mem_append.1 hc with hc | hc
    · cases parens with
      | false => exact absurd hc List.not_mem_nil
      | true =>
        rw [List.mem_singleton.1 hc]
        decide
    · rcases h.signed with rfl | rfl | rfl
      · exact absurd hc List.not_mem_nil
      · rw [List.mem_singleton.1 hc]
        decide
      · rw [List.mem_singleton.1 hc]
        decide
  intro c hc
  by_contra hnot
  rw [Bool.not_eq_false] at hnot
  have hmem : c ∈ before.filter fun c => !isDecoration c :=
    List.mem_filter.2 ⟨hc, by simp [(isNumeral_plain hnot).2.2.2]⟩
  rw [List.append_eq_append_iff] at hsplit
  rcases hsplit with ⟨rest, hrest, -⟩ | ⟨rest, -, hrest⟩
  · have := hopening c (hrest ▸ List.mem_append_left _ hmem)
    rw [hnot] at this
    cases this
  · exact hafter (hrest ▸ List.mem_append_right _ List.mem_cons_self)

theorem Printing.parens_enclose (h : Printing t printed parens marker core sign numeral) (hmem : '(' ∈ t) :
    ∃ inner, t = '(' :: (inner ++ [')']) ∧ '(' ∉ inner := by
  have hsign : '(' ∉ sign := by
    rcases h.signed with rfl | rfl | rfl <;> decide
  have hcore := h.not_mem_core (by decide) (by decide) hsign
  obtain ⟨lead, gap, tail, hlead, hgap, htail, rfl⟩ := h.layout
  have hblank : ∀ s : Text, Blank s → '(' ∉ s := fun s hs hs' => absurd (hs _ hs') (by decide)
  have hmarker : '(' ∉ markerText marker := by
    intro hmem
    rcases mem_markerText hmem with e | e | e <;> exact absurd e (by decide)
  have hinner : '(' ∉ lead ++ core ++ gap ++ markerText marker ++ tail := by
    simp [hblank lead hlead, hblank gap hgap, hblank tail htail, hcore, hmarker]
  cases parens with
  | false =>
    refine absurd ?_ hinner
    simpa using hmem
  | true => exact ⟨lead ++ core ++ gap ++ markerText marker ++ tail, by simp, hinner⟩

theorem Printing.credit_trails (h : Printing t printed parens marker core sign numeral) {before after : Text}
    (ht : t = before ++ 'C' :: after) :
    ∃ rest, after = 'R' :: rest ∧ ∀ c ∈ rest, isSpace c = true ∨ c = ')' := by
  have hsign : 'C' ∉ sign := by
    rcases h.signed with rfl | rfl | rfl <;> decide
  have hcore := h.not_mem_core (by decide) (by decide) hsign
  obtain ⟨lead, gap, tail, hlead, hgap, htail, hlayout⟩ := h.layout
  have hblank : ∀ s : Text, Blank s → 'C' ∉ s := fun s hs hs' => absurd (hs _ hs') (by decide)
  have hfirst : 'C' ∉ (if parens then ['('] else []) ++ lead ++ core ++ gap := by
    cases parens <;> simp [hblank lead hlead, hblank gap hgap, hcore]
  have hlast : ∀ c ∈ tail ++ (if parens then [')'] else []), isSpace c = true ∨ c = ')' := by
    intro c hc
    rcases List.mem_append.1 hc with hc | hc
    · exact .inl (htail c hc)
    · cases parens with
      | false => exact absurd hc List.not_mem_nil
      | true => exact .inr (List.mem_singleton.1 hc)
  have hnone : 'C' ∉ tail ++ (if parens then [')'] else []) := fun hmem => by
    rcases hlast _ hmem with e | e <;> exact absurd e (by decide)
  have hsplit : ((if parens then ['('] else []) ++ lead ++ core ++ gap) ++
      (markerText marker ++ (tail ++ if parens then [')'] else [])) = before ++ 'C' :: after := by
    rw [← ht, hlayout]
    simp
  -- the `C` is in the marker, where it comes first
  obtain ⟨rest, hrest⟩ : ∃ rest, markerText marker ++ (tail ++ if parens then [')'] else []) = rest ++ 'C' :: after := by
    rw [List.append_eq_append_iff] at hsplit
    rcases hsplit with ⟨rest, -, hrest⟩ | ⟨rest, hrest, hrest'⟩
    · exact ⟨rest, hrest⟩
    · cases rest with
      | nil => exact ⟨[], hrest'.symm⟩
      | cons d rest =>
        obtain rfl : 'C' = d := (List.cons.inj hrest').1
        exact absurd (hrest ▸ List.mem_append_right _ List.mem_cons_self) hfirst
  have hC : 'C' ∈ markerText marker ++ (tail ++ if parens then [')'] else []) := hrest ▸ by simp
  cases marker with
  | none => exact absurd hC hnone
  | some credit =>
    cases credit with
    | false =>
      refine absurd hC fun hmem => ?_
      rcases List.mem_append.1 hmem with hmem | hmem
      · exact absurd hmem (by decide)
      · exact hnone hmem
    | true =>
      cases rest with
      | nil =>
        exact ⟨_, ((List.cons.inj hrest).2).symm, hlast⟩
      | cons d rest =>
        have hlater : 'C' ∈ 'R' :: (tail ++ if parens then [')'] else []) := by
          have htailEq := (List.cons.inj hrest).2
          rw [show 'R' :: (tail ++ if parens then [')'] else []) = rest ++ 'C' :: after from htailEq]
          simp
        rcases List.mem_cons.1 hlater with e | hmem
        · exact absurd e (by decide)
        · exact absurd hmem hnone

theorem Printing.placed (h : Printing t printed parens marker core sign numeral) : MarksPlaced t :=
  ⟨fun _ _ => h.minus_leads, h.parens_enclose, fun _ _ => h.credit_trails⟩

end

/-! ## What the parsers make of it -/

/-- The number a list of digits writes. -/
abbrev digitsOf (digits : Text) : Nat := Nat.ofDigitChars 10 digits 0

theorem digitsOf_append (a b : Text) : digitsOf (a ++ b) = 10 ^ b.length * digitsOf a + digitsOf b := by
  rw [digitsOf, Nat.ofDigitChars_append, Nat.ofDigitChars_eq_ofDigitChars_zero]

theorem digitsOf_zeros {zeros : Text} (h : ∀ c ∈ zeros, c = '0') : digitsOf zeros = 0 := by
  rw [List.eq_replicate_of_mem h, digitsOf, Nat.ofDigitChars_replicate_zero, Nat.mul_zero]

/-- No whole part reads as `0`. -/
theorem digitsOf_whole (whole rest : Text) :
    digitsOf ((if whole = [] then "0".toList else whole) ++ rest) = digitsOf (whole ++ rest) := by
  split
  case isTrue h =>
    subst h
    rw [digitsOf_append, List.nil_append, digitsOf_zeros (by simp), Nat.mul_zero, Nat.zero_add]
  case isFalse => rfl

/-- The two cent digits of a fraction, where it has any. -/
theorem centsOfFraction_ok {fraction original cents : Text} : centsOfFraction fraction original = .ok cents ↔
    2 ≤ fraction.length ∧ fraction.length ≠ 3 ∧ (∀ c ∈ fraction.drop 2, c = '0') ∧ cents = fraction.take 2 := by
  unfold centsOfFraction
  by_cases htwo : fraction.length = 2
  · rw [if_pos htwo, List.drop_of_length_le (by omega), List.take_of_length_le (by omega)]
    constructor
    · intro h
      exact ⟨by omega, by omega, fun _ hc => absurd hc List.not_mem_nil, (Except.ok.inj h).symm⟩
    · rintro ⟨-, -, -, rfl⟩
      rfl
  · rw [if_neg htwo]
    by_cases hfew : fraction.length < 2
    · simp [hfew]
    · rw [if_neg hfew]
      by_cases hzeros : ∀ c ∈ fraction.drop 2, c = '0'
      · rw [if_neg (by simpa using hzeros)]
        by_cases hthree : fraction.length = 3
        · simp [hthree]
        · rw [if_neg hthree]
          constructor
          · intro h
            exact ⟨by omega, hthree, hzeros, (Except.ok.inj h).symm⟩
          · rintro ⟨-, -, -, rfl⟩
            rfl
      · rw [if_pos (by simpa using hzeros)]
        constructor
        · intro h
          cases h
        · exact fun h => absurd h.2.2.1 hzeros

/-- A fraction an amount can have: none, or two places and zeros past them, but not three places. -/
def AmountFraction (fraction : Text) : Prop :=
  fraction = [] ∨ 2 ≤ fraction.length ∧ fraction.length ≠ 3 ∧ ∀ c ∈ fraction.drop 2, c = '0'

/-- The digits of an amount, down to the cents. -/
def centsDigits (printed : PrintedNumber) : Text :=
  printed.whole ++ if printed.fraction = [] then "00".toList else printed.fraction.take 2

theorem numberOf_safe {n : Nat} : (∃ magnitude : Nat, numberOf n = some magnitude ∧ (magnitude : Int) ≤ maxSafe) ↔
    (n : Int) ≤ maxSafe := by
  unfold maxSafe
  constructor
  · rintro ⟨magnitude, hmagnitude, hle⟩
    unfold numberOf at hmagnitude
    split at hmagnitude
    · omega
    · split at hmagnitude
      · obtain rfl : toDouble n = magnitude := WithTop.coe_inj.1 hmagnitude
        have hround : 2 ^ 53 ≤ toDouble n := le_toDouble (by omega)
        omega
      · cases hmagnitude
  · intro h
    exact ⟨n, if_pos (by omega), h⟩

section
variable {T : CaseTables} {text : Text}

theorem magnitude_ok {amount : Cents} (printed : PrintedNumber) (fraction : Text) :
    (match numberOf (digitsOf ((if printed.whole = [] then "0".toList else printed.whole) ++ fraction)) with
      | none => (.error (.printedOutOfRange text) : Except MoneyError Cents)
      | some magnitude =>
        if (magnitude : Int) ≤ maxSafe then cents (if printed.negative then -magnitude else magnitude)
        else .error (.printedOutOfRange text)) = .ok amount ↔
    amount.val = if printed.negative then -(digitsOf (printed.whole ++ fraction) : Int)
      else digitsOf (printed.whole ++ fraction) := by
  rw [digitsOf_whole]
  generalize digitsOf (printed.whole ++ fraction) = n
  by_cases hsafe : (n : Int) ≤ maxSafe
  · have hnumber : numberOf n = some n := by
      unfold maxSafe at hsafe
      exact if_pos (by omega)
    rw [hnumber]
    dsimp only
    rw [if_pos hsafe, cents_ok]
  · constructor
    · intro h
      cases hnumber : numberOf n with
      | top =>
        rw [hnumber] at h
        cases h
      | coe magnitude =>
        rw [hnumber] at h
        dsimp only at h
        split at h
        case isTrue hle => exact absurd (numberOf_safe.1 ⟨magnitude, hnumber, hle⟩) hsafe
        case isFalse => cases h
    · intro h
      have hlower := amount.lower
      have hupper := amount.upper
      split at h <;> omega

theorem parseMoneyToCents_ok {amount : Cents} : parseMoneyToCents T text = .ok amount ↔
    ∃ printed, readPrinted T text = .ok printed ∧ AmountFraction printed.fraction ∧
      amount.val = if printed.negative then -(digitsOf (centsDigits printed) : Int)
        else digitsOf (centsDigits printed) := by
  unfold parseMoneyToCents
  rw [KeyedFold.bind_ok]
  refine exists_congr fun printed => and_congr_right fun _ => ?_
  unfold AmountFraction centsDigits
  by_cases hnone : printed.fraction = []
  · rw [if_pos hnone, if_pos hnone, KeyedFold.bind_ok]
    constructor
    · rintro ⟨cents, hcents, h⟩
      obtain rfl := Except.ok.inj hcents
      exact ⟨.inl hnone, (magnitude_ok printed _).1 h⟩
    · rintro ⟨-, h⟩
      exact ⟨_, rfl, (magnitude_ok printed _).2 h⟩
  · rw [if_neg hnone, if_neg hnone, KeyedFold.bind_ok]
    constructor
    · rintro ⟨cents, hcents, h⟩
      obtain ⟨htwo, hthree, hzeros, rfl⟩ := centsOfFraction_ok.1 hcents
      exact ⟨.inr ⟨htwo, hthree, hzeros⟩, (magnitude_ok printed _).1 h⟩
    · rintro ⟨hfraction, h⟩
      obtain ⟨htwo, hthree, hzeros⟩ := hfraction.resolve_left hnone
      exact ⟨_, centsOfFraction_ok.2 ⟨htwo, hthree, hzeros, rfl⟩, (magnitude_ok printed _).2 h⟩

/-- The digits of a price with its sign. -/
def unitsOf (printed : PrintedNumber) : Int :=
  if printed.negative then -(digitsOf (printed.whole ++ printed.fraction) : Int)
  else digitsOf (printed.whole ++ printed.fraction)

theorem centsFromBigInt_ok {value : Int} {source : Text} {amount : Cents} :
    centsFromBigInt value source = .ok amount ↔ amount.val = value := by
  rw [← cents_toDoubleInt_ok]
  unfold centsFromBigInt
  cases cents (toDoubleInt value) with
  | ok c => rfl
  | error e => simp

theorem parseUnitPrice_ok {price : UnitPrice} : parseUnitPrice T text = .ok price ↔
    ∃ printed, readPrinted T text = .ok printed ∧ printed.fraction.length ≠ 1 ∧ printed.fraction.length ≠ 3 ∧
      price.units = unitsOf printed ∧ price.places = printed.fraction.length ∧
      price.cents.val = divRoundHalfUp (price.units * 100) (10 ^ price.places) ∧
      price.rounded = decide (price.units * 100 % 10 ^ price.places ≠ 0) := by
  unfold parseUnitPrice
  rw [KeyedFold.bind_ok]
  refine exists_congr fun printed => and_congr_right fun _ => ?_
  by_cases hone : printed.fraction.length = 1
  · rw [if_pos hone]
    simp [hone]
  · by_cases hthree : printed.fraction.length = 3
    · rw [if_neg hone, if_pos hthree]
      simp [hthree]
    · rw [if_neg hone, if_neg hthree, KeyedFold.bind_ok]
      have hunits : (if printed.negative = true then
          -(digitsOf ((if printed.whole = [] then "0".toList else printed.whole) ++ printed.fraction) : Int)
          else digitsOf ((if printed.whole = [] then "0".toList else printed.whole) ++ printed.fraction)) =
          unitsOf printed := by
        rw [unitsOf, digitsOf_whole]
      constructor
      · rintro ⟨amount, hamount, h⟩
        obtain rfl := Except.ok.inj h
        exact ⟨hone, hthree, hunits, rfl, centsFromBigInt_ok.1 hamount, rfl⟩
      · rintro ⟨-, -, hprice, hplaces, hcents, hrounded⟩
        obtain ⟨amount, rounded, units, places⟩ := price
        dsimp only at hprice hplaces hcents hrounded
        subst hplaces
        rw [← hunits] at hprice
        subst hprice
        exact ⟨amount, centsFromBigInt_ok.2 hcents, by rw [hrounded]⟩

/-! ## The value -/

/-- The number a numeral writes. -/
def numeralValue (numeral : Text) : ℚ := digitsOf (numeral.filter Char.isDigit) / 10 ^ (fractionOf numeral).length

theorem digits_of_numeral {numeral : Text} (h : amountShape numeral = true) :
    numeral.filter Char.isDigit = (wholeOf numeral).filter (· ≠ ',') ++ fractionOf numeral := by
  obtain ⟨hwhole, hfraction, hsplit⟩ := amountShape_split h
  have hdigits : (wholeOf numeral).filter Char.isDigit = (wholeOf numeral).filter (· ≠ ',') := by
    refine List.filter_congr fun c hc => ?_
    rcases hwhole c hc with hdigit | rfl
    · have hne : c ≠ ',' := by
        rintro rfl
        exact absurd hdigit (by decide)
      rw [hdigit, decide_eq_true hne]
    · decide
  have hself : (fractionOf numeral).filter Char.isDigit = fractionOf numeral := List.filter_eq_self.2 hfraction
  rcases hsplit with ⟨hsplit, hnone⟩ | hsplit
  · rw [hnone, List.append_nil, ← hdigits]
    conv_lhs => rw [hsplit]
  · conv_lhs => rw [hsplit]
    rw [List.filter_append, List.filter_cons_of_neg (by decide), hdigits, hself]

/-- The cents of an amount are the digits of the whole numeral, the zeros past the cents apart. -/
theorem centsDigits_eq {printed : PrintedNumber} (h : AmountFraction printed.fraction) :
    (digitsOf (centsDigits printed) : ℚ) =
      digitsOf (printed.whole ++ printed.fraction) / 10 ^ printed.fraction.length * 100 := by
  unfold centsDigits
  rcases h with hnone | ⟨htwo, -, hzeros⟩
  · have hcents : digitsOf "00".toList = 0 := by decide
    rw [if_pos hnone, hnone, digitsOf_append, hcents, List.append_nil]
    push_cast
    simp
    ring
  · have hne : printed.fraction ≠ [] := fun e => by simp [e] at htwo
    have hsplit : digitsOf (printed.whole ++ printed.fraction) =
        10 ^ (printed.fraction.length - 2) * digitsOf (printed.whole ++ printed.fraction.take 2) := by
      conv_lhs => rw [← List.take_append_drop 2 printed.fraction]
      rw [← List.append_assoc, digitsOf_append, digitsOf_zeros hzeros, List.length_drop, Nat.add_zero]
    have hpow : (10 : ℚ) ^ printed.fraction.length = 10 ^ (printed.fraction.length - 2) * 100 := by
      rw [show (100 : ℚ) = 10 ^ 2 by norm_num, ← pow_add]
      congr 1
      omega
    rw [if_neg hne, hsplit, hpow]
    push_cast
    field_simp

/-- The digits, commas and points of a text. -/
def numeralOf (text : Text) : Text := text.filter isNumeral

/-- The text in capitals, as `readPrinted` reads it. -/
def written (T : CaseTables) (text : Text) : Text := T.toUpperCase (trim text)

/-- The number the text prints with its sign marks. -/
def signedValue (T : CaseTables) (text : Text) : ℚ :=
  if Odd (signMarks (written T text)) then -numeralValue (numeralOf text) else numeralValue (numeralOf text)

theorem numeralOf_written (hT : UpperCase T) (text : Text) : (written T text).filter isNumeral = numeralOf text := by
  have hplain : ∀ c, isNumeral c = true → c.toNat < 128 ∧ c.isAlpha = false := fun c hc =>
    ⟨(isNumeral_plain hc).1, (isNumeral_plain hc).2.1⟩
  obtain ⟨lead, tail, hlead, htail, hsplit⟩ := trim_split text
  have hblank : ∀ s : Text, Blank s → s.filter isNumeral = [] := fun s hs =>
    List.filter_eq_nil_iff.2 fun c hc hnumeral => absurd (hs c hc) (by simp [(isNumeral_plain hnumeral).2.2.1])
  rw [written, filter_toUpperCase hT hplain, numeralOf]
  conv_rhs => rw [hsplit]
  rw [List.filter_append, List.filter_append, hblank lead hlead, hblank tail htail, List.nil_append, List.append_nil]

theorem Printing.value_eq (hT : UpperCase T) {printed : PrintedNumber} {parens : Bool} {marker : Option Bool}
    {core sign numeral : Text} (h : Printing (written T text) printed parens marker core sign numeral) :
    signedValue T text = (if printed.negative then -1 else 1) *
      (digitsOf (printed.whole ++ printed.fraction) / 10 ^ printed.fraction.length : ℚ) := by
  have hnumeral : numeralOf text = numeral := (numeralOf_written hT text).symm.trans h.numeral_eq
  have hvalue : numeralValue (numeralOf text) =
      (digitsOf (printed.whole ++ printed.fraction) / 10 ^ printed.fraction.length : ℚ) := by
    rw [hnumeral, numeralValue, digits_of_numeral h.shape, h.printed]
  unfold signedValue
  rw [hvalue]
  by_cases hodd : Odd (signMarks (written T text))
  · rw [if_pos hodd, if_pos (h.negative_iff.2 hodd), neg_one_mul]
  · rw [if_neg hodd, if_neg fun hneg => hodd (h.negative_iff.1 hneg), one_mul]

/-! ## Accepted texts -/

/-- The text prints one numeral, well separated, and is read as that numeral with its sign marks. -/
structure PrintsOneNumeral (T : CaseTables) (text : Text) : Prop where
  together : OneRun (fun c => isNumeral c = true) text
  /-- Commas stand before the point, between groups of three digits. -/
  grouped : ',' ∉ fractionOf (numeralOf text) ∧ ∀ first rest, (wholeOf (numeralOf text)).splitOn ',' = first :: rest →
    rest ≠ [] → 1 ≤ first.length ∧ first.length ≤ 3 ∧ ∀ group ∈ rest, group.length = 3
  placed : MarksPlaced (written T text)
  amount : ∀ amount, parseMoneyToCents T text = .ok amount → (amount.val : ℚ) = signedValue T text * 100
  price : ∀ price, parseUnitPrice T text = .ok price → (price.units : ℚ) / 10 ^ price.places = signedValue T text

/-- One of the parsers reads the text. -/
def Accepted (T : CaseTables) (text : Text) : Prop :=
  (∃ amount, parseMoneyToCents T text = .ok amount) ∨ ∃ price, parseUnitPrice T text = .ok price

/-- White space, `$`, or a letter of `USD` in either case. -/
def Decorates (T : CaseTables) (c : Char) : Prop :=
  isSpace c = true ∨ c = '$' ∨ ∀ d ∈ T.upper c, d = 'U' ∨ d = 'S' ∨ d = 'D'

theorem Accepted.printing (h : Accepted T text) : ∃ printed parens marker core sign numeral,
    readPrinted T text = .ok printed ∧ Printing (written T text) printed parens marker core sign numeral := by
  obtain ⟨printed, hprinted⟩ : ∃ printed, readPrinted T text = .ok printed := by
    rcases h with ⟨amount, h⟩ | ⟨price, h⟩
    · obtain ⟨printed, hprinted, -⟩ := parseMoneyToCents_ok.1 h
      exact ⟨printed, hprinted⟩
    · obtain ⟨printed, hprinted, -⟩ := parseUnitPrice_ok.1 h
      exact ⟨printed, hprinted⟩
  obtain ⟨parens, marker, core, sign, numeral, hprinting⟩ := readPrinted_printing hprinted
  exact ⟨printed, parens, marker, core, sign, numeral, hprinted, hprinting⟩

/-- Between two digits, commas or points of an accepted text stand others, and decorations. -/
theorem Accepted.between (hT : UpperCase T) (h : Accepted T text) :
    Between (fun c => isNumeral c = true) (fun c => isNumeral c = true ∨ Decorates T c) text := by
  obtain ⟨printed, parens, marker, core, sign, numeral, -, hprinting⟩ := h.printing
  obtain ⟨lead, tail, hlead, htail, hsplit⟩ := trim_split text
  have hcaseless : ∀ c, isNumeral c = true ∨ isSpace c = true ∨ c = '$' → isCaseless c = true := by
    rintro c (hc | hc | rfl)
    · simp [isCaseless, (isNumeral_plain hc).1, (isNumeral_plain hc).2.1]
    · simp [isCaseless, hc]
    · decide
  have hupper : ∀ c, isNumeral c = true → T.upper c = [c] := fun c hc =>
    hT.upper_eq_self (isNumeral_plain hc).1 (isNumeral_plain hc).2.1
  have hkept : ∀ {s : Text}, (∃ d ∈ s, isNumeral d = true) → ∃ d ∈ T.toUpperCase s, isNumeral d = true := by
    rintro s ⟨d, hd, hnumeral⟩
    exact ⟨d, List.mem_flatMap.2 ⟨d, hd, by rw [hupper d hnumeral]; exact List.mem_singleton_self d⟩, hnumeral⟩
  have htrimmed : Between (fun c => isNumeral c = true) (fun c => isNumeral c = true ∨ Decorates T c) (trim text) := by
    intro before c after hc hbefore hafter
    have himage : ∀ d ∈ T.upper c, isNumeral d = true ∨ isDecoration d = true := by
      intro d hd
      obtain ⟨x, y, hxy⟩ := List.append_of_mem hd
      refine hprinting.between (T.toUpperCase before ++ x) d (y ++ T.toUpperCase after) ?_ ?_ ?_
      · rw [written, hc]
        simp [CaseTables.toUpperCase, hxy]
      · obtain ⟨e, he, hnumeral⟩ := hkept hbefore
        exact ⟨e, List.mem_append_left _ he, hnumeral⟩
      · obtain ⟨e, he, hnumeral⟩ := hkept hafter
        exact ⟨e, List.mem_append_right _ he, hnumeral⟩
    by_cases hself : ∃ d ∈ T.upper c, isNumeral d = true ∨ isSpace d = true ∨ d = '$'
    · obtain ⟨d, hd, hplain⟩ := hself
      obtain rfl := hT.only c d hd (hcaseless d hplain)
      rcases hplain with hnumeral | hspace | hdollar
      · exact .inl hnumeral
      · exact .inr (.inl hspace)
      · exact .inr (.inr (.inl hdollar))
    · refine .inr (.inr (.inr fun d hd => ?_))
      have hnone : ¬ (isNumeral d = true ∨ isSpace d = true ∨ d = '$') := fun hplain => hself ⟨d, hd, hplain⟩
      rw [not_or, not_or] at hnone
      have hdecoration := (himage d hd).resolve_left hnone.1
      simpa [isDecoration, hnone.2.1, hnone.2.2, or_assoc] using hdecoration
  have hblank : ∀ s : Text, Blank s → ∀ c ∈ s, ¬ isNumeral c = true := fun s hs c hc hnumeral =>
    absurd (hs c hc) (by simp [(isNumeral_plain hnumeral).2.2.1])
  rw [hsplit]
  exact htrimmed.pad (hblank lead hlead) (hblank tail htail)

/-- An accepted text prints the one numeral it is read as, exactly where no decoration stands between two characters
of the numeral. -/
theorem prints_one_numeral_iff (hT : UpperCase T) (h : Accepted T text) : PrintsOneNumeral T text ↔
    ∀ before c after, text = before ++ c :: after → Decorates T c →
      (∀ d ∈ before, isNumeral d = false) ∨ ∀ d ∈ after, isNumeral d = false := by
  constructor
  · intro hprints before c after hc hdecorates
    by_contra hboth
    rw [not_or] at hboth
    have hnumeral : isNumeral c = true := by
      refine hprints.together.between before c after hc ?_ ?_
      · simpa using hboth.1
      · simpa using hboth.2
    obtain ⟨hascii, hcase, hspace, hdecoration⟩ := isNumeral_plain hnumeral
    rcases hdecorates with hblank | rfl | husd
    · rw [hblank] at hspace
      cases hspace
    · exact absurd hnumeral (by decide)
    · rcases husd c (by rw [hT.upper_eq_self hascii hcase]; exact List.mem_singleton_self c) with rfl | rfl | rfl <;>
        exact absurd hnumeral (by decide)
  · intro hundivided
    obtain ⟨printed, parens, marker, core, sign, numeral, hprinted, hprinting⟩ := h.printing
    have hnumeral : numeralOf text = numeral := (numeralOf_written hT text).symm.trans hprinting.numeral_eq
    refine ⟨Between.oneRun fun before c after hc hbefore hafter => ?_, ⟨?_, ?_⟩, hprinting.placed, ?_, ?_⟩
    · refine (h.between hT before c after hc hbefore hafter).resolve_right fun hdecorates => ?_
      obtain ⟨d, hd, hd'⟩ := hbefore
      obtain ⟨e, he, he'⟩ := hafter
      rcases hundivided before c after hc hdecorates with hnone | hnone
      · rw [hnone d hd] at hd'
        cases hd'
      · rw [hnone e he] at he'
        cases he'
    · intro hcomma
      have hdigit := (amountShape_split hprinting.shape).2.1 ',' (hnumeral ▸ hcomma)
      exact absurd hdigit (by decide)
    · intro first rest hgroups hrest
      have hgrouped := hprinting.grouped
      rw [hnumeral] at hgroups
      unfold groupedInThrees at hgrouped
      rw [hgroups] at hgrouped
      simp [hrest] at hgrouped
      exact ⟨List.length_pos_iff.2 hgrouped.1.1, hgrouped.1.2, hgrouped.2⟩
    · intro amount hamount
      obtain ⟨printed', hprinted', hfraction, hval⟩ := parseMoneyToCents_ok.1 hamount
      obtain rfl := Except.ok.inj (hprinted.symm.trans hprinted')
      rw [hprinting.value_eq hT, mul_assoc, ← centsDigits_eq hfraction, hval]
      split <;> simp
    · intro price hprice
      obtain ⟨printed', hprinted', -, -, hunits, hplaces, -⟩ := parseUnitPrice_ok.1 hprice
      obtain rfl := Except.ok.inj (hprinted.symm.trans hprinted')
      rw [hprinting.value_eq hT, hunits, hplaces, unitsOf]
      split <;> simp [neg_div]

end

/-- `USD 1,234.56 CR` prints one numeral. -/
theorem usd_credit_prints_one : PrintsOneNumeral asciiCase "USD 1,234.56 CR".toList ↔
    ∀ before c after, "USD 1,234.56 CR".toList = before ++ c :: after → Decorates asciiCase c →
      (∀ d ∈ before, isNumeral d = false) ∨ ∀ d ∈ after, isNumeral d = false :=
  prints_one_numeral_iff asciiCase_upperCase
    (.inl ⟨⟨-123456, by decide, by decide⟩, by decide +kernel⟩)

/-- `12 34` is accepted and prints two numbers. -/
theorem two_numbers_joined : ¬ ∀ text, Accepted asciiCase text → PrintsOneNumeral asciiCase text := by
  intro h
  have haccepted : Accepted asciiCase "12 34".toList := .inl ⟨⟨123400, by decide, by decide⟩, by decide +kernel⟩
  have hspace := (h _ haccepted).together.between "12".toList ' ' "34".toList (by decide) ⟨'1', by decide, by decide⟩
    ⟨'3', by decide, by decide⟩
  exact absurd hspace (by decide)

end Recouple
