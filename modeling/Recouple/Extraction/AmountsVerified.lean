import Recouple.Core.MoneyRoundTrips
import Recouple.Extraction.AmountSpans
import Recouple.Extraction.QuoteCheck

/-!
# A verified amount is printed whole: `amounts.ts`, `verify.ts`

* **`verified_amounts_whole`**: where `checkQuote` verifies a money field, the page it names and the quote, as the
  tier that matched read them, each print a number whole that is the field's value; where the tier keeps positions,
  it is printed on an occurrence of the quote.
* `foldNumberGlyphs_touched`: the loop of `foldNumberGlyphs` ends with a text it would leave as it is.
-/

namespace Recouple.Quotes
open Js Js.Pattern

/-! ## `foldNumberGlyphs` -/

theorem mem_touching {c : Place} {r : Text × Place} (h : r ∈ touching c) :
    ∃ x xs, c.after = x :: xs ∧ isGlyph x = true ∧ r = ([numberGlyph x], ⟨x :: c.before, xs⟩) := by
  have hglyph : ∀ {c : Place} {r : Text × Place}, r ∈ captured (one isGlyph) c →
      ∃ x xs, c.after = x :: xs ∧ isGlyph x = true ∧ r = ([x], ⟨x :: c.before, xs⟩) := by
    intro c r hr
    obtain ⟨a, d, hd, rfl⟩ := mem_captured.1 hr
    obtain ⟨x, xs, hafter, hx, hplace⟩ := mem_one.1 hd
    replace hplace : d = ⟨x :: c.before, xs⟩ := hplace
    refine ⟨x, xs, hafter, hx, ?_⟩
    rw [hplace, hafter, List.length_cons, Nat.add_sub_cancel_left]
    rfl
  obtain ⟨glyph, d, hd, h⟩ := mem_bind.1 h
  cases mem_pure.1 h
  rcases mem_either.1 hd with hd | hd
  · obtain ⟨a, e, he, hglyphs⟩ := mem_bind.1 hd
    have hsame : e = c := by
      unfold behind at he
      split at he
      · exact (Prod.mk.inj (List.mem_singleton.1 he)).2
      · cases he
    rw [hsame] at hglyphs
    obtain ⟨x, xs, hafter, hx, heq⟩ := hglyph hglyphs
    cases heq
    exact ⟨x, xs, hafter, hx, rfl⟩
  · obtain ⟨glyph', e, he, hd⟩ := mem_bind.1 hd
    obtain ⟨x, xs, hafter, hx, heq⟩ := hglyph he
    cases heq
    obtain ⟨a, e', he', hd⟩ := mem_bind.1 hd
    cases (mem_ahead.1 he').2
    cases mem_pure.1 hd
    exact ⟨x, xs, hafter, hx, rfl⟩

/-- One round leaves each character, or folds a letter into a digit. -/
def Folded (text next : Text) : Prop := List.Forall₂ (fun x y => y = x ∨ isGlyph x = true ∧ y = numberGlyph x) text next

theorem replaceFrom_folded : ∀ (n : Nat) (c : Place), c.after.length < n → Folded c.after (replaceFrom touching n c)
  | 0, _, h => absurd h (Nat.not_lt_zero _)
  | n + 1, c, h => by
    unfold replaceFrom
    split
    · rename_i hafter
      rw [hafter]
      exact .nil
    · rename_i x xs hfirst hafter
      rw [hafter, List.length_cons] at h
      rw [hafter]
      exact .cons (.inl rfl) (replaceFrom_folded n ⟨x :: c.before, xs⟩ (by dsimp only; omega))
    · rename_i w d hfirst
      obtain ⟨x, xs, hafter, hx, heq⟩ := mem_touching (mem_of_first hfirst)
      cases heq
      rw [hafter, List.length_cons] at h
      rw [if_pos (by rw [hafter, List.length_cons]; exact Nat.lt_succ_self _), hafter]
      exact .cons (.inr ⟨hx, rfl⟩) (replaceFrom_folded n ⟨x :: c.before, xs⟩ (by dsimp only; omega))

theorem not_isGlyph_numberGlyph {x : Char} (h : isGlyph x = true) : isGlyph (numberGlyph x) = false := by
  have hall : "oOiIlsSbBzZg".toList.all (fun x => !isGlyph (numberGlyph x)) = true := by decide
  have hx := List.all_eq_true.1 hall x (List.contains_iff_mem.1 h)
  simpa using hx

/-- A round that changes the text leaves fewer letters to fold. -/
theorem count_folded {text next : Text} (h : Folded text next) :
    next = text ∨ next.countP isGlyph < text.countP isGlyph := by
  have key : next.countP isGlyph ≤ text.countP isGlyph ∧ (next = text ∨ next.countP isGlyph < text.countP isGlyph) := by
    induction h with
    | nil => exact ⟨le_rfl, .inl rfl⟩
    | @cons x y text next hxy _ ih =>
      obtain ⟨hle, hrest⟩ := ih
      rw [List.countP_cons, List.countP_cons]
      rcases hxy with rfl | ⟨hx, rfl⟩
      · refine ⟨Nat.add_le_add_right hle _, ?_⟩
        rcases hrest with rfl | hlt
        · exact .inl rfl
        · exact .inr (Nat.add_lt_add_right hlt _)
      · rw [hx, not_isGlyph_numberGlyph hx, if_neg Bool.false_ne_true, if_pos rfl]
        exact ⟨by omega, .inr (by omega)⟩
  exact key.2

theorem foldFrom_touched : ∀ (n : Nat) (text : Text), text.countP isGlyph < n →
    replace touching (foldFrom n text) = foldFrom n text
  | 0, _, h => absurd h (Nat.not_lt_zero _)
  | n + 1, text, h => by
    unfold foldFrom
    dsimp only
    split
    · assumption
    · rename_i hchanged
      have hfolded : Folded text (replace touching text) := replaceFrom_folded _ (.start text) (Nat.lt_succ_self _)
      exact foldFrom_touched n _ (by
        have hlt := (count_folded hfolded).resolve_left hchanged
        omega)

/-- The loop has ended: one more round would leave the text as it is. -/
theorem foldNumberGlyphs_touched (text : Text) : replace touching (foldNumberGlyphs text) = foldNumberGlyphs text :=
  foldFrom_touched _ _ (Nat.lt_succ_of_le List.countP_le_length)

/-! ## What a check says -/

section
variable (T : CaseTables) (L : LetterClass)

/-- Two texts of the same money: the same cents, or exactly the same price. -/
def SameMoney : MoneyKind → Text → Text → Prop
  | .amount, a, b => ∃ amount, parseMoneyToCents T a = .ok amount ∧ parseMoneyToCents T b = .ok amount
  | .unitPrice, a, b => ∃ p q, parseUnitPrice T a = .ok p ∧ parseUnitPrice T b = .ok q ∧ p.value = q.value

variable {T} in
theorem sameAmount_iff {kind : MoneyKind} {a b : Text} : sameAmount T kind a b = true ↔ SameMoney T kind a b := by
  unfold sameAmount SameMoney
  cases kind with
  | amount =>
    dsimp only
    cases parseMoneyToCents T a with
    | error e => simp
    | ok x =>
      cases parseMoneyToCents T b with
      | error e => simp
      | ok y =>
        constructor
        · intro h
          exact ⟨x, rfl, by rw [eq_of_beq h]⟩
        · rintro ⟨z, hx, hy⟩
          cases hx
          cases hy
          exact beq_self_eq_true _
  | unitPrice =>
    dsimp only
    cases parseUnitPrice T a with
    | error e => simp
    | ok p =>
      cases parseUnitPrice T b with
      | error e => simp
      | ok q => simp [compareUnitPrices_eq_zero]

/-- The text prints the value whole: one of its numbers, read to its own ends, is the value as it is printed there. -/
def PrintsWhole (kind : MoneyKind) (value text : Text) (at_ : PrintedAmount → Prop) : Prop :=
  ∃ m ∈ matchAll (amountPattern L) text, ∃ n ∈ amountsOf m,
    m.value.digits = (text.drop m.value.digitsStart).take (m.value.digitsEnd - m.value.digitsStart) ∧
    n.start ≤ m.value.digitsStart ∧ m.value.digitsStart < m.value.digitsEnd ∧ m.value.digitsEnd ≤ n.end ∧
    ReadWhole text m.value.digitsStart m.value.digitsEnd ∧ SameMoney T kind n.text value ∧ at_ n

/-- The printed amount overlaps an occurrence of the quote. -/
def OnQuote (page quote : Text) (n : PrintedAmount) : Prop :=
  ∃ i, (page.drop i).take quote.length = quote ∧ n.start < i + quote.length ∧ i < n.end

variable {T L}

theorem printsWhole_of_any {kind : MoneyKind} {value text : Text} {p : PrintedAmount → Bool}
    (h : (printedAmounts L text).any (fun n => p n && sameAmount T kind n.text value) = true) :
    PrintsWhole T L kind value text fun n => p n = true := by
  obtain ⟨n, hn, hsame⟩ := List.any_eq_true.1 h
  obtain ⟨m, hm, hn⟩ := List.mem_flatMap.1 hn
  obtain ⟨hp, hsame⟩ := Bool.and_eq_true_iff.1 hsame
  have hwhole := (matches_whole L text).1 m hm
  have hspan := mem_amountsOf hn
  have hstart : n.start = startOf m := (Prod.mk.inj hspan).1
  have hend : n.end = m.stop.index := (Prod.mk.inj hspan).2
  exact ⟨m, hm, n, hn, hwhole.slice, hstart ▸ hwhole.span, hwhole.some, hend ▸ hwhole.stop, hwhole.whole,
    sameAmount_iff.1 hsame, hp⟩

theorem onward_text : ∀ (before after : Text) {c : Place}, c ∈ Place.onward before after →
    c.text = before.reverse ++ after
  | before, [], c, h => by
    rw [List.mem_singleton.1 h, Place.text]
  | before, x :: xs, c, h => by
    rcases List.mem_cons.1 h with rfl | h
    · rfl
    · rw [onward_text (x :: before) xs h, List.reverse_cons, List.append_assoc, List.singleton_append]

/-- Each span of a quote is an occurrence of it. -/
theorem mem_spansOf {haystack needle : Text} {span : Span} (h : span ∈ spansOf haystack needle) :
    (haystack.drop span.start).take needle.length = needle ∧ span.end = span.start + needle.length := by
  unfold spansOf at h
  split at h
  · cases h
  · obtain ⟨c, hc, rfl⟩ := List.mem_map.1 h
    obtain ⟨hmem, hneedle⟩ := List.mem_filter.1 hc
    refine ⟨?_, rfl⟩
    have htext : haystack = c.before.reverse ++ c.after := (onward_text [] haystack hmem).symm
    dsimp only
    rw [htext, List.drop_left' (by rw [List.length_reverse]; rfl)]
    exact (List.prefix_iff_eq_take.1 (List.isPrefixOf_iff_prefix.1 hneedle)).symm

theorem amountPrintedWhole_prints {kind : MoneyKind} {value quote page : Text} {spans : Option (List Span)}
    (h : amountPrintedWhole T L kind value quote page spans = true) :
    PrintsWhole T L kind value quote (fun _ => True) ∧
    PrintsWhole T L kind value page (fun n => ∀ l, spans = some l →
      ∃ span ∈ l, n.start < span.end ∧ span.start < n.end) := by
  obtain ⟨hquote, hpage⟩ := Bool.and_eq_true_iff.1 h
  constructor
  · obtain ⟨m, hm, n, hn, hdigits, hspan, hsome, hend, hwhole, hsame, -⟩ :=
      printsWhole_of_any (p := fun _ => true) hquote
    exact ⟨m, hm, n, hn, hdigits, hspan, hsome, hend, hwhole, hsame, trivial⟩
  · obtain ⟨m, hm, n, hn, hdigits, hspan, hsome, hend, hwhole, hsame, hspans⟩ := printsWhole_of_any hpage
    refine ⟨m, hm, n, hn, hdigits, hspan, hsome, hend, hwhole, hsame, ?_⟩
    rintro l rfl
    obtain ⟨span, hmem, hover⟩ := List.any_eq_true.1 hspans
    rw [Bool.and_eq_true, decide_eq_true_eq, decide_eq_true_eq] at hover
    exact ⟨span, hmem, hover⟩

/-- The tiers that keep positions are the first two. -/
theorem matchOnPage_positioned {quote page : Text} {found : PageMatch} (h : matchOnPage T L quote page = some found) :
    found.positioned = true ↔ found.matchedBy = .exact ∨ found.matchedBy = .separator := by
  unfold matchOnPage at h
  dsimp only at h
  split_ifs at h <;> cases h <;> simp

/-- What a verified answer with a readable amount to find comes from. -/
theorem withAmount_verified {found : QuoteCheck} {pageMatch : PageMatch} {kind : MoneyKind} {value : Text}
    (hdigit : value.any Char.isDigit = true)
    (h : (withAmount T L found pageMatch (some ⟨kind, value⟩)).verified = some true) :
    withAmount T L found pageMatch (some ⟨kind, value⟩) = { found with amountPrintedWhole := some true } ∧
    amountPrintedWhole T L kind value pageMatch.quoteAsRead pageMatch.pageAsRead
      (if pageMatch.positioned then some (spansOf pageMatch.pageAsRead pageMatch.quoteAsRead) else none) = true := by
  unfold withAmount at h ⊢
  dsimp only at h ⊢
  rw [hdigit] at h ⊢
  rw [if_neg (by simp)] at h ⊢
  by_cases hreads : (!readsAsMoney T kind value) = true
  · rw [if_pos hreads] at h
    cases h
  · rw [if_neg hreads] at h ⊢
    by_cases hprinted : amountPrintedWhole T L kind value pageMatch.quoteAsRead pageMatch.pageAsRead
        (if pageMatch.positioned then some (spansOf pageMatch.pageAsRead pageMatch.quoteAsRead) else none) = true
    · rw [if_pos hprinted]
      exact ⟨rfl, hprinted⟩
    · rw [if_neg hprinted] at h
      cases h

/-- The value is printed whole in the quote and on the page, as they were read. -/
def PrintedOn (T : CaseTables) (L : LetterClass) (kind : MoneyKind) (value : Text) (found : PageMatch) : Prop :=
  PrintsWhole T L kind value found.quoteAsRead (fun _ => True) ∧
  PrintsWhole T L kind value found.pageAsRead (fun n =>
    found.matchedBy = .exact ∨ found.matchedBy = .separator → OnQuote found.pageAsRead found.quoteAsRead n)

theorem printedOn {kind : MoneyKind} {value quote page : Text} {found : PageMatch}
    (hfound : matchOnPage T L quote page = some found)
    (h : amountPrintedWhole T L kind value found.quoteAsRead found.pageAsRead
      (if found.positioned then some (spansOf found.pageAsRead found.quoteAsRead) else none) = true) :
    PrintedOn T L kind value found := by
  obtain ⟨hquote, m, hm, n, hn, hdigits, hspan, hsome, hend, hwhole, hsame, hspans⟩ := amountPrintedWhole_prints h
  refine ⟨hquote, m, hm, n, hn, hdigits, hspan, hsome, hend, hwhole, hsame, fun htier => ?_⟩
  rw [← matchOnPage_positioned hfound] at htier
  obtain ⟨span, hmem, hfrom, hupto⟩ := hspans _ (if_pos htier)
  obtain ⟨hoccurs, hlength⟩ := mem_spansOf hmem
  exact ⟨span.start, hoccurs, hlength ▸ hfrom, hupto⟩

theorem mem_holding {quote : Text} {pageText : List Text} {k : Nat} {found : PageMatch}
    (h : (k, found) ∈ holding T L quote pageText) :
    ∃ i page, k = i + 1 ∧ pageText[i]? = some page ∧ matchOnPage T L quote page = some found := by
  obtain ⟨⟨page, i⟩, hmem, h⟩ := List.mem_filterMap.1 h
  obtain ⟨found', hfound, heq⟩ := Option.map_eq_some_iff.1 h
  cases heq
  exact ⟨i, page, rfl, List.mem_zipIdx_iff_getElem?.1 hmem, hfound⟩

/-- The page an answer names: the one it was found on, or the one cited. -/
def NamesPage (check : QuoteCheck) (sourcePage : SourcePage) (i : Nat) : Prop :=
  check.foundOnPage = some (i + 1) ∨ check.foundOnPage = none ∧ sourcePage = .finite ((i : ℚ) + 1)

theorem citedPage_some {pageText : List Text} {sourcePage : SourcePage} {page : Text}
    (h : citedPage pageText sourcePage = some page) :
    ∃ i : Nat, pageText[i]? = some page ∧ sourcePage = .finite ((i : ℚ) + 1) := by
  cases sourcePage with
  | notFinite printed => cases h
  | finite x =>
    unfold citedPage at h
    dsimp only at h
    split at h
    · rename_i hpage
      refine ⟨_, h, ?_⟩
      congr 1
      have hx : (x.num : ℚ) = x := Rat.den_eq_one_iff x |>.1 hpage.1
      have hnum : ((x.num - 1).toNat : ℤ) = x.num - 1 := Int.toNat_of_nonneg (by omega)
      have hcast : (((x.num - 1).toNat : ℤ) : ℚ) = x.num - 1 := by rw [hnum]; push_cast; ring
      rw [Int.cast_natCast] at hcast
      rw [hcast, hx]
      ring
    · cases h

theorem checkQuote_verified {quote : Text} {sourcePage : SourcePage} {pageText : Option (List Text)} {kind : MoneyKind}
    {value : Text} (hdigit : value.any Char.isDigit = true)
    (h : (checkQuote T L quote sourcePage pageText (some ⟨kind, value⟩)).verified = some true) :
    ∃ pages i page found, pageText = some pages ∧ pages[i]? = some page ∧
      NamesPage (checkQuote T L quote sourcePage pageText (some ⟨kind, value⟩)) sourcePage i ∧
      matchOnPage T L quote page = some found ∧
      (checkQuote T L quote sourcePage pageText (some ⟨kind, value⟩)).matchedBy = some found.matchedBy ∧
      PrintedOn T L kind value found := by
  unfold checkQuote at h ⊢
  split at h
  · cases h
  · cases h
  · rename_i pages hne
    cases hcited : citedPage pages sourcePage with
    | none =>
      rw [hcited] at h
      dsimp only at h ⊢
      unfold checkElsewhere at h ⊢
      dsimp only at h ⊢
      split at h
      · rename_i k found hholding
        obtain ⟨i, page, rfl, hpage, hfound⟩ := mem_holding (hholding ▸ List.mem_singleton_self (k, found))
        obtain ⟨heq, hprinted⟩ := withAmount_verified hdigit h
        refine ⟨pages, i, page, found, rfl, hpage, ?_, hfound, ?_, printedOn hfound hprinted⟩
        · rw [heq]
          exact .inl rfl
        · rw [heq]
      · cases h
      · cases h
    | some page =>
      rw [hcited] at h
      dsimp only at h ⊢
      obtain ⟨i, hpage, hsource⟩ := citedPage_some hcited
      cases hfound : matchOnPage T L quote page with
      | none =>
        rw [hfound] at h
        cases h
      | some found =>
        rw [hfound] at h
        dsimp only at h ⊢
        obtain ⟨heq, hprinted⟩ := withAmount_verified hdigit h
        refine ⟨pages, i, page, found, rfl, hpage, ?_, hfound, ?_, printedOn hfound hprinted⟩
        · rw [heq]
          exact .inr ⟨rfl, hsource⟩
        · rw [heq]

end

/-- **A verified amount is printed whole**, and the numbers of a text are its digits' own: each digit is in one span, and
no number is next to a digit, joined to one, or part of a longer number printed there. -/
theorem verified_amounts_whole (T : CaseTables) (L : LetterClass) :
    (∀ quote sourcePage pageText kind value, value.any Char.isDigit = true →
      (checkQuote T L quote sourcePage pageText (some ⟨kind, value⟩)).verified = some true →
      ∃ pages i page found, pageText = some pages ∧ pages[i]? = some page ∧
        NamesPage (checkQuote T L quote sourcePage pageText (some ⟨kind, value⟩)) sourcePage i ∧
        matchOnPage T L quote page = some found ∧
        (checkQuote T L quote sourcePage pageText (some ⟨kind, value⟩)).matchedBy = some found.matchedBy ∧
        PrintedOn T L kind value found) ∧
    ∀ text,
      (∀ p, digitAt text p →
        ∃! span : Nat × Nat, span ∈ (printedAmounts L text).map PrintedAmount.span ∧ span.1 ≤ p ∧ p < span.2) ∧
      ∀ m ∈ matchAll (amountPattern L) text, ReadWhole text m.value.digitsStart m.value.digitsEnd ∧
        ∀ s e, NumberAt text s e → s ≤ m.value.digitsStart → m.value.digitsEnd ≤ e →
          s = m.value.digitsStart ∧ e = m.value.digitsEnd :=
  ⟨fun _ _ _ _ _ hdigit h => checkQuote_verified hdigit h, fun text => ⟨fun _ h => digit_spanned L text h, fun m hm =>
    have hm' := (matches_whole L text).1 m hm
    ⟨hm'.whole, hm'.maximal⟩⟩⟩

/-- An amount after a dot leader, quoted without it. -/
theorem leader_verified : ∃ pages i page found, some ["Net....5.00".toList] = some pages ∧ pages[i]? = some page ∧
    NamesPage (checkQuote asciiCase ⟨Char.isAlphanum, Char.isAlphanum⟩ "Net 5.00".toList (.finite 1)
      (some ["Net....5.00".toList]) (some ⟨.amount, "$5.00".toList⟩)) (.finite 1) i ∧
    matchOnPage asciiCase ⟨Char.isAlphanum, Char.isAlphanum⟩ "Net 5.00".toList page = some found ∧
    (checkQuote asciiCase ⟨Char.isAlphanum, Char.isAlphanum⟩ "Net 5.00".toList (.finite 1)
      (some ["Net....5.00".toList]) (some ⟨.amount, "$5.00".toList⟩)).matchedBy = some found.matchedBy ∧
    PrintedOn asciiCase ⟨Char.isAlphanum, Char.isAlphanum⟩ .amount "$5.00".toList found :=
  (verified_amounts_whole asciiCase ⟨Char.isAlphanum, Char.isAlphanum⟩).1 "Net 5.00".toList (.finite 1)
    (some ["Net....5.00".toList]) .amount "$5.00".toList (by decide +kernel) (by decide +kernel)

end Recouple.Quotes
