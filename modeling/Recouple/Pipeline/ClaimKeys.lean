import Recouple.Lib.Cuts
import Recouple.Pipeline.RemittanceLines

/-!
# What a claim id says about the line it came from

A claim id is the payment reference, a colon, the invoice and, where the invoice repeats, `#` and the
line's ordinal; two ids are compared through `identifierMatchKey`. Nothing escapes the two separators, so
an id can be put together in more than one way: `Recombines` lists them, and `claimIds_identify_iff` says
that they are the only ones.

The pieces are compared as they stand in the id, where the lower case of a `Σ` at the end of a piece
depends on what follows it (`foldedReference`, `foldedInvoice`).
-/

namespace Recouple.Pipeline
open Js Extraction

/-! ## Pieces -/

/-- What `lineClaimIds` puts an id together from: the reference, the invoice, and the line's ordinal where
the invoice is printed on several lines. -/
structure Pieces where
  reference : Option Text
  invoice : Text
  ordinal : Option Nat

def suffix (ordinal : Option Nat) : Text := (ordinal.map fun n => '#' :: decimal n).getD []

def Pieces.claimId (k : Pieces) : Text := lineClaimId k.reference k.invoice ++ suffix k.ordinal

section
variable (T : CaseTables)

/-- The 1-based ordinal of a line among those that print its invoice. -/
def occurrence (rows : List RemittanceLine) (i : Nat) : Option Nat :=
  (invoiceAt rows i).map fun invoice => (groupOf T rows (identifierMatchKey T invoice)).idxOf i + 1

/-- The pieces of a line's claim id. -/
def piecesOf (advice : RemittanceAdvice) (i : Nat) : Option Pieces :=
  (invoiceAt advice.lines i).map fun invoice =>
    { reference := printedIdentifier advice.payment_reference
      invoice := invoice
      ordinal :=
        let group := groupOf T advice.lines (identifierMatchKey T invoice)
        if group.length = 1 then none else some (group.idxOf i + 1) }

/-- What stands before the invoice in the collapsed id. -/
def Pieces.front (k : Pieces) : Text := (k.reference.map fun reference => collapse reference ++ [':']).getD []

/-- The lower case of the reference as it stands in the id. -/
def Pieces.foldedReference (k : Pieces) : Text :=
  T.lowerWithin [] (collapse (k.reference.getD [])) (':' :: (collapse k.invoice ++ suffix k.ordinal))

/-- The lower case of the invoice as it stands in the id. -/
def Pieces.foldedInvoice (k : Pieces) : Text :=
  T.lowerWithin k.front.reverse (collapse k.invoice) (suffix k.ordinal)

/-- Everything after the reference and its colon. -/
def Pieces.foldedTail (k : Pieces) : Text := k.foldedInvoice T ++ suffix k.ordinal

/-- References and invoices fold alike, each on its own. -/
def Pieces.SameTexts (k l : Pieces) : Prop :=
  k.reference.map (identifierMatchKey T) = l.reference.map (identifierMatchKey T) ∧
    identifierMatchKey T k.invoice = identifierMatchKey T l.invoice

/-- After one reference: an invoice printed once that ends like an ordinal; or texts that fold alike only
where they stand. -/
def Pieces.InvoiceRecombines (k l : Pieces) : Prop :=
  (k.ordinal = none ∧ ∃ n, l.ordinal = some n ∧ k.foldedInvoice T = l.foldedInvoice T ++ '#' :: decimal n) ∨
  (l.ordinal = none ∧ ∃ n, k.ordinal = some n ∧ l.foldedInvoice T = k.foldedInvoice T ++ '#' :: decimal n) ∨
  (k.foldedInvoice T = l.foldedInvoice T ∧ k.ordinal = l.ordinal ∧ ¬ k.SameTexts T l)

/-- The ways two different lines build one id: a colon inside a reference or an invoice moves the
boundary between the two, or one line has no reference and its invoice reads like both, or the invoices
recombine. -/
def Pieces.Recombines (k l : Pieces) : Prop :=
  match k.reference, l.reference with
  | none, none => k.InvoiceRecombines T l
  | none, some _ => k.foldedTail T = l.foldedReference T ++ ':' :: l.foldedTail T
  | some _, none => l.foldedTail T = k.foldedReference T ++ ':' :: k.foldedTail T
  | some _, some _ =>
    (k.foldedReference T = l.foldedReference T ∧ k.InvoiceRecombines T l) ∨
    (∃ x, l.foldedReference T = k.foldedReference T ++ ':' :: x ∧ k.foldedTail T = x ++ ':' :: l.foldedTail T) ∨
    (∃ x, k.foldedReference T = l.foldedReference T ++ ':' :: x ∧ l.foldedTail T = x ++ ':' :: k.foldedTail T)

/-- The two lines are one: references and invoices fold alike, and it is the same occurrence of the
invoice. -/
def SameLine (a : RemittanceAdvice) (i : Nat) (b : RemittanceAdvice) (j : Nat) : Prop :=
  (printedIdentifier a.payment_reference).map (identifierMatchKey T) =
      (printedIdentifier b.payment_reference).map (identifierMatchKey T) ∧
    (invoiceAt a.lines i).map (identifierMatchKey T) = (invoiceAt b.lines j).map (identifierMatchKey T) ∧
    occurrence T a.lines i = occurrence T b.lines j

end

/-- The case tables leave the separators and the digits alone, as Unicode's do. -/
def KeepsSeparators (T : CaseTables) : Prop :=
  ∀ c : Char, c = ':' ∨ c = '#' ∨ c.isDigit = true → T.lower c = [c]

section
variable {T : CaseTables}

theorem printedIdentifier_trimmed {field : Option Text} {text : Text} (h : printedIdentifier field = some text) :
    Trimmed text ∧ text ≠ [] := by
  obtain ⟨t, rfl, ht⟩ := Option.bind_eq_some_iff.1 h
  dsimp only at ht
  split at ht
  · cases ht
  · rename_i hne
    cases ht
    exact ⟨trim_trim t, fun h => hne (.inl h)⟩

/-- A line's key is the id of its pieces. -/
theorem claimId_eq {advice : RemittanceAdvice} {i : Nat} {key : LineKey} {k : Pieces}
    (hkey : (lineClaimIds T advice.lines (printedIdentifier advice.payment_reference))[i]? = some (some key))
    (hk : piecesOf T advice i = some k) : key.claimId = k.claimId := by
  obtain ⟨invoice, hinv, rfl⟩ := Option.map_eq_some_iff.1 hk
  rw [lineClaimIds, List.getElem?_mapIdx, Option.map_eq_some_iff] at hkey
  obtain ⟨row, hrow, hline⟩ := hkey
  rw [invoiceAt, hrow, Option.bind_some] at hinv
  rw [lineKey, hinv, Option.map_some, Option.some.injEq] at hline
  subst hline
  dsimp only [Pieces.claimId]
  split
  · simp [suffix]
  · simp [suffix]

/-! ## The folded id -/

/-- Pieces as a page prints them: trimmed, and neither of them blank. -/
structure Pieces.Printed (k : Pieces) : Prop where
  reference : ∀ r, k.reference = some r → Trimmed r ∧ r ≠ []
  invoice : Trimmed k.invoice ∧ k.invoice ≠ []

theorem piecesOf_printed {advice : RemittanceAdvice} {i : Nat} {k : Pieces} (hk : piecesOf T advice i = some k) :
    k.Printed := by
  obtain ⟨invoice, hinv, rfl⟩ := Option.map_eq_some_iff.1 hk
  obtain ⟨row, -, hp⟩ := Option.bind_eq_some_iff.1 hinv
  exact ⟨fun r hr => printedIdentifier_trimmed hr, printedIdentifier_trimmed hp⟩

theorem isSpace_suffix (ordinal : Option Nat) : ∀ c ∈ suffix ordinal, isSpace c = false := by
  intro c hc
  cases ordinal with
  | none => cases hc
  | some n =>
    rcases List.mem_cons.1 hc with rfl | hc
    · decide
    · obtain ⟨h0, h9⟩ := Char.isDigit_iff_toNat.1 (isDigit_of_mem_decimal hc)
      have : '0'.toNat = 48 := rfl
      have : '9'.toNat = 57 := rfl
      simp only [isSpace, Bool.or_eq_false_iff, Bool.and_eq_false_iff, decide_eq_false_iff_not, beq_eq_false_iff_ne]
      omega

theorem trimmed_append_suffix {t : Text} (ht : Trimmed t) (ordinal : Option Nat) : Trimmed (t ++ suffix ordinal) := by
  cases ordinal with
  | none => simpa [suffix] using ht
  | some n =>
    refine trim_join ht (trimmed_of_isSpace fun c hc => ?_) (by decide)
    exact isSpace_suffix (some n) c (List.mem_cons_of_mem _ hc)

theorem collapse_append_suffix (t : Text) (ordinal : Option Nat) :
    collapse (t ++ suffix ordinal) = collapse t ++ suffix ordinal := by
  cases ordinal with
  | none => simp [suffix]
  | some n =>
    have hsuffix : collapse (decimal n) = decimal n := collapse_eq_self fun c hc =>
      isSpace_suffix (some n) c (List.mem_cons_of_mem _ hc)
    rw [show suffix (some n) = '#' :: decimal n from rfl, collapse_append _ _ (by decide), hsuffix]

/-- The id before its lower case: the pieces, white space collapsed in each. -/
theorem collapse_claimId {k : Pieces} (hk : k.Printed) :
    collapse (trim k.claimId) = k.front ++ (collapse k.invoice ++ suffix k.ordinal) := by
  have htail := trimmed_append_suffix hk.invoice.1 k.ordinal
  unfold Pieces.claimId Pieces.front
  cases hr : k.reference with
  | none =>
    rw [lineClaimId, show trim (k.invoice ++ suffix k.ordinal) = _ from htail, collapse_append_suffix]
    rfl
  | some r =>
    rw [lineClaimId, List.append_assoc, List.cons_append, trim_join (hk.reference r hr).1 htail (by decide),
      collapse_append _ _ (by decide), collapse_append_suffix]
    simp

theorem lowerWithin_suffix (hT : KeepsSeparators T) (ordinal : Option Nat) (before after : Text) :
    T.lowerWithin before (suffix ordinal) after = suffix ordinal := by
  refine T.lowerWithin_eq_self (fun c hc => ?_) before after
  cases ordinal with
  | none => cases hc
  | some n =>
    rcases List.mem_cons.1 hc with rfl | hc
    · exact ⟨by decide, hT _ (.inr (.inl rfl))⟩
    · have hd := isDigit_of_mem_decimal hc
      exact ⟨by rintro rfl; exact absurd hd (by decide), hT _ (.inr (.inr hd))⟩

/-- **The folded id** is the folded pieces around the separators. -/
theorem matchKey_claimId (hT : KeepsSeparators T) {k : Pieces} (hk : k.Printed) :
    identifierMatchKey T k.claimId =
      match k.reference with
      | none => k.foldedTail T
      | some _ => k.foldedReference T ++ ':' :: k.foldedTail T := by
  rw [identifierMatchKey, collapse_claimId hk, CaseTables.toLowerCase, CaseTables.lowerWithin_append,
    CaseTables.lowerWithin_append, lowerWithin_suffix hT, List.append_nil, List.append_nil]
  cases hr : k.reference with
  | none => simp [Pieces.front, hr, Pieces.foldedTail, Pieces.foldedInvoice, CaseTables.lowerWithin]
  | some r =>
    have hcolon : T.lowerWithin (collapse r).reverse [':'] (collapse k.invoice ++ suffix k.ordinal) = [':'] := by
      rw [T.lowerWithin_singleton _ _ (by decide), hT _ (.inl rfl)]
    simp [Pieces.front, hr, Pieces.foldedTail, Pieces.foldedInvoice, Pieces.foldedReference,
      CaseTables.lowerWithin_append, hcolon]

/-! ## Two ways to one id -/

theorem foldedTail_eq_iff {k l : Pieces} : k.foldedTail T = l.foldedTail T ↔
    (k.foldedInvoice T = l.foldedInvoice T ∧ k.ordinal = l.ordinal) ∨
    (k.ordinal = none ∧ ∃ n, l.ordinal = some n ∧ k.foldedInvoice T = l.foldedInvoice T ++ '#' :: decimal n) ∨
    (l.ordinal = none ∧ ∃ n, k.ordinal = some n ∧ l.foldedInvoice T = k.foldedInvoice T ++ '#' :: decimal n) := by
  have hhash : ∀ n, '#' ∉ decimal n := fun n h => absurd (isDigit_of_mem_decimal h) (by decide)
  unfold Pieces.foldedTail
  cases hk : k.ordinal with
  | none =>
    cases hl : l.ordinal with
    | none => simp [suffix]
    | some m => simp [suffix]
  | some n =>
    cases hl : l.ordinal with
    | none => simp [suffix, eq_comm]
    | some m =>
      simp only [suffix, Option.map_some, Option.getD_some, Option.some.injEq, reduceCtorEq, false_and, or_false]
      constructor
      · intro h
        obtain ⟨hinv, hdec⟩ := Cuts.append_cons_inj_of_not_mem (hhash n) (hhash m) h
        exact ⟨hinv, decimal_injective hdec⟩
      · rintro ⟨hinv, rfl⟩
        rw [hinv]

theorem length_foldedInvoice {k : Pieces} (hk : k.Printed) :
    (k.foldedInvoice T).length = (identifierMatchKey T k.invoice).length := by
  rw [identifierMatchKey, show trim k.invoice = k.invoice from hk.invoice.1]
  exact T.lowerWithin_length_congr ..

theorem length_foldedReference {k : Pieces} (hk : k.Printed) {r : Text} (hr : k.reference = some r) :
    (k.foldedReference T).length = (identifierMatchKey T r).length := by
  rw [identifierMatchKey, show trim r = r from (hk.reference r hr).1, Pieces.foldedReference, hr]
  exact T.lowerWithin_length_congr ..

/-- Lines whose texts fold alike have pieces of equal lengths, so no boundary between them has moved. -/
theorem not_invoiceRecombines {k l : Pieces} (hk : k.Printed) (hl : l.Printed) (h : k.SameTexts T l) :
    ¬ k.InvoiceRecombines T l := by
  have hlen : (k.foldedInvoice T).length = (l.foldedInvoice T).length := by
    rw [length_foldedInvoice hk, length_foldedInvoice hl, h.2]
  rintro (⟨-, n, -, heq⟩ | ⟨-, n, -, heq⟩ | ⟨-, -, hnot⟩)
  · rw [heq, List.length_append, List.length_cons] at hlen
    omega
  · rw [heq, List.length_append, List.length_cons] at hlen
    omega
  · exact hnot h

theorem not_recombines {k l : Pieces} (hk : k.Printed) (hl : l.Printed) (h : k.SameTexts T l) :
    ¬ k.Recombines T l := by
  have hrefs := h.1
  unfold Pieces.Recombines
  cases hr : k.reference with
  | none =>
    cases hs : l.reference with
    | none => exact not_invoiceRecombines hk hl h
    | some s => rw [hr, hs] at hrefs; cases hrefs
  | some r =>
    cases hs : l.reference with
    | none => rw [hr, hs] at hrefs; cases hrefs
    | some s =>
      rw [hr, hs, Option.map_some, Option.map_some, Option.some.injEq] at hrefs
      have hlen : (k.foldedReference T).length = (l.foldedReference T).length := by
        rw [length_foldedReference hk hr, length_foldedReference hl hs, hrefs]
      rintro (⟨-, hinv⟩ | ⟨x, heq, -⟩ | ⟨x, heq, -⟩)
      · exact not_invoiceRecombines hk hl h hinv
      · rw [heq, List.length_append, List.length_cons] at hlen
        omega
      · rw [heq, List.length_append, List.length_cons] at hlen
        omega

/-- Equal folded ids are the same texts under the same ordinal, or one of the ways to recombine. -/
theorem recombines_of_matchKey_eq (hT : KeepsSeparators T) {k l : Pieces} (hk : k.Printed) (hl : l.Printed) :
    identifierMatchKey T k.claimId = identifierMatchKey T l.claimId →
      (k.SameTexts T l ∧ k.ordinal = l.ordinal) ∨ k.Recombines T l := by
  have htail : k.foldedTail T = l.foldedTail T →
      (k.SameTexts T l ∧ k.ordinal = l.ordinal) ∨ k.InvoiceRecombines T l := by
    intro h
    rcases foldedTail_eq_iff.1 h with ⟨hinv, hord⟩ | hone | hone
    · by_cases hsame : k.SameTexts T l
      · exact .inl ⟨hsame, hord⟩
      · exact .inr (.inr (.inr ⟨hinv, hord, hsame⟩))
    · exact .inr (.inl hone)
    · exact .inr (.inr (.inl hone))
  rw [matchKey_claimId hT hk, matchKey_claimId hT hl]
  unfold Pieces.Recombines
  cases k.reference with
  | none =>
    cases l.reference with
    | none => exact htail
    | some s => exact .inr
  | some r =>
    cases l.reference with
    | none => exact fun h => .inr h.symm
    | some s =>
      intro h
      rcases Cuts.append_cons_inj_iff.1 h with ⟨href, ht⟩ | hshift | hshift
      · exact (htail ht).imp_right fun hinv => .inl ⟨href, hinv⟩
      · exact .inr (.inr (.inl hshift))
      · exact .inr (.inr (.inr hshift))

/-- Each way to recombine does build one id. -/
theorem matchKey_of_recombines (hT : KeepsSeparators T) {k l : Pieces} (hk : k.Printed) (hl : l.Printed)
    (h : k.Recombines T l) : identifierMatchKey T k.claimId = identifierMatchKey T l.claimId := by
  have htail : k.InvoiceRecombines T l → k.foldedTail T = l.foldedTail T := by
    rintro (hone | hone | ⟨hinv, hord, -⟩)
    · exact foldedTail_eq_iff.2 (.inr (.inl hone))
    · exact foldedTail_eq_iff.2 (.inr (.inr hone))
    · exact foldedTail_eq_iff.2 (.inl ⟨hinv, hord⟩)
  rw [matchKey_claimId hT hk, matchKey_claimId hT hl]
  unfold Pieces.Recombines at h
  cases hr : k.reference with
  | none =>
    cases hs : l.reference with
    | none => rw [hr, hs] at h; exact htail h
    | some s => rw [hr, hs] at h; exact h
  | some r =>
    cases hs : l.reference with
    | none => rw [hr, hs] at h; exact h.symm
    | some s =>
      rw [hr, hs] at h
      refine Cuts.append_cons_inj_iff.2 (h.imp_left fun hrest => ?_)
      exact ⟨hrest.1, htail hrest.2⟩

theorem occurrence_of_ordinal {a b : RemittanceAdvice} {i j : Nat} {k l : Pieces} (hk : piecesOf T a i = some k)
    (hl : piecesOf T b j = some l) (h : k.ordinal = l.ordinal) : occurrence T a.lines i = occurrence T b.lines j := by
  have hocc : ∀ {a : RemittanceAdvice} {i : Nat} {k : Pieces}, piecesOf T a i = some k →
      occurrence T a.lines i = some (k.ordinal.getD 1) := by
    intro a i k hk
    obtain ⟨invoice, hinv, rfl⟩ := Option.map_eq_some_iff.1 hk
    rw [occurrence, hinv, Option.map_some]
    dsimp only
    split
    · -- a group of one line: its only line is the first
      rename_i hone
      have hmem : i ∈ groupOf T a.lines (identifierMatchKey T invoice) := by
        refine List.mem_filter.2 ⟨?_, by simp [hinv]⟩
        obtain ⟨row, hrow, -⟩ := Option.bind_eq_some_iff.1 hinv
        exact List.mem_range.2 (List.getElem?_eq_some_iff.1 hrow).1
      obtain ⟨x, hx⟩ := List.length_eq_one_iff.1 hone
      rw [hx, List.mem_singleton] at hmem
      simp [hx, hmem]
    · rfl
  rw [hocc hk, hocc hl, h]

/-- **What a claim id identifies.** Two lines of any two advices, each with an invoice: that their ids
fold alike only if they are the same occurrence of one invoice under one reference holds exactly if their
pieces do not recombine. -/
theorem claimIds_identify_iff (T : CaseTables) (hT : KeepsSeparators T) (a b : RemittanceAdvice) (i j : Nat)
    (keyA keyB : LineKey) (k l : Pieces)
    (ha : (lineClaimIds T a.lines (printedIdentifier a.payment_reference))[i]? = some (some keyA))
    (hb : (lineClaimIds T b.lines (printedIdentifier b.payment_reference))[j]? = some (some keyB))
    (hk : piecesOf T a i = some k) (hl : piecesOf T b j = some l) :
    (identifierMatchKey T keyA.claimId = identifierMatchKey T keyB.claimId → SameLine T a i b j) ↔
      ¬ k.Recombines T l := by
  have hsame : k.SameTexts T l ↔
      (printedIdentifier a.payment_reference).map (identifierMatchKey T) =
        (printedIdentifier b.payment_reference).map (identifierMatchKey T) ∧
      (invoiceAt a.lines i).map (identifierMatchKey T) = (invoiceAt b.lines j).map (identifierMatchKey T) := by
    obtain ⟨invoiceA, hinvA, rfl⟩ := Option.map_eq_some_iff.1 hk
    obtain ⟨invoiceB, hinvB, rfl⟩ := Option.map_eq_some_iff.1 hl
    simp [Pieces.SameTexts, hinvA, hinvB]
  rw [claimId_eq ha hk, claimId_eq hb hl]
  have hpk := piecesOf_printed hk
  have hpl := piecesOf_printed hl
  constructor
  · intro h hrec
    obtain ⟨hrefs, hinvs, -⟩ := h (matchKey_of_recombines hT hpk hpl hrec)
    exact not_recombines hpk hpl (hsame.2 ⟨hrefs, hinvs⟩) hrec
  · intro hnot heq
    rcases recombines_of_matchKey_eq hT hpk hpl heq with ⟨htexts, hord⟩ | hrec
    · obtain ⟨hrefs, hinvs⟩ := hsame.1 htexts
      exact ⟨hrefs, hinvs, occurrence_of_ordinal hk hl hord⟩
    · exact absurd hrec hnot

end

theorem toLower_of_isDigit {c : Char} (h : c.isDigit = true) : c.toLower = c := by
  unfold Char.toLower
  rw [dif_neg]
  rintro ⟨hA, -⟩
  obtain ⟨-, h9⟩ := Char.isDigit_iff_toNat.1 h
  have hA' : 'A'.toNat ≤ c.toNat := UInt32.le_iff_toNat_le.1 hA
  have : 'A'.toNat = 65 := rfl
  have : '9'.toNat = 57 := rfl
  omega

theorem keepsSeparators_asciiCase : KeepsSeparators asciiCase := by
  rintro c (rfl | rfl | hd)
  · rfl
  · rfl
  · exact congrArg (fun d => [d]) (toLower_of_isDigit hd)

/-- An advice of one payment reference and these invoices. -/
def adviceOf (reference : Text) (invoices : List Text) : RemittanceAdvice :=
  { payer_name := none, payment_reference := some reference, payment_date := none
    lines := invoices.map fun invoice => ⟨some invoice, none, none, none, none⟩ }

theorem repeatedInvoice_identified :
    (identifierMatchKey asciiCase "ACH-1:INV 7#1" = identifierMatchKey asciiCase "ACH-1:Inv 7#2" →
      SameLine asciiCase (adviceOf "ACH-1" ["INV 7", "Inv 7"]) 0 (adviceOf "ACH-1" ["INV 7", "Inv 7"]) 1) ↔
    ¬ Pieces.Recombines asciiCase ⟨some "ACH-1", "INV 7", some 1⟩ ⟨some "ACH-1", "Inv 7", some 2⟩ :=
  claimIds_identify_iff asciiCase keepsSeparators_asciiCase (adviceOf "ACH-1" ["INV 7", "Inv 7"])
    (adviceOf "ACH-1" ["INV 7", "Inv 7"]) 0 1 ⟨"ACH-1:INV 7#1", some "ACH-1:INV 7", [0, 1], false⟩
    ⟨"ACH-1:Inv 7#2", some "ACH-1:Inv 7", [0, 1], false⟩ _ _ (by decide) (by decide) rfl rfl

/-- The second line of `INV`, `INV`, `INV#2` and the third build one id; so do invoice `B:C` under
reference `A` and invoice `C` under reference `A:B`. -/
theorem separators_recombine :
    (∃ key other, (lineClaimIds asciiCase (adviceOf "ACH-1" ["INV", "INV", "INV#2"]).lines (some "ACH-1"))[1]? =
        some (some key) ∧
      (lineClaimIds asciiCase (adviceOf "ACH-1" ["INV", "INV", "INV#2"]).lines (some "ACH-1"))[2]? =
        some (some other) ∧ key.claimId = other.claimId) ∧
    ¬ SameLine asciiCase (adviceOf "ACH-1" ["INV", "INV", "INV#2"]) 1 (adviceOf "ACH-1" ["INV", "INV", "INV#2"]) 2 ∧
    (lineClaimIds asciiCase (adviceOf "A" ["B:C"]).lines (some "A")) =
      lineClaimIds asciiCase (adviceOf "A:B" ["C"]).lines (some "A:B") ∧
    ¬ SameLine asciiCase (adviceOf "A" ["B:C"]) 0 (adviceOf "A:B" ["C"]) 0 := by
  refine ⟨⟨⟨"ACH-1:INV#2", some "ACH-1:INV", [0, 1], false⟩, ⟨"ACH-1:INV#2", none, [2], false⟩, by decide,
    by decide, rfl⟩, ?_, by decide, ?_⟩
  · rintro ⟨-, h, -⟩
    exact absurd h (by decide)
  · rintro ⟨-, h, -⟩
    exact absurd h (by decide)

end Recouple.Pipeline
