import Recouple.Lib.KeyedOrder
import Recouple.Pipeline.OpenCases
import Recouple.Pipeline.SharedInvoices

/-!
# The lines of an advice in another order

Where the lines that share an invoice keep their order (`ReorderedLines`), a line's claim id, the claim id its invoice
shared, and its short-pay do not depend on where on the page it stands: they are those of the line in its place among
the lines of its invoice (`lineKey_samePlace`, `shortPays_reordered`).
-/

namespace Recouple.Pipeline
open Js Extraction KeyedFold KeyedOrder

section
variable (T : CaseTables)

/-- The invoice the row prints, as invoices are compared. -/
def invoiceKey (row : RemittanceLine) : Option Text :=
  (printedIdentifier row.invoice_number).map (identifierMatchKey T)

/-- The same lines, those of one invoice in one order. -/
abbrev ReorderedLines (rows rows' : List RemittanceLine) : Prop := Reordered (invoiceKey T) rows rows'

/-- The two lines print one invoice, and as many lines that print it come before the one as before the other. -/
abbrev SameOrdinal (rows rows' : List RemittanceLine) (i i' : Nat) : Prop := SamePlace (invoiceKey T) rows rows' i i'

end

section
variable {T : CaseTables} {rows rows' : List RemittanceLine} {reference : Option Text} {i i' : Nat} {row : RemittanceLine}

theorem groupOf_eq_places (rows : List RemittanceLine) (k : Text) : groupOf T rows k = places (invoiceKey T) rows k := by
  unfold groupOf places invoiceAt invoiceKey
  simp only [Option.map_bind]
  rfl

/-- What a line's key says does not depend on where the line stands. -/
structure KeysAlike (T : CaseTables) (rows rows' : List RemittanceLine) (i i' : Nat) (key key' : LineKey) : Prop where
  claimId : key'.claimId = key.claimId
  legacyClaimId : key'.legacyClaimId = key.legacyClaimId
  shares : key'.sharesGrossAndNet = key.sharesGrossAndNet
  group : List.Forall₂ (fun j j' => SameOrdinal T rows rows' j j' ∧ (j = i ↔ j' = i')) key.group key'.group

theorem lineKey_samePlace {key : LineKey} (h : ReorderedLines T rows rows') (hplace : SameOrdinal T rows rows' i i')
    (hrow : rows[i]? = some row) (hkey : lineKey T rows reference i row = some key) :
    ∃ key', lineKey T rows' reference i' row = some key' ∧ KeysAlike T rows rows' i i' key key' := by
  obtain ⟨invoice, hinvoice, rfl⟩ := Option.map_eq_some_iff.1 hkey
  obtain ⟨hidx, hgroup⟩ := hplace.forall₂ h hrow (k := identifierMatchKey T invoice) (by rw [invoiceKey, hinvoice]; rfl)
  rw [← groupOf_eq_places, ← groupOf_eq_places] at hidx hgroup
  refine ⟨_, by rw [lineKey, hinvoice]; rfl, ?_⟩
  dsimp only
  rw [← hgroup.length_eq]
  split
  · exact ⟨rfl, rfl, rfl, hgroup⟩
  · refine ⟨by rw [hidx], rfl, (any_eq_of_forall₂ (hgroup.imp fun j j' hj => ?_)).symm, hgroup⟩
    obtain ⟨hj, hiff⟩ := hj
    rw [hj.row h, decide_eq_decide.2 (not_congr hiff)]

/-- A row that prints no invoice has no key. -/
theorem lineKey_eq_none (hkey : invoiceKey T row = none) : lineKey T rows reference i row = none :=
  Option.map_eq_none_iff.2 (Option.map_eq_none_iff.1 hkey)

/-- Whether a row repeats its invoice's gross and net does not depend on where it stands. -/
theorem shares_samePlace (h : ReorderedLines T rows rows') (hrow : rows[i]? = some row)
    (hplace : SameOrdinal T rows rows' i i' ∨ invoiceKey T row = none) :
    (lineKey T rows' reference i' row).any (·.sharesGrossAndNet) = (lineKey T rows reference i row).any (·.sharesGrossAndNet) := by
  rcases hplace with hplace | hnone
  · obtain ⟨k, p, hi, -⟩ := id hplace
    obtain ⟨row', hrow', hk⟩ := mem_places.1 (List.mem_of_getElem? hi)
    cases hrow.symm.trans hrow'
    obtain ⟨invoice, hinvoice, -⟩ := Option.map_eq_some_iff.1 hk
    obtain ⟨key, hkey⟩ : ∃ key, lineKey T rows reference i row = some key := by
      rw [lineKey, hinvoice]
      exact ⟨_, rfl⟩
    obtain ⟨key', hkey', halike⟩ := lineKey_samePlace h hplace hrow hkey
    rw [hkey, hkey', Option.any_some, Option.any_some, halike.shares]
  · rw [lineKey_eq_none hnone, lineKey_eq_none hnone]

theorem keyAt_join (hrow : rows[i]? = some row) :
    (lineClaimIds T rows reference)[i]?.join = lineKey T rows reference i row := by
  rw [lineClaimIds, List.getElem?_mapIdx, hrow]
  rfl

/-- **The short-pays go with their lines.** -/
theorem shortPays_reordered {advice : RemittanceAdvice} {shortPays : List ShortPay} {lines' : List RemittanceLine}
    (h : ReorderedLines T advice.lines lines') (hpays : adviceShortPays T advice = .ok shortPays) :
    ∃ shortPays', adviceShortPays T { advice with lines := lines' } = .ok shortPays' ∧
      ∀ i i', SameOrdinal T advice.lines lines' i i' → shortPays'[i']? = shortPays[i]? := by
  refine mapM_reordered h (fun i i' row hrow hrow' hplace => ?_) hpays
  dsimp only
  rw [keyAt_join hrow, keyAt_join hrow', shares_samePlace h hrow hplace]

end

end Recouple.Pipeline
