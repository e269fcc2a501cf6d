import Recouple.Pipeline.ClaimKeys
import Recouple.Pipeline.Growth

/-!
# Which cases carry a claim id

A line of a remittance is matched by its claim id alone, folded as identifiers are compared. It is a case
already exactly if one case carries the claim id (`Carries`, `AtMostOne`); the store that `openCase` of
`packages/store-postgres/src/store.ts` (2091-2163) belongs to asks the same question again before it inserts
(`Store.resolvedClaim`).
-/

namespace Recouple.Pipeline
open Js FirstSeen Extraction Calls

section
variable (T : CaseTables)

/-- One of the case's identifiers is the claim id, as identifiers are compared. -/
def Carries (orgId : OrgId) (claimId : Text) (s : Store) (id : CaseId) : Prop :=
  ∃ row ∈ s.identifiers, row.orgId = orgId ∧ row.known.kind = .claim_id ∧
    identifierMatchKey T row.known.identifier = identifierMatchKey T claimId ∧ row.known.deductionId = id

/-- No two cases carry the claim id. -/
def AtMostOne (orgId : OrgId) (claimId : Text) (s : Store) : Prop :=
  ∀ a b, Carries T orgId claimId s a → Carries T orgId claimId s b → a = b

/-- The case is filed against the invoice. -/
def Names (orgId : OrgId) (invoiceNumber : Text) (s : Store) (id : CaseId) : Prop :=
  ∃ row ∈ s.identifiers, row.orgId = orgId ∧ row.known.kind = .invoice_number ∧
    identifierMatchKey T row.known.identifier = identifierMatchKey T invoiceNumber ∧ row.known.deductionId = id

/-- The refusal of a store that resolves identity: by the claim id first, for a remittance line's case names no
invoice to be probable on, and then by the unique claim. -/
def Store.resolvedClaim (debtorOf : Text → Option DebtorId) (s : Store) (input : NewCase) : Option Refusal :=
  let identifiers : List ArrivedIdentifier := match input.claimId with
    | some claim => if trim claim = [] then [] else [⟨.claim_id, claim⟩]
    | none => []
  match resolveIdentity T ⟨identifiers, input.deductionAmountCents, none, input.deductionDate,
      input.retailerName.bind debtorOf⟩ ((s.identifiers.filter (·.orgId = input.orgId)).map (·.known)) [] none with
  | .ok (.exact id _) => some (.duplicateCase id)
  | .ok (.ambiguous ids _) => some (.ambiguousIdentity ids)
  | _ => s.uniqueClaim debtorOf input

/-! ## The matcher on one claim id -/

/-- The known identifiers that are the claim id. -/
def claimMatches (claimId : Text) (known : List KnownIdentifier) : List KnownIdentifier :=
  known.filter fun k => k.kind = .claim_id && identifierMatchKey T k.identifier = identifierMatchKey T claimId

end

section
variable {T : CaseTables} {claimId : Text} {arrival : ArrivalIdentity} {known : List KnownIdentifier}
variable {deductions : List KnownDeduction} {days : Option Int} {r : IdentityResolution}

theorem exactMatches_claim (hkey : identifierMatchKey T claimId ≠ []) :
    exactMatches T [⟨.claim_id, claimId⟩] known = claimMatches T claimId known := by
  unfold exactMatches claimMatches
  simp [hkey]

theorem firstBy_eq_singleton {α κ : Type} [DecidableEq κ] {key : α → κ} {l : List α} {k : κ}
    (hall : ∀ a ∈ l, key a = k) (hne : l ≠ []) : ∃ only, firstBy key l = [only] ∧ key only = k := by
  have hkeys : ∀ a ∈ firstBy key l, key a = k := fun a ha => hall a (mem_of_mem_firstBy key ha)
  have hnodup := nodup_firstBy key l
  cases hl : firstBy key l with
  | nil =>
    obtain ⟨a, ha⟩ := List.exists_mem_of_ne_nil l hne
    have := (mem_map_firstBy key l (key a)).2 (List.mem_map_of_mem ha)
    rw [hl] at this
    cases this
  | cons a rest =>
    rw [hl] at hkeys hnodup
    cases rest with
    | nil => exact ⟨a, rfl, hkeys a List.mem_cons_self⟩
    | cons b rest =>
      rw [List.map_cons, List.nodup_cons] at hnodup
      refine absurd ?_ hnodup.1
      rw [hkeys a List.mem_cons_self, ← hkeys b (List.mem_cons_of_mem _ List.mem_cons_self)]
      exact List.mem_map_of_mem List.mem_cons_self

/-- One case's identifiers match: it is that case. -/
theorem resolve_exact (hids : arrival.identifiers = [⟨.claim_id, claimId⟩]) (hkey : identifierMatchKey T claimId ≠ [])
    (hdays : 0 ≤ days.getD DEFAULT_DATE_TOLERANCE_DAYS) {id : CaseId}
    (hall : ∀ k ∈ claimMatches T claimId known, k.deductionId = id) (hne : claimMatches T claimId known ≠ []) :
    ∃ on, resolveIdentity T arrival known deductions days = .ok (.exact id on) := by
  obtain ⟨only, hfirst, hid⟩ := firstBy_eq_singleton hall hne
  refine ⟨only, ?_⟩
  unfold resolveIdentity
  dsimp only
  rw [if_neg (by omega), hids, exactMatches_claim hkey, hfirst]
  dsimp only
  rw [hid]

theorem firstBy_eq_nil {α κ : Type} [DecidableEq κ] {key : α → κ} {l : List α} (h : firstBy key l = []) : l = [] := by
  by_contra hne
  obtain ⟨a, ha⟩ := List.exists_mem_of_ne_nil _ hne
  have hmem := (mem_map_firstBy key l (key a)).2 (List.mem_map_of_mem ha)
  rw [h] at hmem
  cases hmem

/-- The answers: exact where the matches are of one case, ambiguous where there are others or several deductions
are probable, and otherwise there are no matches. -/
theorem resolve_cases (hids : arrival.identifiers = [⟨.claim_id, claimId⟩]) (hkey : identifierMatchKey T claimId ≠ [])
    (hr : resolveIdentity T arrival known deductions days = .ok r) :
    (∃ id on, r = .exact id on ∧ claimMatches T claimId known ≠ [] ∧
      ∀ k ∈ claimMatches T claimId known, k.deductionId = id) ∨
    (∃ ids basis, r = .ambiguous ids basis ∧ (claimMatches T claimId known ≠ [] ∨ deductions ≠ [])) ∨
    claimMatches T claimId known = [] ∧ (r = .none ∨ ∃ id basis, r = .probable id basis) := by
  unfold resolveIdentity at hr
  dsimp only at hr
  split at hr
  · cases hr
  rw [hids, exactMatches_claim hkey] at hr
  split at hr
  · rename_i only hfirst
    cases hr
    refine .inl ⟨_, _, rfl, fun hnil => ?_, fun k hk => ?_⟩
    · rw [hnil] at hfirst
      cases hfirst
    · have := (mem_map_firstBy KnownIdentifier.deductionId (claimMatches T claimId known) k.deductionId).2
        (List.mem_map_of_mem hk)
      rw [hfirst] at this
      exact List.mem_singleton.1 this
  · rename_i hfirst
    cases hr
    refine .inr (.inl ⟨_, _, rfl, .inl fun hnil => ?_⟩)
    rw [hnil] at hfirst
    cases hfirst
  · rename_i hfirst
    have hnil := firstBy_eq_nil hfirst
    split at hr
    · cases hr
      exact .inr (.inr ⟨hnil, .inl rfl⟩)
    · cases hr
      exact .inr (.inr ⟨hnil, .inr ⟨_, _, rfl⟩⟩)
    · rename_i hseveral _
      cases hr
      refine .inr (.inl ⟨_, _, rfl, .inr fun hdeductions => ?_⟩)
      rw [hdeductions] at hseveral
      exact hseveral rfl

end

/-! ## Claim ids are not blank -/

section
variable {T : CaseTables}

theorem trim_ne_nil {t : Text} {c : Char} (hc : c ∈ t) (hspace : isSpace c = false) : trim t ≠ [] := by
  intro h
  have hall : ∀ d ∈ t.dropWhile isSpace, isSpace d = true := List.rdropWhile_eq_nil_iff.1 h
  have hnil : t.dropWhile isSpace = [] := by
    by_contra hne
    have hhead := List.head_dropWhile_not isSpace hne
    rw [hall _ (List.head_mem hne)] at hhead
    cases hhead
  rw [List.dropWhile_eq_nil_iff.1 hnil c hc] at hspace
  cases hspace

theorem collapse_ne_nil {t : Text} (h : t ≠ []) : collapse t ≠ [] := by
  cases t with
  | nil => exact absurd rfl h
  | cons c cs =>
    unfold collapse collapseFrom
    split
    · exact List.cons_ne_nil _ _
    · exact List.cons_ne_nil _ _

/-- A text with a character that is not white space has a key, whatever its characters are in lower case. -/
theorem matchKey_ne_nil (hT : ∀ c, T.lower c ≠ []) {t : Text} {c : Char} (hc : c ∈ t) (hspace : isSpace c = false) :
    identifierMatchKey T t ≠ [] := by
  obtain ⟨d, ds, h⟩ := List.exists_cons_of_ne_nil (collapse_ne_nil (trim_ne_nil hc hspace))
  unfold identifierMatchKey CaseTables.toLowerCase
  rw [h, CaseTables.lowerWithin]
  refine List.append_ne_nil_of_left_ne_nil ?_ _
  unfold CaseTables.lowerAt
  split
  · split <;> exact List.cons_ne_nil _ _
  · exact hT d

/-- The claim id of a line that prints its invoice has the invoice in it. -/
theorem claimIdOf_contains {o : Opening} {rows : List RemittanceLine} {row : RemittanceLine} {line : ShortLine}
    (hkeys : o.keys = lineClaimIds T rows o.paymentReference) (hrow : rows[line.index]? = some row)
    (hinvoice : printedIdentifier row.invoice_number = some line.invoiceNumber) {c : Char}
    (hc : c ∈ line.invoiceNumber) : c ∈ o.claimIdOf line := by
  have hbase : c ∈ lineClaimId o.paymentReference line.invoiceNumber := by
    unfold lineClaimId
    split
    · exact hc
    · exact List.mem_append_right _ (List.mem_cons_of_mem _ hc)
  unfold Opening.claimIdOf
  rw [hkeys, lineClaimIds, List.getElem?_mapIdx, hrow, Option.map_some, Option.join_some, lineKey, hinvoice,
    Option.map_some, Option.map_some, Option.getD_some]
  dsimp only
  split
  · exact hbase
  · exact List.mem_append_left _ hbase

/-- The invoice a line prints is not blank. -/
theorem printed_not_blank {field : Option Text} {text : Text} (h : printedIdentifier field = some text) :
    ∃ c ∈ text, isSpace c = false := by
  obtain ⟨htrimmed, hne⟩ := printedIdentifier_trimmed h
  have hne' : trim text ≠ [] := by rw [htrimmed]; exact hne
  have hsub : trim text ⊆ text := fun c hc => by rwa [show trim text = text from htrimmed] at hc
  exact ⟨(trim text).head hne', hsub (List.head_mem hne'), head_trim hne'⟩

/-! ## The store that resolves identity -/

variable {orgId : OrgId} {claimId : Text} {debtorOf : Text → Option DebtorId} {s : Store} {input : NewCase} {id : CaseId}

/-- The identifiers of one organisation. -/
theorem mem_claimMatches_own : (∃ k ∈ claimMatches T claimId ((s.identifiers.filter (·.orgId = orgId)).map (·.known)),
    k.deductionId = id) ↔ Carries T orgId claimId s id := by
  unfold claimMatches Carries
  constructor
  · rintro ⟨k, hk, hid⟩
    rw [List.mem_filter, Bool.and_eq_true, decide_eq_true_eq, decide_eq_true_eq] at hk
    obtain ⟨row, hrow, rfl⟩ := List.mem_map.1 hk.1
    obtain ⟨hmem, horg⟩ := List.mem_filter.1 hrow
    exact ⟨row, hmem, of_decide_eq_true horg, hk.2.1, hk.2.2, hid⟩
  · rintro ⟨row, hmem, horg, hkind, hkey, hid⟩
    refine ⟨row.known, List.mem_filter.2 ⟨List.mem_map_of_mem (List.mem_filter.2 ⟨hmem, decide_eq_true horg⟩), ?_⟩, hid⟩
    rw [Bool.and_eq_true, decide_eq_true_eq, decide_eq_true_eq]
    exact ⟨hkind, hkey⟩

/-- Three ways of it: the one case that carries the claim id, several, or none and the unique claim. -/
theorem resolvedClaim_cases (hclaim : input.claimId = some claimId) (htrim : trim claimId ≠ [])
    (hkey : identifierMatchKey T claimId ≠ []) :
    (∃ id, Carries T input.orgId claimId s id ∧ AtMostOne T input.orgId claimId s ∧
      s.resolvedClaim T debtorOf input = some (.duplicateCase id)) ∨
    (∃ id ids, Carries T input.orgId claimId s id ∧
      s.resolvedClaim T debtorOf input = some (.ambiguousIdentity ids)) ∨
    (∀ id, ¬ Carries T input.orgId claimId s id) ∧
      s.resolvedClaim T debtorOf input = s.uniqueClaim debtorOf input := by
  unfold Store.resolvedClaim
  rw [hclaim]
  dsimp only
  rw [if_neg htrim]
  obtain ⟨r, hr⟩ : ∃ r, resolveIdentity T ⟨[⟨.claim_id, claimId⟩], input.deductionAmountCents, none, input.deductionDate,
      input.retailerName.bind debtorOf⟩ ((s.identifiers.filter (·.orgId = input.orgId)).map (·.known)) [] none = .ok r :=
    resolveIdentity_ok T (by decide)
  rw [hr]
  rcases resolve_cases rfl hkey hr with ⟨id, on, rfl, hne, hall⟩ | ⟨ids, basis, rfl, hsome⟩ | ⟨hnil, hr⟩
  · refine .inl ⟨id, ?_, fun a b ha hb => ?_, rfl⟩
    · obtain ⟨k, hk⟩ := List.exists_mem_of_ne_nil _ hne
      exact mem_claimMatches_own.1 ⟨k, hk, hall k hk⟩
    · obtain ⟨k, hk, rfl⟩ := mem_claimMatches_own.2 ha
      obtain ⟨k', hk', rfl⟩ := mem_claimMatches_own.2 hb
      exact (hall k hk).trans (hall k' hk').symm
  · obtain ⟨k, hk⟩ := List.exists_mem_of_ne_nil _ (hsome.resolve_right fun h => h rfl)
    exact .inr (.inl ⟨k.deductionId, ids, mem_claimMatches_own.1 ⟨k, hk, rfl⟩, rfl⟩)
  · have hnone : ∀ id, ¬ Carries T input.orgId claimId s id := by
      intro id h
      obtain ⟨k, hk, -⟩ := mem_claimMatches_own.2 h
      rw [hnil] at hk
      cases hk
    refine .inr (.inr ⟨hnone, ?_⟩)
    rcases hr with rfl | ⟨id, basis, rfl⟩
    · rfl
    · rfl

end

end Recouple.Pipeline
