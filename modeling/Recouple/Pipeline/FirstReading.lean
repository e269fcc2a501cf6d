import Recouple.Pipeline.ClaimMatching

/-!
# The first reading of a remittance

A reading opens a case for a line only where none is known, and records the line's claim id on it. What makes a
line a known case stays true of what a reading makes of the store (`Known`, `Store.Follows`); where `openCase`
resolves identity, no two cases come to carry one claim id.
-/

namespace Recouple.Pipeline
open Js FirstSeen Extraction Calls

section
variable (T : CaseTables) (debtorOf : Text → Option DebtorId) (orgId : OrgId) (resolves : Prop)

/-! ## What makes a line known -/

/-- Every identifier is a case's. -/
def Store.Sound (s : Store) : Prop := ∀ row ∈ s.identifiers, s.getCase row.known.deductionId ≠ none

/-- No other case carries a claim id of the case's. -/
def Alone (id : CaseId) (s : Store) : Prop :=
  ∀ claimId, Carries T orgId claimId s id → AtMostOne T orgId claimId s

/-- A case opened under the claim id the whole invoice shared has the line's amount. -/
def LegacyOwned (o : Opening) (line : ShortLine) (s : Store) : Prop :=
  ∃ key legacy id amount, (o.keys[line.index]?).join = some key ∧ key.legacyClaimId = some legacy ∧
    Carries T o.document.orgId legacy s id ∧ Names T o.document.orgId line.invoiceNumber s id ∧
    (s.getCase id).bind (·.deductionAmountCents) = some amount ∧
    legacyOwner key.group o.shortPays amount.val = some line.index

/-- The unique claim refuses the line's case. -/
def ClaimOpen (o : Opening) (line : ShortLine) (s : Store) : Prop :=
  (s.uniqueClaim debtorOf (newCaseOf o (o.claimIdOf line) line)).isSome

/-- The line is a case already; where `openCase` resolves identity, of one case only. -/
def Known (o : Opening) (line : ShortLine) (s : Store) : Prop :=
  LegacyOwned T o line s ∨
  (resolves → AtMostOne T o.document.orgId (o.claimIdOf line) s) ∧
    ((∃ id, Carries T o.document.orgId (o.claimIdOf line) s id) ∨ ClaimOpen debtorOf o line s)

/-! ## Later stores of a reading -/

/-- What a reading does to the store: what is known stays known, and where `openCase` resolves identity, a claim
id comes to be carried by one case only. -/
structure Store.Follows (s t : Store) : Prop where
  grows : s.Extends t
  identifiers : s.identifiers ⊆ t.identifiers
  claims : ∀ new, (s.uniqueClaim debtorOf new).isSome → (t.uniqueClaim debtorOf new).isSome
  sound : s.Sound → t.Sound
  alone : resolves → ∀ claimId, AtMostOne T orgId claimId t ∨
    ∀ id, Carries T orgId claimId t id → Carries T orgId claimId s id

/-- What holds of a store holds of what a reading makes of it. -/
def KeptBy (P : Store → Prop) : Prop := ∀ s t, s.Follows T debtorOf orgId resolves t → P s → P t

end

section
variable {T : CaseTables} {debtorOf : Text → Option DebtorId} {orgId : OrgId} {resolves : Prop}
variable {P Q : Store → Prop} {s t : Store} {o : Opening} {line : ShortLine} {claimId : Text} {id : CaseId}

theorem KeptBy.and (hP : KeptBy T debtorOf orgId resolves P) (hQ : KeptBy T debtorOf orgId resolves Q) :
    KeptBy T debtorOf orgId resolves fun s => P s ∧ Q s := fun s t h hs => ⟨hP s t h hs.1, hQ s t h hs.2⟩

theorem KeptBy.or (hP : KeptBy T debtorOf orgId resolves P) (hQ : KeptBy T debtorOf orgId resolves Q) :
    KeptBy T debtorOf orgId resolves fun s => P s ∨ Q s := fun s t h hs => hs.imp (hP s t h) (hQ s t h)

theorem KeptBy.const (p : Prop) : KeptBy T debtorOf orgId resolves fun _ => p := fun _ _ _ h => h

theorem Carries.kept (h : s.identifiers ⊆ t.identifiers) (hc : Carries T orgId claimId s id) :
    Carries T orgId claimId t id := by
  obtain ⟨row, hrow, hrest⟩ := hc
  exact ⟨row, h hrow, hrest⟩

theorem AtMostOne.kept (h : s.Follows T debtorOf orgId resolves t) (hr : resolves)
    (hs : AtMostOne T orgId claimId s) : AtMostOne T orgId claimId t := by
  rcases h.alone hr claimId with ht | hsub
  · exact ht
  · exact fun a b ha hb => hs a b (hsub a ha) (hsub b hb)

theorem KeptBy.sound : KeptBy T debtorOf orgId resolves Store.Sound := fun _ _ h => h.sound

theorem KeptBy.alone : KeptBy T debtorOf orgId resolves fun s => resolves → Alone T orgId id s := by
  intro s t h hs hr claimId hc
  rcases h.alone hr claimId with ht | hsub
  · exact ht
  · exact (hs hr claimId (hsub id hc)).kept h hr

theorem KeptBy.legacyOwned : KeptBy T debtorOf orgId resolves (LegacyOwned T o line) := by
  rintro s t h ⟨key, legacy, id, amount, hkey, hlegacy, hcarries, ⟨row, hrow, hnames⟩, hamount, howner⟩
  refine ⟨key, legacy, id, amount, hkey, hlegacy, hcarries.kept h.identifiers, ⟨row, h.identifiers hrow, hnames⟩, ?_,
    howner⟩
  obtain ⟨record, hget, hrecord⟩ := Option.bind_eq_some_iff.1 hamount
  obtain ⟨record', hget', hsame⟩ := h.grows.cases id record hget
  rw [hget', Option.bind_some, hsame.amount, hrecord]

theorem KeptBy.known (horg : o.document.orgId = orgId) :
    KeptBy T debtorOf orgId resolves (Known T debtorOf resolves o line) := by
  subst horg
  refine KeptBy.legacyOwned.or (KeptBy.and ?_ (KeptBy.or ?_ ?_))
  · exact fun s t h hs hr => (hs hr).kept h hr
  · rintro s t h ⟨id, hc⟩
    exact ⟨id, hc.kept h.identifiers⟩
  · exact fun s t h => h.claims _

/-! ## The operations -/

/-- An operation that leaves cases and identifiers as they are. -/
theorem Store.Follows.of_eq (hgrows : s.Extends t) (hcases : t.cases = s.cases)
    (hids : t.identifiers = s.identifiers) : s.Follows T debtorOf orgId resolves t where
  grows := hgrows
  identifiers := by rw [hids]; exact List.Subset.refl _
  claims := by
    intro new h
    unfold Store.uniqueClaim at *
    rw [hcases]
    exact h
  sound := by
    intro h row hrow
    unfold Store.getCase
    rw [hcases]
    rw [hids] at hrow
    exact h row hrow
  alone := by
    refine fun _ claimId => .inr fun id => ?_
    unfold Carries
    rw [hids]
    exact fun h => h

theorem Store.linkDocument_cases (link : Link) : (s.linkDocument link).cases = s.cases := by
  unfold Store.linkDocument
  split <;> rfl

theorem Store.linkDocument_identifiers (link : Link) : (s.linkDocument link).identifiers = s.identifiers := by
  unfold Store.linkDocument
  split <;> rfl

theorem Store.recordDeclinedLine_cases (tenant : Tenant) (declined : UploadSource → DeclinedLine)
    (documentId : DocumentId) : (Store.recordDeclinedLine tenant declined documentId s).2.cases = s.cases := by
  unfold Store.recordDeclinedLine
  split <;> rfl

theorem Store.recordDeclinedLine_identifiers (tenant : Tenant) (declined : UploadSource → DeclinedLine)
    (documentId : DocumentId) :
    (Store.recordDeclinedLine tenant declined documentId s).2.identifiers = s.identifiers := by
  unfold Store.recordDeclinedLine
  split <;> rfl

/-- What holds of a store holds of every later one with the same cases and identifiers. -/
def Framed (P : Store → Prop) : Prop :=
  ∀ s t, s.Extends t → t.cases = s.cases → t.identifiers = s.identifiers → P s → P t

theorem KeptBy.framed (hP : KeptBy T debtorOf orgId resolves P) : Framed P :=
  fun s t hgrows hcases hids => hP s t (.of_eq hgrows hcases hids)

theorem follows_linkDocument (link : Link) : s.Follows T debtorOf orgId resolves (s.linkDocument link) :=
  .of_eq (Store.extends_linkDocument link) (Store.linkDocument_cases link) (Store.linkDocument_identifiers link)

theorem follows_appendEvent (event : StoredEvent) : s.Follows T debtorOf orgId resolves (s.appendEvent event) :=
  .of_eq (Store.extends_appendEvent event) rfl rfl

theorem uniqueClaim_isSome {new : NewCase} : (s.uniqueClaim debtorOf new).isSome ↔
    ∃ debtor claim, new.retailerName.bind debtorOf = some debtor ∧ new.claimId = some claim ∧
      ∃ c ∈ s.cases, c.orgId = new.orgId ∧ c.debtorId = some debtor ∧ c.claimId = some claim := by
  unfold Store.uniqueClaim
  split
  · rename_i debtor claim hdebtor hclaim
    rw [Option.isSome_map, List.find?_isSome]
    constructor
    · rintro ⟨c, hc, hmatch⟩
      simp only [Bool.and_eq_true, decide_eq_true_eq] at hmatch
      exact ⟨debtor, claim, hdebtor, hclaim, c, hc, hmatch.1.1, hmatch.1.2, hmatch.2⟩
    · rintro ⟨debtor', claim', hdebtor', hclaim', c, hc, horg, hd, hcl⟩
      cases hdebtor.symm.trans hdebtor'
      cases hclaim.symm.trans hclaim'
      exact ⟨c, hc, by simp [horg, hd, hcl]⟩
  · rename_i hnone
    constructor
    · nofun
    · rintro ⟨debtor, claim, hdebtor, hclaim, -⟩
      exact absurd hclaim (hnone debtor claim hdebtor)

theorem follows_setState (id : CaseId) (target : CaseState) :
    s.Follows T debtorOf orgId resolves (s.setState id target) where
  grows := Store.extends_setState id target
  identifiers := List.Subset.refl _
  claims new h := by
    rw [uniqueClaim_isSome] at h ⊢
    obtain ⟨debtor, claim, hdebtor, hclaim, c, hc, hrest⟩ := h
    refine ⟨debtor, claim, hdebtor, hclaim, _, List.mem_map_of_mem hc, ?_⟩
    split <;> exact hrest
  sound h row hrow := by
    rw [Store.getCase_setState]
    intro hnone
    exact h row hrow (Option.map_eq_none_iff.1 hnone)
  alone _ _ := .inr fun _ h => h

theorem follows_addCase (record : CaseRecord) :
    s.Follows T debtorOf orgId resolves { s with cases := s.cases ++ [record] } where
  grows := Store.extends_addCase record
  identifiers := List.Subset.refl _
  claims new h := by
    rw [uniqueClaim_isSome] at h ⊢
    obtain ⟨debtor, claim, hdebtor, hclaim, c, hc, hrest⟩ := h
    exact ⟨debtor, claim, hdebtor, hclaim, c, List.mem_append_left _ hc, hrest⟩
  sound h row hrow := by
    intro hnone
    obtain ⟨found, hfound⟩ := Option.ne_none_iff_exists'.1 (h row hrow)
    obtain ⟨found', hfound', -⟩ := (Store.extends_addCase record).cases _ found hfound
    cases hnone.symm.trans hfound'
  alone _ _ := .inr fun _ h => h

/-- The identifiers written, one after another. -/
theorem mem_recordIdentifier {row written : StoredIdentifier} {acc : Store × Nat × List Text}
    (h : row ∈ (Store.recordIdentifier written acc).1.identifiers) : row ∈ acc.1.identifiers ∨ row = written := by
  unfold Store.recordIdentifier at h
  dsimp only at h
  split at h
  · exact .inl h
  · split at h
    · exact .inl h
    · exact (List.mem_append.1 h).imp_right List.mem_singleton.1

theorem recordIdentifier_cases (written : StoredIdentifier) (acc : Store × Nat × List Text) :
    (Store.recordIdentifier written acc).1.cases = acc.1.cases := by
  unfold Store.recordIdentifier
  dsimp only
  split
  · rfl
  · split <;> rfl

theorem subset_recordIdentifier (written : StoredIdentifier) (acc : Store × Nat × List Text) :
    acc.1.identifiers ⊆ (Store.recordIdentifier written acc).1.identifiers := by
  unfold Store.recordIdentifier
  dsimp only
  split
  · exact List.Subset.refl _
  · split
    · exact List.Subset.refl _
    · exact List.subset_append_left _ _

theorem recordRows (rows : List StoredIdentifier) (acc : Store × Nat × List Text) :
    (rows.foldl (fun acc row => Store.recordIdentifier row acc) acc).1.cases = acc.1.cases ∧
    acc.1.identifiers ⊆ (rows.foldl (fun acc row => Store.recordIdentifier row acc) acc).1.identifiers ∧
    ∀ row ∈ (rows.foldl (fun acc row => Store.recordIdentifier row acc) acc).1.identifiers,
      row ∈ acc.1.identifiers ∨ row ∈ rows := by
  induction rows generalizing acc with
  | nil => exact ⟨rfl, List.Subset.refl _, fun _ => .inl⟩
  | cons written rows ih =>
    obtain ⟨hcases, hsub, hmem⟩ := ih (Store.recordIdentifier written acc)
    refine ⟨hcases.trans (recordIdentifier_cases written acc), List.Subset.trans (subset_recordIdentifier written acc) hsub,
      fun row hrow => ?_⟩
    rcases hmem row hrow with h | h
    · rcases mem_recordIdentifier h with h | rfl
      · exact .inl h
      · exact .inr List.mem_cons_self
    · exact .inr (List.mem_cons_of_mem _ h)

/-- What `recordIdentifiers` leaves: the cases, the identifiers there were, and beside them only the case's. -/
theorem recordIdentifiers_spec (tenant : Tenant) (orgId : OrgId) (id : CaseId) (documentId : DocumentId)
    (identifiers : List ArrivedIdentifier) (s : Store) :
    (Store.recordIdentifiers tenant orgId id documentId identifiers s).2.cases = s.cases ∧
    s.identifiers ⊆ (Store.recordIdentifiers tenant orgId id documentId identifiers s).2.identifiers ∧
    ∀ row ∈ (Store.recordIdentifiers tenant orgId id documentId identifiers s).2.identifiers, row ∈ s.identifiers ∨
      row.orgId = orgId ∧ row.known.deductionId = id ∧
        ∃ arrived ∈ identifiers, row.known.kind = arrived.kind ∧ row.known.identifier = arrived.identifier := by
  unfold Store.recordIdentifiers
  split
  · exact ⟨rfl, List.Subset.refl _, fun _ => .inl⟩
  · rename_i source _
    obtain ⟨hcases, hsub, hmem⟩ := recordRows (identifiers.map fun arrived =>
      (⟨orgId, id, source.text, arrived.kind, arrived.identifier⟩ : StoredIdentifier)) (s, 0, [])
    refine ⟨hcases, hsub, fun row hrow => (hmem row hrow).imp_right fun h => ?_⟩
    obtain ⟨arrived, harrived, rfl⟩ := List.mem_map.1 h
    exact ⟨rfl, rfl, arrived, harrived, rfl, rfl⟩

/-- Nothing is known of the case yet, and where `openCase` resolves identity, of its claim id neither. -/
def Fresh (T : CaseTables) (orgId : OrgId) (resolves : Prop) (claimId : Text) (id : CaseId) (s : Store) : Prop :=
  s.getCase id ≠ none ∧ (∀ row ∈ s.identifiers, row.known.deductionId ≠ id) ∧
    (resolves → ∀ other, ¬ Carries T orgId claimId s other)

/-- The two identifiers of a line's case, recorded on a fresh case. -/
theorem follows_recordIdentifiers (tenant : Tenant) (documentId : DocumentId) {invoiceNumber : Text}
    (hfresh : Fresh T orgId resolves claimId id s) :
    s.Follows T debtorOf orgId resolves (Store.recordIdentifiers tenant orgId id documentId
      [⟨.claim_id, claimId⟩, ⟨.invoice_number, invoiceNumber⟩] s).2 ∧
    (resolves → Alone T orgId id (Store.recordIdentifiers tenant orgId id documentId
      [⟨.claim_id, claimId⟩, ⟨.invoice_number, invoiceNumber⟩] s).2) := by
  have hgrows : s.Extends (Store.recordIdentifiers tenant orgId id documentId
      [⟨.claim_id, claimId⟩, ⟨.invoice_number, invoiceNumber⟩] s).2 := Store.extends_recordIdentifiers ..
  obtain ⟨hcases, hsub, hmem⟩ := recordIdentifiers_spec tenant orgId id documentId
    [⟨.claim_id, claimId⟩, ⟨.invoice_number, invoiceNumber⟩] s
  generalize (Store.recordIdentifiers tenant orgId id documentId
    [⟨.claim_id, claimId⟩, ⟨.invoice_number, invoiceNumber⟩] s).2 = t at *
  obtain ⟨hcase, hnone, hunclaimed⟩ := hfresh
  -- a claim id somebody carries now: as before, or the case's own
  have hcarries : ∀ claim other, Carries T orgId claim t other → Carries T orgId claim s other ∨
      other = id ∧ identifierMatchKey T claim = identifierMatchKey T claimId := by
    rintro claim other ⟨row, hrow, horg, hkind, hkey, hid⟩
    rcases hmem row hrow with h | ⟨-, hown, arrived, harrived, hk, hidentifier⟩
    · exact .inl ⟨row, h, horg, hkind, hkey, hid⟩
    · refine .inr ⟨hid.symm.trans hown, ?_⟩
      rcases List.mem_cons.1 harrived with rfl | harrived
      · rw [← hkey, hidentifier]
      · cases List.mem_singleton.1 harrived
        cases hkind.symm.trans hk
  have hown : ∀ claim, identifierMatchKey T claim = identifierMatchKey T claimId → resolves →
      AtMostOne T orgId claim t := by
    intro claim hkey hr
    have hid : ∀ other, Carries T orgId claim t other → other = id := by
      intro other hc
      rcases hcarries claim other hc with ⟨row, hrow, horg, hkind, hk, hid⟩ | h
      · exact absurd ⟨row, hrow, horg, hkind, hk.trans hkey, hid⟩ (hunclaimed hr other)
      · exact h.1
    exact fun a b ha hb => (hid a ha).trans (hid b hb).symm
  refine ⟨⟨hgrows, hsub, fun new h => ?_, fun h row hrow => ?_, fun hr claim => ?_⟩, fun hr claim hc => ?_⟩
  · rw [uniqueClaim_isSome] at h ⊢
    rw [hcases]
    exact h
  · unfold Store.getCase
    rw [hcases]
    rcases hmem row hrow with h' | ⟨-, hid, -⟩
    · exact h row h'
    · rw [hid]
      exact hcase
  · by_cases hkey : identifierMatchKey T claim = identifierMatchKey T claimId
    · exact .inl (hown claim hkey hr)
    · exact .inr fun other hc => (hcarries claim other hc).resolve_right fun h => hkey h.2
  · rcases hcarries claim id hc with ⟨row, hrow, -, -, -, hid⟩ | h
    · exact absurd hid (hnone row hrow)
    · exact hown claim h.2 hr

end

/-! ## The look-up of a line -/

section
variable (T : CaseTables)

/-- The identifiers and the cases that `settleLine` looks up for a line. -/
def Opening.lookup (o : Opening) (line : ShortLine) (s : Store) : List KnownIdentifier × List KnownDeduction :=
  s.identityCandidates T o.document.orgId ([⟨.claim_id, o.claimIdOf line⟩] ++
    (((o.keys[line.index]?).join.bind (·.legacyClaimId)).map fun id => (⟨.claim_id, id⟩ : ArrivedIdentifier)).toList)
    line.invoiceNumber

/-- A case of another reading carries the claim id. -/
def ofClaim (openedHere : List CaseId) (claim : Text) (known : KnownIdentifier) : Bool :=
  known.deductionId ∉ openedHere && known.kind = .claim_id &&
    identifierMatchKey T known.identifier = identifierMatchKey T claim

end

section
variable {T : CaseTables} {o : Opening} {line : ShortLine} {s : Store} {claimId : Text} {id : CaseId}
variable {openedHere : List CaseId}

/-- The candidates for a claim id that is looked up are the cases that carry it. -/
theorem mem_ofClaim (hkey : identifierMatchKey T claimId ≠ [])
    (hlooked : claimId = o.claimIdOf line ∨ (o.keys[line.index]?).join.bind (·.legacyClaimId) = some claimId) :
    (∃ k ∈ (o.lookup T line s).1.filter (ofClaim T openedHere claimId), k.deductionId = id) ↔
      Carries T o.document.orgId claimId s id ∧ id ∉ openedHere := by
  unfold Opening.lookup Store.identityCandidates Carries ofClaim
  dsimp only
  constructor
  · rintro ⟨k, hk, rfl⟩
    simp only [List.mem_filter, List.mem_map, Bool.and_eq_true, decide_eq_true_eq] at hk
    obtain ⟨⟨⟨row, ⟨hrow, horg⟩, rfl⟩, -⟩, ⟨hhere, hkind⟩, hk⟩ := hk
    exact ⟨⟨row, hrow, horg, hkind, hk, rfl⟩, hhere⟩
  · rintro ⟨⟨row, hrow, horg, hkind, hk, rfl⟩, hhere⟩
    refine ⟨row.known, ?_, rfl⟩
    simp only [List.mem_filter, List.mem_map, Bool.and_eq_true, decide_eq_true_eq]
    refine ⟨⟨⟨row, ⟨hrow, horg⟩, rfl⟩, ?_⟩, ⟨hhere, hkind⟩, hk⟩
    rw [List.any_eq_true]
    refine ⟨⟨.claim_id, claimId⟩, ?_, by simp [hkind, hk, hkey]⟩
    rcases hlooked with rfl | hlegacy
    · exact List.mem_append_left _ List.mem_cons_self
    · rw [hlegacy]
      exact List.mem_append_right _ List.mem_cons_self

/-- Rows made of keys: the one of a key is found exactly where the key is listed. -/
theorem find_filterMap {κ β : Type} [DecidableEq κ] {f : κ → Option β} {key : β → κ}
    (hf : ∀ k b, f k = some b → key b = k) (l : List κ) (k : κ) :
    (l.filterMap f).find? (fun b => key b = k) = if k ∈ l then f k else none := by
  induction l with
  | nil => rfl
  | cons x xs ih =>
    by_cases hx : x = k
    · subst hx
      rw [if_pos List.mem_cons_self]
      cases hfx : f x with
      | none =>
        rw [List.filterMap_cons_none hfx, ih, hfx]
        split <;> rfl
      | some b =>
        rw [List.filterMap_cons_some hfx, List.find?_cons_of_pos (by simpa using hf x b hfx)]
    · have hmem : (k ∈ x :: xs) = (k ∈ xs) := by simp [Ne.symm hx]
      simp only [hmem, ← ih]
      cases hfx : f x with
      | none => rw [List.filterMap_cons_none hfx]
      | some b =>
        rw [List.filterMap_cons_some hfx, List.find?_cons_of_neg (by simpa [hf x b hfx] using hx)]

/-- The amount on record of a case that is filed against the line's invoice. -/
theorem lookup_amount {amount : Cents} :
    ((o.lookup T line s).2.find? fun known => known.deductionId = id).map (·.amountCents) = some amount ↔
      Names T o.document.orgId line.invoiceNumber s id ∧ (s.getCase id).bind (·.deductionAmountCents) = some amount := by
  unfold Opening.lookup Store.identityCandidates
  dsimp only
  rw [find_filterMap fun k known h => ?_]
  swap
  · obtain ⟨record, -, h⟩ := Option.bind_eq_some_iff.1 h
    obtain ⟨amount, -, rfl⟩ := Option.map_eq_some_iff.1 h
    rfl
  have hnames : id ∈ firstSeen (((((s.identifiers.filter (·.orgId = o.document.orgId)).map (·.known)).filter fun k =>
      k.kind = .invoice_number && identifierMatchKey T k.identifier = identifierMatchKey T line.invoiceNumber)).map
        (·.deductionId)) ↔ Names T o.document.orgId line.invoiceNumber s id := by
    rw [mem_firstSeen]
    simp only [List.mem_map, List.mem_filter, Bool.and_eq_true, decide_eq_true_eq]
    constructor
    · rintro ⟨_, ⟨⟨row, ⟨hrow, horg⟩, rfl⟩, hkind, hkey⟩, rfl⟩
      exact ⟨row, hrow, horg, hkind, hkey, rfl⟩
    · rintro ⟨row, hrow, horg, hkind, hkey, rfl⟩
      exact ⟨_, ⟨⟨row, ⟨hrow, horg⟩, rfl⟩, hkind, hkey⟩, rfl⟩
  by_cases hn : Names T o.document.orgId line.invoiceNumber s id
  · rw [if_pos (hnames.2 hn), and_iff_right hn]
    cases s.getCase id with
    | none => simp
    | some record => cases record.deductionAmountCents <;> simp
  · rw [if_neg fun h => hn (hnames.1 h)]
    simp [hn]

/-- The matches on the line's claim id are the cases of other readings that carry it. -/
theorem mem_claimMatches_lookup (hkey : identifierMatchKey T (o.claimIdOf line) ≠ []) :
    (∃ k ∈ claimMatches T (o.claimIdOf line)
        ((o.lookup T line s).1.filter (ofClaim T openedHere (o.claimIdOf line))), k.deductionId = id) ↔
      Carries T o.document.orgId (o.claimIdOf line) s id ∧ id ∉ openedHere := by
  rw [← mem_ofClaim hkey (.inl rfl)]
  unfold claimMatches
  constructor
  · rintro ⟨k, hk, hid⟩
    exact ⟨k, (List.mem_filter.1 hk).1, hid⟩
  · rintro ⟨k, hk, hid⟩
    refine ⟨k, List.mem_filter.2 ⟨hk, ?_⟩, hid⟩
    have hof := (List.mem_filter.1 hk).2
    unfold ofClaim at hof
    simp only [Bool.and_eq_true, decide_eq_true_eq] at hof
    rw [Bool.and_eq_true, decide_eq_true_eq, decide_eq_true_eq]
    exact ⟨hof.1.2, hof.2⟩

/-- The legacy case that `settleLine` merges a line into. -/
theorem legacyOwned_iff (hlegacy : ∀ legacy, (o.keys[line.index]?).join.bind (·.legacyClaimId) = some legacy →
      identifierMatchKey T legacy ≠ []) :
    LegacyOwned T o line s ↔ ∃ legacy id amount,
      (o.keys[line.index]?).join.bind (·.legacyClaimId) = some legacy ∧
      (∃ k ∈ (o.lookup T line s).1.filter (ofClaim T [] legacy), k.deductionId = id) ∧
      ((o.lookup T line s).2.find? fun known => known.deductionId = id).map (·.amountCents) = some amount ∧
      legacyOwner (((o.keys[line.index]?).join.map (·.group)).getD []) o.shortPays amount.val = some line.index := by
  constructor
  · rintro ⟨key, legacy, id, amount, hkey, hl, hcarries, hnames, hamount, howner⟩
    have hbind : (o.keys[line.index]?).join.bind (·.legacyClaimId) = some legacy := by rw [hkey]; exact hl
    refine ⟨legacy, id, amount, hbind, (mem_ofClaim (hlegacy legacy hbind) (.inr hbind)).2 ⟨hcarries, nofun⟩,
      lookup_amount.2 ⟨hnames, hamount⟩, ?_⟩
    rw [hkey]
    exact howner
  · rintro ⟨legacy, id, amount, hbind, hk, hamount, howner⟩
    obtain ⟨key, hkey, hl⟩ := Option.bind_eq_some_iff.1 hbind
    obtain ⟨hnames, hamount⟩ := lookup_amount.1 hamount
    rw [hkey] at howner
    exact ⟨key, legacy, id, amount, hkey, hl, ((mem_ofClaim (hlegacy legacy hbind) (.inr hbind)).1 hk).1, hnames, hamount,
      howner⟩

end

/-! ## The first reading -/

/-- `openCase` resolves identity before it inserts. -/
def Resolves (T : CaseTables) (tenant : Tenant) : Prop := tenant.refusal = Store.resolvedClaim T tenant.debtorOf

/-- The refusal is one of the two stores'. -/
def OneOfTheStores (T : CaseTables) (tenant : Tenant) : Prop :=
  Resolves T tenant ∨ tenant.refusal = Store.uniqueClaim tenant.debtorOf

/-- The line's claim ids are not blank. -/
structure Visible (T : CaseTables) (o : Opening) (line : ShortLine) : Prop where
  claim : trim (o.claimIdOf line) ≠ []
  claimKey : identifierMatchKey T (o.claimIdOf line) ≠ []
  legacyKey : ∀ legacy, (o.keys[line.index]?).join.bind (·.legacyClaimId) = some legacy →
    identifierMatchKey T legacy ≠ []

/-- What the first reading leaves of a line: a known case, or one it has opened. -/
def FirstTurn (T : CaseTables) (tenant : Tenant) (o : Opening) (line : ShortLine) (result : RemittanceLineResult)
    (s : Store) : Prop :=
  result.outcome = .merged ∧ Known T tenant.debtorOf (Resolves T tenant) o line s ∨
  (result.outcome = .opened ∨ result.outcome = .probable_duplicate) ∧
    ∃ id, result.deductionId = some id ∧ (Resolves T tenant → Alone T o.document.orgId id s)

def Anything : Failure → Store → Prop := fun _ _ => True

section
variable {T : CaseTables} {tenant : Tenant} {faults : Faults} {P : Store → Prop} {o : Opening} {line : ShortLine}
variable {openedHere : List CaseId}

theorem tolerates_anything : Tolerates faults P Anything := fun _ _ _ => trivial

/-- A call that keeps what a reading keeps. -/
theorem write_follows {f : Store → Store} (hP : KeptBy T tenant.debtorOf o.document.orgId (Resolves T tenant) P)
    (hf : ∀ s : Store, s.Follows T tenant.debtorOf o.document.orgId (Resolves T tenant) (f s))
    {E : Failure → Store → Prop} (hE : ∀ s, E .unavailable s) :
    Triple faults P (write f) (fun _ s => P s) E :=
  Triple.call (fun s hs => hP s _ (hf s) hs) (fun _ s _ => hE s) fun _ _ _ => hE _

/-- Merging touches no case and no identifier. -/
theorem mergedResult_framed {deductionId : CaseId} {merged : MergedLine} {E : Failure → Store → Prop} (hP : Framed P)
    (hE : Tolerates faults P E) :
    Triple faults P (do mergeIntoCase o deductionId merged; pure (line.mergedResult deductionId))
      (fun result s => P s ∧ result = line.mergedResult deductionId) E := by
  have hlink : ∀ s, P s → P (s.linkDocument ⟨deductionId, o.document.documentId, .evidence⟩) := fun s hs =>
    hP s _ (Store.extends_linkDocument _) (Store.linkDocument_cases _) (Store.linkDocument_identifiers _) hs
  have hevent : ∀ s event, P s → P (s.appendEvent event) := fun s event hs =>
    hP s _ (Store.extends_appendEvent event) rfl rfl hs
  refine Triple.bind (M := fun _ => P) (Triple.bind (M := fun _ => P) ?_ fun _ => ?_) fun _ => Triple.pure fun s hs => ⟨hs, rfl⟩
  · exact Triple.call hlink hE fun hf s hs => hE hf _ (hlink s hs)
  · exact Triple.call (fun s hs => hevent s _ hs) hE fun hf s hs => hE hf _ (hevent s _ hs)

/-- Declining a line touches no case and no identifier, and adds one result. -/
theorem declineLine_framed {acc : LineLoop} {row : RemittanceLine} {E : Failure → Store → Prop} (hP : Framed P)
    (hE : Tolerates faults P E) :
    Triple faults P (declineLine tenant o acc row line) (fun acc' s => P s ∧ acc'.openedHere = acc.openedHere ∧
      acc'.opened = acc.opened ∧ ∃ result, acc'.lines = acc.lines ++ [result] ∧ result.index = line.index) E := by
  have hdecline : ∀ s, P s → P (Store.recordDeclinedLine tenant (declinedLine o line) o.document.documentId s).2 :=
    fun s hs => hP s _ (Store.extends_recordDeclinedLine ..) (Store.recordDeclinedLine_cases ..)
      (Store.recordDeclinedLine_identifiers ..) hs
  unfold declineLine
  dsimp only
  split
  · exact Triple.pure fun s hs => ⟨hs, rfl, rfl, _, rfl, rfl⟩
  · refine Triple.handle (M := fun e s => P s ∧ ((∃ id, e = .lineProvenanceUnknown id) ∨ E e s)) ?_ fun e => ?_
    · refine Triple.bind (M := fun _ => P) ?_ fun _ => Triple.pure fun s hs => ⟨hs, rfl, rfl, _, rfl, rfl⟩
      refine Triple.call (fun s hs => ?_) (fun hf s hs => ⟨hs, .inr (hE hf s hs)⟩)
        fun hf s hs => ⟨hdecline s hs, .inr (hE hf _ (hdecline s hs))⟩
      have hafter := hdecline s hs
      revert hafter
      unfold Store.recordDeclinedLine
      cases tenant.arrival o.document.documentId with
      | none => exact fun _ => ⟨hs, .inl ⟨_, rfl⟩⟩
      | some source => exact fun h => h
    · cases e with
      | lineProvenanceUnknown id => exact Triple.pure fun s hs => ⟨hs.1, rfl, rfl, _, rfl, rfl⟩
      | _ =>
        refine Triple.throw ?_
        rintro s ⟨-, ⟨id, hid⟩ | he⟩
        · cases hid
        · exact he

/-- What a store that resolves identity says of the line's case. -/
theorem refusal_cases (hr : Resolves T tenant) (hline : Visible T o line) (s : Store) :
    (∃ id, Carries T o.document.orgId (o.claimIdOf line) s id ∧ AtMostOne T o.document.orgId (o.claimIdOf line) s ∧
      tenant.refusal s (newCaseOf o (o.claimIdOf line) line) = some (.duplicateCase id)) ∨
    (∃ id ids, Carries T o.document.orgId (o.claimIdOf line) s id ∧
      tenant.refusal s (newCaseOf o (o.claimIdOf line) line) = some (.ambiguousIdentity ids)) ∨
    (∀ id, ¬ Carries T o.document.orgId (o.claimIdOf line) s id) ∧
      tenant.refusal s (newCaseOf o (o.claimIdOf line) line) =
        s.uniqueClaim tenant.debtorOf (newCaseOf o (o.claimIdOf line) line) := by
  have hclaim : (newCaseOf o (o.claimIdOf line) line).claimId = some (o.claimIdOf line) := rfl
  rw [show tenant.refusal = _ from hr]
  exact resolvedClaim_cases hclaim hline.claim hline.claimKey

/-- A refused line is known, of the case that refuses it. -/
theorem known_of_refused (hstore : OneOfTheStores T tenant) (hline : Visible T o line) {s : Store} {id : CaseId}
    (hrefused : tenant.refusal s (newCaseOf o (o.claimIdOf line) line) = some (.duplicateCase id)) :
    Known T tenant.debtorOf (Resolves T tenant) o line s := by
  refine .inr ⟨fun hr => ?_, ?_⟩
  · rcases refusal_cases hr hline s with ⟨other, -, hone, -⟩ | ⟨_, ids, -, hids⟩ | ⟨hnone, -⟩
    · exact hone
    · cases hrefused.symm.trans hids
    · exact fun a _ ha => absurd ha (hnone a)
  · have hunique : tenant.refusal s (newCaseOf o (o.claimIdOf line) line) =
        s.uniqueClaim tenant.debtorOf (newCaseOf o (o.claimIdOf line) line) → ClaimOpen tenant.debtorOf o line s := by
      intro heq
      unfold ClaimOpen
      rw [← heq, hrefused]
      rfl
    rcases hstore with hr | h
    · rcases refusal_cases hr hline s with ⟨other, hc, -⟩ | ⟨_, ids, -, hids⟩ | ⟨-, heq⟩
      · exact .inl ⟨other, hc⟩
      · cases hrefused.symm.trans hids
      · exact .inr (hunique heq)
    · exact .inr (hunique (by rw [h]))

/-- A case that is opened is fresh. -/
theorem fresh_of_opened (hline : Visible T o line) {s : Store} (hsound : s.Sound)
    (hopened : tenant.refusal s (newCaseOf o (o.claimIdOf line) line) = none) :
    Fresh T o.document.orgId (Resolves T tenant) (o.claimIdOf line) s.freshId
      { s with cases := s.cases ++ [s.newRecord tenant (newCaseOf o (o.claimIdOf line) line)] } := by
  refine ⟨?_, fun row hrow hid => ?_, fun hr => ?_⟩
  · rw [show s.freshId = (s.newRecord tenant (newCaseOf o (o.claimIdOf line) line)).deductionId from rfl,
      Store.getCase_addCase rfl]
    nofun
  · have h := hsound row hrow
    rw [hid] at h
    exact h s.getCase_freshId
  · rcases refusal_cases hr hline s with ⟨other, -, -, hdup⟩ | ⟨_, ids, -, hids⟩ | ⟨hnone, -⟩
    · cases hopened.symm.trans hdup
    · cases hopened.symm.trans hids
    · exact hnone

/-- Of the failures of opening a case: a refusal as a duplicate leaves the line known. -/
def RefusedIsKnown (T : CaseTables) (tenant : Tenant) (o : Opening) (line : ShortLine) (P : Store → Prop) :
    Failure → Store → Prop :=
  fun e s => ∀ id, e = .duplicateCase id → P s ∧ Known T tenant.debtorOf (Resolves T tenant) o line s

theorem openCaseForLine_first {duplicate : Option (List CaseId × List Text)} (hstore : OneOfTheStores T tenant)
    (hline : Visible T o line) (hP : KeptBy T tenant.debtorOf o.document.orgId (Resolves T tenant) P)
    (hsound : ∀ s, P s → s.Sound) :
    Triple faults P (openCaseForLine tenant o (o.claimIdOf line) line duplicate)
      (fun record s => P s ∧ (Resolves T tenant → Alone T o.document.orgId record.deductionId s))
      (RefusedIsKnown T tenant o line P) := by
  have hlost : ∀ s, RefusedIsKnown T tenant o line P .unavailable s := fun _ _ h => nomatch h
  -- the case is inserted, or refused
  have hopen : Triple faults P (transact (Store.openCase tenant (newCaseOf o (o.claimIdOf line) line)))
      (fun opened s => P s ∧ Fresh T o.document.orgId (Resolves T tenant) (o.claimIdOf line) opened.deductionId s)
      (RefusedIsKnown T tenant o line P) := by
    refine Triple.call (fun s hs => ?_) (fun _ s _ => hlost s) fun _ s _ => hlost _
    unfold Store.openCase
    cases hr : tenant.refusal s (newCaseOf o (o.claimIdOf line) line) with
    | some refusal =>
      intro id hid
      cases refusal with
      | duplicateCase existing => exact ⟨hs, known_of_refused hstore hline hr⟩
      | ambiguousIdentity ids => cases hid
    | none => exact ⟨hP s _ (follows_addCase _) hs, fresh_of_opened hline (hsound s hs) hr⟩
  refine Triple.bind hopen fun opened => ?_
  refine Triple.bind (M := fun _ s => P s ∧
    Fresh T o.document.orgId (Resolves T tenant) (o.claimIdOf line) opened.deductionId s) ?_ fun _ => ?_
  · refine Triple.call (fun s hs => ⟨hP s _ (follows_linkDocument _) hs.1, ?_⟩) (fun _ s _ => hlost s) fun _ s _ => hlost _
    unfold Fresh Carries Store.getCase
    dsimp only
    rw [Store.linkDocument_cases, Store.linkDocument_identifiers]
    exact hs.2
  let A (s : Store) : Prop := P s ∧ (Resolves T tenant → Alone T o.document.orgId opened.deductionId s)
  have hA : KeptBy T tenant.debtorOf o.document.orgId (Resolves T tenant) A := hP.and KeptBy.alone
  refine Triple.bind (M := fun _ => A) ?_ fun names => ?_
  · refine Triple.call (fun s hs => ?_) (fun _ s _ => hlost s) fun _ s _ => hlost _
    have hrecorded := @follows_recordIdentifiers T tenant.debtorOf _ _ _ _ _ tenant o.document.documentId
      line.invoiceNumber hs.2
    exact ⟨hP s _ hrecorded.1 hs.1, hrecorded.2⟩
  -- what follows tells of the case and walks it on
  refine Triple.bind (M := fun _ => A) (write_follows hA (fun _ => follows_appendEvent _) hlost) fun _ => ?_
  refine Triple.bind (M := fun _ => A) (Triple.forM fun other => write_follows hA (fun _ => follows_appendEvent _) hlost)
    fun _ => ?_
  refine Triple.bind (M := fun _ => A) (Triple.lift (fun _ _ _ h => h) fun e he s _ id hid => ?_) fun _ => ?_
  · unfold classifiedFrom at he
    split at he
    · cases he
    · cases he
      cases hid
  refine Triple.bind (M := fun record s => A s ∧ record.deductionId = opened.deductionId) ?_ fun classified => ?_
  · refine Triple.call (fun s hs => ?_) (fun _ s _ => hlost s) fun _ s _ => hlost _
    unfold Store.transitionCase
    cases hget : s.getCase opened.deductionId with
    | none => exact fun id hid => nomatch hid
    | some current => exact ⟨hA s _ (follows_setState _ _) hs, (Store.getCase_id hget : current.deductionId = _)⟩
  refine Triple.bind (M := fun _ s => A s ∧ classified.deductionId = opened.deductionId)
    (write_follows (hA.and (KeptBy.const _)) (fun _ => follows_appendEvent _) hlost) fun _ => Triple.pure fun s hs => ?_
  rw [hs.2]
  exact hs.1

theorem openLine_first {probable : Option (List CaseId)} {basis : Option (List Text)} (hstore : OneOfTheStores T tenant)
    (hline : Visible T o line) (hP : KeptBy T tenant.debtorOf o.document.orgId (Resolves T tenant) P)
    (hsound : ∀ s, P s → s.Sound) :
    Triple faults P (openLine tenant o (o.claimIdOf line) line probable basis)
      (fun result s => P s ∧ FirstTurn T tenant o line result s) Anything := by
  refine Triple.handle (M := RefusedIsKnown T tenant o line P) ?_ fun e => ?_
  · refine Triple.bind (openCaseForLine_first hstore hline hP hsound) fun opened => Triple.pure ?_
    rintro s ⟨hs, halone⟩
    refine ⟨hs, .inr ⟨?_, opened.deductionId, rfl, halone⟩⟩
    by_cases hp : probable = none
    · exact .inl (if_pos hp)
    · exact .inr (if_neg hp)
  · cases e with
    | duplicateCase id =>
      refine ((mergedResult_framed (hP.and (KeptBy.known rfl)).framed tolerates_anything).pre fun s hs => hs id rfl).post ?_
      rintro result s ⟨⟨hs, hknown⟩, rfl⟩
      exact ⟨hs, .inl ⟨rfl, hknown⟩⟩
    | _ => exact Triple.throw fun _ _ => trivial

theorem mapError_ok {ε ε' α : Type} {r : Except ε α} {f : ε → ε'} {a : α} (h : r.mapError f = .ok a) : r = .ok a := by
  cases r with
  | error e => cases h
  | ok b =>
    cases h
    rfl

/-- The resolution that `settleLine` makes of what it has looked up. -/
def lineResolution (T : CaseTables) (o : Opening) (openedHere : List CaseId) (line : ShortLine)
    (found : List KnownIdentifier × List KnownDeduction) : Except Text IdentityResolution :=
  resolveIdentity T
    ⟨[⟨.claim_id, o.claimIdOf line⟩], some line.amountCents, some line.invoiceNumber, o.paymentDate.value, none⟩
    (found.1.filter (ofClaim T openedHere (o.claimIdOf line)))
    (found.2.filter fun known => known.deductionId ∉ openedHere) (some (o.settings.dedupDays : Int))

/-- An exact match leaves the line known, whatever cases this reading has opened. -/
theorem known_of_exact (hline : Visible T o line) {s : Store} {id : CaseId} {on : KnownIdentifier}
    (halone : Resolves T tenant → ∀ id ∈ openedHere, Alone T o.document.orgId id s)
    (hexact : lineResolution T o openedHere line (o.lookup T line s) = .ok (.exact id on)) :
    Known T tenant.debtorOf (Resolves T tenant) o line s := by
  rcases resolve_cases rfl hline.claimKey hexact with ⟨id', on', heq, hne, hall⟩ | ⟨ids, basis, h, -⟩ | ⟨-, h | ⟨_, _, h⟩⟩
  · cases heq
    obtain ⟨k, hk⟩ := List.exists_mem_of_ne_nil _ hne
    refine .inr ⟨fun hr => ?_, .inl ⟨id, ((mem_claimMatches_lookup hline.claimKey).1 ⟨k, hk, hall k hk⟩).1⟩⟩
    -- two carriers: one of this reading is alone, and any other is the match
    have hother : ∀ a, Carries T o.document.orgId (o.claimIdOf line) s a → a ∉ openedHere → a = id := by
      intro a ha hhere
      obtain ⟨k', hk', rfl⟩ := (mem_claimMatches_lookup hline.claimKey).2 ⟨ha, hhere⟩
      exact hall k' hk'
    intro a b ha hb
    by_cases hahere : a ∈ openedHere
    · exact halone hr a hahere _ ha a b ha hb
    by_cases hbhere : b ∈ openedHere
    · exact halone hr b hbhere _ hb a b ha hb
    · rw [hother a ha hahere, hother b hb hbhere]
  · cases h
  · cases h
  · cases h

/-- A case of the shared claim id that has the line's amount leaves the line known. -/
theorem known_of_legacy (hline : Visible T o line) {s : Store} {legacy : Text} {id : CaseId}
    (hlegacy : (o.keys[line.index]?).join.bind (·.legacyClaimId) = some legacy)
    (hmem : ∃ k ∈ (o.lookup T line s).1.filter (ofClaim T openedHere legacy), k.deductionId = id)
    (howner : (((o.lookup T line s).2.find? fun known => known.deductionId = id).map (·.amountCents)).bind
      (fun amount => legacyOwner (((o.keys[line.index]?).join.map (·.group)).getD []) o.shortPays amount.val) =
        some line.index) : Known T tenant.debtorOf (Resolves T tenant) o line s := by
  obtain ⟨amount, hamount, howner⟩ := Option.bind_eq_some_iff.1 howner
  have hkey := hline.legacyKey legacy hlegacy
  have hcarries := ((mem_ofClaim hkey (.inr hlegacy)).1 hmem).1
  exact .inl ((legacyOwned_iff hline.legacyKey).2 ⟨legacy, id, amount, hlegacy,
    (mem_ofClaim hkey (.inr hlegacy)).2 ⟨hcarries, nofun⟩, hamount, howner⟩)

/-- **A line over the floor, first read**: it is a known case, or it opens one. -/
theorem settleLine_first (hstore : OneOfTheStores T tenant) (hline : Visible T o line)
    (hP : KeptBy T tenant.debtorOf o.document.orgId (Resolves T tenant) P) (hsound : ∀ s, P s → s.Sound)
    (halone : ∀ s, P s → Resolves T tenant → ∀ id ∈ openedHere, Alone T o.document.orgId id s) :
    Triple faults P (settleLine T tenant o openedHere line)
      (fun result s => P s ∧ FirstTurn T tenant o line result s) Anything := by
  let K (s : Store) : Prop := P s ∧ Known T tenant.debtorOf (Resolves T tenant) o line s
  have hK : KeptBy T tenant.debtorOf o.document.orgId (Resolves T tenant) K := hP.and (KeptBy.known rfl)
  have hmerge : ∀ {id : CaseId} {merged : MergedLine}, Triple faults K
      (do mergeIntoCase o id merged; pure (line.mergedResult id))
      (fun result s => P s ∧ FirstTurn T tenant o line result s) Anything := by
    intro id merged
    refine (mergedResult_framed hK.framed tolerates_anything).post ?_
    rintro result s ⟨⟨hs, hk⟩, rfl⟩
    exact ⟨hs, .inl ⟨rfl, hk⟩⟩
  refine Triple.bind (M := fun found s => P s ∧ found = o.lookup T line s) (ask_triple tolerates_anything) fun found => ?_
  refine Triple.bind (M := fun resolution s => (P s ∧ found = o.lookup T line s) ∧
      lineResolution T o openedHere line found = .ok resolution)
    (Triple.lift (fun resolution h s hs => ⟨hs, mapError_ok h⟩) fun _ _ _ _ => trivial) fun resolution => ?_
  dsimp only
  split
  · refine Triple.pre hmerge ?_
    rintro s ⟨⟨hs, rfl⟩, hexact⟩
    exact ⟨hs, known_of_exact hline (halone s hs) hexact⟩
  · split
    · rename_i legacyId hfind
      refine Triple.pre hmerge ?_
      rintro s ⟨⟨hs, rfl⟩, -⟩
      have howner := List.find?_some hfind
      have hmem := List.mem_of_find?_eq_some hfind
      refine ⟨hs, ?_⟩
      split at hmem
      · cases hmem
      · rename_i legacy hlegacy
        rw [mem_firstSeen, List.mem_map] at hmem
        exact known_of_legacy hline hlegacy hmem (of_decide_eq_true howner)
    · exact (openLine_first hstore hline hP hsound).pre fun s hs => hs.1.1

/-- The cases that the loop has opened are alone. -/
def OpenedAlone (T : CaseTables) (tenant : Tenant) (o : Opening) (acc : LineLoop) (s : Store) : Prop :=
  Resolves T tenant → ∀ id ∈ acc.openedHere, Alone T o.document.orgId id s

theorem KeptBy.openedAlone (acc : LineLoop) :
    KeptBy T tenant.debtorOf o.document.orgId (Resolves T tenant) (OpenedAlone T tenant o acc) :=
  fun s t h hs hr id hid => KeptBy.alone s t h (fun hr => hs hr id hid) hr

theorem KeptBy.firstTurn (result : RemittanceLineResult) :
    KeptBy T tenant.debtorOf o.document.orgId (Resolves T tenant) (FirstTurn T tenant o line result) :=
  ((KeptBy.const _).and (KeptBy.known rfl)).or ((KeptBy.const _).and fun s t h ⟨id, hid, halone⟩ =>
    ⟨id, hid, KeptBy.alone s t h halone⟩)

/-- A turn of the first reading has added one result: what became of the line, where there is one. -/
def TurnedFirst (T : CaseTables) (tenant : Tenant) (o : Opening) (acc : LineLoop) (entry : RemittanceLine × Nat)
    (acc' : LineLoop) (s : Store) : Prop :=
  OpenedAlone T tenant o acc' s ∧ ∃ result, acc'.lines = acc.lines ++ [result] ∧
    ∀ line, overFloorLine T o entry = some line → FirstTurn T tenant o line result s

theorem overFloor_first {acc : LineLoop} {entry : RemittanceLine × Nat} (hstore : OneOfTheStores T tenant)
    (hline : Visible T o line) (hP : KeptBy T tenant.debtorOf o.document.orgId (Resolves T tenant) P)
    (hsound : ∀ s, P s → s.Sound) (hover : overFloorLine T o entry = some line) :
    Triple faults (fun s => P s ∧ OpenedAlone T tenant o acc s) (overFloor T tenant o acc line)
      (fun acc' s => P s ∧ TurnedFirst T tenant o acc entry acc' s) Anything := by
  let P' (s : Store) : Prop := P s ∧ OpenedAlone T tenant o acc s
  have hP' : KeptBy T tenant.debtorOf o.document.orgId (Resolves T tenant) P' := hP.and (KeptBy.openedAlone acc)
  have hclaim : Triple faults P' (withInvoiceClaim (settleLine T tenant o acc.openedHere line))
      (fun result s => P' s ∧ FirstTurn T tenant o line result s) Anything := by
    refine Triple.bind (M := fun _ => P') ((ask_triple tolerates_anything).post fun _ _ h => h.1) fun _ => ?_
    refine Triple.bind (settleLine_first hstore hline hP' (fun s hs => hsound s hs.1) fun s hs => hs.2) fun result => ?_
    exact Triple.bind (M := fun _ s => P' s ∧ FirstTurn T tenant o line result s)
      ((ask_triple tolerates_anything).post fun _ _ h => h.1) fun _ => Triple.pure fun _ h => h
  refine Triple.bind hclaim fun result => ?_
  have hadded : ∀ (lines : List RemittanceLineResult) (s : Store), FirstTurn T tenant o line result s →
      lines = acc.lines ++ [{ result with reasonCode := line.reasonCode }] →
      ∃ r, lines = acc.lines ++ [r] ∧ ∀ line, overFloorLine T o entry = some line → FirstTurn T tenant o line r s := by
    intro lines s hturn hlines
    refine ⟨_, hlines, fun line' hline' => ?_⟩
    cases hover.symm.trans hline'
    exact hturn
  dsimp only
  split
  · exact Triple.pure fun s hs => ⟨hs.1.1, hs.1.2, hadded _ s hs.2 rfl⟩
  · rename_i id hid
    split
    · refine Triple.bind (M := fun _ s => P' s ∧ FirstTurn T tenant o line result s)
        ((ask_triple tolerates_anything).post fun _ _ h => h.1) fun record => Triple.pure fun s hs => ?_
      refine ⟨hs.1.1, fun hr other hother => ?_, hadded _ s hs.2 rfl⟩
      rcases List.mem_append.1 hother with h | h
      · exact hs.1.2 hr other h
      · cases List.mem_singleton.1 h
        rcases hs.2 with ⟨hmerged, -⟩ | ⟨-, id', hid', halone⟩
        · rename_i hopened
          rw [hmerged] at hopened
          rcases hopened with h | h <;> cases h
        · cases hid.symm.trans hid'
          exact halone hr
    · exact Triple.pure fun s hs => ⟨hs.1.1, hs.1.2, hadded _ s hs.2 rfl⟩

/-- **One turn of the first reading.** -/
theorem processLine_first {acc : LineLoop} {entry : RemittanceLine × Nat} (hstore : OneOfTheStores T tenant)
    (hvisible : ∀ line, overFloorLine T o entry = some line → Visible T o line)
    (hP : KeptBy T tenant.debtorOf o.document.orgId (Resolves T tenant) P) (hsound : ∀ s, P s → s.Sound) :
    Triple faults (fun s => P s ∧ OpenedAlone T tenant o acc s) (processLine T tenant o acc entry)
      (fun acc' s => P s ∧ TurnedFirst T tenant o acc entry acc' s) Anything := by
  obtain ⟨row, index⟩ := entry
  rcases processLine_cases acc row index with
    ⟨line, hline, hrun⟩ | ⟨hnone, ⟨-, hrun⟩ | ⟨result, -, -, hrun⟩ | ⟨line, -, hrun⟩⟩
  · rw [hrun]
    exact overFloor_first hstore (hvisible line hline) hP hsound hline
  · rw [hrun]
    exact Triple.throw fun _ _ => trivial
  · rw [hrun]
    exact Triple.pure fun s hs => ⟨hs.1, hs.2, _, rfl, fun line hline => nomatch hnone.symm.trans hline⟩
  · rw [hrun]
    refine (declineLine_framed (hP.and (KeptBy.openedAlone acc)).framed tolerates_anything).post ?_
    rintro acc' s ⟨⟨hs, halone⟩, hopened, -, result, hlines, -⟩
    refine ⟨hs, ?_, result, hlines, fun line hline => nomatch hnone.symm.trans hline⟩
    unfold OpenedAlone
    rw [hopened]
    exact halone

/-- The results of the first reading, each of its row. -/
def FirstRead (T : CaseTables) (tenant : Tenant) (o : Opening) (s : Store) (entry : RemittanceLine × Nat)
    (result : RemittanceLineResult) : Prop :=
  ∀ line, overFloorLine T o entry = some line → FirstTurn T tenant o line result s

theorem lines_first {rows : List (RemittanceLine × Nat)} (hstore : OneOfTheStores T tenant)
    (hvisible : ∀ entry ∈ rows, ∀ line, overFloorLine T o entry = some line → Visible T o line) :
    Triple faults Store.Sound (rows.foldlM (processLine T tenant o) {})
      (fun acc s => List.Forall₂ (FirstRead T tenant o s) rows acc.lines) Anything := by
  let I (done : List (RemittanceLine × Nat)) (acc : LineLoop) (s : Store) : Prop :=
    (s.Sound ∧ List.Forall₂ (FirstRead T tenant o s) done acc.lines) ∧ OpenedAlone T tenant o acc s
  refine ((Triple.foldlM (I := I) fun done entry rest hrows acc => ?_).pre fun s hs =>
    ⟨⟨hs, .nil⟩, fun _ _ h => absurd h List.not_mem_nil⟩).post fun acc s hs => hs.1.2
  have hP : KeptBy T tenant.debtorOf o.document.orgId (Resolves T tenant)
      fun s => s.Sound ∧ List.Forall₂ (FirstRead T tenant o s) done acc.lines :=
    KeptBy.sound.and fun s t hst hall => hall.imp fun entry result h line hline =>
      KeptBy.firstTurn result s t hst (h line hline)
  have hentry : entry ∈ rows := by
    rw [hrows]
    exact List.mem_append_right _ List.mem_cons_self
  refine (processLine_first hstore (hvisible entry hentry) hP fun s hs => hs.1).post ?_
  rintro acc' s ⟨⟨hs, hall⟩, halone, result, hlines, hturn⟩
  refine ⟨⟨hs, ?_⟩, halone⟩
  rw [hlines]
  exact List.rel_append hall (.cons hturn .nil)

/-- The lines over the floor of an advice have claim ids to be matched by. -/
theorem visible_of_overFloor (hT : ∀ c, T.lower c ≠ []) {advice : RemittanceAdvice} {entry : RemittanceLine × Nat}
    (hkeys : o.keys = lineClaimIds T advice.lines o.paymentReference) (hentry : entry ∈ advice.lines.zipIdx)
    (hline : overFloorLine T o entry = some line) : Visible T o line := by
  obtain ⟨row, index⟩ := entry
  obtain ⟨-, hinvoice, hindex, -⟩ := overFloorLine_eq_some.1 hline
  have hrow : advice.lines[line.index]? = some row := by
    rw [hindex]
    exact List.mk_mem_zipIdx_iff_getElem?.1 hentry
  obtain ⟨c, hc, hspace⟩ := printed_not_blank hinvoice
  have hclaim := claimIdOf_contains hkeys hrow hinvoice hc
  refine ⟨trim_ne_nil hclaim hspace, matchKey_ne_nil hT hclaim hspace, fun legacy hlegacy => ?_⟩
  rw [hkeys, lineClaimIds, List.getElem?_mapIdx, hrow, Option.map_some, Option.join_some, lineKey, hinvoice,
    Option.map_some, Option.bind_some] at hlegacy
  dsimp only at hlegacy
  split at hlegacy
  · cases hlegacy
  · cases hlegacy
    refine matchKey_ne_nil hT (c := c) ?_ hspace
    unfold lineClaimId
    split
    · exact hc
    · exact List.mem_append_right _ (List.mem_cons_of_mem _ hc)

theorem lineLoop_first {parse : Text → Except Text Text} {document : CaseOpeningDocument}
    {reading : CaseOpeningReading} {confirmation : Option HoldConfirmation} (hT : ∀ c, T.lower c ≠ [])
    (hstore : OneOfTheStores T tenant) :
    Triple faults Store.Sound (lineLoop T tenant parse document reading confirmation reading.advice.lines.length)
      (fun done s => ∃ shortPays, adviceShortPays T reading.advice = .ok shortPays ∧
        List.Forall₂ (FirstRead T tenant (openingOf T tenant parse document reading confirmation shortPays) s)
          reading.advice.lines.zipIdx done.lines) Anything := by
  refine Triple.bind (M := fun _ => Store.Sound) ((ask_triple tolerates_anything).post fun _ _ h => h.1) fun _ => ?_
  refine Triple.bind (M := fun shortPays s => s.Sound ∧ adviceShortPays T reading.advice = .ok shortPays)
    (Triple.lift (fun shortPays h s hs => ⟨hs, mapError_ok h⟩) fun _ _ _ _ => trivial) fun shortPays => ?_
  have hlength : reading.advice.lines.zipIdx.length = reading.advice.lines.length := List.length_zipIdx
  rw [← hlength, List.take_length]
  by_cases hpays : adviceShortPays T reading.advice = .ok shortPays
  · refine ((lines_first hstore fun entry hentry line hline => ?_).pre fun s hs => hs.1).post
      fun done s hs => ⟨shortPays, hpays, hs⟩
    exact visible_of_overFloor hT rfl hentry hline
  · exact fun n s hs => absurd hs.2 hpays

theorem forall₂_and {α β : Type} {R S : α → β → Prop} {l : List α} {l' : List β} (h : List.Forall₂ R l l')
    (h' : List.Forall₂ S l l') : List.Forall₂ (fun a b => R a b ∧ S a b) l l' := by
  induction h with
  | nil => exact .nil
  | cons hab _ ih =>
    cases h' with
    | cons hab' hrest => exact .cons ⟨hab, hab'⟩ (ih hrest)

/-- What is known of the results of a first reading. -/
def ReadFirst (T : CaseTables) (tenant : Tenant) (parse : Text → Except Text Text) (document : CaseOpeningDocument)
    (reading : CaseOpeningReading) (confirmation : Option HoldConfirmation) (lines : List RemittanceLineResult)
    (s : Store) : Prop :=
  ∃ shortPays, adviceShortPays T reading.advice = .ok shortPays ∧
    List.Forall₂ (fun entry result =>
      FirstRead T tenant (openingOf T tenant parse document reading confirmation shortPays) s entry result ∧
      TurnHolds T (openingOf T tenant parse document reading confirmation shortPays) s entry result)
      reading.advice.lines.zipIdx lines

/-- **The first reading**: every result holds, and every line over the floor is known or has opened a case. -/
theorem openCases_first {parse : Text → Except Text Text} {document : CaseOpeningDocument}
    {reading : CaseOpeningReading} {confirmation : Option HoldConfirmation} (hT : ∀ c, T.lower c ≠ [])
    (hstore : OneOfTheStores T tenant) :
    Triple faults Store.Sound (openCasesFromRemittance T tenant parse document reading confirmation)
      (fun read s => ReadFirst T tenant parse document reading confirmation read.lines s) Anything := by
  have hkept : ∀ lines, KeptBy T tenant.debtorOf document.orgId (Resolves T tenant)
      (ReadFirst T tenant parse document reading confirmation lines) := by
    rintro lines s t hst ⟨shortPays, hpays, hall⟩
    refine ⟨shortPays, hpays, hall.imp fun entry result h => ⟨fun line hline => ?_, h.2.extends hst.grows⟩⟩
    exact KeptBy.firstTurn result s t hst (h.1 line hline)
  refine Triple.bind (M := fun done s => ReadFirst T tenant parse document reading confirmation done.lines s) ?_
    fun done => ?_
  · have hloop : Triple faults Store.Sound
        (lineLoop T tenant parse document reading confirmation reading.advice.lines.length) _ Anything :=
      (lineLoop_triple (P := fun _ => True) reading.advice.lines.length (Kept.const True) tolerates_anything
        (fun _ _ _ _ _ => trivial) fun _ _ _ _ => trivial).pre fun _ _ => trivial
    refine (((lineLoop_first hT hstore).and hloop).post ?_).weaken fun _ _ _ => trivial
    rintro done s ⟨⟨shortPays, hpays, hfirst⟩, -, shortPays', hpays', hturn⟩
    cases hpays.symm.trans hpays'
    have hlength : reading.advice.lines.zipIdx.length = reading.advice.lines.length := List.length_zipIdx
    rw [← hlength, List.take_length] at hturn
    exact ⟨shortPays, hpays, forall₂_and hfirst hturn⟩
  · refine Triple.bind (M := fun _ s => ReadFirst T tenant parse document reading confirmation done.lines s)
      (Triple.forM fun id => ?_) fun _ => Triple.pure fun _ h => h
    exact Triple.call (fun s hs => hkept done.lines s _ (follows_appendEvent _) hs) (fun _ _ _ => trivial)
      fun _ _ _ => trivial

end

end Recouple.Pipeline
