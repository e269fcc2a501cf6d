import Recouple.Pipeline.SecondReading

/-!
# The turns of the line loop

What one turn of `openCasesFromRemittance` does to the cases (`TurnFrom`): a line over the floor opens a case that
is new, under the claim id it builds, or is merged into a case of the store; any other line touches no case. From it
follows what a whole loop keeps (`lines_turn`).

A reading whose calls all answer returns unless a line over the floor is ambiguous in the store it starts from: where
`openCase` resolves identity and two cases carry the line's claim id, it refuses the line's case for good
(`openCases_returns`, `openCases_ambiguous`).
-/

namespace Recouple.Pipeline
open Js FirstSeen Extraction Calls KeyedFold

/-- The line was opened as a case. -/
def RemittanceLineResult.Opened (result : RemittanceLineResult) : Prop :=
  result.outcome = .opened ∨ result.outcome = .probable_duplicate

/-! ## Which case stands for which claim -/

/-- The cases, and the claim ids they were opened under. -/
def Store.claims (s : Store) : List (CaseId × Option Text) := s.cases.map fun c => (c.deductionId, c.claimId)

def Store.Has (s : Store) (id : CaseId) : Prop := id ∈ s.claims.map (·.1)

/-- The same cases under the same claim ids, and the same identifiers. -/
structure Store.SameCases (s t : Store) : Prop where
  claims : t.claims = s.claims
  identifiers : t.identifiers = s.identifiers

/-- One case more, under the claim id; what identifiers were added are its own. -/
structure Store.OpensCase (s t : Store) (claimId : Text) (id : CaseId) : Prop where
  claims : t.claims = s.claims ++ [(id, some claimId)]
  unheld : ¬ s.Has id
  kept : s.identifiers ⊆ t.identifiers
  added : ∀ row ∈ t.identifiers, row ∈ s.identifiers ∨
    row.known.deductionId = id ∧ (row.known.kind = .claim_id → row.known.identifier = claimId)

/-- Every identifier is of a case of the store. -/
def Store.Owned (s : Store) : Prop := ∀ row ∈ s.identifiers, s.Has row.known.deductionId

/-- The case carries the claim id, or was opened under it. -/
def StandsFor (T : CaseTables) (orgId : OrgId) (claimId : Text) (s : Store) (id : CaseId) : Prop :=
  Carries T orgId claimId s id ∨ (id, some claimId) ∈ s.claims

/-- The case was opened under the claim id, and carries no other. -/
structure OnlyFor (claimId : Text) (s : Store) (id : CaseId) : Prop where
  has : s.Has id
  opened : ∀ claim, (id, claim) ∈ s.claims → claim = some claimId
  carried : ∀ row ∈ s.identifiers, row.known.deductionId = id → row.known.kind = .claim_id →
    row.known.identifier = claimId

section
variable {T : CaseTables} {orgId : OrgId} {claimId claim : Text} {s t u : Store} {id other : CaseId}

theorem Store.has_iff : s.Has id ↔ s.getCase id ≠ none := by
  unfold Store.Has Store.claims Store.getCase
  rw [ne_eq, List.find?_eq_none]
  simp

theorem Store.owned_of_sound (h : s.Sound) : s.Owned := fun row hrow => Store.has_iff.2 (h row hrow)

theorem Store.SameCases.refl (s : Store) : s.SameCases s := ⟨rfl, rfl⟩

theorem Store.SameCases.trans (h : s.SameCases t) (h' : t.SameCases u) : s.SameCases u :=
  ⟨h'.claims.trans h.claims, h'.identifiers.trans h.identifiers⟩

theorem Store.SameCases.has (h : s.SameCases t) : t.Has id ↔ s.Has id := by
  unfold Store.Has
  rw [h.claims]

theorem Store.SameCases.carries (h : s.SameCases t) : Carries T orgId claimId t id ↔ Carries T orgId claimId s id := by
  unfold Carries
  rw [h.identifiers]

theorem Store.SameCases.owned (h : s.SameCases t) (hs : s.Owned) : t.Owned := by
  intro row hrow
  rw [h.identifiers] at hrow
  exact h.has.2 (hs row hrow)

theorem Store.SameCases.onlyFor (h : s.SameCases t) (hs : OnlyFor claimId s id) : OnlyFor claimId t id := by
  refine ⟨h.has.2 hs.has, ?_, ?_⟩
  · rw [h.claims]
    exact hs.opened
  · rw [h.identifiers]
    exact hs.carried

theorem Store.SameCases.opensCase (h : t.SameCases u) (hs : s.OpensCase t claimId id) : s.OpensCase u claimId id where
  claims := h.claims.trans hs.claims
  unheld := hs.unheld
  kept := h.identifiers ▸ hs.kept
  added := h.identifiers ▸ hs.added

theorem Store.OpensCase.has (h : s.OpensCase t claimId id) : t.Has other ↔ s.Has other ∨ other = id := by
  unfold Store.Has
  rw [h.claims, List.map_append, List.mem_append, List.map_singleton, List.mem_singleton]

theorem Store.OpensCase.owned (h : s.OpensCase t claimId id) (hs : s.Owned) : t.Owned := by
  intro row hrow
  rw [h.has]
  exact (h.added row hrow).imp (hs row) fun h => h.1

/-- The case is only for the claim it is opened for. -/
theorem Store.OpensCase.onlyFor (h : s.OpensCase t claimId id) (hs : s.Owned) : OnlyFor claimId t id := by
  refine ⟨h.has.2 (.inr rfl), fun claim hmem => ?_, fun row hrow hid hkind => ?_⟩
  · rw [h.claims, List.mem_append, List.mem_singleton] at hmem
    rcases hmem with hmem | heq
    · exact absurd (List.mem_map_of_mem hmem) h.unheld
    · exact congrArg (·.2) heq
  · rcases h.added row hrow with hold | ⟨-, hclaim⟩
    · exact absurd (hid ▸ hs row hold) h.unheld
    · exact hclaim hkind

/-- The other cases stay only for theirs. -/
theorem Store.OpensCase.onlyFor_other (h : s.OpensCase t claimId id) (hs : OnlyFor claim s other) :
    OnlyFor claim t other := by
  have hne : other ≠ id := fun heq => h.unheld (heq ▸ hs.has)
  refine ⟨h.has.2 (.inl hs.has), fun claim' hmem => ?_, fun row hrow hid hkind => ?_⟩
  · rw [h.claims, List.mem_append, List.mem_singleton] at hmem
    rcases hmem with hmem | heq
    · exact hs.opened claim' hmem
    · exact absurd (congrArg (·.1) heq) hne
  · rcases h.added row hrow with hold | ⟨hown, -⟩
    · exact hs.carried row hold hid hkind
    · exact absurd (hid.symm.trans hown) hne

/-- A case that is only for one claim stands for no other. -/
theorem OnlyFor.standsFor (h : OnlyFor claim s id) (hs : StandsFor T orgId claimId s id) :
    identifierMatchKey T claim = identifierMatchKey T claimId := by
  rcases hs with ⟨row, hrow, -, hkind, hkey, hid⟩ | hmem
  · rw [← hkey, h.carried row hrow hid hkind]
  · rw [Option.some.inj (h.opened _ hmem)]

theorem sameCases_linkDocument (link : Link) : s.SameCases (s.linkDocument link) := by
  refine ⟨?_, Store.linkDocument_identifiers link⟩
  unfold Store.claims
  rw [Store.linkDocument_cases]

theorem sameCases_appendEvent (event : StoredEvent) : s.SameCases (s.appendEvent event) := ⟨rfl, rfl⟩

theorem sameCases_setState (id : CaseId) (target : CaseState) : s.SameCases (s.setState id target) := by
  refine ⟨?_, rfl⟩
  unfold Store.claims Store.setState
  rw [List.map_map]
  refine List.map_congr_left fun c _ => ?_
  dsimp only [Function.comp]
  split <;> rfl

/-- The identifiers of a case just opened are recorded under the claim id it was opened for. -/
theorem opensCase_recordIdentifiers {tenant : Tenant} {documentId : DocumentId} {invoiceNumber : Text}
    (hclaims : t.claims = s.claims ++ [(id, some claimId)]) (hids : t.identifiers = s.identifiers) (hnew : ¬ s.Has id) :
    s.OpensCase (Store.recordIdentifiers tenant orgId id documentId
      [⟨.claim_id, claimId⟩, ⟨.invoice_number, invoiceNumber⟩] t).2 claimId id := by
  obtain ⟨hcases, hsub, hmem⟩ := recordIdentifiers_spec tenant orgId id documentId
    [⟨.claim_id, claimId⟩, ⟨.invoice_number, invoiceNumber⟩] t
  refine ⟨?_, hnew, hids ▸ hsub, fun row hrow => ?_⟩
  · rw [← hclaims]
    unfold Store.claims
    rw [hcases]
  · rcases hmem row hrow with hold | ⟨-, hid, arrived, harrived, hkind, hidentifier⟩
    · exact .inl (hids ▸ hold)
    · refine .inr ⟨hid, fun hclaim => ?_⟩
      rcases List.mem_cons.1 harrived with rfl | harrived
      · exact hidentifier
      · cases List.mem_singleton.1 harrived
        cases hclaim.symm.trans hkind

/-- A document whose arrival is known has the claim id recorded, unless a case carries it. -/
theorem carries_recordIdentifiers {tenant : Tenant} {documentId : DocumentId} {invoiceNumber : Text}
    (harrival : tenant.arrival documentId ≠ none) (hclaim : trim claimId ≠ [])
    (hnone : ∀ other, ¬ Carries T orgId claimId t other) :
    Carries T orgId claimId (Store.recordIdentifiers tenant orgId id documentId
      [⟨.claim_id, claimId⟩, ⟨.invoice_number, invoiceNumber⟩] t).2 id := by
  obtain ⟨source, hsource⟩ := Option.ne_none_iff_exists'.1 harrival
  let row : StoredIdentifier := ⟨orgId, id, source.text, .claim_id, claimId⟩
  have hfind : t.identifiers.find? (fun r => r.orgId = row.orgId && r.known.source = row.known.source &&
      r.known.kind = row.known.kind && r.known.identifier = row.known.identifier) = none := by
    rw [List.find?_eq_none]
    intro r hr hmatch
    simp only [Bool.and_eq_true, decide_eq_true_eq] at hmatch
    obtain ⟨⟨⟨horg, -⟩, hkind⟩, hidentifier⟩ := hmatch
    exact hnone _ ⟨r, hr, horg, hkind, congrArg (identifierMatchKey T) hidentifier, rfl⟩
  have hfirst : row ∈ (Store.recordIdentifier row (t, 0, [])).1.identifiers := by
    unfold Store.recordIdentifier
    dsimp only
    rw [if_neg hclaim, hfind]
    exact List.mem_append_right _ (List.mem_singleton.2 rfl)
  refine ⟨row, ?_, rfl, rfl, rfl, rfl⟩
  unfold Store.recordIdentifiers
  rw [hsource]
  exact subset_recordIdentifier _ _ hfirst

end

/-! ## A line over the floor -/

/-- What holds of a store holds of any other with the same cases and identifiers. -/
def Steady (P : Store → Prop) : Prop := ∀ s t, s.SameCases t → P s → P t

/-- The line's case is new, under its claim id; where `openCase` resolves identity, no case carried it before. -/
structure OpenedFor (T : CaseTables) (tenant : Tenant) (o : Opening) (line : ShortLine) (s₀ : Store) (id : CaseId)
    (s : Store) : Prop where
  opens : s₀.OpensCase s (o.claimIdOf line) id
  first : Resolves T tenant → ∀ other, ¬ Carries T o.document.orgId (o.claimIdOf line) s₀ other
  recorded : Resolves T tenant → tenant.arrival o.document.documentId ≠ none →
    Carries T o.document.orgId (o.claimIdOf line) s id

/-- The case was opened under the claim id the whole invoice shared, and has the line's amount. -/
def LegacyCase (T : CaseTables) (o : Opening) (line : ShortLine) (s : Store) (id : CaseId) : Prop :=
  ∃ key legacy amount, (o.keys[line.index]?).join = some key ∧ key.legacyClaimId = some legacy ∧
    Carries T o.document.orgId legacy s id ∧ Names T o.document.orgId line.invoiceNumber s id ∧
    (s.getCase id).bind (·.deductionAmountCents) = some amount ∧
    legacyOwner key.group o.shortPays amount.val = some line.index

/-- The case is the only one, of those this reading has not opened, that carries the line's claim id. -/
def OnlyCarrier (T : CaseTables) (o : Opening) (openedHere : List CaseId) (line : ShortLine) (s : Store) (id : CaseId) :
    Prop := ∀ other, other ∉ openedHere → Carries T o.document.orgId (o.claimIdOf line) s other → other = id

/-- The case of the store that a line is merged into: one of this reading's only where it stands for the line's claim,
and, where `openCase` resolves identity, the only one that carries the claim id or one of the shared claim id. -/
structure MergesInto (T : CaseTables) (tenant : Tenant) (o : Opening) (openedHere : List CaseId) (line : ShortLine)
    (s₀ : Store) (id : CaseId) : Prop where
  has : s₀.Has id
  stands : id ∈ openedHere → StandsFor T o.document.orgId (o.claimIdOf line) s₀ id
  found : Resolves T tenant → OnlyCarrier T o openedHere line s₀ id ∨ LegacyCase T o line s₀ id ∧ id ∉ openedHere

/-- A case of the store that refuses the line's stands for the line's claim; any other failure is `gone`. -/
def RefusedFor (T : CaseTables) (tenant : Tenant) (o : Opening) (line : ShortLine) (s₀ : Store) (gone : Prop) :
    Failure → Store → Prop
  | .duplicateCase id, s => s₀.SameCases s ∧ s₀.Has id ∧ StandsFor T o.document.orgId (o.claimIdOf line) s₀ id ∧
      (Resolves T tenant → OnlyCarrier T o [] line s₀ id)
  | _, _ => gone

/-- What becomes of a line over the floor: it is merged into a case of the store, or it opens one. -/
def SettledFrom (T : CaseTables) (tenant : Tenant) (o : Opening) (openedHere : List CaseId) (line : ShortLine)
    (s₀ : Store) (result : RemittanceLineResult) (s : Store) : Prop :=
  result.index = line.index ∧ ∃ id, result.deductionId = some id ∧
    (result.outcome = .merged ∧ s₀.SameCases s ∧ MergesInto T tenant o openedHere line s₀ id ∨
      result.Opened ∧ OpenedFor T tenant o line s₀ id s)

/-- `openCase` finds the line's case ambiguous only where this is so. -/
def Ambiguity (tenant : Tenant) (o : Opening) (line : ShortLine) (s₀ : Store) (gone : Prop) : Prop :=
  ∀ s ids, s₀.SameCases s → tenant.refusal s (newCaseOf o (o.claimIdOf line) line) = some (.ambiguousIdentity ids) → gone

section
variable {T : CaseTables} {tenant : Tenant} {faults : Faults} {o : Opening} {line : ShortLine} {gone : Prop}
variable {openedHere : List CaseId} {s₀ s : Store} {P : Store → Prop} {E : Failure → Store → Prop} {id : CaseId}

theorem Steady.sameCases (s₀ : Store) : Steady s₀.SameCases := fun _ _ h hs => hs.trans h

theorem Steady.openedFor : Steady (OpenedFor T tenant o line s₀ id) := fun _ _ h hs =>
  ⟨h.opensCase hs.opens, hs.first, fun hr harrival => h.carries.2 (hs.recorded hr harrival)⟩

theorem Steady.and {Q : Store → Prop} (hP : Steady P) (hQ : Steady Q) : Steady fun s => P s ∧ Q s :=
  fun s t h hs => ⟨hP s t h hs.1, hQ s t h hs.2⟩

theorem Steady.const (p : Prop) : Steady fun _ => p := fun _ _ _ => id

theorem write_steady {f : Store → Store} (hP : Steady P) (hE : faults ≠ reliable → ∀ s, E .unavailable s)
    (hf : ∀ s : Store, s.SameCases (f s)) : Triple faults P (write f) (fun _ s => P s) E :=
  Triple.call (fun s hs => hP s _ (hf s) hs) (fun h s _ => hE h s) fun h _ _ => hE h _

/-- A duplicate that `openCase` names stands for the claim. -/
theorem standsFor_of_refused (hstore : OneOfTheStores T tenant) (hline : Visible T o line) (howned : s₀.Owned)
    (hsame : s₀.SameCases s)
    (hrefused : tenant.refusal s (newCaseOf o (o.claimIdOf line) line) = some (.duplicateCase id)) :
    s₀.Has id ∧ StandsFor T o.document.orgId (o.claimIdOf line) s₀ id ∧
      (Resolves T tenant → OnlyCarrier T o [] line s₀ id) := by
  have hcarried : Carries T o.document.orgId (o.claimIdOf line) s id →
      s₀.Has id ∧ StandsFor T o.document.orgId (o.claimIdOf line) s₀ id := by
    intro hc
    refine ⟨?_, .inl (hsame.carries.1 hc)⟩
    obtain ⟨row, hrow, -, -, -, rfl⟩ := hsame.carries.1 hc
    exact howned row hrow
  have hunique : s.uniqueClaim tenant.debtorOf (newCaseOf o (o.claimIdOf line) line) = some (.duplicateCase id) →
      s₀.Has id ∧ StandsFor T o.document.orgId (o.claimIdOf line) s₀ id := by
    intro hunique
    unfold Store.uniqueClaim at hunique
    split at hunique
    · rename_i debtor claim _ hclaim
      cases hclaim
      obtain ⟨c, hfind, heq⟩ := Option.map_eq_some_iff.1 hunique
      cases heq
      have hmatch := List.find?_some hfind
      simp only [Bool.and_eq_true, decide_eq_true_eq] at hmatch
      have hmem : (c.deductionId, some (o.claimIdOf line)) ∈ s₀.claims := by
        rw [← hsame.claims, ← hmatch.2]
        exact List.mem_map_of_mem (List.mem_of_find?_eq_some hfind)
      exact ⟨List.mem_map_of_mem hmem, .inr hmem⟩
    · cases hunique
  have hall : s₀.Has id ∧ StandsFor T o.document.orgId (o.claimIdOf line) s₀ id := by
    rcases hstore with hr | h
    · rcases refusal_cases hr hline s with ⟨other, hc, -, hdup⟩ | ⟨_, ids, -, hids⟩ | ⟨-, heq⟩
      · cases hrefused.symm.trans hdup
        exact hcarried hc
      · cases hrefused.symm.trans hids
      · exact hunique (heq.symm.trans hrefused)
    · rw [h] at hrefused
      exact hunique hrefused
  refine ⟨hall.1, hall.2, fun hr other _ hother => ?_⟩
  rcases refusal_cases hr hline s with ⟨first, hc, hone, hdup⟩ | ⟨_, ids, -, hids⟩ | ⟨hnone, -⟩
  · cases hrefused.symm.trans hdup
    exact hone other id (hsame.carries.2 hother) hc
  · cases hrefused.symm.trans hids
  · exact absurd (hsame.carries.2 hother) (hnone other)

/-- A case that is not refused is new. -/
theorem not_has_freshId (hsame : s₀.SameCases s) : ¬ s₀.Has s.freshId := by
  rw [← hsame.has, Store.has_iff, not_not]
  exact s.getCase_freshId

/-- **A line that opens a case opens a new one**, or a case that stands for its claim refuses it. -/
theorem openCaseForLine_own {duplicate : Option (List CaseId × List Text)} (hstore : OneOfTheStores T tenant)
    (hline : Visible T o line) (howned : s₀.Owned) (hgone : faults ≠ reliable → gone)
    (hambiguous : Ambiguity tenant o line s₀ gone) :
    Triple faults s₀.SameCases (openCaseForLine tenant o (o.claimIdOf line) line duplicate)
      (fun record s => OpenedFor T tenant o line s₀ record.deductionId s) (RefusedFor T tenant o line s₀ gone) := by
  have hE : faults ≠ reliable → ∀ s, RefusedFor T tenant o line s₀ gone .unavailable s := fun h _ => hgone h
  -- the case is inserted, or refused
  let A (opened : CaseRecord) (s : Store) : Prop :=
    (s.claims = s₀.claims ++ [(opened.deductionId, some (o.claimIdOf line))] ∧ s.identifiers = s₀.identifiers) ∧
    opened.state = .discovered ∧ ¬ s₀.Has opened.deductionId ∧
    (Resolves T tenant → ∀ other, ¬ Carries T o.document.orgId (o.claimIdOf line) s₀ other)
  have hA : ∀ opened, Steady (A opened) := fun opened => Steady.and
    (fun s t h hs => ⟨h.claims.trans hs.1, h.identifiers.trans hs.2⟩) (Steady.const _)
  have hopen : Triple faults s₀.SameCases (transact (Store.openCase tenant (newCaseOf o (o.claimIdOf line) line)))
      A (RefusedFor T tenant o line s₀ gone) := by
    refine Triple.call (fun s hs => ?_) (fun h s _ => hE h s) fun h _ _ => hE h _
    unfold Store.openCase
    cases hr : tenant.refusal s (newCaseOf o (o.claimIdOf line) line) with
    | some refusal =>
      cases refusal with
      | duplicateCase id => exact ⟨hs, standsFor_of_refused hstore hline howned hs hr⟩
      | ambiguousIdentity ids => exact hambiguous s ids hs hr
    | none =>
      refine ⟨⟨?_, hs.identifiers⟩, rfl, not_has_freshId hs, fun hres other hc => ?_⟩
      · rw [← hs.claims]
        exact List.map_append
      · rcases refusal_cases hres hline s with ⟨_, -, -, hdup⟩ | ⟨_, ids, -, hids⟩ | ⟨hnone, -⟩
        · cases hr.symm.trans hdup
        · cases hr.symm.trans hids
        · exact hnone other (hs.carries.2 hc)
  refine Triple.bind hopen fun opened => ?_
  refine Triple.bind (M := fun _ => A opened) (write_steady (hA opened) hE fun _ => sameCases_linkDocument _) fun _ => ?_
  let B (s : Store) : Prop := OpenedFor T tenant o line s₀ opened.deductionId s ∧ opened.state = .discovered
  have hB : Steady B := Steady.openedFor.and (Steady.const _)
  refine Triple.bind (M := fun _ => B) ?_ fun names => ?_
  · refine Triple.call (fun s hs => ?_) (fun h s _ => hE h s) fun h _ _ => hE h _
    obtain ⟨⟨hclaims, hids⟩, hstate, hnew, hfirst⟩ := hs
    refine ⟨⟨opensCase_recordIdentifiers hclaims hids hnew, hfirst, fun hr harrival => ?_⟩, hstate⟩
    refine carries_recordIdentifiers harrival hline.claim fun other hc => hfirst hr other ?_
    unfold Carries at hc ⊢
    rwa [hids] at hc
  -- what follows tells of the case and walks it on
  refine Triple.bind (M := fun _ => B) (write_steady hB hE fun _ => sameCases_appendEvent _) fun _ => ?_
  refine Triple.bind (M := fun _ => B) (Triple.forM fun _ => write_steady hB hE fun _ => sameCases_appendEvent _) fun _ => ?_
  refine Triple.bind (M := fun _ => B) (Triple.lift (fun _ _ _ h => h) fun e he s hs => ?_) fun _ => ?_
  · rw [classifiedFrom, if_pos hs.2] at he
    cases he
  refine Triple.bind (M := fun record s => B s ∧ record.deductionId = opened.deductionId) ?_ fun classified => ?_
  · refine Triple.call (fun s hs => ?_) (fun h s _ => hE h s) fun h _ _ => hE h _
    obtain ⟨current, hget⟩ := Option.ne_none_iff_exists'.1 (Store.has_iff.1 (hs.1.opens.has.2 (.inr rfl)))
    unfold Store.transitionCase
    rw [hget]
    exact ⟨hB s _ (sameCases_setState _ _) hs, (Store.getCase_id hget : current.deductionId = _)⟩
  refine Triple.bind (M := fun _ s => B s ∧ classified.deductionId = opened.deductionId)
    (write_steady (hB.and (Steady.const _)) hE fun _ => sameCases_appendEvent _) fun _ => Triple.pure fun s hs => ?_
  rw [hs.2]
  exact hs.1.1

/-- Merging touches no case and no identifier. -/
theorem mergedResult_steady {deductionId : CaseId} {merged : MergedLine} (hP : Steady P)
    (hE : faults ≠ reliable → ∀ s, E .unavailable s) :
    Triple faults P (do mergeIntoCase o deductionId merged; pure (line.mergedResult deductionId))
      (fun result s => P s ∧ result = line.mergedResult deductionId) E := by
  refine Triple.bind (M := fun _ => P) (Triple.bind (M := fun _ => P) ?_ fun _ => ?_) fun _ => Triple.pure fun s hs => ⟨hs, rfl⟩
  · exact write_steady hP hE fun _ => sameCases_linkDocument _
  · exact write_steady hP hE fun _ => sameCases_appendEvent _

/-- Merging into a case that the line may be merged into. -/
theorem mergedInto_own {merged : MergedLine} (hgone : faults ≠ reliable → gone) :
    Triple faults (fun s => s₀.SameCases s ∧ MergesInto T tenant o openedHere line s₀ id)
      (do mergeIntoCase o id merged; pure (line.mergedResult id))
      (SettledFrom T tenant o openedHere line s₀) (fun _ _ => gone) := by
  refine (mergedResult_steady ((Steady.sameCases s₀).and (Steady.const _)) fun h _ => hgone h).post ?_
  rintro result s ⟨⟨hsame, hinto⟩, rfl⟩
  exact ⟨rfl, id, rfl, .inl ⟨rfl, hsame, hinto⟩⟩

theorem openLine_own {probable : Option (List CaseId)} {basis : Option (List Text)} (hstore : OneOfTheStores T tenant)
    (hline : Visible T o line) (howned : s₀.Owned) (hgone : faults ≠ reliable → gone)
    (hambiguous : Ambiguity tenant o line s₀ gone) :
    Triple faults s₀.SameCases (openLine tenant o (o.claimIdOf line) line probable basis)
      (SettledFrom T tenant o openedHere line s₀) (fun _ _ => gone) := by
  refine Triple.handle (M := RefusedFor T tenant o line s₀ gone) ?_ fun e => ?_
  · refine Triple.bind (openCaseForLine_own hstore hline howned hgone hambiguous) fun opened => Triple.pure fun s hs => ?_
    refine ⟨rfl, opened.deductionId, rfl, .inr ⟨?_, hs⟩⟩
    by_cases hp : probable = none
    · exact .inl (if_pos hp)
    · exact .inr (if_neg hp)
  · cases e with
    | duplicateCase id =>
      -- the refusal is not asked whether the case is one of this reading's
      refine (mergedInto_own hgone).pre fun s hs => ⟨hs.1, hs.2.1, fun _ => hs.2.2.1, fun hr => .inl ?_⟩
      exact fun other _ hother => hs.2.2.2 hr other List.not_mem_nil hother
    | _ => exact Triple.throw fun _ h => h

theorem legacyCase_iff (hlegacy : ∀ legacy, (o.keys[line.index]?).join.bind (·.legacyClaimId) = some legacy →
      identifierMatchKey T legacy ≠ []) :
    LegacyCase T o line s id ∧ id ∉ openedHere ↔ ∃ legacy amount,
      (o.keys[line.index]?).join.bind (·.legacyClaimId) = some legacy ∧
      (∃ k ∈ (o.lookup T line s).1.filter (ofClaim T openedHere legacy), k.deductionId = id) ∧
      ((o.lookup T line s).2.find? fun known => known.deductionId = id).map (·.amountCents) = some amount ∧
      legacyOwner (((o.keys[line.index]?).join.map (·.group)).getD []) o.shortPays amount.val = some line.index := by
  constructor
  · rintro ⟨⟨key, legacy, amount, hkey, hl, hcarries, hnames, hamount, howner⟩, hhere⟩
    have hbind : (o.keys[line.index]?).join.bind (·.legacyClaimId) = some legacy := by rw [hkey]; exact hl
    refine ⟨legacy, amount, hbind, (mem_ofClaim (hlegacy legacy hbind) (.inr hbind)).2 ⟨hcarries, hhere⟩,
      lookup_amount.2 ⟨hnames, hamount⟩, ?_⟩
    rw [hkey]
    exact howner
  · rintro ⟨legacy, amount, hbind, hk, hamount, howner⟩
    obtain ⟨key, hkey, hl⟩ := Option.bind_eq_some_iff.1 hbind
    obtain ⟨hnames, hamount⟩ := lookup_amount.1 hamount
    obtain ⟨hcarries, hhere⟩ := (mem_ofClaim (hlegacy legacy hbind) (.inr hbind)).1 hk
    rw [hkey] at howner
    exact ⟨⟨key, legacy, amount, hkey, hl, hcarries, hnames, hamount, howner⟩, hhere⟩

/-- **A line over the floor** is merged into a case of the store or opens one; `openCase` is asked only where no case of
the shared claim id is the line's. -/
theorem settleLine_own (hstore : OneOfTheStores T tenant) (hline : Visible T o line) (howned : s₀.Owned)
    (hgone : faults ≠ reliable → gone)
    (hambiguous : (∀ id, LegacyCase T o line s₀ id → id ∈ openedHere) → Ambiguity tenant o line s₀ gone) :
    Triple faults (fun s => s = s₀) (settleLine T tenant o openedHere line)
      (SettledFrom T tenant o openedHere line s₀) (fun _ _ => gone) := by
  have hhas : ∀ {claim id}, Carries T o.document.orgId claim s₀ id → s₀.Has id := by
    rintro claim id ⟨row, hrow, -, -, -, rfl⟩
    exact howned row hrow
  refine Triple.bind (M := fun found s => s = s₀ ∧ found = o.lookup T line s)
    (ask_triple fun h _ _ => hgone h) fun found => ?_
  refine Triple.bind (M := fun resolution s => (s = s₀ ∧ found = o.lookup T line s) ∧
      lineResolution T o openedHere line found = .ok resolution)
    (Triple.lift (fun resolution h s hs => ⟨hs, mapError_ok h⟩) fun e he => ?_) fun resolution => ?_
  · -- the tolerance is a number of days
    obtain ⟨r, hr⟩ := resolveIdentity_returns T
    rw [hr] at he
    cases he
  dsimp only
  split
  · rename_i id on
    refine (mergedInto_own hgone).pre ?_
    rintro s ⟨⟨rfl, rfl⟩, hexact⟩
    rcases resolve_cases rfl hline.claimKey hexact with ⟨id', on', heq, hne, hall⟩ | ⟨ids, basis, h, -⟩ | ⟨-, h | ⟨_, _, h⟩⟩
    · cases heq
      obtain ⟨k, hk⟩ := List.exists_mem_of_ne_nil _ hne
      obtain ⟨hc, hhere⟩ := (mem_claimMatches_lookup hline.claimKey).1 ⟨k, hk, hall k hk⟩
      refine ⟨.refl _, hhas hc, fun h => absurd h hhere, fun _ => .inl fun other hother hcarries => ?_⟩
      obtain ⟨k', hk', rfl⟩ := (mem_claimMatches_lookup hline.claimKey).2 ⟨hcarries, hother⟩
      exact hall k' hk'
    · cases h
    · cases h
    · cases h
  · split
    · rename_i legacyId hfind
      refine (mergedInto_own hgone).pre ?_
      rintro s ⟨⟨rfl, rfl⟩, -⟩
      have howner := List.find?_some hfind
      have hmem := List.mem_of_find?_eq_some hfind
      split at hmem
      · cases hmem
      · rename_i legacy hlegacy
        rw [mem_firstSeen, List.mem_map] at hmem
        obtain ⟨amount, hamount, howner⟩ := Option.bind_eq_some_iff.1 (of_decide_eq_true howner)
        obtain ⟨hcase, hhere⟩ := (legacyCase_iff hline.legacyKey).2 ⟨legacy, amount, hlegacy, hmem, hamount, howner⟩
        obtain ⟨hc, -⟩ := (mem_ofClaim (hline.legacyKey legacy hlegacy) (.inr hlegacy)).1 hmem
        exact ⟨.refl _, hhas hc, fun h => absurd h hhere, fun _ => .inr ⟨hcase, hhere⟩⟩
    · rename_i hfind
      intro n s hs
      obtain ⟨⟨rfl, rfl⟩, -⟩ := hs
      refine openLine_own hstore hline howned hgone (hambiguous fun id hcase => ?_) n s (.refl _)
      by_contra hhere
      obtain ⟨legacy, amount, hlegacy, ⟨k, hk, hid⟩, hamount, howner⟩ := (legacyCase_iff hline.legacyKey).1 ⟨hcase, hhere⟩
      have hl : ((o.keys[line.index]?).join).bind (·.legacyClaimId) = some legacy := hlegacy
      rw [hl, List.find?_eq_none] at hfind
      refine absurd ?_ (hfind id (mem_firstSeen.2 (List.mem_map.2 ⟨k, hk, hid⟩)))
      rw [decide_eq_true_eq, hamount]
      exact howner

/-! ## The lines -/

/-- One turn of the loop adds one result: of a line over the floor, what became of it, and of any other that it
touched no case. -/
def TurnFrom (T : CaseTables) (tenant : Tenant) (o : Opening) (acc : LineLoop) (entry : RemittanceLine × Nat)
    (s₀ : Store) (acc' : LineLoop) (s : Store) : Prop :=
  ∃ result, acc'.lines = acc.lines ++ [result] ∧ result.index = entry.2 ∧
    ((∃ line, overFloorLine T o entry = some line ∧ SettledFrom T tenant o acc.openedHere line s₀ result s ∧
        ∀ id, id ∈ acc'.openedHere ↔ id ∈ acc.openedHere ∨ result.Opened ∧ result.deductionId = some id) ∨
      overFloorLine T o entry = none ∧ ¬ result.Opened ∧ result.outcome ≠ .merged ∧ s₀.SameCases s ∧
        acc'.openedHere = acc.openedHere)

theorem overFloor_own {acc : LineLoop} {entry : RemittanceLine × Nat} (hstore : OneOfTheStores T tenant)
    (hline : Visible T o line) (howned : s₀.Owned) (hgone : faults ≠ reliable → gone)
    (hambiguous : (∀ id, LegacyCase T o line s₀ id → id ∈ acc.openedHere) → Ambiguity tenant o line s₀ gone)
    (hover : overFloorLine T o entry = some line) :
    Triple faults (fun s => s = s₀) (overFloor T tenant o acc line) (TurnFrom T tenant o acc entry s₀) (fun _ _ => gone) := by
  have hask : ∀ {α : Type} {f : Store → α} {P : Store → Prop},
      Triple faults P (ask f) (fun _ s => P s) fun _ _ => gone := by
    intro α f P
    exact (ask_triple fun h _ _ => hgone h).post fun _ _ h => h.1
  have hclaim : Triple faults (fun s => s = s₀) (withInvoiceClaim (settleLine T tenant o acc.openedHere line))
      (SettledFrom T tenant o acc.openedHere line s₀) (fun _ _ => gone) := by
    refine Triple.bind hask fun _ => ?_
    refine Triple.bind (settleLine_own hstore hline howned hgone hambiguous) fun result => ?_
    exact Triple.bind (M := fun _ s => SettledFrom T tenant o acc.openedHere line s₀ result s) hask fun _ =>
      Triple.pure fun _ h => h
  refine Triple.bind hclaim fun result => ?_
  have hindex : line.index = entry.2 := (overFloorLine_eq_some.1 hover).2.2.1
  have hturn : ∀ (acc' : LineLoop) (s : Store), SettledFrom T tenant o acc.openedHere line s₀ result s →
      acc'.lines = acc.lines ++ [{ result with reasonCode := line.reasonCode }] →
      (∀ id, id ∈ acc'.openedHere ↔ id ∈ acc.openedHere ∨ result.Opened ∧ result.deductionId = some id) →
      TurnFrom T tenant o acc entry s₀ acc' s :=
    fun acc' s hsettled hlines hhere => ⟨_, hlines, hsettled.1.trans hindex, .inl ⟨line, hover, hsettled, hhere⟩⟩
  dsimp only
  split
  · rename_i hnone
    refine Triple.pure fun s hs => hturn _ s hs rfl fun id => ?_
    simp [hnone]
  · rename_i id hid
    split
    · rename_i houtcome
      have hopened : result.Opened := houtcome
      refine Triple.bind (M := fun _ s => SettledFrom T tenant o acc.openedHere line s₀ result s) hask fun record => ?_
      refine Triple.pure fun s hs => hturn _ s hs rfl fun other => ?_
      rw [List.mem_append, List.mem_singleton, hid, Option.some.injEq, and_iff_right hopened, eq_comm]
    · rename_i hopened
      refine Triple.pure fun s hs => hturn _ s hs rfl fun other => ?_
      exact ⟨.inl, fun h => h.resolve_right fun h => hopened h.1⟩

/-- **One turn of the loop.** -/
theorem processLine_own {acc : LineLoop} {entry : RemittanceLine × Nat} (hstore : OneOfTheStores T tenant)
    (hvisible : ∀ line, overFloorLine T o entry = some line → Visible T o line) (howned : s₀.Owned)
    (hgone : faults ≠ reliable → gone)
    (hambiguous : ∀ line, overFloorLine T o entry = some line →
      (∀ id, LegacyCase T o line s₀ id → id ∈ acc.openedHere) → Ambiguity tenant o line s₀ gone)
    (hpay : entry.2 < o.shortPays.length) :
    Triple faults (fun s => s = s₀) (processLine T tenant o acc entry) (TurnFrom T tenant o acc entry s₀)
      (fun _ _ => gone) := by
  obtain ⟨row, index⟩ := entry
  rcases processLine_cases acc row index with
    ⟨line, hline, hrun⟩ | ⟨hnone, ⟨hmissing, -⟩ | ⟨result, hindex, houtcome, hrun⟩ | ⟨line, hindex, hrun⟩⟩
  · rw [hrun]
    exact overFloor_own hstore (hvisible line hline) howned hgone (hambiguous line hline) hline
  · rw [List.getElem?_eq_getElem hpay] at hmissing
    cases hmissing
  · rw [hrun]
    refine Triple.pure fun s hs => ⟨_, rfl, hindex, .inr ⟨hnone, ?_, houtcome.2.2, hs ▸ .refl _, rfl⟩⟩
    rintro (h | h)
    · exact houtcome.1 h
    · exact houtcome.2.1 h
  · rw [hrun]
    have hframed : Framed s₀.SameCases := by
      rintro s t - hcases hids hs
      refine hs.trans ⟨?_, hids⟩
      unfold Store.claims
      rw [hcases]
    have hE : ∀ {P : Store → Prop}, Tolerates faults P fun _ _ => gone := fun h _ _ => hgone h
    have hturned : Triple faults (fun _ => True) (declineLine tenant o acc row line) _ fun _ _ => gone :=
      declineLine_triple (Kept.const True) hE hnone hindex
    refine ((((declineLine_framed hframed hE).and (hturned.pre fun _ _ => trivial)).post ?_).weaken fun _ _ h => h.1).pre
      fun s hs => hs ▸ .refl _
    rintro acc' s ⟨⟨hs, hhere, -, result, hlines, hat⟩, -, result', hlines', hindex', houtcome⟩
    cases List.append_cancel_left (hlines.symm.trans hlines')
    rw [hnone] at houtcome
    refine ⟨_, hlines, hindex', .inr ⟨hnone, ?_, houtcome.2.2, hs, hhere⟩⟩
    rintro (h | h)
    · exact houtcome.1 h
    · exact houtcome.2.1 h

end

/-! ## The store a reading starts from -/

/-- What a loop has made of the store it started from: its cases are as they were, and the identifiers that were added
are of the cases it has opened. -/
structure GrownFrom (s₀ : Store) (acc : LineLoop) (s : Store) : Prop where
  grows : s₀.Extends s
  owned : s.Owned
  kept : s₀.identifiers ⊆ s.identifiers
  added : ∀ row ∈ s.identifiers, row ∈ s₀.identifiers ∨ row.known.deductionId ∈ acc.openedHere
  fresh : ∀ id ∈ acc.openedHere, ¬ s₀.Has id

section
variable {T : CaseTables} {tenant : Tenant} {o : Opening} {line : ShortLine} {advice : RemittanceAdvice}
variable {acc acc' : LineLoop} {entry : RemittanceLine × Nat} {s₀ s t : Store} {orgId : OrgId} {claimId : Text} {id : CaseId}

theorem not_opened_of_merged {result : RemittanceLineResult} (h : result.outcome = .merged) : ¬ result.Opened := by
  rintro (h' | h')
  · cases h.symm.trans h'
  · cases h.symm.trans h'

theorem Store.Extends.has (h : s₀.Extends s) (hid : s₀.Has id) : s.Has id := by
  obtain ⟨record, hrecord⟩ := Option.ne_none_iff_exists'.1 (Store.has_iff.1 hid)
  obtain ⟨record', hrecord', -⟩ := h.cases id record hrecord
  exact Store.has_iff.2 (by rw [hrecord']; nofun)

theorem GrownFrom.refl (hs : s.Owned) : GrownFrom s {} s :=
  ⟨.refl s, hs, List.Subset.refl _, fun _ h => .inl h, fun _ h => absurd h List.not_mem_nil⟩

/-- A turn keeps what is known of the store the loop started from. -/
theorem GrownFrom.turn (h : GrownFrom s₀ acc t) (hgrows : t.Extends s) (hturn : TurnFrom T tenant o acc entry t acc' s) :
    GrownFrom s₀ acc' s := by
  -- a turn that opens nothing
  have hquiet : t.SameCases s → (∀ id, id ∈ acc'.openedHere ↔ id ∈ acc.openedHere) → GrownFrom s₀ acc' s := by
    intro hsame hhere
    refine ⟨h.grows.trans hgrows, hsame.owned h.owned, ?_, ?_, fun id hid => h.fresh id ((hhere id).1 hid)⟩
    · rw [hsame.identifiers]
      exact h.kept
    · rw [hsame.identifiers]
      exact fun row hrow => (h.added row hrow).imp_right (hhere _).2
  obtain ⟨result, -, -, hcase⟩ := hturn
  rcases hcase with ⟨line, -, ⟨-, id, hid, ⟨hmerged, hsame, -⟩ | ⟨hopened, hfor⟩⟩, hhere⟩ | ⟨-, -, -, hsame, hhere⟩
  · exact hquiet hsame fun id => (hhere id).trans
      ⟨fun h => h.resolve_right fun h => not_opened_of_merged hmerged h.1, .inl⟩
  · refine ⟨h.grows.trans hgrows, hfor.opens.owned h.owned, List.Subset.trans h.kept hfor.opens.kept, fun row hrow => ?_,
      fun other hother => ?_⟩
    · rcases hfor.opens.added row hrow with hold | ⟨rfl, -⟩
      · exact (h.added row hold).imp_right fun hmem => (hhere _).2 (.inl hmem)
      · exact .inr ((hhere _).2 (.inr ⟨hopened, hid⟩))
    · rcases (hhere other).1 hother with hold | ⟨-, heq⟩
      · exact h.fresh other hold
      · cases hid.symm.trans heq
        exact fun hhas => hfor.opens.unheld (h.grows.has hhas)
  · exact hquiet hsame fun id => by rw [hhere]

theorem GrownFrom.not_here (h : GrownFrom s₀ acc s) (hs₀ : s₀.Owned) {row : StoredIdentifier} (hrow : row ∈ s₀.identifiers) :
    row.known.deductionId ∉ acc.openedHere := fun hhere => h.fresh _ hhere (hs₀ row hrow)

/-- The cases of other readings that carry a claim id carried it before. -/
theorem GrownFrom.carries (h : GrownFrom s₀ acc s) (hs₀ : s₀.Owned) :
    Carries T orgId claimId s id ∧ id ∉ acc.openedHere ↔ Carries T orgId claimId s₀ id := by
  constructor
  · rintro ⟨⟨row, hrow, horg, hkind, hkey, rfl⟩, hhere⟩
    exact ⟨row, (h.added row hrow).resolve_right hhere, horg, hkind, hkey, rfl⟩
  · rintro ⟨row, hrow, horg, hkind, hkey, rfl⟩
    exact ⟨⟨row, h.kept hrow, horg, hkind, hkey, rfl⟩, h.not_here hs₀ hrow⟩

theorem GrownFrom.names (h : GrownFrom s₀ acc s) (hs₀ : s₀.Owned) {invoiceNumber : Text} :
    Names T orgId invoiceNumber s id ∧ id ∉ acc.openedHere ↔ Names T orgId invoiceNumber s₀ id := by
  constructor
  · rintro ⟨⟨row, hrow, horg, hkind, hkey, rfl⟩, hhere⟩
    exact ⟨row, (h.added row hrow).resolve_right hhere, horg, hkind, hkey, rfl⟩
  · rintro ⟨row, hrow, horg, hkind, hkey, rfl⟩
    exact ⟨⟨row, h.kept hrow, horg, hkind, hkey, rfl⟩, h.not_here hs₀ hrow⟩

/-- The amount of a case does not change. -/
theorem Store.Extends.amount (h : s₀.Extends s) (hid : s₀.Has id) :
    (s.getCase id).bind (·.deductionAmountCents) = (s₀.getCase id).bind (·.deductionAmountCents) := by
  obtain ⟨record, hrecord⟩ := Option.ne_none_iff_exists'.1 (Store.has_iff.1 hid)
  obtain ⟨record', hrecord', hsame⟩ := h.cases id record hrecord
  rw [hrecord, hrecord', Option.bind_some, Option.bind_some, hsame.amount]

theorem GrownFrom.legacyCase (h : GrownFrom s₀ acc s) (hs₀ : s₀.Owned) :
    LegacyCase T o line s id ∧ id ∉ acc.openedHere ↔ LegacyCase T o line s₀ id := by
  have hhas : ∀ {claim}, Carries T o.document.orgId claim s₀ id → s₀.Has id := by
    rintro claim ⟨row, hrow, -, -, -, rfl⟩
    exact hs₀ row hrow
  constructor
  · rintro ⟨⟨key, legacy, amount, hkey, hl, hcarries, hnames, hamount, howner⟩, hhere⟩
    have hcarried := (h.carries hs₀).1 ⟨hcarries, hhere⟩
    rw [h.grows.amount (hhas hcarried)] at hamount
    exact ⟨key, legacy, amount, hkey, hl, hcarried, (h.names hs₀).1 ⟨hnames, hhere⟩, hamount, howner⟩
  · rintro ⟨key, legacy, amount, hkey, hl, hcarries, hnames, hamount, howner⟩
    obtain ⟨hcarried, hhere⟩ := (h.carries hs₀).2 hcarries
    rw [← h.grows.amount (hhas hcarries)] at hamount
    exact ⟨⟨key, legacy, amount, hkey, hl, hcarried, ((h.names hs₀).2 hnames).1, hamount, howner⟩, hhere⟩

theorem legacyOwned_iff_case : LegacyOwned T o line s ↔ ∃ id, LegacyCase T o line s id := by
  constructor
  · rintro ⟨key, legacy, id, amount, h⟩
    exact ⟨id, key, legacy, amount, h⟩
  · rintro ⟨id, key, legacy, amount, h⟩
    exact ⟨key, legacy, id, amount, h⟩

/-- Opening a case under a claim id that nothing carries leaves at most one case with a claim id that at most one had. -/
theorem OpenedFor.alone (hr : Resolves T tenant) (h : OpenedFor T tenant o line s₀ id s)
    (halone : AtMostOne T o.document.orgId claimId s₀) : AtMostOne T o.document.orgId claimId s := by
  -- who carries it did, or it is the line's claim and the case opened
  have hcase : ∀ a, Carries T o.document.orgId claimId s a → Carries T o.document.orgId claimId s₀ a ∨
      a = id ∧ identifierMatchKey T claimId = identifierMatchKey T (o.claimIdOf line) := by
    rintro a ⟨row, hrow, horg, hkind, hkey, rfl⟩
    rcases h.opens.added row hrow with hold | ⟨hid, hclaim⟩
    · exact .inl ⟨row, hold, horg, hkind, hkey, rfl⟩
    · exact .inr ⟨hid, by rw [← hkey, hclaim hkind]⟩
  have hfirst : ∀ a, Carries T o.document.orgId claimId s₀ a →
      identifierMatchKey T claimId ≠ identifierMatchKey T (o.claimIdOf line) := by
    rintro a ⟨row, hrow, horg, hkind, hkey, hid⟩ heq
    exact h.first hr a ⟨row, hrow, horg, hkind, hkey.trans heq, hid⟩
  intro a b ha hb
  rcases hcase a ha with ha | ⟨rfl, hkey⟩
  · rcases hcase b hb with hb | ⟨-, hkey⟩
    · exact halone a b ha hb
    · exact absurd hkey (hfirst a ha)
  · rcases hcase b hb with hb | ⟨rfl, -⟩
    · exact absurd hkey (hfirst b hb)
    · rfl

/-- Where no two cases carry the claim id, a store that resolves identity finds no ambiguity. -/
theorem resolvedClaim_alone {debtorOf : Text → Option DebtorId} {input : NewCase}
    (hclaim : input.claimId = some claimId) (htrim : trim claimId ≠ []) (hkey : identifierMatchKey T claimId ≠ [])
    (halone : AtMostOne T input.orgId claimId s) (ids : List CaseId) :
    s.resolvedClaim T debtorOf input ≠ some (.ambiguousIdentity ids) := by
  have hunique : s.uniqueClaim debtorOf input ≠ some (.ambiguousIdentity ids) := by
    intro h
    obtain ⟨id, hid⟩ := uniqueClaim_refuses (Option.isSome_iff_exists.2 ⟨_, h⟩)
    cases h.symm.trans hid
  unfold Store.resolvedClaim
  rw [hclaim]
  dsimp only
  rw [if_neg htrim]
  obtain ⟨r, hr⟩ : ∃ r, resolveIdentity T ⟨[⟨.claim_id, claimId⟩], input.deductionAmountCents, none, input.deductionDate,
      input.retailerName.bind debtorOf⟩ ((s.identifiers.filter (·.orgId = input.orgId)).map (·.known)) [] none = .ok r :=
    resolveIdentity_ok T (by decide)
  rw [hr]
  rcases resolve_cases rfl hkey hr with ⟨id, on, rfl, -⟩ | ⟨ids', basis, rfl, hsome⟩ | ⟨-, rfl | ⟨_, _, rfl⟩⟩
  · rintro ⟨⟩
  · -- several matches would be of one case
    have hne := hsome.resolve_right fun h => h rfl
    obtain ⟨k, hk⟩ := List.exists_mem_of_ne_nil _ hne
    obtain ⟨on, hexact⟩ := @resolve_exact T claimId ⟨[⟨.claim_id, claimId⟩], input.deductionAmountCents, none,
      input.deductionDate, input.retailerName.bind debtorOf⟩ _ [] none rfl hkey (by decide) k.deductionId
      (fun k' hk' => halone _ _ (mem_claimMatches_own.1 ⟨k', hk', rfl⟩) (mem_claimMatches_own.1 ⟨k, hk, rfl⟩)) hne
    cases hr.symm.trans hexact
  · exact hunique
  · exact hunique

theorem ambiguity_alone {gone : Prop} (hstore : OneOfTheStores T tenant) (hline : Visible T o line)
    (halone : Resolves T tenant → AtMostOne T o.document.orgId (o.claimIdOf line) s₀) : Ambiguity tenant o line s₀ gone := by
  intro s ids hsame hrefused
  rcases hstore with hr | hunique
  · rw [show tenant.refusal = _ from hr] at hrefused
    exact absurd hrefused (resolvedClaim_alone rfl hline.claim hline.claimKey
      (fun a b ha hb => halone hr a b (hsame.carries.1 ha) (hsame.carries.1 hb)) ids)
  · rw [hunique] at hrefused
    obtain ⟨id, hid⟩ := uniqueClaim_refuses (Option.isSome_iff_exists.2 ⟨_, hrefused⟩)
    cases hrefused.symm.trans hid

/-! ## Ambiguous lines -/

/-- Where `openCase` resolves identity, a line over the floor is ambiguous in the store if two cases carry its claim id
and none of the shared claim id is the line's. -/
def AmbiguousIn (T : CaseTables) (tenant : Tenant) (o : Opening) (line : ShortLine) (s : Store) : Prop :=
  Resolves T tenant ∧ ¬ LegacyOwned T o line s ∧ ¬ AtMostOne T o.document.orgId (o.claimIdOf line) s

/-- No line over the floor is ambiguous in the store. -/
def Unambiguous (T : CaseTables) (tenant : Tenant) (o : Opening) (advice : RemittanceAdvice) (s : Store) : Prop :=
  ∀ entry ∈ advice.lines.zipIdx, ∀ line, overFloorLine T o entry = some line → ¬ AmbiguousIn T tenant o line s

/-- What a loop keeps of the store it started from, and that no claim id has come to be carried twice. -/
structure StartedAt (T : CaseTables) (tenant : Tenant) (o : Opening) (s₀ : Store) (acc : LineLoop) (s : Store) : Prop extends
    GrownFrom s₀ acc s where
  alone : Resolves T tenant → ∀ claimId, AtMostOne T o.document.orgId claimId s₀ → AtMostOne T o.document.orgId claimId s

theorem StartedAt.refl (hs : s.Owned) : StartedAt T tenant o s {} s := ⟨.refl hs, fun _ _ h => h⟩

theorem StartedAt.turn (h : StartedAt T tenant o s₀ acc t) (hgrows : t.Extends s)
    (hturn : TurnFrom T tenant o acc entry t acc' s) : StartedAt T tenant o s₀ acc' s := by
  refine ⟨h.toGrownFrom.turn hgrows hturn, fun hr claimId h₀ => ?_⟩
  have ht := h.alone hr claimId h₀
  have hquiet : t.SameCases s → AtMostOne T o.document.orgId claimId s := fun hsame a b ha hb =>
    ht a b (hsame.carries.1 ha) (hsame.carries.1 hb)
  obtain ⟨result, -, -, hcase⟩ := hturn
  rcases hcase with ⟨line, -, ⟨-, id, -, ⟨-, hsame, -⟩ | ⟨-, hfor⟩⟩, -⟩ | ⟨-, -, -, hsame, -⟩
  · exact hquiet hsame
  · exact hfor.alone hr ht
  · exact hquiet hsame

/-- A line that was not ambiguous where the reading started is not when its turn comes. -/
theorem StartedAt.ambiguity {gone : Prop} (h : StartedAt T tenant o s₀ acc s) (hs₀ : s₀.Owned)
    (hstore : OneOfTheStores T tenant) (hline : Visible T o line) (hno : ¬ AmbiguousIn T tenant o line s₀)
    (hlegacy : ∀ id, LegacyCase T o line s id → id ∈ acc.openedHere) : Ambiguity tenant o line s gone := by
  refine ambiguity_alone hstore hline fun hr => h.alone hr _ ?_
  by_contra hmany
  refine hno ⟨hr, fun howned => ?_, hmany⟩
  obtain ⟨id, hcase⟩ := legacyOwned_iff_case.1 howned
  obtain ⟨hcase, hhere⟩ := (h.legacyCase hs₀).2 hcase
  exact hhere (hlegacy id hcase)

/-- A line that was ambiguous where the reading started has no turn that ends. -/
theorem StartedAt.no_turn (h : StartedAt T tenant o s₀ acc t) (hs₀ : s₀.Owned) (hambiguous : AmbiguousIn T tenant o line s₀)
    (hover : overFloorLine T o entry = some line) : ¬ TurnFrom T tenant o acc entry t acc' s := by
  obtain ⟨hr, hlegacy, hmany⟩ := hambiguous
  have hlegacy' : ∀ id, LegacyCase T o line t id → id ∈ acc.openedHere := fun id hcase => by
    by_contra hhere
    exact hlegacy (legacyOwned_iff_case.2 ⟨id, (h.legacyCase hs₀).1 ⟨hcase, hhere⟩⟩)
  rintro ⟨result, -, -, ⟨line', hover', ⟨-, id, -, ⟨-, -, hinto⟩ | ⟨-, hfor⟩⟩, -⟩ | ⟨hnone, -⟩⟩
  · cases hover.symm.trans hover'
    refine hmany fun a b ha hb => ?_
    obtain ⟨ha, hahere⟩ := (h.carries hs₀).2 ha
    obtain ⟨hb, hbhere⟩ := (h.carries hs₀).2 hb
    rcases hinto.found hr with honly | ⟨hcase, hhere⟩
    · exact (honly a hahere ha).trans (honly b hbhere hb).symm
    · exact absurd (hlegacy' id hcase) hhere
  · cases hover.symm.trans hover'
    exact hmany fun a b ha => absurd ((h.carries hs₀).2 ha).1 (hfor.first hr a)
  · cases hover.symm.trans hnone

/-! ## A whole reading -/

variable {faults : Faults} {gone : Prop} {parse : Text → Except Text Text} {document : CaseOpeningDocument}
variable {reading : CaseOpeningReading} {confirmation : Option HoldConfirmation}

/-- **The loop keeps what a turn keeps.** -/
theorem lines_turn {K : List (RemittanceLine × Nat) → LineLoop → Store → Prop} (hT : ∀ c, T.lower c ≠ [])
    (hstore : OneOfTheStores T tenant) (hgone : faults ≠ reliable → gone)
    (hkeys : o.keys = lineClaimIds T advice.lines o.paymentReference)
    (hlength : o.shortPays.length = advice.lines.length) (howned : ∀ done acc s, K done acc s → s.Owned)
    (hambiguous : ∀ done acc s₀ entry line, K done acc s₀ → entry ∈ advice.lines.zipIdx →
      overFloorLine T o entry = some line → (∀ id, LegacyCase T o line s₀ id → id ∈ acc.openedHere) →
        Ambiguity tenant o line s₀ gone)
    (hK : ∀ done entry acc acc' s₀ s, entry ∈ advice.lines.zipIdx → entry.2 ∉ done.map (·.2) → K done acc s₀ →
      s₀.Extends s → TurnFrom T tenant o acc entry s₀ acc' s → K (done ++ [entry]) acc' s) :
    Triple faults (K [] {}) (advice.lines.zipIdx.foldlM (processLine T tenant o) {}) (K advice.lines.zipIdx)
      (fun _ _ => gone) := by
  refine Triple.foldlM (I := K) fun done entry rest hrows acc => ?_
  have hentry : entry ∈ advice.lines.zipIdx := by
    rw [hrows]
    exact List.mem_append_right _ List.mem_cons_self
  have hnew : entry.2 ∉ done.map (·.2) := by
    have hnodup : (advice.lines.zipIdx.map (·.2)).Nodup := by
      rw [List.zipIdx_map_snd]
      exact List.nodup_range'
    rw [hrows, List.map_append, List.map_cons, List.nodup_append] at hnodup
    exact fun h => hnodup.2.2 _ h _ List.mem_cons_self rfl
  have hpay : entry.2 < o.shortPays.length := by
    obtain ⟨row, index⟩ := entry
    rw [hlength]
    exact (List.mem_zipIdx' hentry).1
  intro n s₀ hs₀
  have hturn : Triple faults _ (processLine T tenant o acc entry) _ _ :=
    processLine_own hstore (fun line hline => visible_of_overFloor hT hkeys hentry hline) (howned _ _ _ hs₀) hgone
      (fun line hline => hambiguous done acc s₀ entry line hs₀ hentry hline) hpay
  have hgrows : Triple faults s₀.Extends (processLine T tenant o acc entry) _ fun _ _ => True :=
    processLine_triple (Kept.extends s₀) (fun _ _ _ => trivial) (fun _ _ _ _ _ => trivial) hpay
  refine (((hturn.and (hgrows.pre fun s hs => hs ▸ .refl s₀)).post fun acc' s hs => ?_).weaken fun _ _ h => h.1) n s₀ rfl
  exact hK done entry acc acc' s₀ s hentry hnew hs₀ hs.2.1 hs.1

/-- Of a reading that returns, what is known of the loop's lines. -/
theorem openCases_own {P : Store → Prop} {Q : List RemittanceLineResult → Prop} (hgone : faults ≠ reliable → gone)
    (hmoney : (∃ e, adviceShortPays T reading.advice = .error e) → gone)
    (hlines : ∀ shortPays, adviceShortPays T reading.advice = .ok shortPays →
      Triple faults P (reading.advice.lines.zipIdx.foldlM
        (processLine T tenant (openingOf T tenant parse document reading confirmation shortPays)) {})
        (fun acc _ => Q acc.lines) (fun _ _ => gone)) :
    Triple faults P (openCasesFromRemittance T tenant parse document reading confirmation)
      (fun read _ => (∃ shortPays, adviceShortPays T reading.advice = .ok shortPays) ∧ Q read.lines)
      (fun _ _ => gone) := by
  have hask : ∀ {α : Type} {f : Store → α} {P : Store → Prop},
      Triple faults P (ask f) (fun _ s => P s) fun _ _ => gone := by
    intro α f P
    exact (ask_triple fun h _ _ => hgone h).post fun _ _ h => h.1
  refine Triple.bind (M := fun done _ => (∃ shortPays, adviceShortPays T reading.advice = .ok shortPays) ∧ Q done.lines)
    ?_ fun done => ?_
  · refine Triple.bind hask fun _ => ?_
    refine Triple.bind (M := fun shortPays s => P s ∧ adviceShortPays T reading.advice = .ok shortPays)
      (Triple.lift (fun shortPays h s hs => ⟨hs, mapError_ok h⟩) fun e he s hs => ?_) fun shortPays => ?_
    · refine hmoney ?_
      cases hpays : adviceShortPays T reading.advice with
      | ok pays =>
        rw [hpays] at he
        cases he
      | error e => exact ⟨e, rfl⟩
    have hlength : reading.advice.lines.zipIdx.length = reading.advice.lines.length := List.length_zipIdx
    rw [← hlength, List.take_length]
    by_cases hpays : adviceShortPays T reading.advice = .ok shortPays
    · exact ((hlines shortPays hpays).pre fun s hs => hs.1).post fun acc s hs => ⟨⟨shortPays, hpays⟩, hs⟩
    · exact fun n s hs => absurd hs.2 hpays
  · refine Triple.bind (M := fun _ _ => (∃ shortPays, adviceShortPays T reading.advice = .ok shortPays) ∧ Q done.lines)
      (Triple.forM fun id => ?_) fun _ => Triple.pure fun _ h => h
    exact Triple.call (fun _ hs => hs) (fun h _ _ => hgone h) fun h _ _ => hgone h

theorem shortPays_length {shortPays : List ShortPay} (h : adviceShortPays T advice = .ok shortPays) :
    shortPays.length = advice.lines.length := by
  rw [← (mapM_forall₂ h).length_eq, List.length_zipIdx]

/-- **A reading returns** where no line over the floor is ambiguous in the store it starts from, unless a call fails. -/
theorem openCases_returns {shortPays : List ShortPay} (hT : ∀ c, T.lower c ≠ []) (hstore : OneOfTheStores T tenant)
    (hs₀ : s₀.Owned) (hpays : adviceShortPays T reading.advice = .ok shortPays)
    (hno : Unambiguous T tenant (openingOf T tenant parse document reading confirmation shortPays) reading.advice s₀) :
    Triple faults (fun s => s = s₀) (openCasesFromRemittance T tenant parse document reading confirmation)
      (fun _ _ => True) (fun _ _ => faults ≠ reliable) := by
  refine (openCases_own (Q := fun _ => True) (fun h => h) (fun ⟨e, he⟩ => nomatch hpays.symm.trans he)
    fun shortPays' hpays' => ?_).post fun _ _ _ => trivial
  cases hpays.symm.trans hpays'
  let o := openingOf T tenant parse document reading confirmation shortPays
  refine ((lines_turn (K := fun _ acc s => StartedAt T tenant o s₀ acc s) hT hstore (fun h => h) rfl (shortPays_length hpays)
    (fun _ _ _ h => h.owned) ?_ ?_).pre ?_).post fun _ _ _ => trivial
  · intro done acc s entry line h hentry hline hlegacy
    exact h.ambiguity hs₀ hstore (visible_of_overFloor hT rfl hentry hline) (hno entry hentry line hline) hlegacy
  · exact fun _ _ _ _ _ _ _ _ h hgrows hturn => h.turn hgrows hturn
  · rintro s rfl
    exact StartedAt.refl hs₀

/-- **No reading returns** from a store that a line over the floor is ambiguous in. -/
theorem openCases_ambiguous {shortPays : List ShortPay} (hT : ∀ c, T.lower c ≠ []) (hstore : OneOfTheStores T tenant)
    (hs₀ : s₀.Owned) (hpays : adviceShortPays T reading.advice = .ok shortPays)
    (hno : ¬ Unambiguous T tenant (openingOf T tenant parse document reading confirmation shortPays) reading.advice s₀) :
    Triple faults (fun s => s = s₀) (openCasesFromRemittance T tenant parse document reading confirmation)
      (fun _ _ => False) (fun _ _ => True) := by
  unfold Unambiguous at hno
  push_neg at hno
  obtain ⟨entry, hentry, line, hline, hambiguous⟩ := hno
  refine (openCases_own (Q := fun _ => False) (fun _ => trivial) (fun _ => trivial)
    fun shortPays' hpays' => ?_).post fun _ _ h => h.2
  cases hpays.symm.trans hpays'
  -- the loop does not get past the line
  let o := openingOf T tenant parse document reading confirmation shortPays
  refine ((lines_turn (K := fun done acc s => StartedAt T tenant o s₀ acc s ∧ entry ∉ done) hT hstore
    (fun _ => (trivial : True)) rfl (shortPays_length hpays) (fun _ _ _ h => h.1.owned) (fun _ _ _ _ _ _ _ _ _ _ _ _ _ => trivial)
    ?_).pre ?_).post ?_
  · rintro done next acc acc' t s - - ⟨h, hnot⟩ hgrows hturn
    refine ⟨h.turn hgrows hturn, fun hmem => ?_⟩
    rcases List.mem_append.1 hmem with hmem | hmem
    · exact hnot hmem
    · cases List.mem_singleton.1 hmem
      exact h.no_turn hs₀ hambiguous hline hturn
  · rintro s rfl
    exact ⟨StartedAt.refl hs₀, List.not_mem_nil⟩
  · exact fun acc s hs => hs.2 hentry

end

/-- No line over the floor is ambiguous in the store that the advice is read into. -/
def ReadUnambiguously (T : CaseTables) (tenant : Tenant) (parse : Text → Except Text Text) (document : CaseOpeningDocument)
    (reading : CaseOpeningReading) (confirmation : Option HoldConfirmation) (s : Store) : Prop :=
  ∀ shortPays, adviceShortPays T reading.advice = .ok shortPays →
    Unambiguous T tenant (openingOf T tenant parse document reading confirmation shortPays) reading.advice s

theorem readUnambiguously_empty {T : CaseTables} {tenant : Tenant} {parse : Text → Except Text Text}
    {document : CaseOpeningDocument} {reading : CaseOpeningReading} {confirmation : Option HoldConfirmation} :
    ReadUnambiguously T tenant parse document reading confirmation {} := by
  rintro shortPays - entry - line - ⟨-, -, hmany⟩
  refine hmany ?_
  rintro a b ⟨row, hrow, -⟩
  exact absurd hrow List.not_mem_nil

theorem sound_empty : Store.Sound {} := fun row hrow => absurd hrow List.not_mem_nil

end Recouple.Pipeline
