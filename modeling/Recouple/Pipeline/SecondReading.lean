import Recouple.Pipeline.FirstReading
import Recouple.Pipeline.ReorderedLines
import Recouple.Pipeline.OpenedLines

/-!
# A remittance read twice

After a first reading every line over the floor is settled in the store (`Settles`): one case carries its claim
id, or the unique claim refuses its case, or a case of the shared claim id is the line's. So the second reading
merges each line and opens no case, whatever the order of its lines, as long as lines that share an invoice keep
theirs (`second_reading_opens_nothing`): such lines are told apart by their places alone.

A store whose `openCase` resolves identity never lets two cases carry one claim id. One that only enforces the
unique claim may, and then the line is ambiguous and opens a case on every reading.
-/

namespace Recouple.Pipeline
open Js FirstSeen Extraction Calls KeyedOrder

/-! ## The second reading -/

/-- The cases and the identifiers are those of the first store. -/
def Unchanged (s s' : Store) : Prop := s'.cases = s.cases ∧ s'.identifiers = s.identifiers

/-- What a second reading relies on: one case carries the line's claim id, or the unique claim refuses it, or a
case of the shared claim id is the line's. -/
def Settles (T : CaseTables) (tenant : Tenant) (o : Opening) (line : ShortLine) (s : Store) : Prop :=
  LegacyOwned T o line s ∨ AtMostOne T o.document.orgId (o.claimIdOf line) s ∧
    ((∃ id, Carries T o.document.orgId (o.claimIdOf line) s id) ∨ ClaimOpen tenant.debtorOf o line s)

/-- The line is merged, and into the one case that carries its claim id where there is one. -/
def MergedAgain (T : CaseTables) (o : Opening) (line : ShortLine) (s : Store) (result : RemittanceLineResult) : Prop :=
  result.outcome = .merged ∧ ∃ id, result.deductionId = some id ∧
    ∀ other, Carries T o.document.orgId (o.claimIdOf line) s other →
      AtMostOne T o.document.orgId (o.claimIdOf line) s → id = other

section
variable {T : CaseTables} {tenant : Tenant} {faults : Faults} {P : Store → Prop} {o : Opening} {line : ShortLine}
variable {E : Failure → Store → Prop} {s s₁ : Store}

theorem uniqueClaim_refuses {debtorOf : Text → Option DebtorId} {new : NewCase}
    (h : (s.uniqueClaim debtorOf new).isSome) : ∃ id, s.uniqueClaim debtorOf new = some (.duplicateCase id) := by
  obtain ⟨refusal, hrefusal⟩ := Option.isSome_iff_exists.1 h
  rw [hrefusal]
  unfold Store.uniqueClaim at hrefusal
  split at hrefusal
  · obtain ⟨existing, -, rfl⟩ := Option.map_eq_some_iff.1 hrefusal
    exact ⟨_, rfl⟩
  · cases hrefusal

/-- A line whose claim is open and that nothing carries is refused as a duplicate. -/
theorem refused_of_claimOpen (hstore : OneOfTheStores T tenant) (hline : Visible T o line)
    (hnone : ∀ id, ¬ Carries T o.document.orgId (o.claimIdOf line) s id) (hopen : ClaimOpen tenant.debtorOf o line s) :
    ∃ id, tenant.refusal s (newCaseOf o (o.claimIdOf line) line) = some (.duplicateCase id) := by
  obtain ⟨id, hid⟩ := uniqueClaim_refuses hopen
  rcases hstore with hr | hunique
  · rcases refusal_cases hr hline s with ⟨other, hc, -⟩ | ⟨other, -, hc, -⟩ | ⟨-, heq⟩
    · exact absurd hc (hnone other)
    · exact absurd hc (hnone other)
    · exact ⟨id, heq.trans hid⟩
  · exact ⟨id, by rw [hunique]; exact hid⟩

/-- A refused case is merged into the one that refuses it. -/
theorem openLine_refused {probable : Option (List CaseId)} {basis : Option (List Text)} (hP : Framed P)
    (hE : Tolerates faults P E)
    (hrefused : ∀ s, P s → ∃ id, tenant.refusal s (newCaseOf o (o.claimIdOf line) line) = some (.duplicateCase id)) :
    Triple faults P (openLine tenant o (o.claimIdOf line) line probable basis)
      (fun result s => P s ∧ ∃ id, result = line.mergedResult id) E := by
  refine Triple.handle (M := fun e s => P s ∧ ((∃ id, e = .duplicateCase id) ∨ E e s)) ?_ fun e => ?_
  · refine Triple.bind (M := fun _ _ => False) (Triple.bind (M := fun _ _ => False) ?_ fun _ n s h => h.elim)
      fun _ n s h => h.elim
    refine Triple.call (fun s hs => ?_) (fun hf s hs => ⟨hs, .inr (hE hf s hs)⟩) fun hf s hs => ?_
    · obtain ⟨id, hid⟩ := hrefused s hs
      unfold Store.openCase
      rw [hid]
      exact ⟨hs, .inl ⟨id, rfl⟩⟩
    · obtain ⟨id, hid⟩ := hrefused s hs
      unfold Store.openCase
      rw [hid]
      exact ⟨hs, .inr (hE hf s hs)⟩
  · cases e with
    | duplicateCase id =>
      refine ((mergedResult_framed hP hE).pre fun s hs => hs.1).post ?_
      rintro result s ⟨hs, rfl⟩
      exact ⟨hs, id, rfl⟩
    | _ =>
      refine Triple.throw ?_
      rintro s ⟨-, ⟨id, hid⟩ | he⟩
      · cases hid
      · exact he

/-- Where one case carries the line's claim id, it is what the line resolves to. -/
theorem resolution_of_carried (hline : Visible T o line) {id : CaseId} {r : IdentityResolution}
    (hc : Carries T o.document.orgId (o.claimIdOf line) s id) (hone : AtMostOne T o.document.orgId (o.claimIdOf line) s)
    (hr : lineResolution T o [] line (o.lookup T line s) = .ok r) : ∃ on, r = .exact id on := by
  obtain ⟨k, hk, -⟩ : ∃ k ∈ claimMatches T (o.claimIdOf line)
      ((o.lookup T line s).1.filter (ofClaim T [] (o.claimIdOf line))), k.deductionId = id :=
    (mem_claimMatches_lookup hline.claimKey).2 ⟨hc, nofun⟩
  obtain ⟨on, hexact⟩ : ∃ on, lineResolution T o [] line (o.lookup T line s) = .ok (.exact id on) :=
    resolve_exact rfl hline.claimKey (Int.natCast_nonneg _)
      (fun k' hk' => hone _ _ ((mem_claimMatches_lookup hline.claimKey).1 ⟨k', hk', rfl⟩).1 hc) (List.ne_nil_of_mem hk)
  cases hr.symm.trans hexact
  exact ⟨on, rfl⟩

/-- An exact resolution is to a case that carries the claim id. -/
theorem carried_of_exact (hline : Visible T o line) {id : CaseId} {on : KnownIdentifier}
    (hexact : lineResolution T o [] line (o.lookup T line s) = .ok (.exact id on)) :
    Carries T o.document.orgId (o.claimIdOf line) s id := by
  rcases resolve_cases rfl hline.claimKey hexact with ⟨id', on', heq, hne, hall⟩ | ⟨ids, basis, h, -⟩ | ⟨-, h | ⟨_, _, h⟩⟩
  · cases heq
    obtain ⟨k, hk⟩ := List.exists_mem_of_ne_nil _ hne
    exact ((mem_claimMatches_lookup hline.claimKey).1 ⟨k, hk, hall k hk⟩).1
  · cases h
  · cases h
  · cases h

/-- That nothing carries the claim id and that the claim is open are both in cases and identifiers. -/
theorem Framed.unclaimed : Framed fun s =>
    (∀ id, ¬ Carries T o.document.orgId (o.claimIdOf line) s id) ∧ ClaimOpen tenant.debtorOf o line s := by
  rintro s t - hcases hids ⟨hnone, hopen⟩
  unfold Carries ClaimOpen Store.uniqueClaim at *
  rw [hids, hcases]
  exact ⟨hnone, hopen⟩

theorem Framed.and {Q : Store → Prop} (hP : Framed P) (hQ : Framed Q) : Framed fun s => P s ∧ Q s :=
  fun s t hgrows hcases hids hs => ⟨hP s t hgrows hcases hids hs.1, hQ s t hgrows hcases hids hs.2⟩

theorem Framed.const (p : Prop) : Framed fun _ => p := fun _ _ _ _ _ h => h

/-- **A line over the floor, read again**: it is merged. -/
theorem settleLine_second (hstore : OneOfTheStores T tenant) (hline : Visible T o line) (hP : Framed P)
    (hE : Tolerates faults P E) (hsettles : ∀ s, P s → Settles T tenant o line s)
    (hsame : ∀ s, P s → ∀ id, Carries T o.document.orgId (o.claimIdOf line) s id ↔
      Carries T o.document.orgId (o.claimIdOf line) s₁ id) :
    Triple faults P (settleLine T tenant o [] line) (fun result s => P s ∧ result.index = line.index ∧
      MergedAgain T o line s₁ result) E := by
  -- what is to be shown of the case that the line is merged into
  let Fact (id : CaseId) : Prop := ∀ other, Carries T o.document.orgId (o.claimIdOf line) s₁ other →
    AtMostOne T o.document.orgId (o.claimIdOf line) s₁ → id = other
  have hmerge : ∀ {id : CaseId} {merged : MergedLine}, Triple faults (fun s => P s ∧ Fact id)
      (do mergeIntoCase o id merged; pure (line.mergedResult id))
      (fun result s => P s ∧ result.index = line.index ∧ MergedAgain T o line s₁ result) E := by
    intro id merged
    refine (mergedResult_framed (hP.and (Framed.const (Fact id))) (hE.weaken fun _ h => h.1)).post ?_
    rintro result s ⟨⟨hs, hfact⟩, rfl⟩
    exact ⟨hs, rfl, rfl, id, rfl, hfact⟩
  have hone : ∀ s, P s → AtMostOne T o.document.orgId (o.claimIdOf line) s₁ →
      AtMostOne T o.document.orgId (o.claimIdOf line) s := fun s hs h a b ha hb =>
    h a b ((hsame s hs a).1 ha) ((hsame s hs b).1 hb)
  refine Triple.bind (M := fun found s => P s ∧ found = o.lookup T line s) (ask_triple hE) fun found => ?_
  refine Triple.bind (M := fun resolution s => (P s ∧ found = o.lookup T line s) ∧
      lineResolution T o [] line found = .ok resolution)
    (Triple.lift (fun resolution h s hs => ⟨hs, mapError_ok h⟩) fun e he s hs => ?_) fun resolution => ?_
  · obtain ⟨r, hr⟩ := resolveIdentity_returns T
    rw [hr] at he
    cases he
  dsimp only
  split
  · refine Triple.pre hmerge ?_
    rintro s ⟨⟨hs, rfl⟩, hexact⟩
    exact ⟨hs, fun other hother h => h _ _ ((hsame s hs _).1 (carried_of_exact hline hexact)) hother⟩
  · rename_i hnot
    split
    · refine Triple.pre hmerge ?_
      rintro s ⟨⟨hs, rfl⟩, hr⟩
      refine ⟨hs, fun other hother h => ?_⟩
      obtain ⟨on, hexact⟩ := resolution_of_carried hline ((hsame s hs other).2 hother) (hone s hs h) hr
      exact absurd hexact (hnot other on)
    · rename_i hfind
      let P' (s : Store) : Prop := (P s ∧ ∀ id, ¬ Carries T o.document.orgId (o.claimIdOf line) s₁ id) ∧
        (∀ id, ¬ Carries T o.document.orgId (o.claimIdOf line) s id) ∧ ClaimOpen tenant.debtorOf o line s
      refine Triple.pre (P := P') ((openLine_refused ((hP.and (Framed.const _)).and Framed.unclaimed)
        (hE.weaken fun _ h => h.1.1) fun s hs => refused_of_claimOpen hstore hline hs.2.1 hs.2.2).post ?_) ?_
      · rintro result s ⟨hs, id, rfl⟩
        exact ⟨hs.1.1, rfl, rfl, id, rfl, fun other hother => absurd hother (hs.1.2 other)⟩
      · rintro s ⟨⟨hs, rfl⟩, hr⟩
        have hnone : AtMostOne T o.document.orgId (o.claimIdOf line) s →
            ∀ id, ¬ Carries T o.document.orgId (o.claimIdOf line) s id := by
          intro h id hc
          obtain ⟨on, hexact⟩ := resolution_of_carried hline hc h hr
          exact hnot id on hexact
        rcases hsettles s hs with hlegacy | ⟨h, ⟨id, hc⟩ | hopen⟩
        · obtain ⟨legacy, id, amount, hl, ⟨k, hk, hid⟩, hamount, howner⟩ := (legacyOwned_iff hline.legacyKey).1 hlegacy
          have hl' : ((o.keys[line.index]?).join).bind (·.legacyClaimId) = some legacy := hl
          rw [hl', List.find?_eq_none] at hfind
          refine absurd ?_ (hfind id (mem_firstSeen.2 (List.mem_map.2 ⟨k, hk, hid⟩)))
          rw [decide_eq_true_eq, hamount]
          exact howner
        · exact absurd hc (hnone h id)
        · exact ⟨⟨hs, fun id hc => hnone h id ((hsame s hs id).2 hc)⟩, hnone h, hopen⟩

/-- A turn of the second reading has opened no case and added one result. -/
def TurnedAgain (T : CaseTables) (o : Opening) (s₁ : Store) (acc : LineLoop) (entry : RemittanceLine × Nat)
    (acc' : LineLoop) : Prop :=
  acc'.openedHere = [] ∧ acc'.opened = [] ∧ ∃ result, acc'.lines = acc.lines ++ [result] ∧
    (result.index = entry.2 ∧ ∀ line, overFloorLine T o entry = some line → MergedAgain T o line s₁ result)

theorem overFloor_second {acc : LineLoop} {entry : RemittanceLine × Nat} (hstore : OneOfTheStores T tenant)
    (hline : Visible T o line) (hP : Framed P) (hE : Tolerates faults P E)
    (hsettles : ∀ s, P s → Settles T tenant o line s)
    (hsame : ∀ s, P s → ∀ id, Carries T o.document.orgId (o.claimIdOf line) s id ↔
      Carries T o.document.orgId (o.claimIdOf line) s₁ id)
    (hover : overFloorLine T o entry = some line) (hhere : acc.openedHere = []) (hopened : acc.opened = []) :
    Triple faults P (overFloor T tenant o acc line) (fun acc' s => P s ∧ TurnedAgain T o s₁ acc entry acc') E := by
  have hclaim : Triple faults P (withInvoiceClaim (settleLine T tenant o acc.openedHere line))
      (fun result s => P s ∧ result.index = line.index ∧ MergedAgain T o line s₁ result) E := by
    rw [hhere]
    refine Triple.bind (M := fun _ => P) ((ask_triple hE).post fun _ _ h => h.1) fun _ => ?_
    refine Triple.bind (settleLine_second hstore hline hP hE hsettles hsame) fun result => ?_
    exact Triple.bind (M := fun _ s => P s ∧ result.index = line.index ∧ MergedAgain T o line s₁ result)
      ((ask_triple (hE.weaken fun _ h => h.1)).post fun _ _ h => h.1) fun _ => Triple.pure fun _ h => h
  refine Triple.bind hclaim fun result => ?_
  have hturned : ∀ s, P s ∧ result.index = line.index ∧ MergedAgain T o line s₁ result → ∀ acc' : LineLoop,
      acc'.openedHere = [] → acc'.opened = [] → acc'.lines = acc.lines ++ [{ result with reasonCode := line.reasonCode }] →
      P s ∧ TurnedAgain T o s₁ acc entry acc' := by
    rintro s ⟨hs, hindex, hmerged⟩ acc' hh ho hlines
    refine ⟨hs, hh, ho, _, hlines, hindex.trans (overFloorLine_eq_some.1 hover).2.2.1, fun line' hline' => ?_⟩
    cases hover.symm.trans hline'
    exact hmerged
  dsimp only
  split
  · exact Triple.pure fun s hs => hturned s hs _ hhere hopened rfl
  · split
    · rename_i id hid houtcome
      rintro n s ⟨-, -, hmerged, -⟩
      rw [hmerged] at houtcome
      rcases houtcome with h | h <;> cases h
    · exact Triple.pure fun s hs => hturned s hs _ hhere hopened rfl

/-- **One turn of the second reading.** -/
theorem processLine_second {acc : LineLoop} {entry : RemittanceLine × Nat} (hstore : OneOfTheStores T tenant)
    (hP : Framed P) (hE : Tolerates faults P E)
    (hline : ∀ line, overFloorLine T o entry = some line → Visible T o line ∧ ∀ s, P s → Settles T tenant o line s ∧
      ∀ id, Carries T o.document.orgId (o.claimIdOf line) s id ↔ Carries T o.document.orgId (o.claimIdOf line) s₁ id)
    (hpay : entry.2 < o.shortPays.length) (hhere : acc.openedHere = []) (hopened : acc.opened = []) :
    Triple faults P (processLine T tenant o acc entry) (fun acc' s => P s ∧ TurnedAgain T o s₁ acc entry acc') E := by
  obtain ⟨row, index⟩ := entry
  rcases processLine_cases acc row index with
    ⟨line, hover, hrun⟩ | ⟨hnone, ⟨hmissing, -⟩ | ⟨result, hindex, -, hrun⟩ | ⟨line, hindex, hrun⟩⟩
  · rw [hrun]
    obtain ⟨hvisible, hs⟩ := hline line hover
    exact overFloor_second hstore hvisible hP hE (fun s h => (hs s h).1) (fun s h => (hs s h).2) hover hhere hopened
  · rw [List.getElem?_eq_getElem hpay] at hmissing
    cases hmissing
  · rw [hrun]
    exact Triple.pure fun s hs => ⟨hs, hhere, hopened, _, rfl, hindex, fun line hline => nomatch hnone.symm.trans hline⟩
  · rw [hrun]
    refine (declineLine_framed hP hE).post ?_
    rintro acc' s ⟨hs, hh, ho, result, hlines, hi⟩
    exact ⟨hs, hh.trans hhere, ho.trans hopened, result, hlines, hi.trans hindex, fun line hline => nomatch hnone.symm.trans hline⟩

theorem Framed.unchanged : Framed (Unchanged s₁) :=
  fun _ _ _ hcases hids h => ⟨hcases.trans h.1, hids.trans h.2⟩

theorem settles_unchanged (h : Unchanged s₁ s) : Settles T tenant o line s = Settles T tenant o line s₁ := by
  unfold Settles LegacyOwned AtMostOne Carries Names ClaimOpen Store.uniqueClaim Store.getCase
  rw [h.1, h.2]

theorem carries_unchanged (h : Unchanged s₁ s) {orgId : OrgId} {claimId : Text} {id : CaseId} :
    Carries T orgId claimId s id ↔ Carries T orgId claimId s₁ id := by
  unfold Carries
  rw [h.2]

/-- What becomes of a second reading that a failing call cuts off. -/
def CutOff (faults : Faults) (s₁ : Store) : Failure → Store → Prop := fun _ s => faults ≠ reliable ∧ Unchanged s₁ s

theorem tolerates_cutOff : Tolerates faults (Unchanged s₁) (CutOff faults s₁) := fun hf _ hs => ⟨hf, hs⟩

/-- The result that a second reading has of a row. -/
def ReadAgain (T : CaseTables) (o : Opening) (s₁ : Store) (entry : RemittanceLine × Nat) (result : RemittanceLineResult) :
    Prop :=
  result.index = entry.2 ∧ ∀ line, overFloorLine T o entry = some line → MergedAgain T o line s₁ result

theorem lines_second {rows : List (RemittanceLine × Nat)} (hstore : OneOfTheStores T tenant)
    (hpay : ∀ entry ∈ rows, entry.2 < o.shortPays.length)
    (hline : ∀ entry ∈ rows, ∀ line, overFloorLine T o entry = some line →
      Visible T o line ∧ Settles T tenant o line s₁) :
    Triple faults (Unchanged s₁) (rows.foldlM (processLine T tenant o) {})
      (fun acc s => Unchanged s₁ s ∧ acc.opened = [] ∧ List.Forall₂ (ReadAgain T o s₁) rows acc.lines)
      (CutOff faults s₁) := by
  let I (done : List (RemittanceLine × Nat)) (acc : LineLoop) (s : Store) : Prop :=
    Unchanged s₁ s ∧ (acc.openedHere = [] ∧ acc.opened = []) ∧ List.Forall₂ (ReadAgain T o s₁) done acc.lines
  refine ((Triple.foldlM (I := I) fun done entry rest hrows acc => ?_).pre fun s hs => ⟨hs, ⟨rfl, rfl⟩, .nil⟩).post
    fun acc s hs => ⟨hs.1, hs.2.1.2, hs.2.2⟩
  have hentry : entry ∈ rows := by
    rw [hrows]
    exact List.mem_append_right _ List.mem_cons_self
  by_cases hacc : (acc.openedHere = [] ∧ acc.opened = []) ∧ List.Forall₂ (ReadAgain T o s₁) done acc.lines
  swap
  · exact fun n s hs => absurd hs.2 hacc
  have hturn : Triple faults (Unchanged s₁) (processLine T tenant o acc entry)
      (fun acc' s => Unchanged s₁ s ∧ TurnedAgain T o s₁ acc entry acc') (CutOff faults s₁) := by
    refine processLine_second hstore Framed.unchanged tolerates_cutOff (fun line hover => ?_) (hpay entry hentry)
      hacc.1.1 hacc.1.2
    obtain ⟨hvisible, hsettles⟩ := hline entry hentry line hover
    refine ⟨hvisible, fun s hs => ⟨?_, fun id => carries_unchanged hs⟩⟩
    rw [settles_unchanged hs]
    exact hsettles
  refine (hturn.pre fun s hs => hs.1).post ?_
  rintro acc' s ⟨hs, hh, ho, result, hlines, hread⟩
  refine ⟨hs, ⟨hh, ho⟩, ?_⟩
  rw [hlines]
  exact List.rel_append hacc.2 (.cons hread .nil)

/-- **The second reading** of an advice whose lines over the floor are all settled in the store. -/
theorem openCases_second {parse : Text → Except Text Text} {document : CaseOpeningDocument}
    {reading : CaseOpeningReading} {confirmation : Option HoldConfirmation} {shortPays : List ShortPay}
    (hT : ∀ c, T.lower c ≠ []) (hstore : OneOfTheStores T tenant)
    (hpays : adviceShortPays T reading.advice = .ok shortPays)
    (hsettles : ∀ entry ∈ reading.advice.lines.zipIdx, ∀ line,
      overFloorLine T (openingOf T tenant parse document reading confirmation shortPays) entry = some line →
        Settles T tenant (openingOf T tenant parse document reading confirmation shortPays) line s₁) :
    Triple faults (Unchanged s₁) (openCasesFromRemittance T tenant parse document reading confirmation)
      (fun read s => Unchanged s₁ s ∧ read.opened = [] ∧
        List.Forall₂ (ReadAgain T (openingOf T tenant parse document reading confirmation shortPays) s₁)
          reading.advice.lines.zipIdx read.lines) (CutOff faults s₁) := by
  let Again (read : List CaseRecord × List RemittanceLineResult) (s : Store) : Prop :=
    Unchanged s₁ s ∧ read.1 = [] ∧
      List.Forall₂ (ReadAgain T (openingOf T tenant parse document reading confirmation shortPays) s₁)
        reading.advice.lines.zipIdx read.2
  refine Triple.bind (M := fun done s => Again (done.opened, done.lines) s) ?_ fun done => ?_
  · refine Triple.bind (M := fun _ => Unchanged s₁) ((ask_triple tolerates_cutOff).post fun _ _ h => h.1) fun _ => ?_
    rw [hpays]
    refine Triple.bind (M := fun pays s => Unchanged s₁ s ∧ pays = shortPays) (Triple.lift ?_ nofun) fun pays => ?_
    · intro pays h s hs
      cases h
      exact ⟨hs, rfl⟩
    by_cases hsame : pays = shortPays
    swap
    · exact fun n s hs => absurd hs.2 hsame
    subst hsame
    have hlength : reading.advice.lines.zipIdx.length = reading.advice.lines.length := List.length_zipIdx
    rw [← hlength, List.take_length]
    refine (lines_second hstore (fun entry hentry => ?_) fun entry hentry line hover =>
      ⟨visible_of_overFloor hT rfl hentry hover, hsettles entry hentry line hover⟩).pre fun s hs => hs.1
    have hpaid : pays.length = reading.advice.lines.length := by
      have := (KeyedFold.mapM_forall₂ hpays).length_eq
      rw [List.length_zipIdx] at this
      exact this.symm
    obtain ⟨row, index⟩ := entry
    exact hpaid ▸ (List.mem_zipIdx' hentry).1
  · have hagain : Framed (Again (done.opened, done.lines)) := Framed.unchanged.and (Framed.const _)
    refine Triple.bind (M := fun _ s => Again (done.opened, done.lines) s) (Triple.forM fun id => ?_) fun _ =>
      Triple.pure fun _ h => h
    have hevent : ∀ s event, Again (done.opened, done.lines) s → Again (done.opened, done.lines) (s.appendEvent event) :=
      fun s event hs => hagain s _ (Store.extends_appendEvent event) rfl rfl hs
    exact Triple.call (fun s hs => hevent s _ hs) (fun hf s hs => ⟨hf, hs.1⟩) fun hf s hs => ⟨hf, (hevent s _ hs).1⟩

end

section
variable {T : CaseTables} {tenant : Tenant}

/-- What the first reading made of a line settles it, given that its claim id is recorded and unambiguous. -/
theorem settles_of_first {o : Opening} {line : ShortLine} {result : RemittanceLineResult} {s : Store}
    (hturn : FirstTurn T tenant o line result s)
    (hone : Resolves T tenant ∨ AtMostOne T o.document.orgId (o.claimIdOf line) s)
    (hrecorded : ∀ id, result.outcome = .opened ∨ result.outcome = .probable_duplicate → result.deductionId = some id →
      Carries T o.document.orgId (o.claimIdOf line) s id) :
    Settles T tenant o line s ∧ ∀ id, result.outcome = .opened ∨ result.outcome = .probable_duplicate →
      result.deductionId = some id → AtMostOne T o.document.orgId (o.claimIdOf line) s := by
  rcases hturn with ⟨hmerged, hlegacy | ⟨hatmost, hsome⟩⟩ | ⟨hopened, id, hid, halone⟩
  · refine ⟨.inl hlegacy, fun id hopened => ?_⟩
    rw [hmerged] at hopened
    rcases hopened with h | h <;> cases h
  · exact ⟨.inr ⟨hone.elim hatmost fun h => h, hsome⟩, fun _ _ _ => hone.elim hatmost fun h => h⟩
  · have hc := hrecorded id hopened hid
    have h : AtMostOne T o.document.orgId (o.claimIdOf line) s := hone.elim (fun hr => halone hr _ hc) fun h => h
    exact ⟨.inr ⟨h, .inl ⟨id, hc⟩⟩, fun _ _ _ => h⟩

/-! ## The lines in another order -/

/-- What a line is compared with is the same of it in its other place. -/
structure LinesAlike (T : CaseTables) (o o' : Opening) (line line' : ShortLine) : Prop where
  claimId : o'.claimIdOf line' = o.claimIdOf line
  newCase : ∀ claimId, newCaseOf o' claimId line' = newCaseOf o claimId line
  orgId : o'.document.orgId = o.document.orgId
  invoiceNumber : line'.invoiceNumber = line.invoiceNumber
  legacyOwned : ∀ s, LegacyOwned T o line s → LegacyOwned T o' line' s

section
variable {o o' : Opening} {line line' : ShortLine} {s : Store}

theorem LinesAlike.settles (h : LinesAlike T o o' line line') (hs : Settles T tenant o line s) :
    Settles T tenant o' line' s := by
  unfold Settles ClaimOpen at *
  rw [h.orgId, h.claimId, h.newCase]
  exact hs.imp_left (h.legacyOwned s)

end

/-- The reading of the advice with its lines in another order. -/
def CaseOpeningReading.withLines (reading : CaseOpeningReading) (lines' : List RemittanceLine) : CaseOpeningReading :=
  { reading with advice := { reading.advice with lines := lines' } }

theorem Opening.claimIdOf_of_key {o : Opening} {line : ShortLine} {key : LineKey} (h : o.keys[line.index]?.join = some key) :
    o.claimIdOf line = key.claimId := by
  unfold Opening.claimIdOf
  rw [h]
  rfl

section
variable {reading : CaseOpeningReading} {lines' : List RemittanceLine} {shortPays shortPays' : List ShortPay}
variable {parse : Text → Except Text Text} {document document' : CaseOpeningDocument}
variable {confirmation confirmation' : Option HoldConfirmation} {row : RemittanceLine} {i i' : Nat} {line : ShortLine}

/-- A line is over the floor in the one place exactly if it is in the other. -/
theorem overFloorLine_reordered (horg : document'.orgId = document.orgId) (hpay : shortPays'[i']? = shortPays[i]?) :
    overFloorLine T (openingOf T tenant parse document' (reading.withLines lines') confirmation' shortPays') (row, i') =
      (overFloorLine T (openingOf T tenant parse document reading confirmation shortPays) (row, i)).map
        ({ · with index := i' }) := by
  unfold overFloorLine openingOf CaseOpeningReading.withLines
  dsimp only
  rw [hpay, horg]
  split
  · split
    · rfl
    · rfl
  · rfl

/-- It is compared with the same in both places. -/
theorem linesAlike_reordered (h : ReorderedLines T reading.advice.lines lines') (horg : document'.orgId = document.orgId)
    (hplace : SameOrdinal T reading.advice.lines lines' i i')
    (hpays : ∀ j j', SameOrdinal T reading.advice.lines lines' j j' → shortPays'[j']? = shortPays[j]?)
    (hrow : reading.advice.lines[i]? = some row)
    (hover : overFloorLine T (openingOf T tenant parse document reading confirmation shortPays) (row, i) = some line) :
    LinesAlike T (openingOf T tenant parse document reading confirmation shortPays)
      (openingOf T tenant parse document' (reading.withLines lines') confirmation' shortPays') line
      { line with index := i' } := by
  obtain ⟨-, hinvoice, rfl, -⟩ := overFloorLine_eq_some.1 hover
  obtain ⟨key, hkey⟩ : ∃ key,
      lineKey T reading.advice.lines (printedIdentifier reading.advice.payment_reference) line.index row = some key := by
    rw [lineKey, hinvoice]
    exact ⟨_, rfl⟩
  obtain ⟨key', hkey', halike⟩ := lineKey_samePlace h hplace hrow hkey
  have hat := (keyAt_join hrow).trans hkey
  have hat' := (keyAt_join ((hplace.row h).trans hrow)).trans hkey'
  refine ⟨?_, fun claimId => ?_, horg, rfl, ?_⟩
  · exact (Opening.claimIdOf_of_key hat').trans (halike.claimId.trans (Opening.claimIdOf_of_key hat).symm)
  · unfold newCaseOf openingOf
    rw [horg]
    rfl
  · rintro s ⟨key₀, legacy, id, amount, hkey₀, hlegacy, hcarries, hnames, hamount, howner⟩
    cases hat.symm.trans hkey₀
    refine ⟨key', legacy, id, amount, hat', halike.legacyClaimId.trans hlegacy, ?_, ?_, hamount, ?_⟩
    · exact (congrArg (Carries T · legacy s id) horg).mpr hcarries
    · exact (congrArg (Names T · line.invoiceNumber s id) horg).mpr hnames
    · refine (find?_iff_of_forall₂ (halike.group.imp fun j j' hj => ⟨?_, hj.2⟩)).1 howner
      dsimp only [openingOf]
      rw [hpays j j' hj.1]

end

/-- **Paid once.** After a first reading that recorded the claim ids of the cases it opened, a second reading of
the advice, from the same document or another and with its lines in any order that keeps the lines of one invoice in
theirs, opens no case and leaves every case as it is; each line that opened a case is merged into that case. It is so
of a store whose `openCase` resolves identity; of one that only enforces the unique claim, where no line's claim id is
carried by two cases. -/
theorem second_reading_opens_nothing {parse : Text → Except Text Text} {document : CaseOpeningDocument}
    {reading : CaseOpeningReading} {confirmation : Option HoldConfirmation} {faults : Faults} {n m : Nat}
    {s₀ s₁ : Store} {first : RemittanceRead} (hT : ∀ c, T.lower c ≠ []) (hstore : OneOfTheStores T tenant)
    (hsound : s₀.Sound)
    (hfirst : openCasesFromRemittance T tenant parse document reading confirmation faults n s₀ = (.ok first, m, s₁))
    (hrecorded : ∀ result ∈ first.lines, result.outcome = .opened ∨ result.outcome = .probable_duplicate →
      ∃ row ∈ s₁.identifiers, row.orgId = document.orgId ∧ row.known.kind = .claim_id ∧
        some row.known.identifier = claimIdAt T reading.advice result.index ∧
        some row.known.deductionId = result.deductionId)
    (hclaims : Resolves T tenant ∨ ∀ result ∈ first.lines, result.deductionId ≠ none → ∀ claimId,
      claimIdAt T reading.advice result.index = some claimId → AtMostOne T document.orgId claimId s₁)
    (documentId : DocumentId) {lines' : List RemittanceLine} (hlines : ReorderedLines T reading.advice.lines lines')
    (confirmation' : Option HoldConfirmation) (faults' : Faults) (n' : Nat) :
    let run := openCasesFromRemittance T tenant parse ⟨documentId, document.orgId⟩ (reading.withLines lines') confirmation'
      faults' n' s₁
    run.2.2.cases = s₁.cases ∧ (faults' = reliable → ∃ second, run.1 = .ok second) ∧
    ∀ second, run.1 = .ok second → second.opened = [] ∧
      ∀ result ∈ first.lines, result.outcome = .opened ∨ result.outcome = .probable_duplicate →
        ∃ result' ∈ second.lines, SameOrdinal T reading.advice.lines lines' result.index result'.index ∧
          result'.outcome = .merged ∧ result'.deductionId = result.deductionId := by
  obtain ⟨shortPays, hpays, hall⟩ := (openCases_first hT hstore).ok hsound hfirst
  obtain ⟨shortPays', hpays', hprices⟩ := shortPays_reordered hlines hpays
  let o := openingOf T tenant parse document reading confirmation shortPays
  let o' := openingOf T tenant parse ⟨documentId, document.orgId⟩ (reading.withLines lines') confirmation' shortPays'
  -- the result of a line over the floor, and what it leaves the second reading to find
  have hsettled : ∀ entry result, entry ∈ reading.advice.lines.zipIdx → result ∈ first.lines →
      FirstRead T tenant o s₁ entry result ∧ TurnHolds T o s₁ entry result → ∀ line, overFloorLine T o entry = some line →
      Settles T tenant o line s₁ ∧
        ∀ id, result.outcome = .opened ∨ result.outcome = .probable_duplicate → result.deductionId = some id →
          Carries T document.orgId (o.claimIdOf line) s₁ id ∧ AtMostOne T document.orgId (o.claimIdOf line) s₁ := by
    rintro ⟨row, index⟩ result hentry hresult ⟨hfirstRead, hindex, hholds⟩ line hover
    rw [hover] at hholds
    obtain ⟨-, id, hid, -⟩ := hholds
    obtain ⟨-, hinvoice, hat, -⟩ := overFloorLine_eq_some.1 hover
    have hclaim : claimIdAt T reading.advice result.index = some (o.claimIdOf line) := by
      rw [show result.index = index from hindex]
      exact claimIdAt_of_printed (List.mk_mem_zipIdx_iff_getElem?.1 hentry) hinvoice hat o rfl
    have hcarries : ∀ id, result.outcome = .opened ∨ result.outcome = .probable_duplicate →
        result.deductionId = some id → Carries T document.orgId (o.claimIdOf line) s₁ id := by
      intro id hopened hid
      obtain ⟨row, hrow, horg, hkind, hidentifier, hdeduction⟩ := hrecorded result hresult hopened
      rw [hclaim] at hidentifier
      rw [hid] at hdeduction
      exact ⟨row, hrow, horg, hkind, by rw [Option.some.inj hidentifier], Option.some.inj hdeduction⟩
    obtain ⟨hsettles, hone⟩ := settles_of_first (hfirstRead line hover)
      (hclaims.imp_right fun h => h result hresult (by rw [hid]; exact Option.some_ne_none id) _ hclaim) hcarries
    exact ⟨hsettles, fun id hopened hid => ⟨hcarries id hopened hid, hone id hopened hid⟩⟩
  -- a line of the second is over the floor as it was in its place in the first
  have hover' : ∀ {i i' row}, SameOrdinal T reading.advice.lines lines' i i' →
      overFloorLine T o' (row, i') = (overFloorLine T o (row, i)).map ({ · with index := i' }) := fun hplace =>
    overFloorLine_reordered rfl (hprices _ _ hplace)
  have halike : ∀ {i i' row line}, SameOrdinal T reading.advice.lines lines' i i' → reading.advice.lines[i]? = some row →
      overFloorLine T o (row, i) = some line → LinesAlike T o o' line { line with index := i' } :=
    fun hplace hrow hover => linesAlike_reordered hlines rfl hplace hprices hrow hover
  have hsecond : Triple faults' (Unchanged s₁)
      (openCasesFromRemittance T tenant parse ⟨documentId, document.orgId⟩ (reading.withLines lines') confirmation')
      (fun read s => Unchanged s₁ s ∧ read.opened = [] ∧ List.Forall₂ (ReadAgain T o' s₁) lines'.zipIdx read.lines)
      (CutOff faults' s₁) := by
    refine openCases_second hT hstore hpays' ?_
    rintro ⟨row, i'⟩ hentry line' hover
    have hrow' := List.mk_mem_zipIdx_iff_getElem?.1 hentry
    obtain ⟨-, hinvoice, -⟩ := overFloorLine_eq_some.1 hover
    obtain ⟨i, hplace⟩ := hlines.exists_samePlace' hrow' (k := identifierMatchKey T line'.invoiceNumber)
      (by rw [invoiceKey, hinvoice]; rfl)
    have hrow := (hplace.row hlines).symm.trans hrow'
    obtain ⟨line, hline, rfl⟩ := Option.map_eq_some_iff.1 ((hover' hplace).symm.trans hover)
    obtain ⟨result, hresult, hread⟩ := KeyedFold.exists_of_mem_left hall (List.mk_mem_zipIdx_iff_getElem?.2 hrow)
    exact (halike hplace hrow hline).settles
      (hsettled _ _ (List.mk_mem_zipIdx_iff_getElem?.2 hrow) hresult hread line hline).1
  intro run
  have hrun := hsecond n' s₁ ⟨rfl, rfl⟩
  rw [show openCasesFromRemittance T tenant parse ⟨documentId, document.orgId⟩ (reading.withLines lines') confirmation'
    faults' n' s₁ = (run.1, run.2.1, run.2.2) from rfl] at hrun
  cases hr : run.1 with
  | error e =>
    rw [hr] at hrun
    refine ⟨hrun.2.1, fun h => absurd h hrun.1, fun second h => ?_⟩
    cases h
  | ok second =>
    rw [hr] at hrun
    obtain ⟨hsame, hopened, hagain⟩ := hrun
    refine ⟨hsame.1, fun _ => ⟨second, rfl⟩, fun _ h => ?_⟩
    cases h
    refine ⟨hopened, fun result hresult hwasOpened => ?_⟩
    obtain ⟨⟨row, i⟩, hentry, hfirstRead, hindex, hholds⟩ := KeyedFold.exists_of_mem_right hall hresult
    have hrow := List.mk_mem_zipIdx_iff_getElem?.1 hentry
    cases hover : overFloorLine T o (row, i) with
    | none =>
      rw [hover] at hholds
      rcases hwasOpened with h | h
      · exact absurd h hholds.1
      · exact absurd h hholds.2.1
    | some line =>
      obtain ⟨-, hinvoice, -⟩ := overFloorLine_eq_some.1 hover
      obtain ⟨i', hplace⟩ := hlines.exists_samePlace hrow (k := identifierMatchKey T line.invoiceNumber)
        (by rw [invoiceKey, hinvoice]; rfl)
      obtain ⟨result', hresult', hindex', hmerged⟩ := KeyedFold.exists_of_mem_left hagain
        (List.mk_mem_zipIdx_iff_getElem?.2 ((hplace.row hlines).trans hrow))
      obtain ⟨houtcome, id', hid', honly⟩ := hmerged { line with index := i' } (by rw [hover' hplace, hover]; rfl)
      have hclaim := (halike hplace hrow hover).claimId
      have hline := hsettled _ _ hentry hresult ⟨hfirstRead, hindex, hholds⟩ line hover
      rw [hover] at hholds
      obtain ⟨-, id, hid, -⟩ := hholds
      obtain ⟨hcarries, hone⟩ := hline.2 id hwasOpened hid
      rw [hclaim] at honly
      refine ⟨result', hresult', hindex ▸ hindex'.symm ▸ hplace, houtcome, ?_⟩
      rw [hid', honly id hcarries hone]
      exact hid.symm

end

/-! ## Two readings of one advice -/

/-- A tenant whose documents were uploaded, with this refusal of `openCase`. -/
def uploadTenant (refusal : Store → NewCase → Option Refusal) : Tenant :=
  { oneTenant with arrival := fun _ => some .web_upload, refusal := refusal }

/-- Two lines of one invoice beside one whose invoice reads like the first of them does once numbered. -/
def numberedAdvice : RemittanceAdvice :=
  { payer_name := none, payment_reference := none, payment_date := none
    lines := [
      ⟨some "inv#1", none, none, some "$40.00", none⟩,
      ⟨some "INV", none, none, some "$50.00", none⟩,
      ⟨some "INV", none, none, some "$60.00", none⟩] }

/-- A reading of the advice, every call answered. -/
def readAdvice (tenant : Tenant) (advice : RemittanceAdvice) (documentId : DocumentId) (s : Store) :
    Except Failure RemittanceRead × Nat × Store :=
  openCasesFromRemittance asciiCase tenant (fun _ => .error "unread") ⟨documentId, 1⟩ ⟨.remittance_advice, advice⟩ none
    reliable 0 s

/-- A store that resolves identity. -/
def resolvingTenant : Tenant := uploadTenant (Store.resolvedClaim asciiCase fun _ => none)

/-- Two lines of one invoice. -/
def twiceAdvice : RemittanceAdvice :=
  { payer_name := none, payment_reference := none, payment_date := none
    lines := [⟨some "INV", none, none, some "$50.00", none⟩, ⟨some "INV", none, none, some "$60.00", none⟩] }

/-- Each of the two clauses fails. In a store that only enforces the unique claim, two claim ids that fold alike are
recorded as two, so each of their lines opens another case when the advice is read again. And in one that resolves
identity, two lines of one invoice that change places are each merged into the other's case. -/
theorem second_reading_exceptions :
    (let tenant := uploadTenant (Store.uniqueClaim fun _ => none)
      let first := readAdvice tenant numberedAdvice 1 {}
      let second := readAdvice tenant numberedAdvice 2 first.2.2
      first.1.map (fun read => read.lines.map fun result => (result.outcome, result.deductionId)) =
        .ok [(.opened, some 1), (.opened, some 2), (.opened, some 3)] ∧
      ((first.2.2.identifiers.filter (·.known.kind = .claim_id)).map fun row =>
        (row.known.deductionId, row.known.identifier)) =
        [(1, "inv#1".toList), (2, "INV#1".toList), (3, "INV#2".toList)] ∧
      second.1.map (fun read => read.lines.map fun result => (result.outcome, result.deductionId)) =
        .ok [(.probable_duplicate, some 4), (.probable_duplicate, some 5), (.merged, some 3)]) ∧
    let first := readAdvice resolvingTenant twiceAdvice 1 {}
    let second := readAdvice resolvingTenant { twiceAdvice with lines := twiceAdvice.lines.reverse } 2 first.2.2
    first.1.map (fun read => read.lines.map fun result => (result.outcome, result.deductionId)) =
      .ok [(.opened, some 1), (.opened, some 2)] ∧
    (first.2.2.cases.map fun record => (record.deductionId, record.deductionAmountCents.map (·.val))) =
      [(1, some 5000), (2, some 6000)] ∧
    second.1.map (fun read => read.lines.map fun result => (result.outcome, result.deductionId)) =
      .ok [(.merged, some 1), (.merged, some 2)] := by
  decide +kernel

/-- The first of the two lines before the one that reads like it. -/
def movedLines : List RemittanceLine := [
  ⟨some "INV", none, none, some "$50.00", none⟩,
  ⟨some "inv#1", none, none, some "$40.00", none⟩,
  ⟨some "INV", none, none, some "$60.00", none⟩]

theorem movedLines_reordered : ReorderedLines asciiCase numberedAdvice.lines movedLines :=
  Reordered.swap (l := []) fun k ha hb => absurd (ha.trans hb.symm) (by decide)

/-- It merges the second of the lines on the first reading, and all three on the second. -/
theorem moved_lines_merged :
    let first := readAdvice resolvingTenant numberedAdvice 1 {}
    let second := readAdvice resolvingTenant { numberedAdvice with lines := movedLines } 2 first.2.2
    second.2.2.cases = first.2.2.cases ∧ second.1.map (·.opened) = .ok [] := by
  have hlines : (readAdvice resolvingTenant numberedAdvice 1 {}).1.map
      (fun read => read.lines.map fun result => (result.index, result.outcome, result.deductionId)) =
      .ok [(0, .opened, some 1), (1, .merged, some 1), (2, .opened, some 2)] := by decide +kernel
  have hids : (readAdvice resolvingTenant numberedAdvice 1 {}).2.2.identifiers = [
      ⟨1, 1, "web_upload", .claim_id, "inv#1"⟩, ⟨1, 1, "web_upload", .invoice_number, "inv#1"⟩,
      ⟨1, 2, "web_upload", .claim_id, "INV#2"⟩, ⟨1, 2, "web_upload", .invoice_number, "INV"⟩] := by decide +kernel
  rcases hrun : readAdvice resolvingTenant numberedAdvice 1 {} with ⟨r, m, s₁⟩
  rw [hrun] at hlines hids
  cases r with
  | error e => cases hlines
  | ok first =>
    have hstore : Resolves asciiCase resolvingTenant := rfl
    have hrecorded : ∀ result ∈ first.lines, result.outcome = .opened ∨ result.outcome = .probable_duplicate →
        ∃ row ∈ s₁.identifiers, row.orgId = 1 ∧ row.known.kind = .claim_id ∧
          some row.known.identifier = claimIdAt asciiCase numberedAdvice result.index ∧
          some row.known.deductionId = result.deductionId := by
      intro result hresult hopened
      have hmem : (result.index, result.outcome, result.deductionId) ∈ [(0, RemittanceLineOutcome.opened, some 1),
          (1, .merged, some 1), (2, .opened, some 2)] := by
        rw [← show first.lines.map (fun result => (result.index, result.outcome, result.deductionId)) = _ from
          Except.ok.inj hlines]
        exact List.mem_map_of_mem hresult
      rw [show s₁.identifiers = _ from hids]
      simp only [List.mem_cons, Prod.mk.injEq, List.not_mem_nil, or_false] at hmem
      rcases hmem with ⟨hindex, -, hid⟩ | ⟨-, houtcome, -⟩ | ⟨hindex, -, hid⟩
      · rw [hindex, hid]
        exact ⟨_, List.mem_cons_self, rfl, rfl, by decide, rfl⟩
      · rw [houtcome] at hopened
        rcases hopened with h | h <;> cases h
      · rw [hindex, hid]
        exact ⟨_, List.mem_cons_of_mem _ (List.mem_cons_of_mem _ List.mem_cons_self), rfl, rfl, by decide, rfl⟩
    obtain ⟨hcases, hreturns, hsecond⟩ := @second_reading_opens_nothing asciiCase resolvingTenant _ ⟨1, 1⟩
      ⟨.remittance_advice, numberedAdvice⟩ none reliable 0 m {} s₁ first (fun c => List.cons_ne_nil _ _) (.inl hstore) nofun
      hrun hrecorded (.inl hstore) 2 movedLines movedLines_reordered none reliable 0
    obtain ⟨second, hok⟩ := hreturns rfl
    exact ⟨hcases, (congrArg (Except.map _) hok).trans (congrArg Except.ok (hsecond second hok).1)⟩

end Recouple.Pipeline
