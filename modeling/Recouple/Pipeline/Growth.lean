import Mathlib
import Recouple.Lib.KeyedFold
import Recouple.Pipeline.OpenCases

/-!
# What opening cases leaves in the store

No operation takes anything away: a case keeps what it is about, and links, events and declined lines stay
(`Store.Extends`). So what one step has written holds of every later store (`Kept`), and each program below
has one triple: it keeps what is kept, and says what it has written.

The triples hold under any faults; where a call can fail, `E` has to hold of the failure (`Tolerates`).
-/

namespace Recouple.Pipeline
open Js FirstSeen Extraction Calls

/-! ## Later stores -/

/-- The two records are of one deduction. -/
structure CaseRecord.SameDeduction (a b : CaseRecord) : Prop where
  claimId : a.claimId = b.claimId
  amount : a.deductionAmountCents = b.deductionAmountCents
  via : a.discoveredVia = b.discoveredVia

structure Store.Extends (s t : Store) : Prop where
  cases : ∀ id record, s.getCase id = some record →
    ∃ record', t.getCase id = some record' ∧ record'.SameDeduction record
  links : s.links ⊆ t.links
  events : s.events ⊆ t.events
  declinedLines : s.declinedLines ⊆ t.declinedLines

theorem Store.Extends.refl (s : Store) : s.Extends s :=
  ⟨fun _ record h => ⟨record, h, rfl, rfl, rfl⟩, List.Subset.refl _, List.Subset.refl _, List.Subset.refl _⟩

theorem Store.Extends.trans {s t u : Store} (hst : s.Extends t) (htu : t.Extends u) : s.Extends u := by
  refine ⟨fun id record h => ?_, fun _ h => htu.links (hst.links h), fun _ h => htu.events (hst.events h),
    fun _ h => htu.declinedLines (hst.declinedLines h)⟩
  obtain ⟨r, hr, hsame⟩ := hst.cases id record h
  obtain ⟨r', hr', hsame'⟩ := htu.cases id r hr
  exact ⟨r', hr', hsame'.claimId.trans hsame.claimId, hsame'.amount.trans hsame.amount, hsame'.via.trans hsame.via⟩

/-- What holds of a store holds of every later one. -/
def Kept (P : Store → Prop) : Prop := ∀ s t, s.Extends t → P s → P t

theorem Kept.and {P Q : Store → Prop} (hP : Kept P) (hQ : Kept Q) : Kept fun s => P s ∧ Q s :=
  fun s t h hs => ⟨hP s t h hs.1, hQ s t h hs.2⟩

theorem Kept.or {P Q : Store → Prop} (hP : Kept P) (hQ : Kept Q) : Kept fun s => P s ∨ Q s :=
  fun s t h hs => hs.imp (hP s t h) (hQ s t h)

theorem Kept.exists {α : Sort*} {P : α → Store → Prop} (h : ∀ a, Kept (P a)) : Kept fun s => ∃ a, P a s :=
  fun s t hst ⟨a, ha⟩ => ⟨a, h a s t hst ha⟩

theorem Kept.const (p : Prop) : Kept fun _ => p := fun _ _ _ => id

theorem Kept.link (l : Link) : Kept fun s => l ∈ s.links := fun _ _ h hs => h.links hs

theorem Kept.event (e : StoredEvent) : Kept fun s => e ∈ s.events := fun _ _ h hs => h.events hs

theorem Kept.declinedLine (row : DeclinedLine) : Kept fun s => row ∈ s.declinedLines := fun _ _ h hs => h.declinedLines hs

theorem Kept.extends (s : Store) : Kept fun t => s.Extends t := fun _ _ h hs => hs.trans h

/-- The store has the case of a remittance line: this id, this claim, this amount. -/
def CaseOf (id : CaseId) (claimId : Text) (amountCents : Cents) (s : Store) : Prop :=
  ∃ record, s.getCase id = some record ∧ record.claimId = some claimId ∧
    record.deductionAmountCents = some amountCents ∧ record.discoveredVia = .remittance_line

theorem Kept.caseOf (id : CaseId) (claimId : Text) (amountCents : Cents) : Kept (CaseOf id claimId amountCents) := by
  rintro s t h ⟨record, hget, hclaim, hamount, hvia⟩
  obtain ⟨record', hget', hsame⟩ := h.cases id record hget
  exact ⟨record', hget', hsame.claimId.trans hclaim, hsame.amount.trans hamount, hsame.via.trans hvia⟩

/-! ## The operations -/

namespace Store
variable {s : Store}

theorem le_foldr_max {ids : List Nat} {id : Nat} (h : id ∈ ids) : id ≤ ids.foldr max 0 := by
  induction ids with
  | nil => cases h
  | cons x xs ih =>
    rw [List.foldr_cons]
    rcases List.mem_cons.1 h with rfl | h
    · exact Nat.le_max_left ..
    · exact (ih h).trans (Nat.le_max_right ..)

theorem getCase_freshId (s : Store) : s.getCase s.freshId = none := by
  rw [getCase, List.find?_eq_none]
  intro record hmem
  have hle : record.deductionId ≤ (s.cases.map (·.deductionId)).foldr max 0 :=
    le_foldr_max (List.mem_map.2 ⟨record, hmem, rfl⟩)
  have hne : record.deductionId ≠ s.freshId := by
    intro h
    rw [h] at hle
    exact Nat.not_succ_le_self _ hle
  simpa using hne

theorem getCase_id {id : CaseId} {record : CaseRecord} (h : s.getCase id = some record) : record.deductionId = id := by
  simpa using List.find?_some h

theorem extends_addCase (record : CaseRecord) : s.Extends { s with cases := s.cases ++ [record] } := by
  refine ⟨fun id r h => ⟨r, ?_, rfl, rfl, rfl⟩, List.Subset.refl _, List.Subset.refl _, List.Subset.refl _⟩
  have h' : s.cases.find? (·.deductionId = id) = some r := h
  show (s.cases ++ [record]).find? (·.deductionId = id) = some r
  rw [List.find?_append, h', Option.some_or]

theorem getCase_addCase {record : CaseRecord} (hid : record.deductionId = s.freshId) :
    ({ s with cases := s.cases ++ [record] } : Store).getCase record.deductionId = some record := by
  have h : s.cases.find? (·.deductionId = s.freshId) = none := s.getCase_freshId
  show (s.cases ++ [record]).find? (·.deductionId = record.deductionId) = some record
  rw [hid, List.find?_append, h, Option.none_or]
  simp [hid]

theorem getCase_setState {id id' : CaseId} {target : CaseState} : (s.setState id target).getCase id' =
    (s.getCase id').map fun c => if c.deductionId = id then { c with state := target } else c := by
  unfold setState getCase
  rw [List.find?_map]
  congr 2
  funext c
  dsimp only [Function.comp]
  split <;> rfl

theorem extends_setState (id : CaseId) (target : CaseState) : s.Extends (s.setState id target) := by
  refine ⟨fun id' r h => ⟨_, by rw [getCase_setState, h]; rfl, ?_⟩, List.Subset.refl _, List.Subset.refl _,
    List.Subset.refl _⟩
  dsimp only
  split <;> exact ⟨rfl, rfl, rfl⟩

theorem extends_linkDocument (link : Link) : s.Extends (s.linkDocument link) := by
  unfold linkDocument
  split
  · exact Extends.refl s
  · exact ⟨(Extends.refl s).cases, fun _ => List.mem_append_left _, List.Subset.refl _, List.Subset.refl _⟩

theorem mem_linkDocument (link : Link) : link ∈ (s.linkDocument link).links := by
  unfold linkDocument
  split
  · assumption
  · exact List.mem_append_right _ (List.mem_singleton.2 rfl)

theorem extends_appendEvent (event : StoredEvent) : s.Extends (s.appendEvent event) :=
  ⟨(Extends.refl s).cases, List.Subset.refl _, fun _ => List.mem_append_left _, List.Subset.refl _⟩

theorem mem_appendEvent (event : StoredEvent) : event ∈ (s.appendEvent event).events :=
  List.mem_append_right _ (List.mem_singleton.2 rfl)

theorem extends_recordIdentifier (row : StoredIdentifier) (acc : Store × Nat × List Text) :
    acc.1.Extends (recordIdentifier row acc).1 := by
  unfold recordIdentifier
  dsimp only
  split
  · exact Extends.refl _
  · split
    · exact Extends.refl _
    · exact ⟨(Extends.refl _).cases, List.Subset.refl _, List.Subset.refl _, List.Subset.refl _⟩

theorem extends_recordIdentifiers (tenant : Tenant) (orgId : OrgId) (deductionId : CaseId) (documentId : DocumentId)
    (identifiers : List ArrivedIdentifier) :
    s.Extends (recordIdentifiers tenant orgId deductionId documentId identifiers s).2 := by
  unfold recordIdentifiers
  split
  · exact Extends.refl s
  · -- one row after another
    have h : ∀ (rows : List StoredIdentifier) (acc : Store × Nat × List Text), s.Extends acc.1 →
        s.Extends (rows.foldl (fun acc row => recordIdentifier row acc) acc).1 := by
      intro rows
      induction rows with
      | nil => exact fun _ => id
      | cons row rows ih => exact fun acc hacc => ih _ (hacc.trans (extends_recordIdentifier row acc))
    exact h _ (s, 0, []) (Extends.refl s)

theorem extends_recordDeclinedLine (s : Store) (tenant : Tenant) (line : UploadSource → DeclinedLine)
    (documentId : DocumentId) : s.Extends (recordDeclinedLine tenant line documentId s).2 := by
  unfold recordDeclinedLine
  split
  · exact Extends.refl s
  · exact ⟨(Extends.refl s).cases, List.Subset.refl _, List.Subset.refl _, fun _ => List.mem_append_left _⟩

end Store

/-! ## The calls -/

/-- Where a call can fail, `E` holds of the failure at every store with `P`. -/
def Tolerates (faults : Faults) (P : Store → Prop) (E : Failure → Store → Prop) : Prop :=
  faults ≠ reliable → ∀ s, P s → E .unavailable s

section
variable {faults : Faults} {P : Store → Prop} {E : Failure → Store → Prop}

theorem Tolerates.weaken {P' : Store → Prop} (h : Tolerates faults P E) (hP : ∀ s, P' s → P s) : Tolerates faults P' E :=
  fun hf s hs => h hf s (hP s hs)

theorem ask_triple {α : Type} {f : Store → α} (hE : Tolerates faults P E) :
    Triple faults P (ask f) (fun a s => P s ∧ a = f s) E :=
  Triple.call (fun _ hs => ⟨hs, rfl⟩) hE hE

/-- A write keeps what is kept, and what it writes is there. -/
theorem write_triple {N : Store → Prop} {f : Store → Store} (hP : Kept P) (hE : Tolerates faults P E)
    (hf : ∀ s : Store, s.Extends (f s)) (hN : ∀ s, N (f s)) : Triple faults P (write f) (fun _ s => P s ∧ N s) E :=
  Triple.call (fun s hs => ⟨hP s _ (hf s) hs, hN s⟩) hE fun hfaults s hs => hE hfaults _ (hP s _ (hf s) hs)

/-- A transaction that answers keeps what is kept. -/
theorem transact_triple {α : Type} {Q : α → Prop} {f : Store → Except Failure α × Store} (hP : Kept P)
    (hE : Tolerates faults P E) (hf : ∀ s : Store, s.Extends (f s).2) (hok : ∀ s, P s → ∃ a, (f s).1 = .ok a ∧ Q a) :
    Triple faults P (transact f) (fun a s => P s ∧ Q a) E := by
  refine Triple.call (fun s hs => ?_) hE fun hfaults s hs => hE hfaults _ (hP s _ (hf s) hs)
  obtain ⟨a, ha, hQ⟩ := hok s hs
  rw [ha]
  exact ⟨hP s _ (hf s) hs, hQ⟩

theorem link_triple (link : Link) (hP : Kept P) (hE : Tolerates faults P E) :
    Triple faults P (write (Store.linkDocument link)) (fun _ s => P s ∧ link ∈ s.links) E :=
  write_triple hP hE (fun _ => Store.extends_linkDocument link) fun _ => Store.mem_linkDocument link

theorem event_triple (event : StoredEvent) (hP : Kept P) (hE : Tolerates faults P E) :
    Triple faults P (write (Store.appendEvent event)) (fun _ s => P s ∧ event ∈ s.events) E :=
  write_triple hP hE (fun _ => Store.extends_appendEvent event) fun _ => Store.mem_appendEvent event

/-- An event about which nothing is asked later. -/
theorem event_keeps (event : StoredEvent) (hP : Kept P) (hE : Tolerates faults P E) :
    Triple faults P (write (Store.appendEvent event)) (fun _ s => P s) E :=
  (event_triple event hP hE).post fun _ _ h => h.1

end

/-! ## What becomes of a line over the floor -/

/-- The case was opened from the document: it is the line's, and the document is its notice. -/
def OpenedFrom (documentId : DocumentId) (claimId : Text) (amountCents : Cents) (id : CaseId) (s : Store) : Prop :=
  CaseOf id claimId amountCents s ∧ ⟨id, documentId, .notice⟩ ∈ s.links

/-- The document is evidence on the case, and the case says which line was merged into it. -/
def MergedInto (documentId : DocumentId) (invoiceNumber : Text) (amountCents : Cents) (id : CaseId) (s : Store) : Prop :=
  ⟨id, documentId, .evidence⟩ ∈ s.links ∧ ∃ orgId line, ⟨orgId, id, .merged_duplicate_line line⟩ ∈ s.events ∧
    line.documentId = documentId ∧ line.invoiceNumber = invoiceNumber ∧ line.deductionAmountCents = amountCents

/-- What a line's result says is so in the store. -/
def ResultHolds (o : Opening) (line : ShortLine) (result : RemittanceLineResult) (s : Store) : Prop :=
  result.index = line.index ∧ ∃ id, result.deductionId = some id ∧
    ((result.outcome = .opened ∨ result.outcome = .probable_duplicate) ∧
        OpenedFrom o.document.documentId (o.claimIdOf line) line.amountCents id s ∨
      result.outcome = .merged ∧ MergedInto o.document.documentId line.invoiceNumber line.amountCents id s)

theorem Kept.openedFrom (documentId : DocumentId) (claimId : Text) (amountCents : Cents) (id : CaseId) :
    Kept (OpenedFrom documentId claimId amountCents id) := (Kept.caseOf id claimId amountCents).and (Kept.link _)

theorem Kept.mergedInto (documentId : DocumentId) (invoiceNumber : Text) (amountCents : Cents) (id : CaseId) :
    Kept (MergedInto documentId invoiceNumber amountCents id) :=
  (Kept.link _).and (Kept.exists fun _ => Kept.exists fun _ => (Kept.event _).and (Kept.const _))

theorem Kept.resultHolds (o : Opening) (line : ShortLine) (result : RemittanceLineResult) :
    Kept (ResultHolds o line result) :=
  (Kept.const _).and <| Kept.exists fun _ => (Kept.const _).and <|
    ((Kept.const _).and (Kept.openedFrom _ _ _ _)).or ((Kept.const _).and (Kept.mergedInto _ _ _ _))

section
variable {faults : Faults} {P : Store → Prop} {E : Failure → Store → Prop} {tenant : Tenant} {T : CaseTables}
variable {o : Opening} {claimId : Text} {line : ShortLine}

/-- The failures of `openCase` that nothing catches. -/
def ToleratesAmbiguity (tenant : Tenant) (P : Store → Prop) (E : Failure → Store → Prop) : Prop :=
  ∀ s input candidates, P s → tenant.refusal s input = some (.ambiguousIdentity candidates) →
    E (.ambiguousIdentity candidates) s

theorem mergeIntoCase_triple {deductionId : CaseId} {merged : MergedLine} (hP : Kept P) (hE : Tolerates faults P E)
    (hdoc : merged.documentId = o.document.documentId) :
    Triple faults P (mergeIntoCase o deductionId merged)
      (fun _ s => P s ∧
        MergedInto o.document.documentId merged.invoiceNumber merged.deductionAmountCents deductionId s) E := by
  refine Triple.bind (link_triple _ hP hE) fun _ => ?_
  refine (event_triple _ (hP.and (Kept.link _)) (hE.weaken fun s h => h.1)).post ?_
  rintro - s ⟨⟨hs, hlink⟩, hevent⟩
  exact ⟨hs, hlink, _, _, hevent, hdoc, rfl, rfl⟩

theorem openCase_triple (hP : Kept P) (hE : Tolerates faults P E) (hambiguous : ToleratesAmbiguity tenant P E)
    (hduplicate : ∀ s id, P s → E (.duplicateCase id) s) :
    Triple faults P (transact (Store.openCase tenant (newCaseOf o claimId line)))
      (fun opened s => P s ∧ opened.state = .discovered ∧ CaseOf opened.deductionId claimId line.amountCents s) E := by
  refine Triple.call (fun s hs => ?_) hE fun hfaults s hs => ?_
  · unfold Store.openCase
    cases hr : tenant.refusal s (newCaseOf o claimId line) with
    | some refusal =>
      cases refusal with
      | duplicateCase id => exact hduplicate s id hs
      | ambiguousIdentity candidates => exact hambiguous s _ candidates hs hr
    | none =>
      refine ⟨hP s _ (Store.extends_addCase _) hs, rfl, _, Store.getCase_addCase rfl, rfl, rfl, rfl⟩
  · unfold Store.openCase
    cases tenant.refusal s (newCaseOf o claimId line) with
    | some refusal => exact hE hfaults s hs
    | none => exact hE hfaults _ (hP s _ (Store.extends_addCase _) hs)

/-- **A line that opens a case opens its own**, and files the document as the case's notice. -/
theorem openCaseForLine_triple {duplicate : Option (List CaseId × List Text)} (hP : Kept P) (hE : Tolerates faults P E)
    (hambiguous : ToleratesAmbiguity tenant P E) (hduplicate : ∀ s id, P s → E (.duplicateCase id) s) :
    Triple faults P (openCaseForLine tenant o claimId line duplicate)
      (fun record s => P s ∧ OpenedFrom o.document.documentId claimId line.amountCents record.deductionId s) E := by
  refine Triple.bind (openCase_triple hP hE hambiguous hduplicate) fun opened => ?_
  have hcase : Kept fun s => P s ∧ opened.state = .discovered ∧ CaseOf opened.deductionId claimId line.amountCents s :=
    hP.and ((Kept.const _).and (Kept.caseOf _ _ _))
  refine Triple.bind (link_triple _ hcase (hE.weaken fun s h => h.1)) fun _ => ?_
  have hlinked := hcase.and (Kept.link ⟨opened.deductionId, o.document.documentId, .notice⟩)
  have hfails := hE.weaken fun s (h : (P s ∧ opened.state = .discovered ∧ CaseOf opened.deductionId claimId
    line.amountCents s) ∧ ⟨opened.deductionId, o.document.documentId, .notice⟩ ∈ s.links) => h.1.1
  refine Triple.bind ((transact_triple (Q := fun _ => True) hlinked hfails
    (fun s => s.extends_recordIdentifiers ..) fun s _ => ⟨_, rfl, trivial⟩).post fun _ _ h => h.1) fun names => ?_
  refine Triple.bind (event_keeps _ hlinked hfails) fun _ => ?_
  refine Triple.bind (Triple.forM fun _ => event_keeps _ hlinked hfails) fun _ => ?_
  refine Triple.bind (Triple.lift (fun _ _ _ => id) fun e he s hs => ?_) fun _ => ?_
  · -- the case has just been discovered
    rw [classifiedFrom, if_pos hs.1.2.1] at he
    cases he
  refine Triple.bind (transact_triple (Q := fun record => record.deductionId = opened.deductionId) hlinked hfails
    (fun s => ?_) fun s hs => ?_) fun classified => ?_
  · unfold Store.transitionCase
    split
    · exact Store.Extends.refl s
    · exact Store.extends_setState ..
  · obtain ⟨record, hget, -⟩ := hs.1.2.2
    unfold Store.transitionCase
    rw [hget]
    exact ⟨_, rfl, show record.deductionId = _ from Store.getCase_id hget⟩
  refine Triple.bind (event_keeps _ (hlinked.and (Kept.const _)) (hfails.weaken fun s h => h.1)) fun _ => ?_
  refine Triple.pure ?_
  rintro s ⟨⟨⟨hs, -, hcase⟩, hlink⟩, hid⟩
  rw [hid]
  exact ⟨hs, hcase, hlink⟩

theorem Tolerates.kept {N : Store → Prop} (h : Tolerates faults P E) : Tolerates faults (fun s => P s ∧ N s) E :=
  h.weaken fun _ hs => hs.1

theorem mergedResult_holds {id : CaseId} {matchedOn : List Text} {detail : Option Text} (hP : Kept P)
    (hE : Tolerates faults P E) :
    Triple faults P (do mergeIntoCase o id (line.merged o matchedOn detail); pure (line.mergedResult id))
      (fun result s => P s ∧ ResultHolds o line result s) E := by
  refine Triple.bind (mergeIntoCase_triple hP hE rfl) fun _ => Triple.pure ?_
  rintro s ⟨hs, hmerged⟩
  exact ⟨hs, rfl, id, rfl, .inr ⟨rfl, hmerged⟩⟩

/-- A claim that is open already is merged into; what is not caught is `E`'s. -/
theorem openLine_triple {probable : Option (List CaseId)} {basis : Option (List Text)} (hP : Kept P)
    (hE : Tolerates faults P E) (hambiguous : ToleratesAmbiguity tenant P E) :
    Triple faults P (openLine tenant o (o.claimIdOf line) line probable basis)
      (fun result s => P s ∧ ResultHolds o line result s) E := by
  have htry : Triple faults P
      (do
        let opened ← openCaseForLine tenant o (o.claimIdOf line) line (duplicatePair probable basis)
        pure
          { index := line.index
            outcome := if probable = none then .opened else .probable_duplicate
            invoiceNumber := some line.invoiceNumber
            deductionId := some opened.deductionId
            probableDuplicateOf := probable : RemittanceLineResult })
      (fun result s => P s ∧ ResultHolds o line result s)
      (fun e s => P s ∧ ((∃ id, e = .duplicateCase id) ∨ E e s)) := by
    refine Triple.bind (openCaseForLine_triple hP (fun hf s hs => ⟨hs, .inr (hE hf s hs)⟩)
      (fun s input candidates hs hr => ⟨hs, .inr (hambiguous s input candidates hs hr)⟩)
      fun s id hs => ⟨hs, .inl ⟨id, rfl⟩⟩) fun opened => Triple.pure ?_
    rintro s ⟨hs, hopened⟩
    refine ⟨hs, rfl, opened.deductionId, rfl, .inl ⟨?_, hopened⟩⟩
    by_cases hp : probable = none
    · exact .inl (if_pos hp)
    · exact .inr (if_neg hp)
  refine Triple.handle htry fun e => ?_
  cases e with
  | duplicateCase id => exact (mergedResult_holds hP hE).pre fun s hs => hs.1
  | _ =>
    refine Triple.throw ?_
    rintro s ⟨-, ⟨id, hid⟩ | he⟩
    · cases hid
    · exact he

/-- **A line over the floor is opened or merged**, whichever way it is found to be a case already. -/
theorem settleLine_triple {openedHere : List CaseId} (hP : Kept P) (hE : Tolerates faults P E)
    (hambiguous : ToleratesAmbiguity tenant P E) :
    Triple faults P (settleLine T tenant o openedHere line) (fun result s => P s ∧ ResultHolds o line result s) E := by
  refine Triple.bind ((ask_triple hE).post fun _ _ h => h.1) fun found => ?_
  refine Triple.bind (Triple.lift (fun _ _ _ => id) fun e he => ?_) fun resolution => ?_
  · -- the tolerance is a number of days
    obtain ⟨r, hr⟩ := resolveIdentity_returns T
    rw [hr] at he
    cases he
  dsimp only
  split
  · exact mergedResult_holds hP hE
  · split
    · exact mergedResult_holds hP hE
    · exact openLine_triple hP hE hambiguous

end

/-! ## The lines -/

/-- The line of a row that is paid short by more than the floor and prints its invoice. -/
def overFloorLine (T : CaseTables) (o : Opening) (entry : RemittanceLine × Nat) : Option ShortLine :=
  match o.shortPays[entry.2]?, printedIdentifier entry.1.invoice_number with
  | some (.cents amountCents basis), some invoiceNumber =>
    let line : ShortLine :=
      { index := entry.2, invoiceNumber, amountCents, basis
        reasonCode := printedIdentifier entry.1.reason_code
        grossCents := printedMoneyCents T entry.1.gross_amount }
    if 0 < amountCents.val ∧ clearsRemittanceTolerance amountCents line.grossCents o.settings = true then some line
    else none
  | _, _ => none

theorem overFloorLine_eq_some {T : CaseTables} {o : Opening} {entry : RemittanceLine × Nat} {line : ShortLine} :
    overFloorLine T o entry = some line ↔
      o.shortPays[entry.2]? = some (.cents line.amountCents line.basis) ∧
      printedIdentifier entry.1.invoice_number = some line.invoiceNumber ∧ line.index = entry.2 ∧
      line.reasonCode = printedIdentifier entry.1.reason_code ∧
      line.grossCents = printedMoneyCents T entry.1.gross_amount ∧ 0 < line.amountCents.val ∧
      clearsRemittanceTolerance line.amountCents line.grossCents o.settings = true := by
  unfold overFloorLine
  cases hpay : o.shortPays[entry.2]? with
  | none => simp
  | some pay =>
    cases pay with
    | problem problem => simp
    | cents amountCents basis =>
      cases hinv : printedIdentifier entry.1.invoice_number with
      | none => simp
      | some invoiceNumber =>
        obtain ⟨index, invoice, reasonCode, grossCents, amount, basis'⟩ := line
        dsimp only
        constructor
        · intro h
          split at h
          · rename_i hover
            cases h
            exact ⟨rfl, rfl, rfl, rfl, rfl, hover.1, hover.2⟩
          · cases h
        · rintro ⟨hpay, hinv, rfl, rfl, rfl, hpos, hclears⟩
          cases hpay
          cases hinv
          rw [if_pos ⟨hpos, hclears⟩]

/-- What the loop says of a row: of a line over the floor, what became of it; of any other, that no case
did. -/
def TurnHolds (T : CaseTables) (o : Opening) (s : Store) (entry : RemittanceLine × Nat) (result : RemittanceLineResult) :
    Prop :=
  result.index = entry.2 ∧
    match overFloorLine T o entry with
    | some line => ResultHolds o line result s
    | none => result.outcome ≠ .opened ∧ result.outcome ≠ .probable_duplicate ∧ result.outcome ≠ .merged

theorem TurnHolds.extends {T : CaseTables} {o : Opening} {s t : Store} {entry : RemittanceLine × Nat}
    {result : RemittanceLineResult} (h : TurnHolds T o s entry result) (hst : s.Extends t) :
    TurnHolds T o t entry result := by
  refine ⟨h.1, ?_⟩
  have h := h.2
  revert h
  cases overFloorLine T o entry with
  | none => exact id
  | some line => exact Kept.resultHolds o line result s t hst

section
variable {faults : Faults} {P : Store → Prop} {E : Failure → Store → Prop} {tenant : Tenant} {T : CaseTables}
variable {o : Opening}

/-- The turn has added one result, and it holds. -/
def Turned (T : CaseTables) (o : Opening) (acc : LineLoop) (entry : RemittanceLine × Nat) (acc' : LineLoop) (s : Store) :
    Prop :=
  ∃ result, acc'.lines = acc.lines ++ [result] ∧ TurnHolds T o s entry result

theorem Turned.note {acc : LineLoop} {row : RemittanceLine} {index : Nat} {result : RemittanceLineResult} {s : Store}
    (hindex : result.index = index) (hnone : overFloorLine T o (row, index) = none)
    (houtcome : result.outcome ≠ .opened ∧ result.outcome ≠ .probable_duplicate ∧ result.outcome ≠ .merged) :
    Turned T o acc (row, index) (acc.note row result) s := by
  refine ⟨_, rfl, hindex, ?_⟩
  rw [hnone]
  exact houtcome

theorem overFloor_triple {acc : LineLoop} {line : ShortLine} {entry : RemittanceLine × Nat} (hP : Kept P)
    (hE : Tolerates faults P E) (hambiguous : ToleratesAmbiguity tenant P E)
    (hline : overFloorLine T o entry = some line) (hindex : line.index = entry.2) :
    Triple faults P (overFloor T tenant o acc line) (fun acc' s => P s ∧ Turned T o acc entry acc' s) E := by
  have hclaim : Triple faults P (withInvoiceClaim (settleLine T tenant o acc.openedHere line))
      (fun result s => P s ∧ ResultHolds o line result s) E := by
    refine Triple.bind ((ask_triple hE).post fun _ _ h => h.1) fun _ => ?_
    refine Triple.bind (settleLine_triple hP hE hambiguous) fun result => ?_
    refine Triple.bind ((ask_triple hE.kept).post fun _ _ h => h.1) fun _ => Triple.pure fun _ => id
  refine Triple.bind hclaim fun result => ?_
  have hdone : ∀ (acc' : LineLoop) (s : Store),
      acc'.lines = acc.lines ++ [{ result with reasonCode := line.reasonCode }] → P s ∧ ResultHolds o line result s →
      P s ∧ Turned T o acc entry acc' s := by
    rintro acc' s hlines ⟨hs, hresult⟩
    refine ⟨hs, _, hlines, hresult.1.trans hindex, ?_⟩
    rw [hline]
    exact hresult
  dsimp only
  split
  · exact Triple.pure fun s hs => hdone _ s rfl hs
  · split
    · refine Triple.bind ((ask_triple hE.kept).post fun _ _ h => h.1) fun record => Triple.pure fun s hs => ?_
      exact hdone _ s rfl hs
    · exact Triple.pure fun s hs => hdone _ s rfl hs

theorem declineLine_triple {acc : LineLoop} {row : RemittanceLine} {line : ShortLine} {index : Nat} (hP : Kept P)
    (hE : Tolerates faults P E) (hnone : overFloorLine T o (row, index) = none) (hindex : line.index = index) :
    Triple faults P (declineLine tenant o acc row line) (fun acc' s => P s ∧ Turned T o acc (row, index) acc' s) E := by
  have hturned : ∀ (acc' : LineLoop) (result : RemittanceLineResult) (s : Store), acc'.lines = acc.lines → P s →
      result.index = line.index →
      result.outcome ≠ .opened ∧ result.outcome ≠ .probable_duplicate ∧ result.outcome ≠ .merged →
      P s ∧ Turned T o acc (row, index) (acc'.note row result) s := by
    intro acc' result s hlines hs hi houtcome
    obtain ⟨r, hr, hholds⟩ : Turned T o acc' (row, index) (acc'.note row result) s :=
      Turned.note (hi.trans hindex) hnone houtcome
    exact ⟨hs, r, by rw [hr, hlines], hholds⟩
  unfold declineLine
  dsimp only
  split
  · exact Triple.pure fun s hs => hturned _ _ s rfl hs rfl ⟨nofun, nofun, nofun⟩
  · refine Triple.handle (M := fun e s => P s ∧ ((∃ id, e = .lineProvenanceUnknown id) ∨ E e s)) ?_ fun e => ?_
    · refine Triple.bind (M := fun _ s => P s) ?_ fun _ => ?_
      · have hf := fun s : Store =>
          s.extends_recordDeclinedLine tenant (declinedLine o line) o.document.documentId
        refine Triple.call (fun s hs => ?_) (fun hfaults s hs => ⟨hs, .inr (hE hfaults s hs)⟩)
          fun hfaults s hs => ⟨hP s _ (hf s) hs, .inr (hE hfaults _ (hP s _ (hf s) hs))⟩
        have hext := hf s
        revert hext
        unfold Store.recordDeclinedLine
        cases tenant.arrival o.document.documentId with
        | none => exact fun _ => ⟨hs, .inl ⟨_, rfl⟩⟩
        | some source => exact fun hext => hP s _ hext hs
      · exact Triple.pure fun s hs => hturned _ _ s rfl hs rfl ⟨nofun, nofun, nofun⟩
    · cases e with
      | lineProvenanceUnknown id => exact Triple.pure fun s hs => hturned _ _ s rfl hs.1 rfl ⟨nofun, nofun, nofun⟩
      | _ =>
        refine Triple.throw ?_
        rintro s ⟨-, ⟨id, hid⟩ | he⟩
        · cases hid
        · exact he

/-- What a turn of the loop runs: a line over the floor is settled, and of any other row no case becomes one. -/
theorem processLine_cases (acc : LineLoop) (row : RemittanceLine) (index : Nat) :
    (∃ line, overFloorLine T o (row, index) = some line ∧
      processLine T tenant o acc (row, index) = overFloor T tenant o acc line) ∨
    overFloorLine T o (row, index) = none ∧
      (o.shortPays[index]? = none ∧ processLine T tenant o acc (row, index) = Calls.throw (.missingShortPay index) ∨
      (∃ result, result.index = index ∧
        (result.outcome ≠ .opened ∧ result.outcome ≠ .probable_duplicate ∧ result.outcome ≠ .merged) ∧
        processLine T tenant o acc (row, index) = pure (acc.note row result)) ∨
      ∃ line, line.index = index ∧ processLine T tenant o acc (row, index) = declineLine tenant o acc row line) := by
  unfold processLine overFloorLine
  dsimp only
  cases o.shortPays[index]? with
  | none => exact .inr ⟨rfl, .inl ⟨rfl, rfl⟩⟩
  | some pay =>
    cases pay with
    | problem problem =>
      refine .inr ⟨rfl, .inr (.inl ⟨_, ?_, ?_, rfl⟩)⟩
      · rfl
      · exact ⟨nofun, nofun, nofun⟩
    | cents amountCents basis =>
      dsimp only
      by_cases hle : amountCents.val ≤ 0
      · rw [if_pos hle]
        refine .inr ⟨?_, .inr (.inl ⟨_, ?_, ?_, rfl⟩)⟩
        · cases printedIdentifier row.invoice_number with
          | none => rfl
          | some invoiceNumber => exact if_neg fun h => absurd h.1 (by omega)
        · rfl
        · exact ⟨nofun, nofun, nofun⟩
      · rw [if_neg hle]
        cases printedIdentifier row.invoice_number with
        | none =>
          refine .inr ⟨rfl, .inr (.inl ⟨_, ?_, ?_, rfl⟩)⟩
          · rfl
          · exact ⟨nofun, nofun, nofun⟩
        | some invoiceNumber =>
          dsimp only
          by_cases hclears : clearsRemittanceTolerance amountCents (printedMoneyCents T row.gross_amount) o.settings = true
          · rw [if_pos ⟨by omega, hclears⟩, if_pos hclears]
            exact .inl ⟨_, rfl, rfl⟩
          · rw [if_neg fun h => hclears h.2, if_neg hclears]
            exact .inr ⟨rfl, .inr (.inr ⟨_, rfl, rfl⟩)⟩

/-- **One turn of the loop**: it keeps what is kept, and its result holds. -/
theorem processLine_triple {acc : LineLoop} {entry : RemittanceLine × Nat} (hP : Kept P) (hE : Tolerates faults P E)
    (hambiguous : ToleratesAmbiguity tenant P E) (hpay : entry.2 < o.shortPays.length) :
    Triple faults P (processLine T tenant o acc entry) (fun acc' s => P s ∧ Turned T o acc entry acc' s) E := by
  obtain ⟨row, index⟩ := entry
  rcases processLine_cases acc row index with
    ⟨line, hline, hrun⟩ | ⟨hnone, ⟨hmissing, -⟩ | ⟨result, hindex, houtcome, hrun⟩ | ⟨line, hindex, hrun⟩⟩
  · rw [hrun]
    exact overFloor_triple hP hE hambiguous hline (overFloorLine_eq_some.1 hline).2.2.1
  · rw [List.getElem?_eq_getElem hpay] at hmissing
    cases hmissing
  · rw [hrun]
    exact Triple.pure fun s hs => ⟨hs, Turned.note hindex hnone houtcome⟩
  · rw [hrun]
    exact declineLine_triple hP hE hnone hindex

/-- **The lines of an advice**: after the first `count` of them, each has its result, and it holds. -/
theorem lineLoop_triple {tryParsePrintedDate : Text → Except Text Text} {document : CaseOpeningDocument}
    {reading : CaseOpeningReading} {confirmation : Option HoldConfirmation} (count : Nat) (hP : Kept P)
    (hE : Tolerates faults P E) (hambiguous : ToleratesAmbiguity tenant P E)
    (hmoney : ∀ e, adviceShortPays T reading.advice = .error e → ∀ s, P s → E (.money e) s) :
    Triple faults P (lineLoop T tenant tryParsePrintedDate document reading confirmation count)
      (fun acc s => P s ∧ ∃ shortPays, adviceShortPays T reading.advice = .ok shortPays ∧
        List.Forall₂ (TurnHolds T (openingOf T tenant tryParsePrintedDate document reading confirmation shortPays) s)
          (reading.advice.lines.zipIdx.take count) acc.lines) E := by
  refine Triple.bind ((ask_triple hE).post fun _ _ h => h.1) fun _ => ?_
  refine Triple.bind (M := fun shortPays s => P s ∧ adviceShortPays T reading.advice = .ok shortPays)
    (Triple.lift (fun shortPays h s hs => ⟨hs, ?_⟩) fun e h s hs => ?_) fun shortPays => ?_
  · cases hpays : adviceShortPays T reading.advice with
    | error e => rw [hpays] at h; cases h
    | ok pays => rw [hpays] at h; cases h; rfl
  · cases hpays : adviceShortPays T reading.advice with
    | error e' => rw [hpays] at h; cases h; exact hmoney e' hpays s hs
    | ok pays => rw [hpays] at h; cases h
  let o := openingOf T tenant tryParsePrintedDate document reading confirmation shortPays
  let I (done : List (RemittanceLine × Nat)) (acc : LineLoop) (s : Store) : Prop :=
    (P s ∧ adviceShortPays T reading.advice = .ok shortPays) ∧ List.Forall₂ (TurnHolds T o s) done acc.lines
  have hkept : ∀ done acc, Kept (I done acc) := fun done acc => (hP.and (Kept.const _)).and fun s t hst hall =>
    hall.imp fun _ _ h => h.extends hst
  refine ((Triple.foldlM (I := I) fun done x rest hxs acc => ?_).pre fun s hs => ⟨hs, .nil⟩).post
    fun acc s hs => ⟨hs.1.1, shortPays, hs.1.2, hs.2⟩
  by_cases hpays : adviceShortPays T reading.advice = .ok shortPays
  · have hlength : shortPays.length = reading.advice.lines.length := by
      have := (KeyedFold.mapM_forall₂ hpays).length_eq
      rw [List.length_zipIdx] at this
      exact this.symm
    have hx : x ∈ reading.advice.lines.zipIdx := by
      refine List.mem_of_mem_take (i := count) ?_
      rw [hxs]
      exact List.mem_append_right _ List.mem_cons_self
    have hindex : x.2 < shortPays.length := by
      obtain ⟨row, index⟩ := x
      rw [hlength]
      exact (List.mem_zipIdx' hx).1
    refine (processLine_triple (hkept done acc) (hE.weaken fun s hs => hs.1.1)
      (fun s input candidates hs => hambiguous s input candidates hs.1.1) hindex).post ?_
    rintro acc' s ⟨⟨hs, hall⟩, result, hlines, hholds⟩
    refine ⟨hs, ?_⟩
    rw [hlines]
    exact List.rel_append hall (.cons hholds .nil)
  · exact fun n s hs => absurd hs.1.2 hpays

end

end Recouple.Pipeline
