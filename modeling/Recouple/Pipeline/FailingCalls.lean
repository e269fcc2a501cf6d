import Recouple.Pipeline.LineCalls
import Recouple.Pipeline.ReadDocument

/-!
# Which call of a delivery fails

A delivery of a remittance advice makes its calls one after another: it asks who sent it and what is on record, reads
the document, records the reading in one transaction after another (`recordingCall`, `recordedStore`) and then runs the
lines (`linesEnd`). A delivery fails early, late, or between the two (`Early`, `Late`); whatever fails of it, what is
kept as the store grows is kept (`readDocumentJob_keeps`).
-/

namespace Recouple.Pipeline
open Js FirstSeen Extraction Calls

/-! ## Settled lines -/

/-- The line was opened as a case, merged into one, or declined. -/
def LineSettled (o : Opening) (line : ShortLine) (s : Store) : Prop :=
  (∃ id, OpenedFrom o.document.documentId (o.claimIdOf line) line.amountCents id s) ∨
  (∃ id, MergedInto o.document.documentId line.invoiceNumber line.amountCents id s) ∨
  ∃ row ∈ s.declinedLines, row.documentId = o.document.documentId ∧ row.invoiceNumber = line.invoiceNumber ∧
    row.estimatedRecoverableCents = line.amountCents

theorem Kept.lineSettled (o : Opening) (line : ShortLine) : Kept (LineSettled o line) :=
  (Kept.exists fun _ => Kept.openedFrom _ _ _ _).or <| (Kept.exists fun _ => Kept.mergedInto _ _ _ _).or <|
    Kept.exists fun row => (Kept.declinedLine row).and (Kept.const _)

/-- What the line loop closes over when it reads the advice. -/
def adviceOpening (T : CaseTables) (tenant : Tenant) (ports : Ports) (document : CaseOpeningDocument)
    (advice : RemittanceAdvice) (shortPays : List ShortPay) : Opening :=
  openingOf T tenant ports.tryParsePrintedDate document ⟨.remittance_advice, advice⟩ none shortPays

/-- Every line of the advice with an invoice and a short-pay over the floor is settled. -/
def AllSettled (T : CaseTables) (tenant : Tenant) (ports : Ports) (document : CaseOpeningDocument)
    (advice : RemittanceAdvice) (s : Store) : Prop :=
  ∀ shortPays, adviceShortPays T advice = .ok shortPays → ∀ entry ∈ advice.lines.zipIdx, ∀ line,
    overFloorLine T (adviceOpening T tenant ports document advice shortPays) entry = some line →
      LineSettled (adviceOpening T tenant ports document advice shortPays) line s

theorem Kept.allSettled (T : CaseTables) (tenant : Tenant) (ports : Ports) (document : CaseOpeningDocument)
    (advice : RemittanceAdvice) : Kept (AllSettled T tenant ports document advice) :=
  fun s t hst hs shortPays hpays entry hentry line hline =>
    Kept.lineSettled _ _ s t hst (hs shortPays hpays entry hentry line hline)

/-- The store answers nothing about the document from the record: there is no reading of it, or it was read
as a notice that has neither a case nor a hold. -/
def Store.ReadsAgain (s : Store) (documentId : DocumentId) : Prop :=
  ∀ recorded, s.latestExtraction documentId = some recorded →
    s.caseForDocument documentId = none ∧ s.documentHold documentId = none ∧ recorded.docType = .deduction_notice

/-- A delivery of a remittance advice that opens its cases: a member's document, clean, read as an advice
the classifier is sure of and that fits, whose lines all have their short-pays. -/
structure AdviceDelivery (T : CaseTables) (tenant : Tenant) (ports : Ports) (input : ReadDocumentJobInput)
    (document : StoredDocument) (reading : Reading) : Prop where
  mayWrite : tenant.mayWrite input.orgId input.userId = true
  found : tenant.documents input.documentId = some document
  documentId : document.documentId = input.documentId
  orgId : document.orgId = input.orgId
  paged : document.isSpreadsheet = false
  clean : tenant.scannedClean input.documentId = true
  uploaded : heldByArrival (tenant.arrival input.documentId) = none
  unattached : input.attachToCase = none
  mayOpen : input.allowCaseOpen.getD true = true
  classified : ∀ payload, (ports.classify payload).docType = .remittance_advice
  sure : ∀ payload, classificationIsActionable (ports.classify payload).confidence tenant.floor = true
  extracted : ∀ payload, ports.extract payload .remittance_advice = reading
  docType : reading.docType = .remittance_advice
  fits : typeFits .remittance_advice reading = none
  readable : ∃ shortPays, adviceShortPays T reading.advice = .ok shortPays
  store : OneOfTheStores T tenant

/-! ## Which call fails -/

section
variable (ports : Ports) (document : StoredDocument) (reading : Reading) (s : Store)

/-- Of a document scanned clean: what `readablePayload` returns, how many calls it makes, and the store it leaves. -/
def readableOf : ReadableDocument × Nat × Store :=
  let pageText := document.pageText.or (s.pagesFor document.documentId)
  let asked := if document.pageText.isSome then 1 else 2
  let payload : Payload := ⟨document.documentId, pageText, .embedded⟩
  match ports.ocr with
  | none => (⟨payload, []⟩, asked, s)
  | some ocr =>
    if needsOcr pageText = false then (⟨payload, []⟩, asked, s)
    else
      match ocr payload with
      | .error call => (⟨payload, [call]⟩, asked + 1, s)
      | .ok (pages, call) =>
        (⟨⟨document.documentId, some pages, .ocr⟩, [call]⟩, asked + 2, s.recordPages document.documentId pages)

def classificationOf : Classification := ports.classify (readableOf ports document s).1.payload

/-- The calls to models that are recorded with the reading. -/
def modelCallsOf : List ModelCallRecord :=
  (readableOf ports document s).1.calls ++ [(classificationOf ports document s).call, reading.call]

/-- The calls that ask what is on record of a document that is read again. -/
def callsOnRecord : Nat := if (s.latestExtraction document.documentId).isSome then 3 else 1

/-- The number of the call that records the reading: after the three that ask who sent it, for the document and for
the read claim, those that ask what is on record, for the arrival and the floor, for the text and of the two models,
and a transaction for each call to a model and for the classification. -/
def recordingCall : Nat :=
  3 + callsOnRecord document s + 2 + (readableOf ports document s).2.1 + 2 + (modelCallsOf ports document reading s).length + 1

/-- The store once the reading is recorded. -/
def recordedStore : Store :=
  { (readableOf ports document s).2.2 with
    modelCalls := (readableOf ports document s).2.2.modelCalls ++
      (modelCallsOf ports document reading s).map fun call => (call, none)
    classifications := (readableOf ports document s).2.2.classifications ++
      [⟨document.documentId, (classificationOf ports document s).docType, (classificationOf ports document s).confidence⟩]
    extractions := (readableOf ports document s).2.2.extractions ++ [⟨document.documentId, none, reading.docType⟩] }

/-- A call fails before the reading is recorded, or the one that records it is lost. -/
def Early (faults : Faults) : Prop :=
  (∃ k < recordingCall ports document reading s, faults k ≠ none) ∨
    faults (recordingCall ports document reading s) = some .lost

variable (T : CaseTables) (tenant : Tenant)

/-- The number of the call that follows the first `count` turns of the line loop. -/
def linesEnd (count : Nat) : Nat :=
  (lineLoop T tenant ports.tryParsePrintedDate ⟨document.documentId, document.orgId⟩ ⟨reading.docType, reading.advice⟩ none
    count reliable (recordingCall ports document reading s + 1) (recordedStore ports document reading s)).2.1

/-- No call fails until the last line over the floor has had its turn. -/
def Late (faults : Faults) : Prop :=
  ∃ count, (∀ entry ∈ reading.advice.lines.zipIdx.drop count, ∀ shortPays,
      adviceShortPays T reading.advice = .ok shortPays →
        overFloorLine T (adviceOpening T tenant ports ⟨document.documentId, document.orgId⟩ reading.advice shortPays) entry =
          none) ∧
    ∀ k < linesEnd ports document reading s T tenant count, faults k = none

/-- A delivery that reads the document again fails, if it does, before the reading is on record or once the last line
over the floor has had its turn. -/
def Spared (faults : Faults) : Prop :=
  s.ReadsAgain document.documentId →
    Early ports document reading s faults ∨ Late ports document reading s T tenant faults

end

/-- At most a page text, calls to models and a classification were recorded since. -/
def Store.Untouched (s t : Store) : Prop :=
  ∃ pages modelCalls classifications,
    t = { s with pages := pages, modelCalls := modelCalls, classifications := classifications }

section
variable {s t u : Store}

theorem Store.Untouched.refl (s : Store) : s.Untouched s := ⟨_, _, _, rfl⟩

theorem Store.Untouched.trans (h : s.Untouched t) (h' : t.Untouched u) : s.Untouched u := by
  obtain ⟨_, _, _, rfl⟩ := h
  obtain ⟨_, _, _, rfl⟩ := h'
  exact ⟨_, _, _, rfl⟩

theorem Store.Untouched.readsAgain {documentId : DocumentId} (h : s.Untouched t) (hs : s.ReadsAgain documentId) :
    t.ReadsAgain documentId := by
  obtain ⟨_, _, _, rfl⟩ := h
  exact hs

theorem Store.Untouched.sound (h : s.Untouched t) (hs : s.Sound) : t.Sound := by
  obtain ⟨_, _, _, rfl⟩ := h
  exact hs

theorem unambiguous_congr {T : CaseTables} {tenant : Tenant} {o : Opening} {advice : RemittanceAdvice}
    (hcases : t.cases = s.cases) (hids : t.identifiers = s.identifiers) (hs : Unambiguous T tenant o advice s) :
    Unambiguous T tenant o advice t := by
  unfold Unambiguous AmbiguousIn LegacyOwned AtMostOne Carries Names Store.getCase at *
  rw [hcases, hids]
  exact hs

theorem Store.Untouched.unambiguous {T : CaseTables} {tenant : Tenant} {parse : Text → Except Text Text}
    {document : CaseOpeningDocument} {reading : CaseOpeningReading} {confirmation : Option HoldConfirmation}
    (h : s.Untouched t) (hs : ReadUnambiguously T tenant parse document reading confirmation s) :
    ReadUnambiguously T tenant parse document reading confirmation t := by
  obtain ⟨_, _, _, rfl⟩ := h
  exact fun shortPays hpays => unambiguous_congr rfl rfl (hs shortPays hpays)

theorem readableOf_untouched (ports : Ports) (document : StoredDocument) (s : Store) :
    s.Untouched (readableOf ports document s).2.2 := by
  unfold readableOf
  dsimp only
  split
  · exact .refl s
  · split
    · exact .refl s
    · split
      · exact .refl s
      · exact ⟨_, _, _, rfl⟩

end

/-! ## What a delivery keeps, whatever calls fail -/

section
variable {P : Store → Prop} {T : CaseTables} {tenant : Tenant} {ports : Ports} {input : ReadDocumentJobInput}
variable {document : StoredDocument} {reading : Reading} {faults : Faults}

/-- A call that only reads. -/
theorem ask_keeps {α : Type} (f : Store → α) : Triple faults P (ask f) (fun a s => P s ∧ a = f s) fun _ => P :=
  ask_triple fun _ _ hs => hs

/-- A write to a table that says nothing of a case keeps what is kept. -/
theorem write_keeps {f : Store → Store} (hP : Kept P) (hf : ∀ s : Store, s.Extends (f s)) :
    Triple faults P (write f) (fun _ => P) fun _ => P :=
  Triple.call_keeps fun s hs => hP s _ (hf s) hs

theorem Store.extends_of_eq {s t : Store} (hcases : t.cases = s.cases) (hlinks : t.links = s.links)
    (hevents : t.events = s.events) (hdeclined : t.declinedLines = s.declinedLines) : s.Extends t := by
  refine ⟨fun id record h => ⟨record, ?_, rfl, rfl, rfl⟩, ?_, ?_, ?_⟩
  · rw [getCase, hcases]
    exact h
  · rw [hlinks]
    exact List.Subset.refl _
  · rw [hevents]
    exact List.Subset.refl _
  · rw [hdeclined]
    exact List.Subset.refl _

theorem recordTheRead_keeps {calls : List ModelCallRecord} {classification : Classification} (hP : Kept P) :
    Triple faults P (recordTheRead document calls classification reading none) (fun _ => P) fun _ => P := by
  refine Triple.bind (M := fun _ => P) (Triple.forM fun call => ?_) fun _ => ?_
  · exact write_keeps hP fun _ => Store.extends_of_eq rfl rfl rfl rfl
  refine Triple.bind (M := fun _ => P) (write_keeps hP fun _ => Store.extends_of_eq rfl rfl rfl rfl) fun _ => ?_
  refine Triple.bind (M := fun _ => P) (write_keeps hP fun _ => Store.extends_of_eq rfl rfl rfl rfl) fun _ => ?_
  exact Triple.pure fun _ => id

theorem readablePayload_keeps (hP : Kept P) :
    Triple faults P (readablePayload tenant ports document) (fun _ => P) fun _ => P := by
  refine Triple.bind (ask_keeps _) fun clean => ?_
  refine Triple.pre (P := P) ?_ fun s hs => hs.1
  dsimp only
  split
  · exact Triple.throw fun _ => id
  refine Triple.bind (M := fun _ => P) ?_ fun pageText => ?_
  · unfold storedPageText
    split
    · exact Triple.pure fun _ => id
    · exact (ask_keeps _).post fun _ _ h => h.1
  split
  · exact Triple.pure fun _ => id
  · split
    · exact Triple.pure fun _ => id
    · refine Triple.bind (M := fun _ => P) ((ask_keeps _).post fun _ _ h => h.1) fun answer => ?_
      split
      · exact Triple.pure fun _ => id
      · refine Triple.bind (M := fun _ => P) (write_keeps hP fun _ => Store.extends_of_eq rfl rfl rfl rfl) fun _ => ?_
        exact Triple.pure fun _ => id

theorem beforeTheRead_keeps (h : AdviceDelivery T tenant ports input document reading) :
    Triple faults P (beforeTheRead tenant document input.options)
      (fun before s => P s ∧ before = ⟨none, none, some tenant.floor⟩) fun _ => P := by
  have hattach : input.options.attachToCase = none := h.unattached
  unfold beforeTheRead resolveAttachTarget
  rw [hattach]
  refine Triple.bind (M := fun attached s => P s ∧ attached = none) (Triple.pure fun s hs => ⟨hs, rfl⟩) fun attached => ?_
  cases attached with
  | some record =>
    rintro n s ⟨-, hrecord⟩
    cases hrecord
  | none =>
    dsimp only
    refine Triple.bind (ask_triple fun _ _ hs => hs.1) fun arrival => ?_
    rw [if_pos (.inl h.mayOpen)]
    refine Triple.bind (ask_triple fun _ _ hs => hs.1.1) fun floor => Triple.pure ?_
    rintro s ⟨⟨⟨hs, -⟩, rfl⟩, rfl⟩
    rw [h.documentId, h.uploaded]
    exact ⟨hs, rfl⟩

theorem openCases_keeps (h : AdviceDelivery T tenant ports input document reading) (hP : Kept P) :
    Triple faults P
      (openCasesFromRemittance T tenant ports.tryParsePrintedDate ⟨document.documentId, document.orgId⟩
        ⟨reading.docType, reading.advice⟩ none) (fun _ => P) fun _ => P := by
  obtain ⟨shortPays, hpays⟩ := h.readable
  have hpays : adviceShortPays T (⟨reading.docType, reading.advice⟩ : CaseOpeningReading).advice = .ok shortPays := hpays
  rw [openCases_split hpays 0]
  have hloop : Triple faults P (lineLoop T tenant ports.tryParsePrintedDate ⟨document.documentId, document.orgId⟩
      ⟨reading.docType, reading.advice⟩ none 0) (fun _ => P) fun _ => P :=
    (lineLoop_triple 0 hP (fun _ _ hs => hs) (fun _ _ _ hs _ => hs) fun _ _ _ hs => hs).post fun _ _ hs => hs.1
  exact hloop.bind fun acc => restOfLines_keeps hP hpays 0 acc

/-- The gate lets the advice through. -/
theorem gateHold_none (h : AdviceDelivery T tenant ports input document reading) (payload : Payload) :
    gateHold ⟨none, none, some tenant.floor⟩ (ports.classify payload) reading = none := by
  simp only [gateHold, holdFor, h.classified, h.sure, h.fits, opensCaseOnItsOwn]
  rfl

theorem afterTheRead_keeps (h : AdviceDelivery T tenant ports input document reading) (hP : Kept P)
    {calls : List ModelCallRecord} {payload : Payload} :
    Triple faults P
      (afterTheRead T tenant ports document input.options ⟨none, none, some tenant.floor⟩ calls
        (ports.classify payload) reading) (fun _ => P) fun _ => P := by
  have hopen : input.options.allowCaseOpen.getD true = true := h.mayOpen
  unfold afterTheRead
  dsimp only
  rw [gateHold_none h, hopen]
  dsimp only
  rw [if_neg fun hn => by rw [h.classified] at hn; cases hn.1]
  refine Triple.bind (M := fun caseRecord s => P s ∧ caseRecord = none) (Triple.pure fun s hs => ⟨hs, rfl⟩)
    fun caseRecord => ?_
  cases caseRecord with
  | some record =>
    rintro n s ⟨-, hrecord⟩
    cases hrecord
  | none =>
    refine Triple.pre (P := P) ?_ fun s hs => hs.1
    refine Triple.bind (M := fun _ => P) (recordTheRead_keeps hP) fun _ => ?_
    rw [if_pos ⟨h.classified payload, rfl, rfl⟩]
    refine Triple.bind (M := fun _ => P) ?_ fun _ => ?_
    · exact Triple.bind (openCases_keeps h hP) fun _ => Triple.pure fun _ => id
    · exact Triple.pure fun _ => id

theorem readDocument_keeps (h : AdviceDelivery T tenant ports input document reading) (hP : Kept P) :
    Triple faults P (readDocument T tenant ports document input.options) (fun _ => P) fun _ => P := by
  refine Triple.bind (beforeTheRead_keeps h) fun before => ?_
  rw [if_neg (by rw [h.paged]; nofun)]
  by_cases hbefore : before = ⟨none, none, some tenant.floor⟩
  swap
  · exact fun n s hs => absurd hs.2 hbefore
  subst hbefore
  refine Triple.pre (P := P) ?_ fun s hs => hs.1
  refine Triple.bind (M := fun _ => P) (readablePayload_keeps hP) fun readable => ?_
  refine Triple.bind (ask_keeps _) fun classification => ?_
  by_cases hclass : classification = ports.classify readable.payload
  swap
  · exact fun n s hs => absurd hs.2 hclass
  subst hclass
  rw [h.classified]
  refine Triple.pre (P := P) ?_ fun s hs => hs.1
  refine Triple.bind (ask_keeps _) fun read => ?_
  by_cases hread : read = reading
  swap
  · exact fun n s hs => absurd (hs.2.trans (h.extracted _)) hread
  subst hread
  exact (afterTheRead_keeps h hP).pre fun s hs => hs.1

theorem recordedRead_keeps {documentId : DocumentId} {options : ReadOptions} (hattach : options.attachToCase = none) :
    Triple faults P (recordedRead documentId options)
      (fun answer s => P s ∧ ∀ r, answer = some r → r.fileOnCase = none) fun _ => P := by
  refine Triple.bind (M := fun _ => P) ((ask_keeps _).post fun _ _ hs => hs.1) fun extraction => ?_
  cases extraction with
  | none =>
    refine Triple.pure fun s hs => ⟨hs, ?_⟩
    rintro r ⟨⟩
  | some recorded =>
    dsimp only
    rw [hattach]
    refine Triple.bind (M := fun _ => P) ((ask_keeps _).post fun _ _ hs => hs.1) fun onCase => ?_
    cases onCase with
    | some id =>
      refine Triple.pure fun s hs => ⟨hs, ?_⟩
      rintro r ⟨⟩
      rfl
    | none =>
      refine Triple.bind (M := fun _ => P) ((ask_keeps _).post fun _ _ hs => hs.1) fun hold => ?_
      cases hold with
      | some held =>
        refine Triple.pure fun s hs => ⟨hs, ?_⟩
        rintro r ⟨⟩
        rfl
      | none =>
        dsimp only
        split
        · refine Triple.pure fun s hs => ⟨hs, ?_⟩
          rintro r ⟨⟩
        · refine Triple.pure fun s hs => ⟨hs, ?_⟩
          rintro r ⟨⟩
          rfl

/-- Answering from the record writes nothing. -/
theorem answerFromRecord_keeps {documentId : DocumentId} {options : ReadOptions} (hattach : options.attachToCase = none) :
    Triple faults P (answerFromRecord documentId options) (fun _ => P) fun _ => P := by
  refine Triple.bind (recordedRead_keeps hattach) fun recorded => ?_
  cases recorded with
  | none => exact Triple.pure fun s hs => hs.1
  | some r =>
    rintro n s ⟨hs, hrecorded⟩
    dsimp only
    rw [hrecorded r rfl]
    exact hs

/-- **What is settled stays so**, whatever calls of a later delivery fail. -/
theorem readDocumentJob_keeps (h : AdviceDelivery T tenant ports input document reading) (hP : Kept P) :
    Triple faults P (readDocumentJob T tenant ports input) (fun _ => P) fun _ => P := by
  refine Triple.bind (M := fun _ => P) ((ask_keeps _).post fun _ _ hs => hs.1) fun may => ?_
  split
  · exact Triple.throw fun _ => id
  refine Triple.bind (ask_keeps _) fun found => ?_
  by_cases hfound : found = some document
  swap
  · exact fun n s hs => absurd (hs.2.trans h.found) hfound
  subst hfound
  dsimp only
  rw [if_neg (not_not.2 h.orgId)]
  refine Triple.pre (P := P) ?_ fun s hs => hs.1
  refine Triple.bind (M := fun _ => P) ((ask_keeps _).post fun _ _ hs => hs.1) fun _ => ?_
  refine Triple.bind (M := fun _ => P) (Triple.handle (M := fun _ => P) ?_ fun e => ?_) fun result => ?_
  · refine Triple.bind (M := fun _ => P) (answerFromRecord_keeps h.unattached) fun answer => ?_
    cases answer with
    | some already => exact Triple.pure fun _ => id
    | none => exact Triple.bind (readDocument_keeps h hP) fun read => Triple.pure fun _ => id
  · exact Triple.bind (M := fun _ => P) ((ask_keeps _).post fun _ _ hs => hs.1) fun _ => Triple.throw fun _ => id
  · exact Triple.bind (M := fun _ => P) ((ask_keeps _).post fun _ _ hs => hs.1) fun _ => Triple.pure fun _ => id

end

end Recouple.Pipeline
