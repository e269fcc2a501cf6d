import Recouple.Lib.FirstSeen
import Recouple.Lib.KeyedFold
import Recouple.Pipeline.InboundEmail

/-!
# An email is recorded whole, once, and read to the end

The deliveries of one email come one after another (the message's claim), each cut off wherever a call of it fails,
and everyone else commits in between.

* **`inbound_email_whole`**: whatever deliveries came before, at most one row is recorded of the email; it holds one
  outcome for each planned part, in order; no delivery that finds it writes; and a read job that returns has read each
  document of a readable attachment once, and the body where its rule says so. A document that a delivery stored
  before it died is read with them, unless its part was refused, is not clean or over the budget, or is the body of
  an email with a notice attached.
* `email_body_left`: such a body is left unread.
-/

namespace Recouple.InboundEmail
open Js Calls FirstSeen
open PortalJob (RejectionCode ScanStatus)

variable {deps : InboundDeps} {faults : Faults} {email : InboundEmail}

/-! ## What everyone else leaves alone -/

/-- Documents and messages are only added, and no one but the holder of its claim records this message. -/
structure Others (providerMessageId : Text) (w w' : World) : Prop where
  documents : ∀ sha256 d, w.findDocumentByHash sha256 = some d → w'.findDocumentByHash sha256 = some d
  rows : ∀ id m, Rows.lookup (·.id) w.messages id = some m → Rows.lookup (·.id) w'.messages id = some m
  received : w'.messagesOf providerMessageId .received = w.messagesOf providerMessageId .received
  writes : w'.writes = w.writes
  asked : w'.asked = w.asked

theorem Others.tick (providerMessageId : Text) (w : World) : Others providerMessageId w w.tick :=
  ⟨fun _ _ h => h, fun _ _ h => h, rfl, rfl, rfl⟩

/-- The deployment that this email is delivered to. -/
def Neighbours (deps : InboundDeps) (email : InboundEmail) : Prop :=
  ∀ n w, Others email.providerMessageId w (deps.others n w)

def Steady (email : InboundEmail) (P : World → Prop) : Prop :=
  ∀ w w', Others email.providerMessageId w w' → P w → P w'

section
variable {α : Type} {P : World → Prop} {Q : α → World → Prop} (hn : Neighbours deps email) (hP : Steady email P)
include hn hP

theorem transact_triple {f : World → Except InboundError α × World} (hkeep : ∀ w, P w → P (f w).2.tick)
    (hok : ∀ w a, P w → (f w).1 = .ok a → Q a (f w).2.tick) :
    Triple faults P (transact deps f) Q (fun _ => P) := by
  have hothers : ∀ w, P w → P (deps.others w.clock w) := fun w hw => hP w _ (hn w.clock w) hw
  refine Triple.call (fun w hw => ?_) (fun _ w hw => hw) fun _ w hw => hkeep _ (hothers w hw)
  have hkeep' := hkeep _ (hothers w hw)
  dsimp only
  cases hr : (f (deps.others w.clock w)).1 with
  | ok a => exact hok _ a (hothers w hw) hr
  | error e => exact hkeep'

theorem ask_triple {answer : Nat → World → Except InboundError α} {A : α → Prop}
    (hA : ∀ clock w a, P w → answer clock w = .ok a → A a) :
    Triple faults P (ask deps answer) (fun a w => P w ∧ A a) (fun _ => P) := by
  refine transact_triple hn hP (fun w hw => hP w _ (Others.tick _ w) hw) fun w a hw ha => ?_
  exact ⟨hP w _ (Others.tick _ w) hw, hA _ _ a hw ha⟩

theorem ask_keeps {answer : Nat → World → Except InboundError α} :
    Triple faults P (ask deps answer) (fun _ => P) (fun _ => P) :=
  (ask_triple hn hP (A := fun _ => True) fun _ _ _ _ _ => trivial).post fun _ _ hw => hw.1

/-- A write that keeps `P` where it is taken. -/
theorem write_triple {f : World → Except InboundError α × World} (hkeep : ∀ w, P w → P (f w).2.tick)
    (hok : ∀ w a, P w → (f w).1 = .ok a → Q a (f w).2.tick) :
    Triple faults P (write deps f) Q (fun _ => P) := by
  refine transact_triple hn hP (fun w hw => ?_) fun w a hw => ?_
  · cases deps.admits w.clock with
    | error e => exact hP w _ (Others.tick _ w) hw
    | ok u => exact hkeep w hw
  · cases deps.admits w.clock with
    | error e => rintro ⟨⟩
    | ok u => exact hok w a hw

theorem write_keeps {f : World → Except InboundError α × World} (hkeep : ∀ w, P w → P (f w).2.tick) :
    Triple faults P (write deps f) (fun _ => P) (fun _ => P) :=
  write_triple hn hP hkeep fun w _ hw _ => hkeep w hw

end

theorem throwIf_triple {broken : Prop} [Decidable broken] {error : InboundError} {P : World → Prop} :
    Triple faults P (throwIf broken error) (fun _ => P) (fun _ => P) := by
  unfold throwIf
  split
  · exact Triple.throw fun w hw => hw
  · exact Triple.pure fun w hw => hw

/-! ## One document -/

/-- The documents of some state are found by their hashes still. -/
def Holds (known : Text → Option StoredDocument) (w : World) : Prop :=
  ∀ sha256 d, known sha256 = some d → w.findDocumentByHash sha256 = some d

/-- What became of a planned part. -/
def Became (deps : InboundDeps) (known : Text → Option StoredDocument) (part : InboundPartRecord) :
    InboundPartPlan → Prop
  | .refused plan => part.outcome = plan.outcome ∧ part.documentId = none
  | .file plan => (∃ code, part.outcome = .rejected code ∧ part.documentId = none) ∨
      ∃ documentId, part.documentId = some documentId ∧
        (part.outcome.Readable ∨ part.outcome = .not_clean ∨ part.outcome = .over_daily_budget) ∧
        ∀ accepted d, deps.accept (ingestInput deps plan).source plan.filename plan.declaredMimeType plan.bytes =
          .ok accepted → known accepted.sha256 = some d → documentId = d.documentId ∧ part.outcome ≠ .stored

structure OutcomeOf (deps : InboundDeps) (known : Text → Option StoredDocument) (plan : InboundPartPlan)
    (part : InboundPartRecord) : Prop where
  ordinal : part.ordinal = plan.ordinal
  kind : part.kind = plan.kind
  filename : part.filename = plan.filename
  became : Became deps known part plan

/-- At most one row is recorded of the email, and it is whole. -/
structure Received (deps : InboundDeps) (email : InboundEmail) (known : Text → Option StoredDocument) (w : World) :
    Prop where
  holds : Holds known w
  row : w.messagesOf email.providerMessageId .received = [] ∨
    ∃ m, w.messagesOf email.providerMessageId .received = [m] ∧ Rows.lookup (·.id) w.messages m.id = some m ∧
      List.Forall₂ (OutcomeOf deps known) email.parts m.parts

variable {known : Text → Option StoredDocument}

theorem Received.steady : Steady email (Received deps email known) := by
  intro w w' h hw
  refine ⟨fun sha256 d hd => h.documents sha256 d (hw.holds sha256 d hd), ?_⟩
  rw [h.received]
  rcases hw.row with hnone | ⟨m, hone, hid, hparts⟩
  · exact .inl hnone
  · exact .inr ⟨m, hone, h.rows _ _ hid, hparts⟩

/-- Adding a document of a new hash keeps every document found. -/
theorem find_insert {w : World} {d : StoredDocument} (hnew : w.findDocumentByHash d.sha256 = none) {sha256 : Text}
    {e : StoredDocument} (h : w.findDocumentByHash sha256 = some e) :
    Rows.lookup (·.sha256) (w.documents ++ [d]) sha256 = some e := by
  have hne : sha256 ≠ d.sha256 := by
    rintro rfl
    cases hnew.symm.trans h
  rw [Rows.lookup_insert hnew, if_neg hne]
  exact h

theorem putDocument_keeps (hn : Neighbours deps email) (document : Text → StoredDocument) :
    Triple faults (Received deps email known) (putDocument deps document) (fun _ => Received deps email known)
      (fun _ => Received deps email known) := by
  refine write_keeps hn Received.steady fun w hw => ?_
  dsimp only
  split
  · exact Received.steady w _ (Others.tick _ w) hw
  · rename_i hnew
    rw [not_or, Bool.not_eq_true, Option.isSome_eq_false_iff, Option.isNone_iff_eq_none] at hnew
    exact ⟨fun sha256 d hd => find_insert hnew.1 (hw.holds sha256 d hd), hw.row⟩

variable (faults known) in
theorem scanned_keeps (hn : Neighbours deps email) (document : StoredDocument) (bytes : List UInt8)
    (deduplicated : Bool) :
    Triple faults (Received deps email known) (scanned deps document bytes deduplicated)
      (fun r w => Received deps email known w ∧ r.document = document ∧ r.deduplicated = deduplicated)
      (fun _ => Received deps email known) := by
  refine Triple.bind (ask_keeps hn Received.steady) fun verdict => ?_
  refine Triple.bind (write_keeps hn Received.steady fun w hw => ⟨hw.holds, hw.row⟩) fun _ => ?_
  exact Triple.pure fun w hw => ⟨hw, rfl, rfl⟩

/-- A document that is held already is the one a part of its bytes names. -/
def Named (deps : InboundDeps) (known : Text → Option StoredDocument) (input : IngestInput) (r : IngestResult) : Prop :=
  ∀ accepted d, deps.accept input.source input.filename input.declaredMimeType input.bytes = .ok accepted →
    known accepted.sha256 = some d → r.document = d ∧ r.deduplicated = true

theorem ingestDocument_triple (hn : Neighbours deps email) (input : IngestInput) :
    Triple faults (Received deps email known) (ingestDocument deps input)
      (fun r w => Received deps email known w ∧ Named deps known input r) (fun _ => Received deps email known) := by
  have hfresh : ∀ accepted found, deps.accept input.source input.filename input.declaredMimeType input.bytes =
      .ok accepted → (∀ d, known accepted.sha256 = some d → found = some d) →
      ∀ r : IngestResult, (∀ d, found = some d → r.document = d ∧ r.deduplicated = true) →
        Named deps known input r := by
    intro accepted found haccepted hfound r hr accepted' d haccepted' hd
    cases haccepted.symm.trans haccepted'
    exact hr d (hfound d hd)
  refine Triple.bind (M := fun accepted w => Received deps email known w ∧
      deps.accept input.source input.filename input.declaredMimeType input.bytes = .ok accepted)
    (Triple.lift (fun a ha w hw => ⟨hw, ha⟩) fun _ _ w hw => hw) fun accepted => Triple.assume fun haccepted => ?_
  refine Triple.bind (ask_triple hn Received.steady
    (A := fun found => ∀ d, known accepted.sha256 = some d → found = some d) ?_) fun found =>
      Triple.assume fun hfound => ?_
  · rintro clock w found hw ⟨⟩ d hd
    exact hw.holds _ d hd
  · cases found with
    | none =>
      have hstored : Triple faults (Received deps email known) (arrivalThenDocument deps input accepted)
          (fun _ => Received deps email known) (fun _ => Received deps email known) :=
        Triple.bind (write_keeps hn Received.steady fun w hw => ⟨hw.holds, hw.row⟩) fun _ => putDocument_keeps hn _
      refine Triple.bind hstored fun document => (scanned_keeps faults known hn _ _ _).post fun r w hw => ⟨hw.1, ?_⟩
      refine hfresh accepted none haccepted hfound r ?_
      rintro d ⟨⟩
    | some existing =>
      have hheld : ∀ r : IngestResult, r.document = existing → r.deduplicated = true → Named deps known input r := by
        intro r hr hdedup
        refine hfresh accepted (some existing) haccepted hfound r ?_
        rintro d ⟨⟩
        exact ⟨hr, hdedup⟩
      refine Triple.bind (ask_keeps hn Received.steady) fun scan => ?_
      have hagain := (scanned_keeps faults known hn existing input.bytes true).post
        fun r w hw => (⟨hw.1, hheld r hw.2.1 hw.2.2⟩ : Received deps email known w ∧ Named deps known input r)
      cases scan with
      | none => exact hagain
      | some status =>
        cases status with
        | clean => exact Triple.pure fun w hw => ⟨hw, hheld _ rfl rfl⟩
        | infected => exact Triple.pure fun w hw => ⟨hw, hheld _ rfl rfl⟩
        | error => exact hagain

/-! ## One delivery -/

theorem orRejected_triple {P : World → Prop} {N : IngestResult → Prop} {work : Delivery IngestResult}
    (hwork : Triple faults P work (fun r w => P w ∧ N r) (fun _ => P)) :
    Triple faults P (orRejected work) (fun r w => P w ∧ ∀ ingested, r = .inr ingested → N ingested) (fun _ => P) := by
  refine Triple.handle (Triple.bind hwork fun r => Triple.pure fun w hw => ⟨hw.1, ?_⟩) fun e => ?_
  · rintro ingested ⟨⟩
    exact hw.2
  · cases e with
    | rejectedUpload code =>
      refine Triple.pure fun w hw => ⟨hw, ?_⟩
      rintro ingested ⟨⟩
    | actingMemberRefused orgId addressId => exact Triple.throw fun w hw => hw
    | scanUnavailable orgId documentId => exact Triple.throw fun w hw => hw
    | invalidJobPayload => exact Triple.throw fun w hw => hw
    | other => exact Triple.throw fun w hw => hw

/-- The outcomes of the parts done so far. -/
def Recording (deps : InboundDeps) (email : InboundEmail) (known : Text → Option StoredDocument)
    (done : List InboundPartPlan) (soFar : Nat × List InboundPartRecord) (w : World) : Prop :=
  Received deps email known w ∧ List.Forall₂ (OutcomeOf deps known) done soFar.2

theorem forall₂_concat {α β : Type} {R : α → β → Prop} {as : List α} {bs : List β} {a : α} {b : β}
    (h : List.Forall₂ R as bs) (hab : R a b) : List.Forall₂ R (as ++ [a]) (bs ++ [b]) :=
  List.rel_append h (.cons hab .nil)

theorem receivePart_triple (hn : Neighbours deps email) (address : InboundAddressResolution)
    (done : List InboundPartPlan) (soFar : Nat × List InboundPartRecord) (plan : InboundPartPlan) :
    Triple faults (Recording deps email known done soFar) (receivePart deps address soFar plan)
      (Recording deps email known (done ++ [plan])) (fun _ => Received deps email known) := by
  cases plan with
  | refused part => exact Triple.pure fun w hw => ⟨hw.1, forall₂_concat hw.2 ⟨rfl, rfl, rfl, rfl, rfl⟩⟩
  | file part =>
    refine Triple.assume fun hdone => ?_
    refine Triple.bind (orRejected_triple (ingestDocument_triple hn (ingestInput deps part))) fun r => ?_
    cases r with
    | inl code => exact Triple.pure fun w hw => ⟨hw.1, forall₂_concat hdone ⟨rfl, rfl, rfl, .inl ⟨code, rfl, rfl⟩⟩⟩
    | inr ingested =>
      refine Triple.assume fun hnamed => ?_
      have hheld : ∀ outcome reads w, outcome.Readable ∨ outcome = .not_clean ∨ outcome = .over_daily_budget →
          (ingested.deduplicated = true → outcome ≠ .stored) → Received deps email known w →
          Recording deps email known (done ++ [.file part]) (reads, soFar.2 ++
            [⟨part.ordinal, part.kind, part.filename, outcome, some ingested.document.documentId⟩]) w := by
        intro outcome reads w houtcome hdedup hw
        refine ⟨hw, forall₂_concat hdone ⟨rfl, rfl, rfl, .inr ⟨_, rfl, houtcome, ?_⟩⟩⟩
        intro accepted d haccepted hd
        obtain ⟨hdocument, hdeduplicated⟩ := hnamed ingested rfl accepted d haccepted hd
        exact ⟨by rw [hdocument], hdedup hdeduplicated⟩
      dsimp only
      cases ingested.verdict with
      | error => exact Triple.throw fun w hw => hw
      | infected => exact Triple.pure fun w hw => hheld _ _ w (.inr (.inl rfl)) (fun _ => by rintro ⟨⟩) hw
      | clean =>
        dsimp only
        split
        · exact Triple.pure fun w hw => hheld _ _ w (.inr (.inr rfl)) (fun _ => by rintro ⟨⟩) hw
        · refine Triple.pure fun w hw => hheld _ _ w (.inl ?_) (fun hdedup => ?_) hw
          · split
            · exact .inr rfl
            · exact .inl rfl
          · rw [if_pos hdedup]
            rintro ⟨⟩

theorem recordInboundMessage_keeps (hn : Neighbours deps email) {message : InboundMessageRecord}
    (hkey : message.providerMessageId = email.providerMessageId) (houtcome : message.outcome = .received)
    {parts : List InboundPartRecord} (hparts : List.Forall₂ (OutcomeOf deps known) email.parts parts) :
    Triple faults (Received deps email known) (recordInboundMessage deps message parts)
      (fun _ => Received deps email known) (fun _ => Received deps email known) := by
  refine write_keeps hn Received.steady fun w hw => ?_
  have hleft := Received.steady w _ (Others.tick _ w) hw
  rw [hkey, houtcome]
  cases hfound : (w.messagesOf email.providerMessageId .received).head? with
  | some existing => exact hleft
  | none =>
    dsimp only
    split
    · exact hleft
    · rename_i hnew
      rw [not_or, Bool.not_eq_true, Option.isSome_eq_false_iff, Option.isNone_iff_eq_none] at hnew
      refine ⟨hw.holds, .inr ⟨⟨deps.randomUUID w.clock, message, deps.now w.clock, parts⟩, ?_, ?_, hparts⟩⟩
      · have hnone := List.head?_eq_none_iff.1 hfound
        show List.filter _ (w.messages ++ _) = _
        rw [List.filter_append]
        unfold World.messagesOf at hnone
        rw [hnone, List.nil_append, List.filter_singleton]
        simp [hkey, houtcome]
      · show Rows.lookup _ (w.messages ++ _) _ = _
        rw [Rows.lookup_insert hnew.1, if_pos rfl]

theorem receiveParts_keeps (hn : Neighbours deps email) (address : InboundAddressResolution) :
    Triple faults (Received deps email known) (receiveParts deps email address)
      (fun _ => Received deps email known) (fun _ => Received deps email known) := by
  refine Triple.bind (ask_keeps hn Received.steady) fun existing => ?_
  cases existing with
  | some id => exact Triple.pure fun w hw => hw
  | none =>
    refine Triple.bind (ask_keeps hn Received.steady) fun reads => ?_
    refine Triple.bind ((Triple.foldlM (I := Recording deps email known) fun done plan rest _ soFar =>
      receivePart_triple hn address done soFar plan).pre fun w hw => ⟨hw, .nil⟩) fun received => ?_
    refine Triple.assume fun hparts => ?_
    refine Triple.bind (recordInboundMessage_keeps hn rfl rfl hparts) fun id => Triple.pure fun w hw => hw

/-- Whatever becomes of a delivery, at most one row is recorded of the email, and it is whole. -/
theorem receiveInboundEmail_keeps (hn : Neighbours deps email) (address : InboundAddressResolution) :
    Triple faults (Received deps email known) (receiveInboundEmail deps email address)
      (fun _ => Received deps email known) (fun _ => Received deps email known) := by
  refine Triple.bind throwIf_triple fun _ => ?_
  refine Triple.bind (ask_keeps hn Received.steady) fun mayWrite => ?_
  refine Triple.bind throwIf_triple fun _ => ?_
  refine Triple.bind (ask_keeps hn Received.steady) fun claim => ?_
  cases claim with
  | some reason => exact Triple.pure fun w hw => hw
  | none =>
    refine Triple.bind (receiveParts_keeps hn address) fun result => ?_
    exact Triple.bind (ask_keeps hn Received.steady) fun _ => Triple.pure fun w hw => hw

/-! ## A delivery that finds the email recorded -/

/-- The email is recorded as `m`, and so many rows are written by its deliveries. -/
def RecordedAs (email : InboundEmail) (m : InboundMessage) (writes : Nat) (w : World) : Prop :=
  w.messagesOf email.providerMessageId .received = [m] ∧ w.writes = writes

theorem RecordedAs.steady {m : InboundMessage} {writes : Nat} : Steady email (RecordedAs email m writes) :=
  fun _ _ h hw => ⟨h.received.trans hw.1, h.writes.trans hw.2⟩

/-- What a delivery of a recorded email answers. -/
def FoundRecorded (m : InboundMessage) (receipt : InboundReceipt) : Prop :=
  receipt = .recorded m.id true [] ∨ ∃ reason, receipt = .busy reason

variable (faults) in
theorem receiveInboundEmail_found (hn : Neighbours deps email) (address : InboundAddressResolution)
    (m : InboundMessage) (writes : Nat) :
    Triple faults (RecordedAs email m writes) (receiveInboundEmail deps email address)
      (fun receipt w => RecordedAs email m writes w ∧ FoundRecorded m receipt)
      (fun _ => RecordedAs email m writes) := by
  have hsteady : Steady email (RecordedAs email m writes) := RecordedAs.steady
  refine Triple.bind throwIf_triple fun _ => ?_
  refine Triple.bind (ask_keeps hn hsteady) fun mayWrite => ?_
  refine Triple.bind throwIf_triple fun _ => ?_
  refine Triple.bind (ask_keeps hn hsteady) fun claim => ?_
  cases claim with
  | some reason => exact Triple.pure fun w hw => ⟨hw, .inr ⟨reason, rfl⟩⟩
  | none =>
    refine Triple.bind (M := fun receipt w => RecordedAs email m writes w ∧ receipt = .recorded m.id true []) ?_
      fun receipt => ?_
    · refine Triple.bind (ask_triple hn hsteady (A := fun found => found = some m.id) ?_) fun found =>
        Triple.assume ?_
      · rintro clock w found hw ⟨⟩
        rw [hw.1]
        rfl
      · rintro rfl
        exact Triple.pure fun w hw => ⟨hw, rfl⟩
    · refine Triple.assume fun hreceipt => ?_
      exact Triple.bind (ask_keeps hn hsteady) fun _ => Triple.pure fun w hw => ⟨hw, .inl hreceipt⟩

/-! ## The job -/

section Job
variable {parts : List InboundPartRecord}

theorem OutcomeOf.ordinals {plans : List InboundPartPlan} (h : List.Forall₂ (OutcomeOf deps known) plans parts) :
    parts.map (·.ordinal) = plans.map (·.ordinal) := by
  induction h with
  | nil => rfl
  | cons hpart _ ih => rw [List.map_cons, List.map_cons, hpart.ordinal, ih]

/-- The parts of a plan are recorded in the order the job reads them in. -/
theorem insertionSort_parts {T : CaseTables} {payload : PostmarkInboundPayload} {plans : List InboundPartPlan}
    (hplan : planParts T payload = some plans) (h : List.Forall₂ (OutcomeOf deps known) plans parts) :
    (parts.insertionSort fun a b => a.ordinal ≤ b.ordinal) = parts := by
  have hsorted : (parts.map (·.ordinal)).Pairwise (· ≤ ·) := by
    rw [OutcomeOf.ordinals h, planParts_ordinals hplan]
    exact List.pairwise_le_range
  exact (List.pairwise_map.1 hsorted).insertionSort_eq

/-- The documents of the readable attachments among some parts. -/
def attachmentDocuments (parts : List InboundPartRecord) : List Text :=
  parts.filterMap fun part => if part.kind = .body then none else part.readable?

theorem mem_attachmentDocuments {d : Text} :
    d ∈ attachmentDocuments parts ↔ ∃ part ∈ parts, part.kind ≠ .body ∧ part.readable? = some d := by
  unfold attachmentDocuments
  rw [List.mem_filterMap]
  refine exists_congr fun part => and_congr_right fun _ => ?_
  split
  · simp_all
  · simp_all

/-- Each document was asked for, and answered at some moment. -/
def Answered (deps : InboundDeps) (documents : List Text) (reads : List ReadDocumentJobResult) : Prop :=
  List.Forall₂ (fun documentId read => ∃ clock, deps.readDocument documentId clock = .ok read) documents reads

/-- The parts of the message are there to be read, and so many documents have been asked for. -/
def Reading (id : Text) (m : InboundMessage) (asked : List Text) (w : World) : Prop :=
  Rows.lookup (·.id) w.messages id = some m ∧ w.asked = asked

theorem Reading.steady {id : Text} {m : InboundMessage} {asked : List Text} :
    Steady email (Reading id m asked) :=
  fun _ _ h hw => ⟨h.rows _ _ hw.1, h.asked.trans hw.2⟩

variable {id : Text} {m : InboundMessage} {before : List Text}

/-- What the job leaves where it does not return. -/
def Stopped (_ : InboundError) (_ : World) : Prop := True

theorem readOne_triple (hn : Neighbours deps email) (asked : List Text) (documentId : Text) :
    Triple faults (Reading id m asked) (readOne deps documentId)
      (fun read w => Reading id m (asked ++ [documentId]) w ∧ ∃ clock, deps.readDocument documentId clock = .ok read)
      Stopped := by
  refine Triple.call (fun w hw => ?_) (fun _ _ _ => trivial) fun _ _ _ => trivial
  have hw' := Reading.steady w _ (hn w.clock w) hw
  dsimp only
  cases hr : deps.readDocument documentId (deps.others w.clock w).clock with
  | ok read => exact ⟨⟨hw'.1, congrArg (· ++ [documentId]) hw'.2⟩, _, hr⟩
  | error e => trivial

/-- The attachments read so far: each document once. -/
def FilesRead (deps : InboundDeps) (id : Text) (m : InboundMessage) (before : List Text)
    (done : List InboundPartRecord) (soFar : List Text × List ReadDocumentJobResult) (w : World) : Prop :=
  Reading id m (before ++ soFar.1) w ∧ soFar.1 = firstSeen (attachmentDocuments done) ∧
    Answered deps soFar.1 soFar.2

theorem attachmentDocuments_concat (done : List InboundPartRecord) (part : InboundPartRecord) :
    attachmentDocuments (done ++ [part]) =
      attachmentDocuments done ++ (if part.kind = .body then none else part.readable?).toList := by
  unfold attachmentDocuments
  rw [List.filterMap_append]
  cases h : (if part.kind = .body then none else part.readable?) with
  | none => simp [h]
  | some d => simp [h]

theorem readAttachment_triple (hn : Neighbours deps email) (done : List InboundPartRecord)
    (soFar : List Text × List ReadDocumentJobResult) (part : InboundPartRecord) :
    Triple faults (FilesRead deps id m before done soFar) (readAttachment deps soFar part)
      (FilesRead deps id m before (done ++ [part])) Stopped := by
  unfold readAttachment
  have hconcat := attachmentDocuments_concat done part
  cases hreadable : part.readable? with
  | none =>
    refine Triple.pure fun w hw => ⟨hw.1, ?_, hw.2.2⟩
    rw [hconcat, hreadable, ite_self, Option.toList_none, List.append_nil]
    exact hw.2.1
  | some documentId =>
    rw [hreadable] at hconcat
    dsimp only
    by_cases hbody : part.kind = .body
    · rw [if_pos (.inl hbody)]
      refine Triple.pure fun w hw => ⟨hw.1, ?_, hw.2.2⟩
      rw [hconcat, if_pos hbody, Option.toList_none, List.append_nil]
      exact hw.2.1
    · rw [if_neg hbody, Option.toList_some] at hconcat
      by_cases hasked : documentId ∈ soFar.1
      · rw [if_pos (.inr hasked)]
        refine Triple.pure fun w hw => ⟨hw.1, ?_, hw.2.2⟩
        rw [hw.2.1, mem_firstSeen] at hasked
        rw [hconcat, firstSeen_concat, if_pos hasked]
        exact hw.2.1
      · rw [if_neg (not_or.2 ⟨hbody, hasked⟩)]
        refine Triple.assume fun hfiles => ?_
        refine Triple.bind (readOne_triple hn _ _) fun read => Triple.assume fun hread => ?_
        refine Triple.pure fun w hw => ⟨by rw [← List.append_assoc]; exact hw, ?_, forall₂_concat hfiles.2 hread⟩
        rw [hfiles.1, mem_firstSeen] at hasked
        rw [hconcat, firstSeen_concat, if_neg hasked, hfiles.1]

/-- What a job that returned has read: each document of a readable attachment once, then the body where no attachment
is that document and none was a notice. -/
structure ReadToTheEnd (deps : InboundDeps) (parts : List InboundPartRecord) (files body : List Text)
    (result : ReadInboundEmailJobResult) : Prop where
  once : (files ++ body).Nodup
  attached : ∀ d, d ∈ files ↔ ∃ part ∈ parts, part.kind ≠ .body ∧ part.readable? = some d
  reads : Answered deps (files ++ body) result.reads
  bodyRule : ∀ d, d ∈ body ↔ (∃ part ∈ parts, part.kind = .body ∧ part.readable? = some d) ∧ d ∉ files ∧
    noticeAmong (result.reads.take files.length) = false
  bodyRead : result.bodyRead = true ↔ body ≠ []

/-- A plan has at most one body. -/
theorem body_unique {T : CaseTables} {payload : PostmarkInboundPayload} {plans : List InboundPartPlan}
    (hplan : planParts T payload = some plans) (h : List.Forall₂ (OutcomeOf deps known) plans parts) :
    ∀ a ∈ parts, ∀ b ∈ parts, a.kind = .body → b.kind = .body → a = b := by
  obtain ⟨attachments, body, rfl, hattachments, hone⟩ := planParts_body hplan
  have htake := List.forall₂_take_append parts attachments body h.flip
  have hdrop := List.forall₂_drop_append parts attachments body h.flip
  have hlast : ∀ a ∈ parts, a.kind = .body → a ∈ parts.drop attachments.length := by
    intro a ha hkind
    rw [← List.take_append_drop attachments.length parts, List.mem_append] at ha
    refine ha.resolve_left fun hmem => ?_
    obtain ⟨plan, hplan, hout⟩ := KeyedFold.exists_of_mem_left htake hmem
    exact hattachments plan hplan (hout.kind.symm.trans hkind)
  intro a ha b hb hka hkb
  have hlength : (parts.drop attachments.length).length ≤ 1 := hdrop.length_eq ▸ hone
  have hina := hlast a ha hka
  have hinb := hlast b hb hkb
  rcases hlist : parts.drop attachments.length with _ | ⟨x, _ | ⟨y, rest⟩⟩
  · rw [hlist] at hina
    cases hina
  · rw [hlist, List.mem_singleton] at hina hinb
    rw [hina, hinb]
  · rw [hlist] at hlength
    simp at hlength

theorem bodyDocument_eq_some (hbody : ∀ a ∈ parts, ∀ b ∈ parts, a.kind = .body → b.kind = .body → a = b) {d : Text} :
    bodyDocument parts = some d ↔ ∃ part ∈ parts, part.kind = .body ∧ part.readable? = some d := by
  unfold bodyDocument
  constructor
  · intro h
    obtain ⟨part, hfind, hd⟩ := Option.bind_eq_some_iff.1 h
    have hpart := List.find?_some hfind
    simp only [decide_eq_true_eq] at hpart
    exact ⟨part, List.mem_of_find?_eq_some hfind, hpart.1, hd⟩
  · rintro ⟨part, hmem, hkind, hd⟩
    cases hfind : parts.find? fun part => part.kind = .body ∧ part.readable?.isSome with
    | none =>
      have hno := List.find?_eq_none.1 hfind part hmem
      simp [hkind, hd] at hno
    | some found =>
      have hfound := List.find?_some hfind
      simp only [decide_eq_true_eq] at hfound
      rw [hbody found (List.mem_of_find?_eq_some hfind) part hmem hfound.1 hkind]
      exact hd

variable (faults before) in
theorem readInboundEmailJob_triple (hn : Neighbours deps email) (input : ReadInboundEmailJobInput)
    (hinput : input.inboundMessageId = id)
    (hsorted : (m.parts.insertionSort fun a b => a.ordinal ≤ b.ordinal) = m.parts)
    (hbody : ∀ a ∈ m.parts, ∀ b ∈ m.parts, a.kind = .body → b.kind = .body → a = b) :
    Triple faults (Reading id m before) (readInboundEmailJob deps input)
      (fun result w => ∃ files body, ReadToTheEnd deps m.parts files body result ∧ w.asked = before ++ (files ++ body))
      Stopped := by
  have hsteady : Steady email (Reading id m before) := Reading.steady
  have hstop : ∀ e w, Reading id m before w → Stopped e w := fun _ _ _ => trivial
  refine Triple.bind ((ask_keeps hn hsteady).weaken hstop) fun mayWrite => ?_
  refine Triple.bind (throwIf_triple.weaken hstop) fun _ => ?_
  refine Triple.bind ((ask_triple hn hsteady (A := fun parts => parts = m.parts) ?_).weaken hstop) fun parts =>
    Triple.assume ?_
  · rintro clock w parts hw ⟨⟩
    rw [hinput, hw.1]
    exact hsorted
  rintro rfl
  refine Triple.bind ((Triple.foldlM (I := FilesRead deps id m before) fun done part rest _ soFar =>
    readAttachment_triple hn done soFar part).pre fun w hw => ⟨by simpa using hw, rfl, .nil⟩) fun read => ?_
  obtain ⟨asked, reads⟩ := read
  refine Triple.assume fun hfiles => ?_
  obtain ⟨hasked, hreads⟩ := hfiles
  dsimp only at hasked hreads ⊢
  have hattached : ∀ d, d ∈ asked ↔ ∃ part ∈ m.parts, part.kind ≠ .body ∧ part.readable? = some d := by
    intro d
    rw [hasked, mem_firstSeen, mem_attachmentDocuments]
  have hnodup : asked.Nodup := hasked ▸ nodup_firstSeen _
  have hnobody : (∀ d, bodyDocument m.parts = some d → noticeAmong reads = true ∨ d ∈ asked) →
      ReadToTheEnd deps m.parts asked [] ⟨input.inboundMessageId, reads, false⟩ := by
    intro hno
    refine ⟨by simpa using hnodup, hattached, by simpa using hreads, fun d => ?_, by simp⟩
    rw [List.take_of_length_le (le_of_eq hreads.length_eq.symm)]
    constructor
    · exact fun hd => absurd hd List.not_mem_nil
    · rintro ⟨hpart, hnew, hnotice⟩
      rcases hno d ((bodyDocument_eq_some hbody).2 hpart) with h | h
      · cases hnotice.symm.trans h
      · exact absurd h hnew
  cases hdocument : bodyDocument m.parts with
  | none =>
    refine Triple.pure fun w hw => ⟨asked, [], hnobody ?_, by rw [List.append_nil]; exact hw.2⟩
    rintro d h
    cases hdocument.symm.trans h
  | some documentId =>
    dsimp only
    by_cases hleft : noticeAmong reads = true ∨ documentId ∈ asked
    · rw [if_pos hleft]
      refine Triple.pure fun w hw => ⟨asked, [], hnobody ?_, by rw [List.append_nil]; exact hw.2⟩
      rintro d h
      cases hdocument.symm.trans h
      exact hleft
    · rw [if_neg hleft]
      refine Triple.bind (readOne_triple hn _ _) fun read => Triple.assume fun hread => ?_
      refine Triple.pure fun w hw => ⟨asked, [documentId], ?_, by rw [← List.append_assoc]; exact hw.2⟩
      rw [not_or, Bool.not_eq_true] at hleft
      refine ⟨?_, hattached, forall₂_concat hreads hread, fun d => ?_, by simp⟩
      · exact List.nodup_append.2 ⟨hnodup, List.nodup_singleton _, by
          rintro a ha b hb rfl
          exact hleft.2 (List.mem_singleton.1 hb ▸ ha)⟩
      · rw [List.take_left' hreads.length_eq.symm, List.mem_singleton, ← bodyDocument_eq_some hbody, hdocument,
          Option.some.injEq]
        constructor
        · rintro rfl
          exact ⟨rfl, hleft.2, hleft.1⟩
        · exact fun h => h.1.symm

end Job

/-! ## Every run of deliveries -/

/-- One delivery after another, each to the address it came through and with the calls of it that fail. -/
def deliver (deps : InboundDeps) (email : InboundEmail) (attempts : List (InboundAddressResolution × Faults))
    (w : World) : World :=
  attempts.foldl (fun w attempt => after (receiveInboundEmail deps email attempt.1) attempt.2 w) w

theorem deliver_keeps (hn : Neighbours deps email) (attempts : List (InboundAddressResolution × Faults)) {w : World}
    (hw : Received deps email known w) : Received deps email known (deliver deps email attempts w) := by
  induction attempts generalizing w with
  | nil => exact hw
  | cons attempt rest ih => exact ih ((receiveInboundEmail_keeps hn attempt.1).after hw)

/-- A part whose document was stored before is read, or its outcome says why it is not. -/
def ReadOrExcused (part : InboundPartRecord) (documentId : Text) (files body : List Text)
    (result : ReadInboundEmailJobResult) : Prop :=
  documentId ∈ files ++ body ∨ (∃ code, part.outcome = .rejected code) ∨ part.outcome = .not_clean ∨
    part.outcome = .over_daily_budget ∨
    (part.kind = .body ∧ noticeAmong (result.reads.take files.length) = true)

/-- What is left of an email whose deliveries had left `left` when none had recorded it. -/
structure Whole (deps : InboundDeps) (email : InboundEmail) (left w : World) : Prop where
  once : (w.messagesOf email.providerMessageId .received).length ≤ 1
  outcomes : ∀ m ∈ w.messagesOf email.providerMessageId .received,
    List.Forall₂ (OutcomeOf deps left.findDocumentByHash) email.parts m.parts
  found : ∀ m ∈ w.messagesOf email.providerMessageId .received, ∀ address faults,
    (after (receiveInboundEmail deps email address) faults w).writes = w.writes ∧
      ∀ receipt, (receiveInboundEmail deps email address faults 0 w).1 = .ok receipt → FoundRecorded m receipt
  read : ∀ m ∈ w.messagesOf email.providerMessageId .received, ∀ input faults result,
    input.inboundMessageId = m.id → (readInboundEmailJob deps input faults 0 w).1 = .ok result →
      ∃ files body, ReadToTheEnd deps m.parts files body result ∧
        (after (readInboundEmailJob deps input) faults w).asked = w.asked ++ (files ++ body) ∧
        ∀ plan, .file plan ∈ email.parts → ∀ accepted d,
          deps.accept (ingestInput deps plan).source plan.filename plan.declaredMimeType plan.bytes = .ok accepted →
          left.findDocumentByHash accepted.sha256 = some d →
          ∃ part ∈ m.parts, part.ordinal = plan.ordinal ∧ ReadOrExcused part d.documentId files body result

theorem Received.one {w : World} (h : Received deps email known w) {m : InboundMessage}
    (hm : m ∈ w.messagesOf email.providerMessageId .received) :
    w.messagesOf email.providerMessageId .received = [m] ∧ Rows.lookup (·.id) w.messages m.id = some m ∧
      List.Forall₂ (OutcomeOf deps known) email.parts m.parts := by
  rcases h.row with hnone | ⟨m', hone, hid, hparts⟩
  · rw [hnone] at hm
    cases hm
  · rw [hone, List.mem_singleton] at hm
    subst hm
    exact ⟨hone, hid, hparts⟩

/-- A document that was there already is read with the part it came as, or excused. -/
theorem stored_read {parts : List InboundPartRecord} {files body : List Text} {result : ReadInboundEmailJobResult}
    (hparts : List.Forall₂ (OutcomeOf deps known) email.parts parts)
    (hread : ReadToTheEnd deps parts files body result) {plan : InboundFilePart} (hplan : .file plan ∈ email.parts)
    {accepted : AcceptedUpload} {d : StoredDocument}
    (haccepted : deps.accept (ingestInput deps plan).source plan.filename plan.declaredMimeType plan.bytes = .ok accepted)
    (hd : known accepted.sha256 = some d) :
    ∃ part ∈ parts, part.ordinal = plan.ordinal ∧ ReadOrExcused part d.documentId files body result := by
  obtain ⟨part, hpart, hout⟩ := KeyedFold.exists_of_mem_left hparts hplan
  refine ⟨part, hpart, hout.ordinal, ?_⟩
  rcases hout.became with ⟨code, hcode, -⟩ | ⟨documentId, hid, houtcome, hknown⟩
  · exact .inr (.inl ⟨code, hcode⟩)
  obtain ⟨rfl, -⟩ := hknown accepted d haccepted hd
  rcases houtcome with hreadable | hunclean | hover
  · have hdocument : part.readable? = some d.documentId := by
      unfold InboundPartRecord.readable?
      rw [if_pos hreadable, hid]
    unfold ReadOrExcused
    by_cases hbody : part.kind = .body
    · by_cases hfile : d.documentId ∈ files
      · exact .inl (List.mem_append_left _ hfile)
      · cases hnotice : noticeAmong (result.reads.take files.length) with
        | true => exact .inr (.inr (.inr (.inr ⟨hbody, rfl⟩)))
        | false =>
          exact .inl (List.mem_append_right _ ((hread.bodyRule _).2 ⟨⟨part, hpart, hbody, hdocument⟩, hfile, hnotice⟩))
    · exact .inl (List.mem_append_left _ ((hread.attached _).2 ⟨part, hpart, hbody, hdocument⟩))
  · exact .inr (.inr (.inl hunclean))
  · exact .inr (.inr (.inr (.inl hover)))

/-- **An email is recorded whole and once, and its job reads it to the end**, whatever the deliveries before did. -/
theorem inbound_email_whole (T : CaseTables) (payload : PostmarkInboundPayload) (deps : InboundDeps)
    (email : InboundEmail) (hplan : planParts T payload = some email.parts) (hn : Neighbours deps email)
    (dead rest : List (InboundAddressResolution × Faults)) (w : World)
    (hdead : (deliver deps email dead w).messagesOf email.providerMessageId .received = []) :
    Whole deps email (deliver deps email dead w) (deliver deps email (dead ++ rest) w) := by
  have hsplit : deliver deps email (dead ++ rest) w = deliver deps email rest (deliver deps email dead w) :=
    List.foldl_append
  rw [hsplit]
  generalize deliver deps email dead w = left at hdead ⊢
  have hreceived : Received deps email left.findDocumentByHash (deliver deps email rest left) :=
    deliver_keeps hn rest ⟨fun _ _ h => h, .inl hdead⟩
  generalize deliver deps email rest left = w' at hreceived ⊢
  refine ⟨?_, fun m hm => (hreceived.one hm).2.2, fun m hm address faults => ?_, ?_⟩
  · rcases hreceived.row with hnone | ⟨m, hone, -⟩
    · rw [hnone]
      exact Nat.zero_le _
    · rw [hone]
      exact le_refl _
  · have htriple := receiveInboundEmail_found faults hn address m w'.writes
    have hrecorded : RecordedAs email m w'.writes w' := ⟨(hreceived.one hm).1, rfl⟩
    refine ⟨((htriple.post fun _ _ h => h.1).after hrecorded).2, fun receipt hreceipt => ?_⟩
    exact (htriple.ok hrecorded (Prod.ext hreceipt rfl)).2
  · intro m hm input faults result hinput hresult
    obtain ⟨-, hid, hparts⟩ := hreceived.one hm
    have htriple := readInboundEmailJob_triple faults w'.asked hn input hinput
      (insertionSort_parts hplan hparts) (body_unique hplan hparts)
    obtain ⟨files, body, hread, hasked⟩ := htriple.ok ⟨hid, rfl⟩ (Prod.ext hresult rfl)
    exact ⟨files, body, hread, hasked, fun plan hmem accepted d haccepted hd =>
      stored_read hparts hread hmem haccepted hd⟩

/-! ## A notice and its cover note -/

/-- An email with one attachment and a text. -/
def letterPayload : PostmarkInboundPayload :=
  { TextBody := some "Please see the attached deduction notice.".toList, HtmlBody := none, StrippedTextReply := none
    Attachments := .list [⟨some "notice.pdf".toList, some "JVBERg==".toList, some "application/pdf".toList, none⟩] }

def letter : InboundEmail :=
  { providerMessageId := "pm-0001".toList, verdict := ⟨true, .pass, .unknown, .pass, none⟩
    parts := (planParts asciiCase letterPayload).getD [] }

/-- A door that takes everything, a clean scanner, and a reader to whom the first document stored is a notice. -/
def letterDeps : InboundDeps where
  memberMayWrite _ _ _ := .ok true
  claim _ := .ok none
  accept _ _ _ bytes := .ok ⟨bytes.map fun b => Char.ofNat b.toNat, "application/pdf".toList, bytes.length, false⟩
  sheetText _ _ := none
  decode bytes := bytes.map fun b => Char.ofNat b.toNat
  scan _ _ := .ok .clean
  readDocument documentId _ :=
    .ok ⟨documentId, some (if documentId = ['G'] then .deduction_notice else .correspondence)⟩
  admits _ := .ok ()
  randomUUID n := [Char.ofNat (65 + n)]
  now _ := 0
  others _ w := w

def letterAddress : InboundAddressResolution := ⟨"address".toList, "org".toList, "owner".toList, false⟩

def World.empty : World := ⟨0, [], [], [], [], 0, []⟩

/-- Every call answers but the one that records the message. -/
def diesBeforeRecording : Faults := fun n => if n = 14 then some .lost else none

/-- What the delivery that died left. -/
def letterLeft : World := deliver letterDeps letter [(letterAddress, diesBeforeRecording)] World.empty

/-- What the redelivery left. -/
def letterRecorded : World :=
  deliver letterDeps letter ([(letterAddress, diesBeforeRecording)] ++ [(letterAddress, reliable)]) World.empty

def letterJob : Delivery ReadInboundEmailJobResult :=
  readInboundEmailJob letterDeps ⟨"org".toList, "owner".toList, ['W']⟩

theorem letter_whole : Whole letterDeps letter letterLeft letterRecorded :=
  inbound_email_whole asciiCase letterPayload letterDeps letter rfl
    (fun _ _ => ⟨fun _ _ h => h, fun _ _ h => h, rfl, rfl, rfl⟩) [(letterAddress, diesBeforeRecording)]
    [(letterAddress, reliable)] World.empty (by decide +kernel)

/-- The body of an email that a delivery stored before it died is recorded as readable, and left unread: the attachment
read was a notice. -/
theorem email_body_left : letterLeft.messagesOf letter.providerMessageId .received = [] ∧
    letterLeft.documents.map (·.documentId) = [['G'], ['L']] ∧
    (letterRecorded.messagesOf letter.providerMessageId .received).map
        (fun m => m.parts.map fun part => (part.kind, part.outcome, part.documentId)) =
      [[(.attachment, .already_held, some ['G']), (.body, .already_held, some ['L'])]] ∧
    ((letterJob reliable 0 letterRecorded).1.toOption.map fun result => result.reads.map (·.documentId)) =
      some [['G']] ∧
    (after letterJob reliable letterRecorded).asked = [['G']] := by
  refine ⟨?_, ?_, ?_, ?_, ?_⟩
  all_goals decide +kernel

end Recouple.InboundEmail
