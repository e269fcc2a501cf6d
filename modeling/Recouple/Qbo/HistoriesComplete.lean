import Recouple.Qbo.Histories

/-!
# Invoice histories are complete or refused

A page that is read is the whole of the answer's list, and no longer than was asked for (`queryPage_ok`); of a server's
answers it is the slice asked for (`queryPage_slice`), so a query returns its result (`Chunked.results`) and a list of
ids the rows the ledger holds (`queryByIds_held`). `Complete` is what a history says of a ledger.

* **`invoice_histories_complete`**: a history that is returned is complete, and nothing is lost, repeated or reordered
  within a chunk; a page or a chunk longer than was asked for, or paging that does not end, is refused.
-/

namespace Recouple.Qbo.Histories
open Js FirstSeen KeyedFold

/-! ## QuickBooks -/

/-- A row's id, as QuickBooks compares it. -/
def rowId (row : JsonObject) : Option Text :=
  match field row "Id" with
  | some (.str id) => some id
  | _ => none

/-- The rows of a company: no two of one kind have the same id. -/
structure Ledger where
  rows : QboEntity → List JsonObject
  apart : ∀ entity, ((rows entity).filterMap rowId).Nodup

/-- The rows whose id is one of these. -/
def Ledger.held (ledger : Ledger) (entity : QboEntity) (ids : List Text) : List JsonObject :=
  (ledger.rows entity).filter fun row => (rowId row).any (· ∈ ids)

/-- A server: a query has one result, in an order of its own, and is answered with the slice of it that was asked for,
or with more; or the request fails. -/
structure Server where
  ledger : Ledger
  result : QboEntity → List Text → List JsonObject
  holds : ∀ entity ids, (result entity ids).Perm (ledger.held entity ids)
  fails : Statement → Option QboError
  overrun : Statement → Nat

def Server.slice (server : Server) (statement : Statement) : List JsonObject :=
  ((server.result statement.entity statement.ids).drop (statement.startPosition - 1)).take
    (statement.maxResults + server.overrun statement)

/-- An answer without rows does not name the entity. -/
def Server.send (server : Server) (statement : Statement) : Except QboError JsonObject :=
  match server.fails statement with
  | some e => .error e
  | none => .ok [("QueryResponse".toList, .obj
      (if (server.slice statement).isEmpty then []
        else [(statement.entity.name.toList, .arr ((server.slice statement).map .obj))]))]

/-! ## What a query returns -/

theorem orQbo_ok {α : Type} {r : Except Thrown α} {a : α} : orQbo r = .ok a ↔ r = .ok a := mapError_ok

/-- The rows of a page are objects, read as they are. -/
theorem readRows_ok {pageRows : List Value} {path : Text} {rows : List JsonObject} {n : Nat} :
    readRows path n pageRows = .ok rows ↔ pageRows = rows.map .obj := by
  unfold readRows
  induction pageRows generalizing rows n with
  | nil =>
    constructor
    · intro h
      cases h
      rfl
    · intro h
      rw [List.map_eq_nil_iff.1 h.symm]
      rfl
  | cons value rest ih =>
    rw [List.zipIdx_cons, List.mapM_cons]
    constructor
    · intro h
      obtain ⟨row, hrow, h⟩ := bind_ok.1 h
      obtain ⟨others, hothers, h⟩ := bind_ok.1 h
      cases h
      rw [ih.1 hothers, List.map_cons, Option.some.inj (readObject_ok.1 (orQbo_ok.1 hrow))]
    · intro h
      cases rows with
      | nil => cases h
      | cons row others =>
        rw [List.map_cons, List.cons.injEq] at h
        refine bind_ok.2 ⟨row, orQbo_ok.2 (readObject_ok.2 (congrArg some h.1)), bind_ok.2 ⟨others, ih.2 h.2, rfl⟩⟩

section
variable {client : QboClient} {send : Statement → Except QboError JsonObject} {entity : QboEntity} {ids : List Text}
  {offset read : Nat} {rows : List JsonObject}

/-- A page is what the answer's list holds, and no longer than was asked for. -/
theorem queryPage_ok (h : queryPage client send entity ids offset read = .ok rows) :
    rows.length ≤ client.pageSize ∧ ∃ body queryResponse, send ⟨entity, ids, read + 1, client.pageSize⟩ = .ok body ∧
      field body "QueryResponse" = some (.obj queryResponse) ∧
      (field queryResponse entity.name = none ∧ rows = [] ∨
        field queryResponse entity.name = some (.arr (rows.map .obj))) := by
  unfold queryPage at h
  rw [bind_ok] at h
  obtain ⟨body, hbody, h⟩ := h
  rw [bind_ok] at h
  obtain ⟨queryResponse, hresponse, h⟩ := h
  rw [bind_ok] at h
  obtain ⟨pageRows, hpage, h⟩ := h
  split at h
  · cases h
  · rename_i hlength
    have hrows := readRows_ok.1 h
    subst hrows
    rw [List.length_map] at hlength
    refine ⟨not_lt.1 hlength, body, queryResponse, hbody, readObject_ok.1 (orQbo_ok.1 hresponse), ?_⟩
    rcases readArray_ok.1 (orQbo_ok.1 hpage) with ⟨hnone, hempty⟩ | hsome
    · exact .inl ⟨hnone, List.map_eq_nil_iff.1 hempty⟩
    · exact .inr hsome

theorem field_single (key : String) (value : Value) : field [(key.toList, value)] key = some value := if_pos rfl

/-- A page of a server's answer is the slice that was asked for. -/
theorem queryPage_slice {server : Server} (h : queryPage client server.send entity ids offset read = .ok rows) :
    rows = ((server.result entity ids).drop read).take client.pageSize := by
  obtain ⟨hlength, body, queryResponse, hsend, hbody, hrows⟩ := queryPage_ok h
  have hslice : rows = server.slice ⟨entity, ids, read + 1, client.pageSize⟩ := by
    unfold Server.send at hsend
    split at hsend
    · cases hsend
    · cases hsend
      rw [field_single, Option.some.injEq, Value.obj.injEq] at hbody
      subst hbody
      split at hrows
      · rename_i hempty
        rcases hrows with ⟨-, hnone⟩ | hsome
        · rw [hnone, List.isEmpty_iff.1 hempty]
        · cases hsome
      · rcases hrows with ⟨hnone, -⟩ | hsome
        · rw [field_single] at hnone
          cases hnone
        · rw [field_single, Option.some.injEq, Value.arr.injEq] at hsome
          exact (List.map_injective_iff.2 (fun a b hab => Value.obj.inj hab) hsome).symm
  -- more than was asked for is refused, so what is left is no more than a page
  rw [hslice] at hlength ⊢
  unfold Server.slice at hlength ⊢
  rw [Nat.add_sub_cancel] at hlength ⊢
  rw [List.length_take] at hlength
  rcases min_le_iff.1 hlength with hnone | hshort
  · rw [le_antisymm hnone (Nat.le_add_right _ _)]
  · rw [List.take_of_length_le (hshort.trans (Nat.le_add_right _ _)), List.take_of_length_le hshort]

/-! ## What a list of ids returns -/

theorem assertQboIds_ok {ids ids' : List Text} (h : ids.mapM (assertQboId QboError.invalidId) = .ok ids') : ids' = ids := by
  have hall := mapM_forall₂ h
  clear h
  induction hall with
  | nil => rfl
  | cons hid _ ih => rw [(assertQboId_ok.1 hid).2, ih]

/-- The rows found for each chunk of the ids: its pages are no longer than was asked for, and so is what it found. -/
def Chunked (client : QboClient) (send : Statement → Except QboError JsonObject) (entity : QboEntity) (ids : List Text)
    (found : List (List JsonObject)) : Prop :=
  List.Forall₂ (fun chunk rows => rows.length ≤ chunk.length ∧ ∃ offset,
    InPages client.pageSize (queryPage client send entity chunk offset) client.maxPages [] rows)
    (chunks QBO_IDS_PER_QUERY (firstSeen ids)) found

theorem queryChunks_ok {cs : List (List Text)} {before : List JsonObject}
    (h : cs.foldlM (queryChunk client send entity) before = .ok rows) :
    ∃ found, List.Forall₂ (fun chunk rows => rows.length ≤ chunk.length ∧ ∃ offset,
      InPages client.pageSize (queryPage client send entity chunk offset) client.maxPages [] rows) cs found ∧
        rows = before ++ found.flatten := by
  induction cs generalizing before with
  | nil =>
    cases h
    exact ⟨[], .nil, (List.append_nil _).symm⟩
  | cons chunk cs ih =>
    rw [List.foldlM_cons, bind_ok] at h
    obtain ⟨next, hchunk, h⟩ := h
    unfold queryChunk at hchunk
    rw [bind_ok] at hchunk
    obtain ⟨found, hfound, hchunk⟩ := hchunk
    split at hchunk
    · cases hchunk
    · rename_i hlength
      cases hchunk
      obtain ⟨rest, hrest, hrows⟩ := ih h
      refine ⟨found :: rest, .cons ⟨not_lt.1 hlength, before.length, readPages_ok.1 hfound⟩ hrest, ?_⟩
      rw [hrows, List.flatten_cons, List.append_assoc]

theorem queryByIds_chunked (h : queryByIds client send entity ids = .ok rows) :
    ∃ found, Chunked client send entity ids found ∧ rows = found.flatten := by
  unfold queryByIds at h
  rw [bind_ok] at h
  obtain ⟨ids', hids, h⟩ := h
  rw [assertQboIds_ok hids] at h
  exact queryChunks_ok h

/-- Of a server, the rows of each chunk are its whole result. -/
theorem Chunked.results {server : Server} {found : List (List JsonObject)}
    (h : Chunked client server.send entity ids found) :
    found = (chunks QBO_IDS_PER_QUERY (firstSeen ids)).map (server.result entity) := by
  unfold Chunked at h
  generalize chunks QBO_IDS_PER_QUERY (firstSeen ids) = cs at h
  induction h with
  | nil => rfl
  | cons hchunk _ ih =>
    obtain ⟨-, offset, hpages⟩ := hchunk
    rw [List.map_cons, ← ih, hpages.slices (fun _ _ hpage => queryPage_slice hpage) rfl]

/-- The rows of some ids are the rows the ledger holds, each once. -/
theorem queryByIds_held {server : Server} (h : queryByIds client server.send entity ids = .ok rows) :
    rows.Perm (server.ledger.held entity ids) := by
  obtain ⟨found, hfound, rfl⟩ := queryByIds_chunked h
  have hflat := flatten_chunks (n := QBO_IDS_PER_QUERY) (by decide) (firstSeen ids)
  rw [hfound.results, ← List.flatMap_def]
  refine (List.Perm.flatMap_left _ fun chunk _ => server.holds entity chunk).trans ?_
  have hchunks := perm_filter_chunks rowId (server.ledger.rows entity)
    (by rw [hflat]; exact nodup_firstSeen ids)
  refine hchunks.trans (List.Perm.of_eq (List.filter_congr fun row _ => ?_))
  rw [hflat]
  cases rowId row with
  | none => rfl
  | some id => exact decide_eq_decide.2 mem_firstSeen

end

/-! ## Rows and the ids they are read with -/

section
variable {T : CaseTables} {parsePrintedDate : Text → Except Text Text}

theorem rowId_of_readString {row : JsonObject} {path id : Text} (h : readString row "Id" path = .ok id) :
    rowId row = some id := by
  unfold rowId
  rw [(readString_ok.1 h).1]

theorem toLedgerInvoice_id {row : JsonObject} {path : Text} {invoice : LedgerInvoice}
    (h : toLedgerInvoice T parsePrintedDate row path = .ok invoice) : rowId row = some invoice.externalId := by
  unfold toLedgerInvoice at h
  simp only [bind_ok] at h
  obtain ⟨customer, -, currency, -, dueOn, -, id, hid, number, -, customerId, -, name, -, issuedOn, -, total, -,
    balance, -, code, -, h⟩ := h
  cases h
  exact rowId_of_readString hid

theorem toLedgerPayment_id {row : JsonObject} {path : Text} {payment : LedgerPayment}
    (h : toLedgerPayment T parsePrintedDate row path = .ok payment) : rowId row = some payment.externalId := by
  unfold toLedgerPayment at h
  simp only [bind_ok] at h
  obtain ⟨customer, -, reference, -, memo, -, applications, -, id, hid, customerId, -, receivedOn, -, h⟩ := h
  cases h
  exact rowId_of_readString hid

theorem toLedgerCredit_id {applications : Credits} {row : JsonObject} {path : Text} {credit : LedgerCredit}
    (h : toLedgerCredit T parsePrintedDate applications row path = .ok credit) :
    rowId row = some credit.externalId ∧
      credit.appliedTo = (JsonTree.get applications credit.externalId).getD [] := by
  unfold toLedgerCredit at h
  simp only [bind_ok] at h
  obtain ⟨customer, -, memo, -, id, hid, customerId, -, issuedOn, -, total, -, h⟩ := h
  cases h
  exact ⟨rowId_of_readString hid, rfl⟩

/-- Rows read one by one, each with its place. -/
theorem mapM_rows {β : Type} {f : JsonObject × Nat → Except QboError β} {rows : List JsonObject} {found : List β} {n : Nat}
    (h : (rows.zipIdx n).mapM f = .ok found) : List.Forall₂ (fun row b => ∃ index, f (row, index) = .ok b) rows found := by
  have hall := mapM_forall₂ h
  rw [← List.zipIdx_map_fst n rows, List.forall₂_map_left_iff]
  exact hall.imp fun a b hab => ⟨a.2, hab⟩

/-- The rows read are those with these ids, in their order. -/
theorem ids_of_forall₂ {β : Type} {externalId : β → Text} {rows : List JsonObject} {found : List β}
    (h : List.Forall₂ (fun row b => rowId row = some (externalId b)) rows found) :
    rows.filterMap rowId = found.map externalId := by
  induction h with
  | nil => rfl
  | cons hid _ ih => rw [List.filterMap_cons_some hid, List.map_cons, ih]

/-- What the ledger holds of some ids has no id twice. -/
theorem nodup_ids_of_perm {ledger : Ledger} {entity : QboEntity} {ids : List Text} {rows : List JsonObject}
    (h : rows.Perm (ledger.held entity ids)) : (rows.filterMap rowId).Nodup := by
  rw [(h.filterMap rowId).nodup_iff]
  exact (ledger.apart entity).sublist (List.filter_sublist.filterMap rowId)

theorem assertAllReturned_ok {entity : QboEntity} {expected : List (Text × Text)} {returned : List Text}
    {linkedFrom : String} (h : assertAllReturned entity expected returned linkedFrom = .ok ()) :
    ∀ id ∈ expected.map Prod.fst, id ∈ returned := by
  unfold assertAllReturned at h
  split at h
  · rename_i hnone
    intro id hid
    obtain ⟨entry, hentry, rfl⟩ := List.mem_map.1 hid
    have hreturned := List.find?_eq_none.1 hnone entry hentry
    simpa only [decide_not, Bool.not_eq_true', decide_eq_false_iff_not, not_not] using hreturned
  · cases h

theorem Ledger.held_nil (ledger : Ledger) (entity : QboEntity) : ledger.held entity [] = [] := by
  refine List.filter_eq_nil_iff.2 fun row _ => ?_
  cases rowId row with
  | none => exact Bool.false_ne_true
  | some id => exact Bool.false_ne_true

theorem queryExpected_held {client : QboClient} {server : Server} {entity : QboEntity} {expected : List (Text × Text)}
    {rows : List JsonObject} (h : queryExpected client server.send entity expected = .ok rows) :
    rows.Perm (server.ledger.held entity (expected.map Prod.fst)) := by
  unfold queryExpected at h
  split at h
  · rename_i hnone
    cases h
    rw [hnone, List.map_nil, server.ledger.held_nil]
  · exact queryByIds_held h

/-! ## Histories -/

/-- The payment is among the links of one of the invoices. -/
def Links (invoiceRows : List JsonObject) (paymentId : Text) : Prop :=
  ∃ row index links, (row, index) ∈ invoiceRows.zipIdx ∧
    linkedTxnIds row "Payment".toList (rowPath .Invoice index) = .ok links ∧ paymentId ∈ links

/-- The rows a history was read from, and the credits its payments apply. -/
structure Sources where
  invoiceRows : List JsonObject
  paymentRows : List JsonObject
  creditRows : List JsonObject
  applications : Credits

/-- A complete history. -/
structure Complete (T : CaseTables) (parsePrintedDate : Text → Except Text Text) (ledger : Ledger) (ids : List Text)
    (histories : LedgerInvoiceHistories) (sources : Sources) : Prop where
  /-- Every invoice asked for that the ledger holds, once. -/
  invoices : sources.invoiceRows.Perm (ledger.held .Invoice ids)
  invoicesOnce : (histories.invoices.map (·.externalId)).Nodup
  readInvoices : List.Forall₂ (fun row invoice => ∃ path, toLedgerInvoice T parsePrintedDate row path = .ok invoice)
    sources.invoiceRows histories.invoices
  /-- Every payment an invoice links, once, and no other. -/
  payments : ∀ id, id ∈ histories.payments.map (·.externalId) ↔ Links sources.invoiceRows id
  paymentsOnce : (histories.payments.map (·.externalId)).Nodup
  paymentsHeld : ∀ row ∈ sources.paymentRows, row ∈ ledger.rows .Payment
  readPayments : List.Forall₂ (fun row payment => ∃ path, toLedgerPayment T parsePrintedDate row path = .ok payment)
    sources.paymentRows histories.payments
  /-- What those payments apply, by credit memo. -/
  resolved : resolveCreditApplications T sources.paymentRows (rowPath .Payment) = .ok sources.applications
  /-- Every credit memo they apply, once, and no other. -/
  credits : ∀ id, id ∈ histories.credits.map (·.externalId) ↔ id ∈ sources.applications.map Prod.fst
  creditsOnce : (histories.credits.map (·.externalId)).Nodup
  creditsHeld : ∀ row ∈ sources.creditRows, row ∈ ledger.rows .CreditMemo
  readCredits : List.Forall₂
    (fun row credit => ∃ path, toLedgerCredit T parsePrintedDate sources.applications row path = .ok credit)
    sources.creditRows histories.credits
  applied : ∀ credit ∈ histories.credits,
    credit.appliedTo = (JsonTree.get sources.applications credit.externalId).getD []

/-- The ids read of rows the ledger holds of some ids, every one of which came back. -/
theorem returned_iff {β : Type} {externalId : β → Text} {ledger : Ledger} {entity : QboEntity} {ids : List Text}
    {rows : List JsonObject} {found : List β} (hheld : rows.Perm (ledger.held entity ids))
    (hread : List.Forall₂ (fun row b => rowId row = some (externalId b)) rows found)
    (hall : ∀ id ∈ ids, id ∈ found.map externalId) (id : Text) : id ∈ found.map externalId ↔ id ∈ ids := by
  refine ⟨fun hmem => ?_, hall id⟩
  rw [← ids_of_forall₂ hread, List.mem_filterMap] at hmem
  obtain ⟨row, hrow, hid⟩ := hmem
  have hany := (List.mem_filter.1 (hheld.subset hrow)).2
  rw [hid, Option.any_some, decide_eq_true_eq] at hany
  exact hany

theorem linkedPayments_ok {row : JsonObject} {index : Nat} {pairs : List (Text × Text)}
    (h : linkedPayments row index = .ok pairs) :
    linkedTxnIds row "Payment".toList (rowPath .Invoice index) = .ok (pairs.map Prod.fst) := by
  unfold linkedPayments at h
  simp only [bind_ok] at h
  obtain ⟨invoiceId, -, links, hlinks, h⟩ := h
  cases h
  rw [orQbo_ok.1 hlinks, List.map_map]
  exact congrArg Except.ok (List.map_id links).symm

/-- The payments expected are those the invoices link. -/
theorem expected_iff {invoiceRows : List JsonObject} {linked : List (List (Text × Text))}
    (h : invoiceRows.zipIdx.mapM (fun (row, index) => linkedPayments row index) = .ok linked) (id : Text) :
    id ∈ (firstBy Prod.fst linked.flatten).map Prod.fst ↔ Links invoiceRows id := by
  have hall := mapM_forall₂ h
  rw [mem_map_firstBy, List.map_flatten, List.mem_flatten]
  constructor
  · rintro ⟨ids, hids, hid⟩
    obtain ⟨pairs, hpairs, rfl⟩ := List.mem_map.1 hids
    obtain ⟨entry, hentry, hlinks⟩ := exists_of_mem_right hall hpairs
    exact ⟨entry.1, entry.2, _, hentry, linkedPayments_ok hlinks, hid⟩
  · rintro ⟨row, index, links, hentry, hlinks, hid⟩
    obtain ⟨pairs, hpairs, hlinks'⟩ := exists_of_mem_left hall hentry
    rw [linkedPayments_ok hlinks', Except.ok.injEq] at hlinks
    exact ⟨_, List.mem_map_of_mem hpairs, hlinks ▸ hid⟩

theorem getInvoiceHistories_complete {client : QboClient} {server : Server} {ids : List Text}
    {histories : LedgerInvoiceHistories}
    (h : getInvoiceHistories client server.send T parsePrintedDate ids = .ok histories) :
    ∃ sources, Complete T parsePrintedDate server.ledger ids histories sources := by
  unfold getInvoiceHistories at h
  split at h
  · rename_i hnone
    cases h
    refine ⟨⟨[], [], [], []⟩, ?_⟩
    have hheld := server.ledger.held_nil .Invoice
    exact
      { invoices := by rw [hnone, hheld]
        invoicesOnce := List.nodup_nil
        readInvoices := .nil
        payments := fun id => ⟨fun hid => absurd hid List.not_mem_nil, by
          rintro ⟨_, _, _, hentry, _⟩
          exact absurd hentry List.not_mem_nil⟩
        paymentsOnce := List.nodup_nil
        paymentsHeld := fun row hrow => absurd hrow List.not_mem_nil
        readPayments := .nil
        resolved := rfl
        credits := fun id => Iff.rfl
        creditsOnce := List.nodup_nil
        creditsHeld := fun row hrow => absurd hrow List.not_mem_nil
        readCredits := .nil
        applied := fun credit hcredit => absurd hcredit List.not_mem_nil }
  · rw [bind_ok] at h
    obtain ⟨invoiceRows, hinvoiceRows, h⟩ := h
    rw [bind_ok] at h
    obtain ⟨invoices, hinvoices, h⟩ := h
    rw [bind_ok] at h
    obtain ⟨linked, hlinked, h⟩ := h
    dsimp only at h
    rw [bind_ok] at h
    obtain ⟨paymentRows, hpaymentRows, h⟩ := h
    rw [bind_ok] at h
    obtain ⟨payments, hpayments, h⟩ := h
    rw [bind_ok] at h
    obtain ⟨⟨⟩, hreturned, h⟩ := h
    rw [bind_ok] at h
    obtain ⟨applications, hresolved, h⟩ := h
    rw [bind_ok] at h
    obtain ⟨creditRows, hcreditRows, h⟩ := h
    rw [bind_ok] at h
    obtain ⟨credits, hcredits, h⟩ := h
    rw [bind_ok] at h
    obtain ⟨⟨⟩, hreturned', h⟩ := h
    cases h
    -- each row as it was read
    have hinvoice : List.Forall₂ (fun row invoice => ∃ path, toLedgerInvoice T parsePrintedDate row path = .ok invoice)
        invoiceRows invoices :=
      (mapM_rows hinvoices).imp fun row invoice hread => ⟨_, orQbo_ok.1 hread.choose_spec⟩
    have hpayment : List.Forall₂ (fun row payment => ∃ path, toLedgerPayment T parsePrintedDate row path = .ok payment)
        paymentRows payments :=
      (mapM_rows hpayments).imp fun row payment hread => ⟨_, orQbo_ok.1 hread.choose_spec⟩
    have hcredit : List.Forall₂
        (fun row credit => ∃ path, toLedgerCredit T parsePrintedDate applications row path = .ok credit)
        creditRows credits :=
      (mapM_rows hcredits).imp fun row credit hread => ⟨_, orQbo_ok.1 hread.choose_spec⟩
    -- each with its id
    have hinvoiceId := hinvoice.imp fun row invoice hread => toLedgerInvoice_id hread.choose_spec
    have hpaymentId := hpayment.imp fun row payment hread => toLedgerPayment_id hread.choose_spec
    have hcreditId := hcredit.imp fun row credit hread => (toLedgerCredit_id hread.choose_spec).1
    have hinvoicesHeld := queryByIds_held hinvoiceRows
    have hpaymentsHeld := queryExpected_held hpaymentRows
    have hcreditsHeld := queryExpected_held hcreditRows
    rw [List.map_map] at hcreditsHeld
    refine ⟨⟨invoiceRows, paymentRows, creditRows, applications⟩, ?_⟩
    exact
      { invoices := hinvoicesHeld
        invoicesOnce := ids_of_forall₂ hinvoiceId ▸ nodup_ids_of_perm hinvoicesHeld
        readInvoices := hinvoice
        payments := fun id => (returned_iff hpaymentsHeld hpaymentId (assertAllReturned_ok hreturned) id).trans
          (expected_iff hlinked id)
        paymentsOnce := ids_of_forall₂ hpaymentId ▸ nodup_ids_of_perm hpaymentsHeld
        paymentsHeld := fun row hrow => List.mem_of_mem_filter (hpaymentsHeld.subset hrow)
        readPayments := hpayment
        resolved := orQbo_ok.1 hresolved
        credits := fun id => by
          have hreturned := assertAllReturned_ok hreturned'
          rw [List.map_map] at hreturned
          exact returned_iff hcreditsHeld hcreditId hreturned id
        creditsOnce := ids_of_forall₂ hcreditId ▸ nodup_ids_of_perm hcreditsHeld
        creditsHeld := fun row hrow => List.mem_of_mem_filter (hcreditsHeld.subset hrow)
        readCredits := hcredit
        applied := fun credit hmem => by
          obtain ⟨row, -, path, hrow⟩ := exists_of_mem_right hcredit hmem
          exact (toLedgerCredit_id hrow).2 }

end

/-- **Invoice histories are complete or refused.** Of any server that answers a query with slices of one result, what
`getInvoiceHistories` returns is complete, and what a list of ids returns is the results of its chunks; of any answers
at all, what is read is pages no longer than was asked for, the last one short, and chunks no longer than their ids. -/
theorem invoice_histories_complete (T : CaseTables) (parsePrintedDate : Text → Except Text Text) (client : QboClient) :
    (∀ (server : Server) (ids : List Text) (histories : LedgerInvoiceHistories),
      getInvoiceHistories client server.send T parsePrintedDate ids = .ok histories →
        ∃ sources, Complete T parsePrintedDate server.ledger ids histories sources) ∧
    (∀ (server : Server) (entity : QboEntity) (ids : List Text) (rows : List JsonObject),
      queryByIds client server.send entity ids = .ok rows →
        rows = (chunks QBO_IDS_PER_QUERY (firstSeen ids)).flatMap (server.result entity)) ∧
    (∀ (send : Statement → Except QboError JsonObject) (entity : QboEntity) (ids : List Text) (rows : List JsonObject),
      queryByIds client send entity ids = .ok rows →
        ∃ found, Chunked client send entity ids found ∧ rows = found.flatten) ∧
    ∀ (send : Statement → Except QboError JsonObject) (entity : QboEntity) (ids : List Text) (offset read : Nat)
      (body queryResponse : JsonObject) (answered : List Value),
      send ⟨entity, ids, read + 1, client.pageSize⟩ = .ok body →
      field body "QueryResponse" = some (.obj queryResponse) → field queryResponse entity.name = some (.arr answered) →
      client.pageSize < answered.length → ∀ rows, queryPage client send entity ids offset read ≠ .ok rows := by
  refine ⟨fun server ids histories h => getInvoiceHistories_complete h, fun server entity ids rows h => ?_,
    fun send entity ids rows h => queryByIds_chunked h, ?_⟩
  · obtain ⟨found, hfound, rfl⟩ := queryByIds_chunked h
    rw [hfound.results, List.flatMap_def]
  · intro send entity ids offset read body queryResponse answered hsend hbody hanswered hlong rows h
    obtain ⟨hlength, body', queryResponse', hsend', hbody', hrows⟩ := queryPage_ok h
    cases hsend.symm.trans hsend'
    cases hbody.symm.trans hbody'
    rcases hrows with ⟨hnone, -⟩ | hsome
    · cases hanswered.symm.trans hnone
    · cases hanswered.symm.trans hsome
      rw [List.length_map] at hlong
      exact absurd hlong (not_lt.2 hlength)

/-! ## A short-paid invoice -/

def text (t : String) : Value := .str t.toList

def link (kind id : String) : Value := .obj [("TxnType".toList, text kind), ("TxnId".toList, text id)]

def acme : Text × Value := ("CustomerRef".toList, .obj [("value".toList, text "5"), ("name".toList, text "Acme")])

def invoiceRow : JsonObject :=
  [("Id".toList, text "1"), ("DocNumber".toList, text "1001"), acme, ("CurrencyRef".toList, .obj [("value".toList,
    text "USD")]), ("TxnDate".toList, text "2026-01-05"), ("TotalAmt".toList, .num 100), ("Balance".toList, .num 0),
    ("LinkedTxn".toList, .arr [link "Payment" "7"])]

/-- A payment of 60 that also applies 40 of a credit memo. -/
def paymentRow : JsonObject :=
  [("Id".toList, text "7"), acme, ("TxnDate".toList, text "2026-02-05"), ("TotalAmt".toList, .num 60),
    ("Line".toList, .arr [.obj [("Amount".toList, .num 100), ("LinkedTxn".toList, .arr [link "Invoice" "1"])],
      .obj [("Amount".toList, .num 40), ("LinkedTxn".toList, .arr [link "CreditMemo" "9"])]])]

def creditRow : JsonObject :=
  [("Id".toList, text "9"), acme, ("TxnDate".toList, text "2026-01-20"), ("TotalAmt".toList, .num 40)]

def books : Ledger where
  rows
    | .Invoice => [invoiceRow]
    | .Payment => [paymentRow]
    | .CreditMemo => [creditRow]
  apart entity := by
    cases entity <;> exact List.nodup_singleton _

def quickBooks : Server where
  ledger := books
  result := books.held
  holds _ _ := List.Perm.refl _
  fails _ := none
  overrun _ := 0

def byOne : QboClient := ⟨1, 3, by decide, by decide⟩

theorem invoiced_lower : -maxSafe ≤ 10000 := by decide
theorem invoiced_upper : 10000 ≤ maxSafe := by decide

def histories : LedgerInvoiceHistories where
  invoices := [⟨.qbo, "1".toList, "1001".toList, "5".toList, "Acme".toList, "2026-01-05".toList, none,
    ⟨10000, invoiced_lower, invoiced_upper⟩, ZERO, "USD".toList⟩]
  payments := [⟨.qbo, "7".toList, "5".toList, "2026-02-05".toList, ⟨6000, by decide, by decide⟩, none, none, [⟨"1".toList, ⟨6000, by decide, by decide⟩⟩]⟩]
  credits := [⟨.qbo, "9".toList, "5".toList, "2026-01-20".toList, ⟨4000, by decide, by decide⟩, none, [⟨"1".toList, ⟨4000, by decide, by decide⟩⟩]⟩]

/-- Its history, read a row to a page. -/
theorem short_paid_history : getInvoiceHistories byOne quickBooks.send asciiCase .ok ["1".toList] = .ok histories ∧
    ∃ sources, Complete asciiCase .ok books ["1".toList] histories sources := by
  have h : getInvoiceHistories byOne quickBooks.send asciiCase .ok ["1".toList] = .ok histories := by decide +kernel
  exact ⟨h, (invoice_histories_complete asciiCase .ok byOne).1 quickBooks _ _ h⟩

end Recouple.Qbo.Histories
