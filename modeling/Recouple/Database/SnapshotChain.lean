import Recouple.Core.MoneyRoundTrips
import Recouple.Database.Snapshots

/-!
# What is kept of the books

Every database that calls of `recordLedgerSnapshot` leave, each call with a content `buildLedgerSnapshot` made, the
hash `snapshotSha256` gives it and a predecessor read at whatever time. `Inv` says what each row is of the snapshot it
keeps; the run lemma is `inv_of_reached`.

* **`books_kept`**: every snapshot is given back as it was recorded, its hash recomputed from what is given back, and
  a connection's snapshots stand in one unforked line that ends in the head.
* **`head_commits`**: whatever snapshots verify one after the other and end in that head are the ones that were kept,
  unless two of the texts hashed have one SHA-256.
-/

namespace Recouple.Snapshots
open Js LedgerSnapshot Guarded

/-! ## What a built snapshot is made of -/

/-- A text that is an amount of cents. -/
def IsCents (t : Text) : Prop := ∃ c : Cents, t = centsText c

/-- Every amount of the content is one of cents. -/
structure Built (content : LedgerSnapshotContent) : Prop where
  total_debit : ∀ t ∈ content.total_debit_cents, IsCents t
  total_credit : ∀ t ∈ content.total_credit_cents, IsCents t
  trial : ∀ l ∈ content.trial_balance, IsCents l.debit_cents ∧ IsCents l.credit_cents
  postings : ∀ l ∈ content.ledger_postings, IsCents l.debit_cents ∧ IsCents l.credit_cents

theorem built_of_buildLedgerSnapshot {input : SnapshotInput} {content : LedgerSnapshotContent}
    (h : buildLedgerSnapshot input = .ok content) :
    Built content ∧ content.org_id = input.orgId ∧ content.connection_id = input.connectionId ∧
      content.run_id = input.runId := by
  unfold buildLedgerSnapshot at h
  dsimp only at h
  cases hread : input.read with
  | refused refusalClass =>
    rw [hread] at h
    dsimp only at h
    split_ifs at h
    cases h
    exact ⟨⟨by simp, by simp, by simp, by simp⟩, rfl, rfl, rfl⟩
  | complete trialBalance generalLedger =>
    rw [hread] at h
    dsimp only at h
    split_ifs at h
    obtain ⟨postings, hpostings, rfl⟩ := KeyedFold.map_ok.1 h
    refine ⟨⟨?_, ?_, ?_, ?_⟩, rfl, rfl, rfl⟩
    · rintro t ⟨⟩
      exact ⟨_, rfl⟩
    · rintro t ⟨⟩
      exact ⟨_, rfl⟩
    · intro l hl
      obtain ⟨line, -, rfl⟩ := List.mem_map.1 hl
      exact ⟨⟨_, rfl⟩, ⟨_, rfl⟩⟩
    · intro l hl
      obtain ⟨p, -, hp⟩ := KeyedFold.exists_of_mem_right (KeyedFold.mapM_forall₂ hpostings) hl
      unfold postingLine at hp
      split_ifs at hp
      cases hp
      exact ⟨⟨_, rfl⟩, ⟨_, rfl⟩⟩

/-! ## Casts -/

theorem date_eq {t d : Text} (h : date t = some d) : d = t := by
  unfold date at h
  split at h
  · exact (Option.some.inj h).symm
  · cases h

/-- The cast of an amount of cents is printed as it was given. -/
theorem decimalInt_of_bigint {t : Text} {n : Int} (ht : IsCents t) (h : bigint t = some n) : decimalInt n = t := by
  obtain ⟨c, rfl⟩ := ht
  rw [centsText] at h ⊢
  generalize c.val = v at h ⊢
  have hdigit : (decimal v.natAbs).head? ≠ some '-' := by
    intro hc
    have := isDigit_of_mem_decimal (List.mem_of_mem_head? hc)
    exact absurd this (by decide)
  have hvalue : n = v := by
    unfold bigint decimalInt at h
    by_cases hv : v < 0
    · simp only [hv, if_true, List.head?_cons, decide_true, List.tail_cons, digitsOf_decimal] at h
      split at h
      · cases h
      · split at h
        · have := Option.some.inj h
          omega
        · cases h
    · simp only [hv, if_false, hdigit, decide_false, Bool.false_eq_true, digitsOf_decimal] at h
      split at h
      · cases h
      · split at h
        · have := Option.some.inj h
          omega
        · cases h
  rw [hvalue]

theorem map_decimalInt_of_castOptional {t : Option Text} {n : Option Int} (ht : ∀ u ∈ t, IsCents u)
    (h : castOptional bigint t = some n) : n.map decimalInt = t := by
  cases t with
  | none => cases h; rfl
  | some t =>
    obtain ⟨m, hm, rfl⟩ := Option.map_eq_some_iff.1 h
    rw [Option.map_some, decimalInt_of_bigint (ht t rfl) hm]

/-! ## What the door writes -/

section
variable {uuid : Text → Option Text} {m : Moment} {header : Header} {db db' : Db} {org id : Text}

/-- The header row of a call that returned. -/
structure Written (uuid : Text → Option Text) (m : Moment) (header : Header) (db : Db) (row : SnapshotRow) : Prop where
  id : row.id = m.newId
  org_id : uuid header.org_id = some row.org_id
  connection_id : uuid header.connection_id = some row.connection_id
  run_id : uuid header.run_id = some row.run_id
  as_of : row.as_of = header.as_of
  window_from : row.window_from = header.window_from
  window_to : row.window_to = header.window_to
  basis : row.basis = header.basis
  currency : row.currency = header.currency
  status : row.status = header.status
  refusal_class : row.refusal_class = header.refusal_class
  total_debit : castOptional bigint header.total_debit_cents = some row.total_debit_cents
  total_credit : castOptional bigint header.total_credit_cents = some row.total_credit_cents
  sha256 : row.sha256 = header.sha256
  prev_sha256 : row.prev_sha256 = header.prev_sha256
  /-- It follows the latest row of its connection. -/
  head : header.prev_sha256 = headOf db row.org_id row.connection_id
  apart : ∀ s ∈ db.snapshots, row.apart s

theorem checks_lineRow (kind : LineKind) (n : Nat) (line : SnapshotTrialBalanceLine) :
    Checks (lineRow org id kind n line) :=
  .bind (.found _ _) fun _ => .bind (.found _ _) fun _ => .pure _

theorem checks_trialRow (p : SnapshotTrialBalanceLine × Nat) : Checks (trialRow org id p) := checks_lineRow _ _ _

theorem checks_postingRow (p : SnapshotPostingLine × Nat) : Checks (postingRow org id p) :=
  .bind (checks_lineRow _ _ _) fun _ => .bind (.found _ _) fun _ => .pure _

theorem checks_checkRun (run : SyncRun) (org sub connection : Text) : Checks (checkRun run org sub connection) :=
  .bind (.require _ _) fun _ => .bind (.require _ _) fun _ => .bind (.require _ _) fun _ => .require _ _

theorem checks_checkLines (debit credit : Option Int) (trial : List SnapshotTrialBalanceLine)
    (postings : List SnapshotPostingLine) : Checks (checkLines header debit credit trial postings) := by
  unfold checkLines
  split
  · exact .require _ _
  · exact .bind (.require _ _) fun _ => .bind (.found _ _) fun _ => .bind (.found _ _) fun _ => .require _ _

/-- The row of a line of either kind. -/
structure LineWritten (org id : Text) (kind : LineKind) (n : Nat) (line : SnapshotTrialBalanceLine) (row : LineRow) :
    Prop where
  org_id : row.org_id = org
  snapshot_id : row.snapshot_id = id
  kind : row.kind = kind
  line_no : row.line_no = n
  rebuilt : IsCents line.debit_cents → IsCents line.credit_cents → trialOf row = line

theorem lineWritten_of_lineRow {kind : LineKind} {n : Nat} {line : SnapshotTrialBalanceLine} {row : LineRow}
    (h : lineRow org id kind n line db = .ok row db') : LineWritten org id kind n line row := by
  unfold lineRow at h
  obtain ⟨debit, hdebit, h⟩ := found_bind_ok.1 h
  obtain ⟨credit, hcredit, h⟩ := found_bind_ok.1 h
  obtain ⟨rfl, -⟩ := pure_ok.1 h
  refine ⟨rfl, rfl, rfl, rfl, fun hd hc => ?_⟩
  rw [trialOf, decimalInt_of_bigint hd hdebit, decimalInt_of_bigint hc hcredit]

/-- The row of a posting: what it has of any line, and its own columns. -/
theorem postingRow_ok {p : SnapshotPostingLine × Nat} {row : LineRow} (h : postingRow org id p db = .ok row db') :
    LineWritten org id .ledger_posting p.2 p.1.toSnapshotTrialBalanceLine row ∧
      (IsCents p.1.debit_cents → IsCents p.1.credit_cents → postingOf row = .ok p.1) := by
  unfold postingRow at h
  obtain ⟨shared, s₁, hshared, h⟩ := bind_ok.1 h
  have hwritten := lineWritten_of_lineRow hshared
  obtain ⟨txn_date, hdate, h⟩ := found_bind_ok.1 h
  obtain ⟨rfl, -⟩ := pure_ok.1 h
  refine ⟨⟨hwritten.org_id, hwritten.snapshot_id, hwritten.kind, hwritten.line_no, hwritten.rebuilt⟩, fun hd hc => ?_⟩
  have hline := hwritten.rebuilt hd hc
  have hshow : postingOf { shared with
      txn_date := some txn_date, txn_type := p.1.txn_type
      transaction_external_id := p.1.transaction_external_id, doc_number := p.1.doc_number } =
      .ok { toSnapshotTrialBalanceLine := trialOf shared, txn_date := txn_date, txn_type := p.1.txn_type
            transaction_external_id := p.1.transaction_external_id, doc_number := p.1.doc_number } := rfl
  rw [hshow, hline, date_eq hdate]

theorem lineLe_iff (a b : LineRow) : lineLe a b ↔ lineKey a ≤ lineKey b := Iff.rfl

theorem linesKind {α : Type} {kind : LineKind} {l : List α} (line : α → SnapshotTrialBalanceLine) {rows : List LineRow}
    (h : List.Forall₂ (fun p row => LineWritten org id kind p.2 (line p.1) row) (l.zipIdx 1) rows) :
    (∀ row ∈ rows, row.org_id = org ∧ row.snapshot_id = id ∧ row.kind = kind) ∧
      rows.Pairwise fun a b => lineKey a < lineKey b := by
  have hmem : ∀ row ∈ rows, row.org_id = org ∧ row.snapshot_id = id ∧ row.kind = kind := by
    intro row hrow
    obtain ⟨p, -, hp⟩ := KeyedFold.exists_of_mem_right h hrow
    exact ⟨hp.org_id, hp.snapshot_id, hp.kind⟩
  have hnumbers : rows.map (·.line_no) = List.range' 1 l.length := by
    rw [← List.zipIdx_map_snd 1 l]
    exact (KeyedFold.map_eq_of_forall₂ (fun p row hp => hp.line_no.symm) h).symm
  have hpairwise : rows.Pairwise fun a b => a.line_no < b.line_no :=
    List.pairwise_map.1 (hnumbers ▸ List.pairwise_lt_range')
  refine ⟨hmem, hpairwise.imp_of_mem fun {a b} ha hb hab => ?_⟩
  rw [lineKey, lineKey, (hmem a ha).2.2, (hmem b hb).2.2, Prod.Lex.toLex_lt_toLex]
  exact .inr ⟨rfl, hab⟩

/-- The rows of a snapshot's lines. -/
structure LinesWritten (org id : Text) (trial : List SnapshotTrialBalanceLine) (postings : List SnapshotPostingLine)
    (trialRows postingRows : List LineRow) : Prop where
  trial : List.Forall₂ (fun p row => LineWritten org id .trial_balance p.2 p.1 row) (trial.zipIdx 1) trialRows
  postings : List.Forall₂ (fun p row => LineWritten org id .ledger_posting p.2 p.1.toSnapshotTrialBalanceLine row ∧
    (IsCents p.1.debit_cents → IsCents p.1.credit_cents → postingOf row = .ok p.1)) (postings.zipIdx 1) postingRows

theorem record_ledger_snapshot_ok {trial : List SnapshotTrialBalanceLine} {postings : List SnapshotPostingLine}
    (h : record_ledger_snapshot uuid m header trial postings db = .ok id db') :
    id = m.newId ∧ ∃ row trialRows postingRows,
      db' = { snapshots := db.snapshots ++ [row], lines := db.lines ++ trialRows ++ postingRows } ∧
      Written uuid m header db row ∧ LinesWritten row.org_id m.newId trial postings trialRows postingRows := by
  unfold record_ledger_snapshot at h
  obtain ⟨claims, -, h⟩ := found_bind_ok.1 h
  obtain ⟨caller_org, -, h⟩ := found_bind_ok.1 h
  obtain ⟨caller_sub, -, h⟩ := found_bind_ok.1 h
  obtain ⟨v_org, horg, h⟩ := found_bind_ok.1 h
  obtain ⟨rfl, h⟩ := require_bind_ok.1 h
  obtain ⟨created_by, -, h⟩ := found_bind_ok.1 h
  obtain ⟨-, h⟩ := require_bind_ok.1 h
  obtain ⟨v_connection, hconnection, h⟩ := found_bind_ok.1 h
  obtain ⟨v_run, hrun, h⟩ := found_bind_ok.1 h
  obtain ⟨v_debit, hdebit, h⟩ := found_bind_ok.1 h
  obtain ⟨v_credit, hcredit, h⟩ := found_bind_ok.1 h
  obtain ⟨run, -, h⟩ := found_bind_ok.1 h
  obtain ⟨_, -, h⟩ := (checks_checkRun _ _ _ _).bind_ok.1 h
  obtain ⟨window_from, hfrom, h⟩ := found_bind_ok.1 h
  obtain ⟨window_to, hto, h⟩ := found_bind_ok.1 h
  obtain ⟨as_of, hasOf, h⟩ := found_bind_ok.1 h
  obtain ⟨⟨hrunFrom, hrunTo, hrunAsOf⟩, h⟩ := require_bind_ok.1 h
  obtain ⟨_, -, h⟩ := (checks_checkLines _ _ _ _).bind_ok.1 h
  rw [get_bind_ok] at h
  obtain ⟨hhead, h⟩ := require_bind_ok.1 h
  obtain ⟨-, h⟩ := require_bind_ok.1 h
  obtain ⟨_, s₁, hinsert, h⟩ := bind_ok.1 h
  unfold insertHeader at hinsert
  rw [get_bind_ok, require_bind_ok, modify_ok] at hinsert
  obtain ⟨⟨-, hapart⟩, rfl⟩ := hinsert
  obtain ⟨trialRows, s₂, htrial, h⟩ := bind_ok.1 h
  obtain ⟨rfl, hall⟩ := (Checks.mapM_ok checks_trialRow).1 htrial
  obtain ⟨_, s₃, hlines, h⟩ := bind_ok.1 h
  unfold insertLines at hlines
  rw [require_bind_ok, modify_ok] at hlines
  obtain ⟨-, rfl⟩ := hlines
  obtain ⟨postingRows, s₄, hpostings, h⟩ := bind_ok.1 h
  obtain ⟨rfl, hall'⟩ := (Checks.mapM_ok checks_postingRow).1 hpostings
  obtain ⟨_, s₅, hlines, h⟩ := bind_ok.1 h
  unfold insertLines at hlines
  rw [require_bind_ok, modify_ok] at hlines
  obtain ⟨-, rfl⟩ := hlines
  obtain ⟨rfl, rfl⟩ := pure_ok.1 h
  refine ⟨rfl, _, trialRows, postingRows, rfl,
    { id := rfl, org_id := horg, connection_id := hconnection, run_id := hrun
      as_of := ?_, window_from := ?_, window_to := ?_
      basis := rfl, currency := rfl, status := rfl, refusal_class := rfl
      total_debit := hdebit, total_credit := hcredit, sha256 := rfl, prev_sha256 := rfl
      head := hhead, apart := List.all_eq_true.1 hapart },
    ⟨hall.imp fun _ _ => lineWritten_of_lineRow, hall'.imp fun _ _ => postingRow_ok⟩⟩
  · show run.window_to = _
    rw [← hrunAsOf, date_eq hasOf]
  · show run.window_from = _
    rw [← hrunFrom, date_eq hfrom]
  · show run.window_to = _
    rw [← hrunTo, date_eq hto]

/-! ## What is rebuilt of a snapshot's lines -/

theorem filter_rows {trialRows postingRows : List LineRow} (htrial : ∀ row ∈ trialRows, row.kind = .trial_balance)
    (hpostings : ∀ row ∈ postingRows, row.kind = .ledger_posting) :
    (trialRows ++ postingRows).filter (·.kind = .trial_balance) = trialRows ∧
      (trialRows ++ postingRows).filter (·.kind = .ledger_posting) = postingRows := by
  constructor
  · rw [List.filter_append, List.filter_eq_self.2 fun row h => by simp [htrial row h],
      List.filter_eq_nil_iff.2 fun row h => by simp [hpostings row h], List.append_nil]
  · rw [List.filter_append, List.filter_eq_nil_iff.2 fun row h => by simp [htrial row h],
      List.filter_eq_self.2 fun row h => by simp [hpostings row h], List.nil_append]

theorem forall₂_of_zipIdx {α β : Type} {R : α → β → Prop} {l : List α} {bs : List β} {n : Nat}
    (h : List.Forall₂ (fun (p : α × Nat) b => R p.1 b) (l.zipIdx n) bs) : List.Forall₂ R l bs := by
  have hmap : List.Forall₂ R ((l.zipIdx n).map Prod.fst) bs := List.forall₂_map_left_iff.2 h
  rwa [List.zipIdx_map_fst] at hmap

/-- Sorted and told apart by kind, a snapshot's rows are its lines again. -/
theorem LinesWritten.rebuilt {trial : List SnapshotTrialBalanceLine} {postings : List SnapshotPostingLine}
    {trialRows postingRows : List LineRow} (h : LinesWritten org id trial postings trialRows postingRows)
    (htrial : ∀ l ∈ trial, IsCents l.debit_cents ∧ IsCents l.credit_cents)
    (hpostings : ∀ l ∈ postings, IsCents l.debit_cents ∧ IsCents l.credit_cents) :
    (((trialRows ++ postingRows).insertionSort lineLe).filter (·.kind = .trial_balance)).map trialOf = trial ∧
      (((trialRows ++ postingRows).insertionSort lineLe).filter (·.kind = .ledger_posting)).mapM postingOf =
        .ok postings := by
  obtain ⟨hkind, hsorted⟩ := linesKind (fun l => l) h.trial
  obtain ⟨hkind', hsorted'⟩ := linesKind SnapshotPostingLine.toSnapshotTrialBalanceLine (h.postings.imp fun _ _ hp => hp.1)
  obtain ⟨hfilter, hfilter'⟩ := filter_rows (fun row hrow => (hkind row hrow).2.2) fun row hrow => (hkind' row hrow).2.2
  rw [SortByKey.filter_insertionSort_of_sorted lineLe_iff (by rw [hfilter]; exact hsorted),
    SortByKey.filter_insertionSort_of_sorted lineLe_iff (by rw [hfilter']; exact hsorted'), hfilter, hfilter']
  constructor
  · have hlines : List.Forall₂ (fun l row => IsCents l.debit_cents → IsCents l.credit_cents → trialOf row = l) trial
        trialRows := forall₂_of_zipIdx (h.trial.imp fun _ _ hp => hp.rebuilt)
    have hrebuilt : List.Forall₂ (fun l row => trialOf row = l) trial trialRows :=
      ((List.forall₂_and_left _ _).2 ⟨htrial, hlines⟩).imp fun _ _ hl => hl.2 hl.1.1 hl.1.2
    rw [← KeyedFold.map_eq_of_forall₂ (fun _ _ hl => hl.symm) hrebuilt, List.map_id']
  · have hlines : List.Forall₂ (fun l row => IsCents l.debit_cents → IsCents l.credit_cents → postingOf row = .ok l)
        postings postingRows := forall₂_of_zipIdx (h.postings.imp fun _ _ hp => hp.2)
    have hrebuilt : List.Forall₂ (fun l row => postingOf row = .ok l) postings postingRows :=
      ((List.forall₂_and_left _ _).2 ⟨hpostings, hlines⟩).imp fun _ _ hl => hl.2 hl.1.1 hl.1.2
    exact KeyedFold.mapM_iff_forall₂.2 hrebuilt.flip

end

/-! ## Every database there can be -/

/-- A snapshot the door took, and where it stands. -/
structure Kept where
  org : Text
  connection : Text
  id : Text
  stored : Stored

/-- A stored snapshot as an entry of its chain. -/
def Stored.entry (stored : Stored) : LinkedLog.Entry Text LedgerSnapshotContent where
  before := stored.prevSha256
  digest := stored.sha256
  content := stored.content

/-- The snapshots of one connection that were kept, oldest first. -/
def kept (log : List Kept) (org connection : Text) : List Stored :=
  (log.filter fun k => k.org = org ∧ k.connection = connection).map (·.stored)

section
variable (uuid : Text → Option Text) (sha256 : ByteArray → Text)

/-- The ids are spelled as the database prints them. -/
structure Printed (input : SnapshotInput) : Prop where
  org : uuid input.orgId = some input.orgId
  connection : uuid input.connectionId = some input.connectionId
  run : uuid input.runId = some input.runId

/-- The digest is the hash taken over a content and the digest before it. -/
def Seals (content : LedgerSnapshotContent) (before : Option Text) (digest : Text) : Prop :=
  snapshotSha256 sha256 content before = .ok digest

/-- A database after any number of calls, and the snapshots they kept. A call names whatever predecessor it read, when
it read it; a call that is refused leaves the database as it was. -/
inductive Reached : Db → List Kept → Prop
  | start : Reached { snapshots := [], lines := [] } []
  | keep {db db' : Db} {log : List Kept} {input : SnapshotInput} {content : LedgerSnapshotContent} {prev : Option Text}
      {hash id newId : Text} {tenant : Tenant} {runs : Text → Option SyncRun} (reached : Reached db log)
      (printed : Printed uuid input) (built : buildLedgerSnapshot input = .ok content)
      (hashed : snapshotSha256 sha256 content prev = .ok hash)
      (recorded : recordLedgerSnapshot uuid tenant runs newId content hash prev db = .ok (id, db')) :
      Reached db' (log ++ [⟨content.org_id, content.connection_id, id, ⟨content, hash, prev⟩⟩])

/-- `keepSnapshot`, where the database takes what it keeps. -/
theorem Reached.keepSnapshot {db db' : Db} {log : List Kept} {orgId connectionId runId : Text} {window : Window}
    {read : Except (Option Text) (TrialBalance × GeneralLedger)} {content : LedgerSnapshotContent} {prev : Option Text}
    {hash id newId : Text} {tenant : Tenant} {runs : Text → Option SyncRun} (reached : Reached uuid sha256 db log)
    (horg : uuid orgId = some orgId) (hconnection : uuid connectionId = some connectionId) (hrun : uuid runId = some runId)
    (hkept : keptContent orgId connectionId runId window read = .ok content)
    (hashed : snapshotSha256 sha256 content prev = .ok hash)
    (recorded : recordLedgerSnapshot uuid tenant runs newId content hash prev db = .ok (id, db')) :
    Reached uuid sha256 db' (log ++ [⟨content.org_id, content.connection_id, id, ⟨content, hash, prev⟩⟩]) := by
  obtain ⟨books, built⟩ := built_of_keptContent hkept
  exact .keep reached ⟨horg, hconnection, hrun⟩ built hashed recorded

/-- The header row a snapshot is kept in. -/
structure RowOf (row : SnapshotRow) (k : Kept) : Prop where
  id : row.id = k.id
  org : row.org_id = k.org
  connection : row.connection_id = k.connection
  content : contentOf row k.stored.content.trial_balance k.stored.content.ledger_postings = k.stored.content
  sha256 : row.sha256 = k.stored.sha256
  prev : row.prev_sha256 = k.stored.prevSha256

structure Inv (db : Db) (log : List Kept) : Prop where
  rows : List.Forall₂ RowOf db.snapshots log
  /-- No row shares a key with an earlier one. -/
  apart : db.snapshots.Pairwise fun s row => row.apart s
  owned : ∀ l ∈ db.lines, ∃ row ∈ db.snapshots, row.id = l.snapshot_id
  lines : ∀ k ∈ log,
    ((linesOf db k.org k.id).filter (·.kind = .trial_balance)).map trialOf = k.stored.content.trial_balance ∧
      ((linesOf db k.org k.id).filter (·.kind = .ledger_posting)).mapM postingOf = .ok k.stored.content.ledger_postings
  linked : ∀ org connection, LinkedLog.Linked (Seals sha256) ((kept log org connection).map Stored.entry)

end

section
variable {uuid : Text → Option Text} {sha256 : ByteArray → Text} {db db' : Db} {log : List Kept} {org connection : Text}

theorem apart_id {row s : SnapshotRow} (h : row.apart s) : row.id ≠ s.id := by
  simp only [SnapshotRow.apart, Bool.and_eq_true, decide_eq_true_eq] at h
  exact h.1.1

theorem apart_prev {row s : SnapshotRow} (h : row.apart s) (horg : row.org_id = s.org_id)
    (hconnection : row.connection_id = s.connection_id) : row.prev_sha256 ≠ s.prev_sha256 := by
  simp only [SnapshotRow.apart, Bool.and_eq_true, Bool.or_eq_true, decide_eq_true_eq] at h
  rcases h.2 with (h | h) | h
  · exact absurd horg h
  · exact absurd hconnection h
  · exact h.1

theorem mem_chainRows {row : SnapshotRow} :
    row ∈ chainRows db org connection ↔ row ∈ db.snapshots ∧ row.org_id = org ∧ row.connection_id = connection := by
  rw [chainRows, List.mem_filter, decide_eq_true_eq]

/-- The rows of a connection are those of its kept snapshots. -/
theorem Inv.chainRows (hi : Inv sha256 db log) (org connection : Text) :
    List.Forall₂ RowOf (chainRows db org connection)
      (log.filter fun k => k.org = org ∧ k.connection = connection) := by
  unfold Snapshots.chainRows
  refine List.rel_filter (fun row k hrow => ?_) hi.rows
  dsimp only
  rw [hrow.org, hrow.connection]

theorem kept_concat (log : List Kept) (k : Kept) (org connection : Text) :
    kept (log ++ [k]) org connection =
      kept log org connection ++ if k.org = org ∧ k.connection = connection then [k.stored] else [] := by
  unfold kept
  rw [List.filter_append, List.map_append, List.filter_singleton]
  by_cases h : k.org = org ∧ k.connection = connection
  · simp [h]
  · simp [h]

/-- The head the door reads is the last hash kept. -/
theorem Inv.headOf (hi : Inv sha256 db log) (org connection : Text) :
    headOf db org connection = LinkedLog.head ((kept log org connection).map Stored.entry) := by
  have hsha : (Snapshots.chainRows db org connection).map (·.sha256) =
      (kept log org connection).map (·.sha256) := by
    unfold kept
    rw [List.map_map]
    exact KeyedFold.map_eq_of_forall₂ (fun _ _ hrow => hrow.sha256) (hi.chainRows org connection)
  unfold Snapshots.headOf LinkedLog.head
  rw [← List.getLast?_map, hsha, ← List.getLast?_map, List.map_map]
  rfl

/-- Lines of a snapshot that is not there yet are not read for one that is. -/
theorem linesOf_append {rows : List LineRow} {id newId : Text} (hid : id ≠ newId)
    (hrows : ∀ row ∈ rows, row.snapshot_id = newId) (snapshots : List SnapshotRow) :
    linesOf { snapshots := snapshots, lines := db.lines ++ rows } org id = linesOf db org id := by
  unfold linesOf
  have hnone : rows.filter (fun l => l.org_id = org ∧ l.snapshot_id = id) = [] := by
    rw [List.filter_eq_nil_iff]
    intro row hrow
    simp [hrows row hrow, hid.symm]
  rw [List.filter_append, hnone, List.append_nil]

/-- Of a new snapshot only its own lines are read. -/
theorem linesOf_new {rows : List LineRow} {newId : Text} (hold : ∀ l ∈ db.lines, l.snapshot_id ≠ newId)
    (hrows : ∀ row ∈ rows, row.org_id = org ∧ row.snapshot_id = newId) (snapshots : List SnapshotRow) :
    linesOf { snapshots := snapshots, lines := db.lines ++ rows } org newId = rows.insertionSort lineLe := by
  unfold linesOf
  have hnone : db.lines.filter (fun l => l.org_id = org ∧ l.snapshot_id = newId) = [] := by
    rw [List.filter_eq_nil_iff]
    intro l hl
    simp [hold l hl]
  have hall : rows.filter (fun l => l.org_id = org ∧ l.snapshot_id = newId) = rows := by
    rw [List.filter_eq_self]
    intro row hrow
    simp [hrows row hrow]
  rw [List.filter_append, hnone, hall, List.nil_append]

theorem inv_start : Inv sha256 { snapshots := [], lines := [] } [] where
  rows := .nil
  apart := .nil
  owned := by simp
  lines := by simp
  linked := fun _ _ => .nil

/-- What a call that returned has written, of a snapshot that was built. -/
theorem recorded_ok {tenant : Tenant} {runs : Text → Option SyncRun} {newId hash id : Text} {prev : Option Text}
    {input : SnapshotInput} {content : LedgerSnapshotContent} (printed : Printed uuid input)
    (built : buildLedgerSnapshot input = .ok content)
    (h : recordLedgerSnapshot uuid tenant runs newId content hash prev db = .ok (id, db')) :
    ∃ row trialRows postingRows,
      db' = { snapshots := db.snapshots ++ [row], lines := db.lines ++ trialRows ++ postingRows } ∧
      RowOf row ⟨content.org_id, content.connection_id, id, ⟨content, hash, prev⟩⟩ ∧
      prev = headOf db content.org_id content.connection_id ∧
      (∀ s ∈ db.snapshots, row.apart s) ∧
      LinesWritten content.org_id id content.trial_balance content.ledger_postings trialRows postingRows := by
  unfold recordLedgerSnapshot at h
  dsimp only at h
  split_ifs at h with hclient
  split at h
  · rename_i id' db₁ hdoor
    cases h
    obtain ⟨rfl, row, trialRows, postingRows, rfl, hwritten, hlines⟩ := record_ledger_snapshot_ok hdoor
    obtain ⟨hbuilt, horg, hconnection, hrun⟩ := built_of_buildLedgerSnapshot built
    have hrowOrg : row.org_id = content.org_id := by
      have := hwritten.org_id
      rw [show (content.org_id) = input.orgId from horg, printed.org] at this
      rw [horg]
      exact (Option.some.inj this).symm
    have hrowConnection : row.connection_id = content.connection_id := by
      have := hwritten.connection_id
      rw [show (content.connection_id) = input.connectionId from hconnection, printed.connection] at this
      rw [hconnection]
      exact (Option.some.inj this).symm
    have hrowRun : row.run_id = content.run_id := by
      have := hwritten.run_id
      rw [show (content.run_id) = input.runId from hrun, printed.run] at this
      rw [hrun]
      exact (Option.some.inj this).symm
    refine ⟨row, trialRows, postingRows, rfl, ⟨hwritten.id, hrowOrg, hrowConnection, ?_, hwritten.sha256,
      hwritten.prev_sha256⟩, ?_, hwritten.apart, ?_⟩
    · show contentOf row content.trial_balance content.ledger_postings = content
      unfold contentOf
      rw [hrowOrg, hrowConnection, hrowRun, hwritten.as_of, hwritten.window_from, hwritten.window_to, hwritten.basis,
        hwritten.currency, hwritten.status, hwritten.refusal_class,
        map_decimalInt_of_castOptional hbuilt.total_debit hwritten.total_debit,
        map_decimalInt_of_castOptional hbuilt.total_credit hwritten.total_credit]
    · rw [← hrowOrg, ← hrowConnection]
      exact hwritten.head
    · rw [← hrowOrg]
      exact hlines
  · cases h

theorem Inv.keep (hi : Inv sha256 db log) {tenant : Tenant} {runs : Text → Option SyncRun} {newId hash id : Text}
    {prev : Option Text} {input : SnapshotInput} {content : LedgerSnapshotContent} (printed : Printed uuid input)
    (built : buildLedgerSnapshot input = .ok content) (hashed : snapshotSha256 sha256 content prev = .ok hash)
    (h : recordLedgerSnapshot uuid tenant runs newId content hash prev db = .ok (id, db')) :
    Inv sha256 db' (log ++ [⟨content.org_id, content.connection_id, id, ⟨content, hash, prev⟩⟩]) := by
  obtain ⟨row, trialRows, postingRows, rfl, hrow, hprev, hapart, hlines⟩ := recorded_ok printed built h
  obtain ⟨hbuilt, -⟩ := built_of_buildLedgerSnapshot built
  have htrialRows := (linesKind (fun l => l) hlines.trial).1
  have hpostingRows := (linesKind SnapshotPostingLine.toSnapshotTrialBalanceLine (hlines.postings.imp fun _ _ hp => hp.1)).1
  have hnewRows : ∀ r ∈ trialRows ++ postingRows, r.org_id = content.org_id ∧ r.snapshot_id = id := by
    intro r hr
    rcases List.mem_append.1 hr with hr | hr
    · exact ⟨(htrialRows r hr).1, (htrialRows r hr).2.1⟩
    · exact ⟨(hpostingRows r hr).1, (hpostingRows r hr).2.1⟩
  -- the new id is no earlier snapshot's
  have hfresh : ∀ s ∈ db.snapshots, s.id ≠ id := fun s hs heq =>
    apart_id (hapart s hs) (by rw [hrow.id, heq])
  refine ⟨?_, ?_, ?_, ?_, ?_⟩
  · exact List.rel_append hi.rows (.cons hrow .nil)
  · rw [List.pairwise_append]
    exact ⟨hi.apart, List.pairwise_singleton _ _, fun s hs r hr => List.mem_singleton.1 hr ▸ hapart s hs⟩
  · intro l hl
    rw [List.append_assoc] at hl
    rcases List.mem_append.1 hl with hl | hl
    · obtain ⟨s, hs, heq⟩ := hi.owned l hl
      exact ⟨s, List.mem_append_left _ hs, heq⟩
    · exact ⟨row, by simp, by rw [hrow.id, (hnewRows l hl).2]⟩
  · intro k hk
    rw [List.append_assoc]
    rcases List.mem_append.1 hk with hk | hk
    · obtain ⟨s, hs, hsk⟩ := KeyedFold.exists_of_mem_right hi.rows hk
      have hne : k.id ≠ id := hsk.id ▸ hfresh s hs
      rw [linesOf_append hne (fun r hr => (hnewRows r hr).2)]
      exact hi.lines k hk
    · obtain rfl := List.mem_singleton.1 hk
      have hold : ∀ l ∈ db.lines, l.snapshot_id ≠ id := fun l hl heq => by
        obtain ⟨s, hs, hsl⟩ := hi.owned l hl
        exact hfresh s hs (hsl.trans heq)
      rw [linesOf_new hold hnewRows]
      exact hlines.rebuilt hbuilt.trial hbuilt.postings
  · intro org connection
    rw [kept_concat]
    split_ifs with hsame
    · obtain ⟨rfl, rfl⟩ := hsame
      rw [List.map_append]
      refine .concat (hi.linked _ _) ?_ hashed
      rw [← hi.headOf]
      exact hprev
    · rw [List.append_nil]
      exact hi.linked org connection

theorem inv_of_reached (h : Reached uuid sha256 db log) : Inv sha256 db log := by
  induction h with
  | start => exact inv_start
  | keep _ printed built hashed recorded ih => exact ih.keep printed built hashed recorded

/-! ## Reading the books back -/

theorem Inv.eq_of_id (hi : Inv sha256 db log) {r s : SnapshotRow} (hr : r ∈ db.snapshots) (hs : s ∈ db.snapshots)
    (h : r.id = s.id) : r = s := by
  have hnodup : (db.snapshots.map (·.id)).Nodup :=
    List.pairwise_map.2 (hi.apart.imp fun {a b} hab (heq : a.id = b.id) => apart_id hab heq.symm)
  exact List.inj_on_of_nodup_map hnodup hr hs h

/-- A snapshot that was kept is read back as it was. -/
theorem Inv.snapshotContent (hi : Inv sha256 db log) {row : SnapshotRow} {k : Kept} (hrow : row ∈ db.snapshots)
    (hk : k ∈ log) (hof : RowOf row k) : snapshotContent k.org row.id db = .ok (some k.stored) := by
  have hfind : db.snapshots.find? (fun s => s.org_id = k.org ∧ s.id = row.id) = some row := by
    cases hf : db.snapshots.find? (fun s => s.org_id = k.org ∧ s.id = row.id) with
    | none => exact absurd (List.find?_eq_none.1 hf row hrow) (by simp [hof.org])
    | some s =>
      have hs := List.find?_some hf
      simp only [decide_eq_true_eq] at hs
      rw [hi.eq_of_id (List.mem_of_find?_eq_some hf) hrow hs.2]
  obtain ⟨htrial, hpostings⟩ := hi.lines k hk
  unfold Snapshots.snapshotContent
  rw [hfind]
  dsimp only
  rw [hof.id, htrial, hpostings, Except.map, hof.content, hof.sha256, hof.prev]

/-- Every snapshot of a connection, oldest first, as the store returns them. -/
def audit (org connection : Text) (db : Db) : Except ReadError (List (Option Stored)) :=
  (chainRows db org connection).mapM fun row => Snapshots.snapshotContent org row.id db

theorem Inv.audit (hi : Inv sha256 db log) (org connection : Text) :
    audit org connection db = .ok ((kept log org connection).map some) := by
  unfold Snapshots.audit kept
  rw [KeyedFold.mapM_iff_forall₂, List.map_map, List.forall₂_map_right_iff]
  refine (KeyedFold.forall₂_mem (hi.chainRows org connection)).imp fun row k hmem => ?_
  obtain ⟨hrow, hk, hof⟩ := hmem
  rw [List.mem_filter, decide_eq_true_eq] at hk
  obtain ⟨hk, rfl, rfl⟩ := hk
  exact hi.snapshotContent (mem_chainRows.1 hrow).1 hk hof

theorem Inv.prevs_nodup (hi : Inv sha256 db log) (org connection : Text) :
    ((kept log org connection).map (·.prevSha256)).Nodup := by
  have hprevs : (Snapshots.chainRows db org connection).map (·.prev_sha256) =
      (kept log org connection).map (·.prevSha256) := by
    unfold kept
    rw [List.map_map]
    exact KeyedFold.map_eq_of_forall₂ (fun _ _ hrow => hrow.prev) (hi.chainRows org connection)
  rw [← hprevs]
  refine List.pairwise_map.2 ((hi.apart.filter _).imp_of_mem fun {a b} ha hb hab heq => ?_)
  rw [mem_chainRows] at ha hb
  exact apart_prev hab (hb.2.1.trans ha.2.1.symm) (hb.2.2.trans ha.2.2.symm) heq.symm

/-- **The books are kept.** Whatever calls were made, with ids spelled as the database prints them, the store gives
every snapshot of a connection back as it was recorded, its hash recomputed from what is given back, and they stand in
one line: each names the hash of the one before, no two name the same one, and the head is the last. -/
theorem books_kept (h : Reached uuid sha256 db log) (org connection : Text) :
    audit org connection db = .ok ((kept log org connection).map some) ∧
      LinkedLog.Linked (Seals sha256) ((kept log org connection).map Stored.entry) ∧
      ((kept log org connection).map (·.prevSha256)).Nodup ∧
      latestSnapshotSha org connection db = LinkedLog.head ((kept log org connection).map Stored.entry) := by
  have hi := inv_of_reached h
  exact ⟨hi.audit org connection, hi.linked org connection, hi.prevs_nodup org connection, hi.headOf org connection⟩

/-- **The head commits to the books.** Where the calls' ids are spelled as the database prints them, snapshots that
verify one after the other and end in the head are the ones that were kept, unless two of the texts hashed have one
SHA-256. -/
theorem head_commits (h : Reached uuid sha256 db log) {others : List (LinkedLog.Entry Text LedgerSnapshotContent)}
    (linked : LinkedLog.Linked (Seals sha256) others)
    (same : LinkedLog.head others = latestSnapshotSha org connection db)
    (collisionFree : ∀ s ∈ kept log org connection, ∀ e ∈ others,
      sha256 (utf8 (hashedText s.content s.prevSha256)) = sha256 (utf8 (hashedText e.content e.before)) →
        hashedText s.content s.prevSha256 = hashedText e.content e.before) :
    others = (kept log org connection).map Stored.entry := by
  have hi := inv_of_reached h
  have hseal : ∀ {content : LedgerSnapshotContent} {before : Option Text} {digest : Text},
      Seals sha256 content before digest → digest = sha256 (utf8 (hashedText content before)) := by
    intro content before digest hs
    unfold Seals at hs
    rw [snapshotSha256_eq] at hs
    split_ifs at hs
    exact (Except.ok.inj hs).symm
  have hbind : LinkedLog.Binding (Seals sha256) ((kept log org connection).map Stored.entry) others := by
    intro e he f hf hse hsf heq
    obtain ⟨s, hs, rfl⟩ := List.mem_map.1 he
    rw [hseal hse, hseal hsf] at heq
    exact hashedText_inj (collisionFree s hs f hf heq)
  exact ((hi.linked org connection).eq_of_head_eq linked hbind (by rw [← hi.headOf]; exact same.symm)).symm

end

/-! ## Two months kept -/

def orgId : Text := "11111111-1111-4111-8111-111111111111".toList
def connectionId : Text := "22222222-2222-4222-8222-222222222222".toList
def member : Text := "55555555-5555-4555-8555-555555555555".toList
def septemberRun : Text := "33333333-3333-4333-8333-333333333333".toList
def octoberRun : Text := "44444444-4444-4444-8444-444444444444".toList

def receivable : TrialBalanceLine where
  accountExternalId := some "84".toList
  accountName := "Accounts Receivable".toList
  debitCents := ⟨125000, by decide, by decide⟩
  creditCents := ZERO

def september : SnapshotInput where
  orgId := orgId
  connectionId := connectionId
  runId := septemberRun
  window := ⟨"2026-09-01".toList, "2026-09-30".toList⟩
  read := .complete
    { asOf := "2026-09-30".toList, basis := some "Accrual".toList, currency := some "USD".toList
      lines := [receivable]
      totalDebitCents := ⟨125000, by decide, by decide⟩, totalCreditCents := ZERO }
    { window := ⟨"2026-09-01".toList, "2026-09-30".toList⟩, currency := some "USD".toList
      accounts := [
        { accountExternalId := some "84".toList
          lines := [
            { accountExternalId := none, accountName := "Accounts Receivable".toList, date := "2026-09-15".toList
              transactionType := some "Invoice".toList, transactionExternalId := some "130".toList
              documentNumber := some "1037".toList
              debitCents := ⟨125000, by decide, by decide⟩, creditCents := ZERO }] }] }

def october : SnapshotInput where
  orgId := orgId
  connectionId := connectionId
  runId := octoberRun
  window := ⟨"2026-10-01".toList, "2026-10-31".toList⟩
  read := .refused "LedgerBooksNotReadableError".toList

def accountsReceivable : SnapshotTrialBalanceLine where
  account_external_id := some "84".toList
  account_name := "Accounts Receivable".toList
  debit_cents := "125000".toList
  credit_cents := "0".toList

def septemberContent : LedgerSnapshotContent where
  org_id := orgId
  connection_id := connectionId
  run_id := septemberRun
  as_of := "2026-09-30".toList
  window_from := "2026-09-01".toList
  window_to := "2026-09-30".toList
  basis := some "Accrual".toList
  currency := some "USD".toList
  status := .complete
  refusal_class := none
  total_debit_cents := some "125000".toList
  total_credit_cents := some "0".toList
  trial_balance := [accountsReceivable]
  ledger_postings := [
    { toSnapshotTrialBalanceLine := accountsReceivable, txn_date := "2026-09-15".toList
      txn_type := some "Invoice".toList, transaction_external_id := some "130".toList
      doc_number := some "1037".toList }]

def octoberContent : LedgerSnapshotContent where
  org_id := orgId
  connection_id := connectionId
  run_id := octoberRun
  as_of := "2026-10-31".toList
  window_from := "2026-10-01".toList
  window_to := "2026-10-31".toList
  basis := none
  currency := none
  status := .refused
  refusal_class := some "LedgerBooksNotReadableError".toList
  total_debit_cents := none
  total_credit_cents := none
  trial_balance := []
  ledger_postings := []

/-- The SHA-256 of the two texts hashed. -/
def septemberHash : Text := "2e8541e0566203d4b431286a1b24cea37dbe6b27e4a8573a8a310d78e0300529".toList
def octoberHash : Text := "6b14c61e330a633c53dce3e958caf309fcad7eaf34922d94e7208c14eb924b67".toList

def sha256 (bytes : ByteArray) : Text :=
  if bytes = utf8 (hashedText septemberContent none) then septemberHash else octoberHash

def monthRun (run from_ to_ : Text) (id : Text) : Option SyncRun :=
  if id = run then
    some { org_id := orgId, requested_by := member, connection_id := connectionId, outcome := .completed
           window_from := from_, window_to := to_ }
  else none

def tenant : Tenant := ⟨orgId, member⟩

theorem septemberContent_eq : buildLedgerSnapshot september = .ok septemberContent := by rfl

theorem octoberContent_eq : buildLedgerSnapshot october = .ok octoberContent := by rfl

theorem hashes_ne : septemberHash ≠ octoberHash := by decide

theorem septemberHash_eq : snapshotSha256 sha256 septemberContent none = .ok septemberHash := by
  rw [snapshotSha256_eq, if_neg (by decide), sha256, if_pos rfl]

theorem sha256_october : sha256 (utf8 (hashedText octoberContent (some septemberHash))) = octoberHash := by
  have hne : utf8 (hashedText octoberContent (some septemberHash)) ≠ utf8 (hashedText septemberContent none) := by
    intro h
    have hcontent := (hashedText_inj (utf8_injective h)).1
    exact absurd (congrArg LedgerSnapshotContent.status hcontent) (by decide)
  rw [sha256, if_neg hne]

theorem octoberHash_eq : snapshotSha256 sha256 octoberContent (some septemberHash) = .ok octoberHash := by
  have hhex : isSha256Hex septemberHash = true := by rfl
  rw [snapshotSha256_eq, if_neg (by simp [hhex]), sha256_october]

/-- The tables after September, and after October. -/
def afterSeptember : Db :=
  ((recordLedgerSnapshot some tenant (monthRun septemberRun "2026-09-01".toList "2026-09-30".toList) "a".toList
    septemberContent septemberHash none { snapshots := [], lines := [] }).toOption.map (·.2)).getD
      { snapshots := [], lines := [] }

def afterOctober : Db :=
  ((recordLedgerSnapshot some tenant (monthRun octoberRun "2026-10-01".toList "2026-10-31".toList) "b".toList
    octoberContent octoberHash (some septemberHash) afterSeptember).toOption.map (·.2)).getD
      { snapshots := [], lines := [] }

def twoMonths : List Kept :=
  [⟨orgId, connectionId, "a".toList, ⟨septemberContent, septemberHash, none⟩⟩,
    ⟨orgId, connectionId, "b".toList, ⟨octoberContent, octoberHash, some septemberHash⟩⟩]

theorem afterSeptember_recorded :
    recordLedgerSnapshot some tenant (monthRun septemberRun "2026-09-01".toList "2026-09-30".toList) "a".toList
      septemberContent septemberHash none { snapshots := [], lines := [] } = .ok ("a".toList, afterSeptember) := by
  rfl

theorem afterOctober_recorded :
    recordLedgerSnapshot some tenant (monthRun octoberRun "2026-10-01".toList "2026-10-31".toList) "b".toList
      octoberContent octoberHash (some septemberHash) afterSeptember = .ok ("b".toList, afterOctober) := by
  rfl

theorem afterOctober_reached : Reached some sha256 afterOctober twoMonths :=
  .keep (.keep .start ⟨rfl, rfl, rfl⟩ septemberContent_eq septemberHash_eq afterSeptember_recorded)
    ⟨rfl, rfl, rfl⟩ octoberContent_eq octoberHash_eq afterOctober_recorded

theorem books_kept_two_months :
    audit orgId connectionId afterOctober =
      .ok [some ⟨septemberContent, septemberHash, none⟩, some ⟨octoberContent, octoberHash, some septemberHash⟩] ∧
    latestSnapshotSha orgId connectionId afterOctober = some octoberHash := by
  have h := books_kept afterOctober_reached orgId connectionId
  exact ⟨h.1, h.2.2.2⟩

theorem head_commits_two_months :
    [(⟨septemberContent, septemberHash, none⟩ : Stored).entry,
      (⟨octoberContent, octoberHash, some septemberHash⟩ : Stored).entry] =
      (kept twoMonths orgId connectionId).map Stored.entry := by
  have hlinked : LinkedLog.Linked (Seals sha256) ([(⟨septemberContent, septemberHash, none⟩ : Stored).entry] ++
      [(⟨octoberContent, octoberHash, some septemberHash⟩ : Stored).entry]) :=
    .concat (.concat .nil rfl septemberHash_eq) rfl octoberHash_eq
  have hhead : LinkedLog.head [(⟨septemberContent, septemberHash, none⟩ : Stored).entry,
      (⟨octoberContent, octoberHash, some septemberHash⟩ : Stored).entry] =
      latestSnapshotSha orgId connectionId afterOctober :=
    ((inv_of_reached afterOctober_reached).headOf orgId connectionId).symm
  have hseptember : sha256 (utf8 (hashedText septemberContent none)) = septemberHash := if_pos rfl
  refine head_commits afterOctober_reached hlinked hhead ?_
  intro s hs e he heq
  have hs' : s = ⟨septemberContent, septemberHash, none⟩ ∨ s = ⟨octoberContent, octoberHash, some septemberHash⟩ := by
    simpa [kept, twoMonths] using hs
  have he' : e = (⟨septemberContent, septemberHash, none⟩ : Stored).entry ∨
      e = (⟨octoberContent, octoberHash, some septemberHash⟩ : Stored).entry := by simpa using he
  rcases hs' with rfl | rfl <;> rcases he' with rfl | rfl
  · rfl
  · exact absurd (hseptember.symm.trans (heq.trans sha256_october)) hashes_ne
  · exact absurd (sha256_october.symm.trans (heq.trans hseptember)) hashes_ne.symm
  · rfl

end Recouple.Snapshots
