import Recouple.Qbo.PostingInvariant

/-!
# What the posting job sends

The job's judgement, call by call, and what follows of every interleaving.

* **`sent_once_gated`**: whatever runs beside what, a request leaves once in a run, of a pending row whose posting is on
  and not voided, with the row's own lines, and in a retry after QuickBooks held nothing; a run records one attempt, as
  a success only of what QuickBooks holds, and as nothing sent only where nothing was.
* **`voided_never_sent`**: no request leaves for a voided decision; one that left before its void is of a run that ended
  and recorded nothing.
-/

namespace Recouple.Qbo.PostingJob
open Js Journal Thread

section
variable {ι : Type} {T : CaseTables} {parses : Text → Bool} {operations : ι → Operation} {run : ι} {id : Text} {w : Writeback}
  {done : List (Event ι)} {s s' : Books ι}

/-! ## Calls -/

section
variable {α β : Type} {E A B : Books ι → Prop}

theorem Safe.bind {p : Run ι α} {f : α → Run ι β} {M : α → Books ι → Prop} {P : β → Books ι → Prop}
    (hp : Safe T parses operations run E A p M) (hf : ∀ a, Safe T parses operations run E (M a) (f a) P) :
    Safe T parses operations run E A (p >>= f) P :=
  Meets.bind hp hf fun _ _ => fun h => h

theorem require_safe {p : Bool} {e : JobError} (hE : ∀ s, A s → E s) :
    Safe T parses operations run E A (require p e) fun _ => A := by
  unfold require
  split
  · exact Meets.pure fun s hs => hs
  · exact Meets.throw hE

theorem ask_safe (hA : Stable (Rely T parses operations run) A) (hE : Stable (Rely T parses operations run) E)
    (hinv : ∀ s, A s → Inv T parses operations s) (h : ∀ s, A s → E s) :
    Safe T parses operations run E A (ask : Run ι α) fun _ => A := by
  refine Meets.attempt ?_ (Stable.ends (fun _ => hA) hE) ?_
  · rintro s r s' hs ⟨rfl, -⟩
    exact Guarantee.refl (hinv s' hs)
  · rintro s r s' hs ⟨rfl, ⟨a, rfl⟩ | rfl⟩
    · exact hs
    · exact h s' hs

theorem committed_safe {commit : Books ι → Except JobError (Books ι)}
    (hA : ∀ s, A s → Inv T parses operations s ∧ B s)
    (hcommit : ∀ s t, A s → commit s = .ok t → Guarantee T parses operations run s t ∧ B t)
    {s s' : Books ι} {r : Except JobError Unit} (hs : A s)
    (hact : match commit s with
      | .ok t => (r = Except.ok () ∨ r = .error .stopped) ∧ s' = t ∨ r = .error .stopped ∧ s' = s
      | .error e => (r = .error e ∨ r = .error .stopped) ∧ s' = s) :
    Guarantee T parses operations run s s' ∧ B s' := by
  cases hc : commit s with
  | ok t =>
    rw [hc] at hact
    rcases hact with ⟨-, rfl⟩ | ⟨-, rfl⟩
    · exact hcommit s s' hs hc
    · exact ⟨Guarantee.refl (hA s' hs).1, (hA s' hs).2⟩
  | error e =>
    rw [hc] at hact
    obtain ⟨-, rfl⟩ := hact
    exact ⟨Guarantee.refl (hA s' hs).1, (hA s' hs).2⟩

/-- A transaction leaves what it promises, committed or not. -/
theorem transaction_safe {commit : Books ι → Except JobError (Books ι)} (hB : Stable (Rely T parses operations run) B)
    (hA : ∀ s, A s → Inv T parses operations s ∧ B s)
    (hcommit : ∀ s t, A s → commit s = .ok t → Guarantee T parses operations run s t ∧ B t) :
    Safe T parses operations run B A (transaction commit) fun _ => B := by
  refine Meets.attempt (fun s r s' hs hact => (committed_safe hA hcommit hs hact).1) (Stable.ends (fun _ => hB) hB)
    fun s r s' hs hact => ?_
  cases r with
  | ok u => exact (committed_safe hA hcommit hs hact).2
  | error e => exact (committed_safe hA hcommit hs hact).2

/-- An event of a run that may come at any time. -/
structure Quiet (T : CaseTables) (parses : Text → Bool) (operations : ι → Operation) (run : ι) (e : Event ι) : Prop where
  owner : e.run = some run
  allowed : ∀ log, Allowed T parses operations log e
  holds : ∀ s, Holds s e
  attempt : ∀ run attempt, e ≠ .recorded run attempt

theorem client_safe {noted : α → List (Event ι)}
    (hnoted : ∀ a, noted a = [] ∨ ∃ e, noted a = [e] ∧ Quiet T parses operations run e) :
    Safe T parses operations run (Closing T parses operations run w.id) (Holding T parses operations run w done)
      (client noted) fun answer => Holding T parses operations run w (done ++ notes noted answer) := by
  have hstep : ∀ s answer, Holding T parses operations run w done s →
      Guarantee T parses operations run s { s with log := s.log ++ notes noted answer } ∧
        Holding T parses operations run w (done ++ notes noted answer) { s with log := s.log ++ notes noted answer } := by
    intro s answer hs
    have hnotes : notes noted answer = [] ∨ ∃ e, notes noted answer = [e] ∧ Quiet T parses operations run e := by
      cases answer with
      | ok a => exact hnoted a
      | error e => exact .inl rfl
    rcases hnotes with hnone | ⟨e, hone, hquiet⟩
    · rw [hnone, List.append_nil, List.append_nil]
      exact ⟨Guarantee.refl hs.inv, hs⟩
    · rw [hone]
      exact ⟨Guarantee.note hs.inv hquiet.owner (hquiet.allowed _) (hquiet.holds _) hquiet.attempt,
        hs.note (hs.inv.note (hquiet.allowed _) (hquiet.holds _) hquiet.attempt)⟩
  refine Meets.attempt ?_ (Stable.ends (fun _ => stable_holding) stable_closing) ?_
  · rintro s r s' hs (⟨answer, rfl, rfl⟩ | ⟨rfl, rfl⟩)
    · exact (hstep s answer hs).1
    · exact Guarantee.refl hs.inv
  · rintro s r s' hs (⟨answer, rfl, rfl⟩ | ⟨rfl, rfl⟩)
    · exact (hstep s answer hs).2
    · exact hs.closing

end

/-! ## The job -/

theorem recordWritebackAttempt_safe {attempt : PostingAttempt} (ha : Recordable T parses run w.id done attempt) :
    Safe T parses operations run (Closing T parses operations run w.id) (Holding T parses operations run w done)
      (recordWritebackAttempt run attempt) fun _ => Closing T parses operations run w.id := by
  refine transaction_safe stable_closing (fun s hs => ⟨hs.inv, hs.closing⟩) fun s t hs hcommit => ?_
  have hguarantee := Guarantee.record hs ha hcommit
  refine ⟨hguarantee, hguarantee.inv, ?_⟩
  rw [record_ok hcommit]
  exact hs.place

/-- What a run has done that has its posting ready. -/
structure Prepared (T : CaseTables) (parses : Text → Bool) (run : ι) (w : Writeback) (row : PostingWriteback)
    (done : List (Event ι)) : Prop where
  read : .read run row ∈ done
  row : row.writebackId = w.id
  reads : ∀ row', .read run row' ∈ done → row'.decisionId = w.decisionId
  unsent : ∀ id posting, .sent run id posting ∉ done
  unrecorded : ∀ attempt, .recorded run attempt ∉ done
  running : .ended run ∉ done

section
variable {row : PostingWriteback} {posting : Posting} {α : Type}

/-- A failure is recorded as sent unless nothing was. -/
theorem recordable_failed {attempt : PostingAttempt} (hfailed : attempt.status = .failed) (hrow : attempt.writebackId = w.id)
    (hunrecorded : ∀ attempt', .recorded run attempt' ∉ done) (hrunning : .ended run ∉ done)
    (hsent : ∀ id posting, .sent run id posting ∈ done → id = w.id ∧ isNothingSentReason attempt.reason = false) :
    Recordable T parses run w.id done attempt := by
  refine ⟨⟨hunrecorded, hrunning, fun hreason id posting hmem => ?_, fun hposted => ?_⟩, hrow,
    fun id posting hmem => (hsent id posting hmem).1⟩
  · rw [(hsent id posting hmem).2] at hreason
    cases hreason
  · rw [hfailed] at hposted
    cases hposted

theorem Prepared.note {e : Event ι} (h : Prepared T parses run w row done) (hread : ∀ row, e ≠ .read run row)
    (hsent : ∀ id posting, e ≠ .sent run id posting) (hrecorded : ∀ attempt, e ≠ .recorded run attempt)
    (hended : e ≠ .ended run) : Prepared T parses run w row (done ++ [e]) where
  read := List.mem_append_left _ h.read
  row := h.row
  reads row' hmem := h.reads row' ((List.mem_append.1 hmem).resolve_right fun hlast =>
    hread row' (List.mem_singleton.1 hlast).symm)
  unsent id posting hmem := (List.mem_append.1 hmem).elim (h.unsent id posting) fun hlast =>
    hsent id posting (List.mem_singleton.1 hlast).symm
  unrecorded attempt hmem := (List.mem_append.1 hmem).elim (h.unrecorded attempt) fun hlast =>
    hrecorded attempt (List.mem_singleton.1 hlast).symm
  running hmem := (List.mem_append.1 hmem).elim h.running fun hlast => hended (List.mem_singleton.1 hlast).symm

theorem Prepared.found {reference : Text} {existing : List JsonObject} (h : Prepared T parses run w row done) :
    Prepared T parses run w row (done ++ [.found run reference existing]) :=
  h.note (fun _ heq => by cases heq) (fun _ _ heq => by cases heq) (fun _ heq => by cases heq) fun heq => by cases heq

/-- An attempt of a run that has sent nothing. -/
theorem Prepared.recordable {attempt : PostingAttempt} (h : Prepared T parses run w row done) (hfailed : attempt.status = .failed)
    (hrow : attempt.writebackId = row.writebackId) : Recordable T parses run w.id done attempt :=
  recordable_failed hfailed (hrow.trans h.row) h.unrecorded h.running fun id posting hmem => absurd hmem (h.unsent id posting)

/-- An attempt that fails or does not match is recorded, and ends the run. -/
theorem ends_safe {attempt : PostingAttempt} {e : JobError} (ha : Recordable T parses run w.id done attempt)
    {P : α → Books ι → Prop} : Safe T parses operations run (Closing T parses operations run w.id)
      (Holding T parses operations run w done) (do recordWritebackAttempt run attempt; throw e : Run ι α) P :=
  Safe.bind (recordWritebackAttempt_safe ha) fun _ => Meets.throw fun _ hs => hs

theorem notSent_safe {reason : AttemptReason} {failure : Option Int × Option Text} (h : Prepared T parses run w row done)
    {P : α → Books ι → Prop} : Safe T parses operations run (Closing T parses operations run w.id)
      (Holding T parses operations run w done) (notSent run row.writebackId reason failure : Run ι α) P :=
  ends_safe (h.recordable rfl rfl)

theorem succeed_safe {qboTxnId : Text} {reason : AttemptReason}
    (ha : Recordable T parses run w.id done ⟨w.id, .succeeded, some qboTxnId, some reason, none, none, none⟩) :
    Safe T parses operations run (Closing T parses operations run w.id) (Holding T parses operations run w done)
      (succeed run w.id qboTxnId reason) fun _ => Closing T parses operations run w.id :=
  Safe.bind (recordWritebackAttempt_safe ha) fun _ => Meets.pure fun _ hs => hs

theorem prepare_safe (h : Prepared T parses run w row done) :
    Safe T parses operations run (Closing T parses operations run w.id) (Holding T parses operations run w done)
      (prepare T parses run row) fun posting s =>
        Holding T parses operations run w done s ∧ BuiltFrom T parses row posting := by
  unfold prepare
  split
  · exact notSent_safe h
  · rename_i invoiceId hinvoice
    refine Safe.bind (client_safe fun _ => .inl rfl) fun answer => ?_
    have hkept : done ++ notes (fun _ : Option Text => ([] : List (Event ι))) answer = done := by
      cases answer <;> simp [notes]
    rw [hkept]
    cases answer with
    | error e => exact notSent_safe h
    | ok customer =>
      cases customer with
      | none => exact notSent_safe h
      | some customerId =>
        dsimp only
        cases hbuild : buildPosting T parses row invoiceId customerId with
        | error e => exact notSent_safe h
        | ok posting =>
          dsimp only
          split
          · rename_i hlines
            exact Meets.pure fun s hs => ⟨hs, invoiceId, customerId, hinvoice, hbuild, hlines⟩
          · exact notSent_safe h

/-- What a run needs to send. -/
theorem Prepared.maySend (h : Prepared T parses run w row done) (hsendable : Sendable row)
    (hbuilt : BuiltFrom T parses row posting) (hasked : ∀ postingAllowed, operations run = .post postingAllowed w.id true →
      ∃ reference, postingReference T w.id = .ok reference ∧ .found run reference [] ∈ done) :
    MaySend T parses operations done run w.id posting :=
  ⟨h.unsent, h.unrecorded, hasked, row, h.read, h.row, hsendable, hbuilt⟩

theorem MaySend.of_mine {log : List (Event ι)} (h : MaySend T parses operations done run id posting)
    (hmine : ∀ e : Event ι, e.run = some run → (e ∈ log ↔ e ∈ done)) : MaySend T parses operations log run id posting where
  once id' posting' hmem := h.once id' posting' ((hmine _ rfl).1 hmem)
  unrecorded attempt hmem := h.unrecorded attempt ((hmine _ rfl).1 hmem)
  asked postingAllowed hop := by
    obtain ⟨reference, hreference, hfound⟩ := h.asked postingAllowed hop
    exact ⟨reference, hreference, (hmine _ rfl).2 hfound⟩
  row := by
    obtain ⟨row, hread, hid, hsendable, hbuilt⟩ := h.row
    exact ⟨row, (hmine _ rfl).2 hread, hid, hsendable, hbuilt⟩

/-- A request leaves for the row that is held. -/
theorem Holding.sends (hs : Holding T parses operations run w done s) (h : Prepared T parses run w row done)
    (hmay : MaySend T parses operations done run w.id posting) :
    Guarantee T parses operations run s (s.note (.sent run w.id posting)) ∧
      Holding T parses operations run w (done ++ [.sent run w.id posting]) (s.note (.sent run w.id posting)) := by
  have hallowed : Allowed T parses operations s.log (.sent run w.id posting) := by
    refine ⟨hmay.of_mine hs.mine, hs.inv.unposted hs.row hs.pending, fun row' hread hvoided => hs.free ?_⟩
    rw [← h.reads row' ((hs.mine _ rfl).1 hread)]
    exact hs.inv.holds _ hvoided
  have hnew : Holds (s.note (.sent run w.id posting)) (.sent run w.id posting) := by
    refine ⟨⟨w, hs.row, rfl, hs.entry⟩, .inr (.inr ⟨hs.place, ⟨w, hs.row, rfl, hs.pending⟩, fun attempt hmem => ?_⟩)⟩
    rcases List.mem_append.1 hmem with hmem | hmem
    · exact hmay.unrecorded attempt ((hs.mine _ rfl).1 hmem)
    · cases List.mem_singleton.1 hmem
  have hno : ∀ run' attempt, (.sent run w.id posting : Event ι) ≠ .recorded run' attempt := fun _ _ heq => by cases heq
  exact ⟨Guarantee.note hs.inv rfl hallowed hnew hno, hs.note (hs.inv.note hallowed hnew hno)⟩

theorem post_safe (h : Prepared T parses run w row done) (hmay : MaySend T parses operations done run w.id posting) :
    Safe T parses operations run (Closing T parses operations run w.id) (Holding T parses operations run w done)
      (post run w.id posting) fun _ =>
        Holding T parses operations run w (done ++ [.sent run w.id posting]) := by
  unfold post
  refine Safe.bind (M := fun _ => Holding T parses operations run w (done ++ [.sent run w.id posting])) ?_ fun _ => ?_
  · refine Meets.atomic ?_ (fun _ => stable_holding) ?_
    · rintro s _ s' hs rfl
      exact (hs.sends h hmay).1
    · rintro s _ s' hs rfl
      exact (hs.sends h hmay).2
  · refine (client_safe fun _ => .inl rfl).post fun r s hs => ?_
    cases r with
    | error e => exact hs
    | ok answer =>
      have hkept : notes (fun _ : JsonObject => ([] : List (Event ι))) answer = [] := by cases answer <;> rfl
      have hs' : Holding T parses operations run w (done ++ [.sent run w.id posting] ++
        notes (fun _ : JsonObject => ([] : List (Event ι))) answer) s := hs
      rw [hkept, List.append_nil] at hs'
      exact hs'

/-- What a run has done after its request. -/
structure Requested (run : ι) (w : Writeback) (row : PostingWriteback) (posting : Posting) (done : List (Event ι)) : Prop where
  read : .read run row ∈ done
  row : row.writebackId = w.id
  sent : .sent run w.id posting ∈ done
  own : ∀ id' posting', .sent run id' posting' ∈ done → id' = w.id
  unrecorded : ∀ attempt, .recorded run attempt ∉ done
  running : .ended run ∉ done

theorem Prepared.requested (h : Prepared T parses run w row done) :
    Requested run w row posting (done ++ [.sent run w.id posting]) where
  read := List.mem_append_left _ h.read
  row := h.row
  sent := List.mem_append_right _ (List.mem_singleton_self _)
  own id' posting' hmem := by
    rcases List.mem_append.1 hmem with hmem | hmem
    · exact absurd hmem (h.unsent id' posting')
    · exact (Event.sent.inj (List.mem_singleton.1 hmem)).2.1
  unrecorded attempt hmem := by
    rcases List.mem_append.1 hmem with hmem | hmem
    · exact h.unrecorded attempt hmem
    · cases List.mem_singleton.1 hmem
  running hmem := by
    rcases List.mem_append.1 hmem with hmem | hmem
    · exact h.running hmem
    · cases List.mem_singleton.1 hmem

theorem Requested.got {id' : Text} {object : JsonObject} (h : Requested run w row posting done) :
    Requested run w row posting (done ++ [.got run id' object]) where
  read := List.mem_append_left _ h.read
  row := h.row
  sent := List.mem_append_left _ h.sent
  own id' posting' hmem := by
    rcases List.mem_append.1 hmem with hmem | hmem
    · exact h.own id' posting' hmem
    · cases List.mem_singleton.1 hmem
  unrecorded attempt hmem := by
    rcases List.mem_append.1 hmem with hmem | hmem
    · exact h.unrecorded attempt hmem
    · cases List.mem_singleton.1 hmem
  running hmem := by
    rcases List.mem_append.1 hmem with hmem | hmem
    · exact h.running hmem
    · cases List.mem_singleton.1 hmem

/-- After its request a run records no attempt that sent nothing. -/
theorem Requested.recordable {attempt : PostingAttempt} (h : Requested run w row posting done)
    (hfailed : attempt.status = .failed) (hrow : attempt.writebackId = w.id)
    (hreason : isNothingSentReason attempt.reason = false) : Recordable T parses run w.id done attempt :=
  recordable_failed hfailed hrow h.unrecorded h.running fun id posting hmem => ⟨h.own id posting hmem, hreason⟩

theorem send_safe (h : Prepared T parses run w row done) (hbuilt : BuiltFrom T parses row posting)
    (hmay : MaySend T parses operations done run w.id posting) :
    Safe T parses operations run (Closing T parses operations run w.id) (Holding T parses operations run w done)
      (send T run w.id posting) fun _ => Closing T parses operations run w.id := by
  unfold send
  refine Safe.bind (post_safe h hmay) fun answer => ?_
  have hrequested : Requested run w row posting (done ++ [.sent run w.id posting]) := h.requested
  cases answer with
  | error e =>
    refine ends_safe (hrequested.recordable rfl rfl ?_)
    show isNothingSentReason (some (if _ then _ else _)) = false
    split <;> decide
  | ok created =>
    dsimp only
    cases idOf created with
    | none => exact ends_safe (hrequested.recordable rfl rfl rfl)
    | some qboTxnId =>
      refine Safe.bind (client_safe fun object => .inr ⟨_, rfl, rfl, fun _ => trivial, fun _ => trivial,
        fun _ _ heq => by cases heq⟩) fun answer => ?_
      cases answer with
      | error e =>
        have hsame : Requested run w row posting (done ++ [.sent run w.id posting] ++
            notes (fun object => [.got run qboTxnId object]) (.error e)) := by
          rw [notes, List.append_nil]
          exact hrequested
        exact ends_safe (hsame.recordable rfl rfl rfl)
      | ok got =>
        have hgot : Requested run w row posting (done ++ [.sent run w.id posting] ++ [.got run qboTxnId got]) :=
          hrequested.got
        dsimp only
        cases hverdict : verifyReadBack T posting got with
        | error e => exact Meets.throw fun s hs => Holding.closing hs
        | ok verdict =>
          cases verdict with
          | agreed =>
            refine succeed_safe ⟨⟨hgot.unrecorded, hgot.running, fun hreason => Bool.noConfusion hreason, fun _ => ?_⟩, rfl,
              hgot.own⟩
            exact ⟨row, posting, got, qboTxnId, hgot.read, hgot.row, hbuilt, rfl, hverdict,
              .inl ⟨hgot.sent, List.mem_append_right _ (List.mem_singleton_self _)⟩⟩
          | mismatch what => exact ends_safe (hgot.recordable rfl rfl rfl)

/-- What QuickBooks holds of a row is adopted where it agrees. -/
theorem adopt_safe {reference : Text} {already : JsonObject} (h : Prepared T parses run w row done)
    (hbuilt : BuiltFrom T parses row posting) (hreference : postingReference T w.id = .ok reference)
    (hfound : .found run reference [already] ∈ done) :
    Safe T parses operations run (Closing T parses operations run w.id) (Holding T parses operations run w done)
      (adopt T run w.id posting already) fun _ => Closing T parses operations run w.id := by
  unfold adopt
  cases hverdict : verifyReadBack T posting already with
  | error e => exact Meets.throw fun s hs => hs.closing
  | ok verdict =>
    cases verdict with
    | agreed =>
      cases hid : idOf already with
      | none => exact ends_safe (h.recordable rfl h.row.symm)
      | some foundId =>
        refine succeed_safe ⟨⟨h.unrecorded, h.running, fun hreason => Bool.noConfusion hreason, fun _ => ?_⟩, rfl,
          fun id posting hmem => absurd hmem (h.unsent id posting)⟩
        exact ⟨row, posting, already, foundId, h.read, h.row, hbuilt, rfl, hverdict,
          .inr ⟨hid, reference, hreference, hfound⟩⟩
    | mismatch what => exact ends_safe (h.recordable rfl h.row.symm)

theorem retrying_safe (h : Prepared T parses run w row done) (hsendable : Sendable row)
    (hbuilt : BuiltFrom T parses row posting) :
    Safe T parses operations run (Closing T parses operations run w.id) (Holding T parses operations run w done)
      (retrying T run w.id posting) fun _ => Closing T parses operations run w.id := by
  unfold retrying findByReference
  cases hreference : postingReference T w.id with
  | error e =>
    exact ends_safe (h.recordable rfl h.row.symm)
  | ok reference =>
    refine Safe.bind (client_safe fun existing => .inr ⟨_, rfl, rfl, fun _ => trivial, fun _ => trivial,
      fun _ _ heq => by cases heq⟩) fun answer => ?_
    cases answer with
    | error e =>
      have hsame : Prepared T parses run w row (done ++ notes (fun existing => [.found run reference existing]) (.error e)) := by
        rw [notes, List.append_nil]
        exact h
      exact ends_safe (hsame.recordable rfl h.row.symm)
    | ok existing =>
      have hfound : Prepared T parses run w row (done ++ [.found run reference existing]) := h.found
      have hmem : .found run reference existing ∈ done ++ [.found run reference existing] :=
        List.mem_append_right _ (List.mem_singleton_self _)
      match existing, hfound, hmem with
      | [], hfound, hmem => exact send_safe hfound hbuilt (hfound.maySend hsendable hbuilt fun _ _ => ⟨reference, hreference, hmem⟩)
      | [already], hfound, hmem => exact adopt_safe hfound hbuilt hreference hmem
      | _ :: _ :: _, hfound, hmem => exact ends_safe (hfound.recordable rfl h.row.symm)

end

/-- The row that was read. -/
def PostingWriteback.stored (row : PostingWriteback) : Writeback :=
  ⟨row.writebackId, row.decisionId, row.method, row.status, row.qboTxnId, row.connectionId, row.amountCents, row.lines⟩

/-- What is read of a row that may be sent: its run has it, and nothing of it can change. -/
theorem writebackForPosting_safe :
    Safe T parses operations run (Closing T parses operations run id) (Running T parses operations run id [])
      (writebackForPosting run id) fun answer s => Closing T parses operations run id s ∧
        ∀ row, answer = some row → Sendable row →
          Holding T parses operations run row.stored [.read run row] s ∧ row.writebackId = id := by
  have hread : ∀ s facts w, Running T parses operations run id [] s → Rows.lookup Writeback.id s.writebacks id = some w →
      Guarantee T parses operations run s (s.note (.read run (rowFor s facts w))) ∧
        (Sendable (rowFor s facts w) →
          Holding T parses operations run w [.read run (rowFor s facts w)] (s.note (.read run (rowFor s facts w)))) := by
    intro s facts w hs hw
    obtain ⟨hmem, rfl⟩ := (Rows.lookup_eq_some hs.inv.keyed.ids).1 hw
    have hno : ∀ run' attempt, (.read run (rowFor s facts w) : Event ι) ≠ .recorded run' attempt :=
      fun _ _ heq => by cases heq
    have hnew : Holds (s.note (.read run (rowFor s facts w))) (.read run (rowFor s facts w)) := ⟨w, hmem, rfl, rfl⟩
    have hinv := hs.inv.note (e := .read run (rowFor s facts w)) trivial hnew hno
    refine ⟨Guarantee.note hs.inv rfl trivial hnew hno, fun hsendable => ⟨hs.note hinv, hmem, hsendable.pending,
      of_decide_eq_false hsendable.voided, ?_⟩⟩
    cases hmethod : w.method with
    | journal_entry => exact .inl hmethod
    | payment_application =>
      obtain ⟨txnId, htxn⟩ := Option.isSome_iff_exists.1 (hsendable.entry hmethod)
      obtain ⟨e, he, -⟩ := Option.bind_eq_some_iff.1 htxn
      have hfound : e.decisionId = w.decisionId ∧ e.method = .journal_entry ∧ e.status = .succeeded := by
        simpa using List.find?_some he
      exact .inr ⟨e, List.mem_of_find?_eq_some he, hfound.1, hfound.2.2⟩
  refine Meets.attempt ?_ (Stable.ends (fun answer => stable_closing.and ?_) stable_closing) ?_
  · intro s r s' hs hact
    cases hlookup : Rows.lookup Writeback.id s.writebacks id with
    | none =>
      rw [hlookup] at hact
      rw [hact.1]
      exact Guarantee.refl hs.inv
    | some w =>
      rw [hlookup] at hact
      rcases hact with ⟨facts, -, rfl⟩ | ⟨-, rfl⟩
      · exact (hread s facts w hs hlookup).1
      · exact Guarantee.refl hs.inv
  · intro s s' hs hR row hrow hsendable
    obtain ⟨hholding, hid⟩ := hs row hrow hsendable
    exact ⟨stable_holding s s' hholding hR, hid⟩
  · intro s r s' hs hact
    cases hlookup : Rows.lookup Writeback.id s.writebacks id with
    | none =>
      rw [hlookup] at hact
      obtain ⟨rfl, rfl | rfl⟩ := hact
      · exact ⟨⟨hs.inv, hs.place⟩, fun row hrow => by cases hrow⟩
      · exact ⟨hs.inv, hs.place⟩
    | some w =>
      rw [hlookup] at hact
      rcases hact with ⟨facts, rfl, rfl⟩ | ⟨rfl, rfl⟩
      · obtain ⟨hguarantee, hholding⟩ := hread s facts w hs hlookup
        refine ⟨⟨hguarantee.inv, hs.place⟩, fun row hrow hsendable => ?_⟩
        obtain rfl := Option.some_inj.1 hrow
        exact ⟨hholding hsendable, show w.id = id from Rows.key_of_lookup hlookup⟩
      · exact ⟨hs.inv, hs.place⟩

/-- A row that is not refused may be sent. -/
theorem sendable_of_refusal {row : PostingWriteback} (h : refusal row = none) : Sendable row := by
  unfold refusal at h
  split at h
  · cases h
  · rename_i henabled
    split at h
    · cases h
    · rename_i hvoided
      split at h
      · cases h
      · rename_i hpending
        split at h
        · cases h
        · rename_i hentry
          refine ⟨not_not.1 hpending, by simpa using henabled, by simpa using hvoided, fun hmethod => ?_⟩
          exact Option.isSome_iff_ne_none.2 fun hnone => hentry ⟨hmethod, hnone⟩

/-- The run has read its row. -/
theorem prepared_read {row : PostingWriteback} :
    Prepared T parses run row.stored row [.read run row] where
  read := List.mem_singleton_self _
  row := rfl
  reads row' hmem := by
    cases List.mem_singleton.1 hmem
    rfl
  unsent id posting hmem := by cases List.mem_singleton.1 hmem
  unrecorded attempt hmem := by cases List.mem_singleton.1 hmem
  running hmem := by cases List.mem_singleton.1 hmem

theorem postWritebackJob_safe {postingAllowed retry : Bool} (hop : operations run = .post postingAllowed id retry) :
    Safe T parses operations run (Closing T parses operations run id) (Running T parses operations run id [])
      (postWritebackJob T parses postingAllowed run id retry) fun _ => Closing T parses operations run id := by
  have hclosing : ∀ s, Running T parses operations run id [] s → Closing T parses operations run id s :=
    fun s hs => ⟨hs.inv, hs.place⟩
  refine Safe.bind (require_safe hclosing) fun _ => ?_
  refine Safe.bind (ask_safe stable_running stable_closing (fun s hs => hs.inv) hclosing) fun mayWrite => ?_
  refine Safe.bind (require_safe hclosing) fun _ => ?_
  refine Safe.bind writebackForPosting_safe fun answer => ?_
  cases answer with
  | none => exact Meets.throw fun s hs => hs.1
  | some row =>
    dsimp only
    split
    · exact Meets.pure fun s hs => hs.1
    · cases hrefusal : refusal row with
      | some reason => exact Meets.throw fun s hs => hs.1
      | none =>
        have hsendable := sendable_of_refusal hrefusal
        refine (Meets.assume (p := row.writebackId = id) (A := Holding T parses operations run row.stored [.read run row])
          fun hid => ?_).mono fun s hs => hs.2 row rfl hsendable
        subst hid
        refine Safe.bind (ask_safe stable_holding stable_closing (fun s hs => hs.inv) fun s hs => hs.closing) fun connected => ?_
        refine Safe.bind (require_safe fun s hs => hs.closing) fun _ => ?_
        refine Safe.bind (prepare_safe prepared_read) fun posting => Meets.assume fun hbuilt => ?_
        split
        · exact retrying_safe prepared_read hsendable hbuilt
        · rename_i hretry
          refine send_safe prepared_read hbuilt (prepared_read.maySend hsendable hbuilt fun allowed hagain => ?_)
          -- the run is no retry
          obtain ⟨-, -, rfl⟩ := Operation.post.inj (hop.symm.trans hagain)
          exact absurd rfl hretry

/-! ## Every operation -/

/-- A run that has done nothing. -/
def Idle (T : CaseTables) (parses : Text → Bool) (operations : ι → Operation) (run : ι) (s : Books ι) : Prop :=
  Inv T parses operations s ∧ ∀ e : Event ι, e.run = some run → e ∉ s.log

theorem stable_idle : Stable (Rely T parses operations run) (Idle T parses operations run) :=
  fun _ _ hs h => ⟨h.inv, fun e he hmem => hs.2 e he ((h.mine e he).1 hmem)⟩

theorem runPostWriteback_safe {postingAllowed retry : Bool} (hop : operations run = .post postingAllowed id retry) :
    Safe T parses operations run (Inv T parses operations) (Idle T parses operations run)
      (runPostWriteback T parses postingAllowed run id retry) fun _ => Inv T parses operations := by
  refine Safe.bind (M := fun _ => Running T parses operations run id []) ?_ fun _ => ?_
  · refine Meets.atomic ?_ (fun _ => stable_running) ?_
    · rintro s _ s' hs ⟨hfree, rfl⟩
      exact Guarantee.acquire hs.1 hfree
    · rintro s _ s' hs ⟨hfree, rfl⟩
      exact ⟨hs.1.acquire hfree, Function.update_self _ _ _, fun e he => iff_of_false (hs.2 e he) List.not_mem_nil⟩
  · refine Meets.ending (postWritebackJob_safe hop) fun r => ?_
    have hclosing : ∀ s, Ends (fun _ => Closing T parses operations run id) (Closing T parses operations run id) r s →
        Closing T parses operations run id s := by
      intro s hs
      cases r with
      | ok result => exact hs
      | error e => exact hs
    have hinv : ∀ s, Inv T parses operations s → Ends (fun _ : JobResult => Inv T parses operations)
        (Inv T parses operations) r s := by
      intro s hs
      cases r with
      | ok result => exact hs
      | error e => exact hs
    refine Meets.atomic ?_ (fun _ => ?_) ?_
    · rintro s _ s' hs rfl
      exact Guarantee.release (hclosing s hs).1 (hclosing s hs).2
    · refine Stable.const.and ?_
      exact Stable.ends (fun _ => stable_inv) stable_inv r
    · rintro s _ s' hs rfl
      exact ⟨rfl, hinv _ ((hclosing s hs).1.release (hclosing s hs).2)⟩

theorem insertWriteback_safe {new : Writeback} : Safe T parses operations run (Inv T parses operations)
    (Inv T parses operations) (insertWriteback new) fun _ => Inv T parses operations := by
  refine Safe.bind (transaction_safe stable_inv (fun s hs => ⟨hs, hs⟩) fun s t hs hcommit => ?_) fun _ =>
    Meets.pure fun s hs => hs
  split at hcommit
  · cases hcommit
  · rename_i hany
    obtain rfl := Except.ok.inj hcommit
    have hnew : ∀ w ∈ s.writebacks, w.id ≠ new.id ∧ ¬ (w.decisionId = new.decisionId ∧ w.method = new.method) := by
      simpa [List.any_eq_true, not_or] using hany
    have hinv : Inv T parses operations
        { s with writebacks := s.writebacks ++ [{ new with status := .pending, qboTxnId := none }] } := hs.insert hnew
    exact ⟨⟨hinv, fun other _ => ⟨hinv, fun _ _ => Iff.rfl, fun _ h => h, fun _ hw _ _ => List.mem_append_left _ hw,
      fun _ hw hposted => (Evolves.append _ _).posted hw hposted, fun _ => .inl⟩⟩, hinv⟩

theorem requeueWriteback_safe : Safe T parses operations run (Inv T parses operations)
    (Inv T parses operations) (requeueWriteback id) fun _ => Inv T parses operations := by
  refine Safe.bind (transaction_safe stable_inv (fun s hs => ⟨hs, hs⟩) fun s t hs hcommit => ?_) fun _ =>
    Meets.pure fun s hs => hs
  cases hlookup : Rows.lookup Writeback.id s.writebacks id with
  | none =>
    rw [hlookup] at hcommit
    cases hcommit
  | some w =>
    rw [hlookup] at hcommit
    dsimp only at hcommit
    split at hcommit
    · cases hcommit
    · split at hcommit
      · cases hcommit
      · rename_i hfailed
        obtain rfl := Except.ok.inj hcommit
        obtain rfl := Rows.key_of_lookup hlookup
        have hguarantee : Guarantee T parses operations run s _ := hs.requeue (Rows.mem_of_lookup hlookup) (not_not.1 hfailed)
        exact ⟨hguarantee, hguarantee.inv⟩

theorem voidSettlementPosting_safe {decisionId : Text} : Safe T parses operations run (Inv T parses operations)
    (Inv T parses operations) (voidSettlementPosting decisionId) fun _ => Inv T parses operations := by
  refine Safe.bind (M := fun _ => Inv T parses operations) ?_ fun before => ?_
  · refine Meets.attempt ?_ (Stable.ends (fun _ => stable_inv) stable_inv) ?_
    · rintro s r s' hs ⟨rfl, -⟩
      exact Guarantee.refl hs
    · rintro s r s' hs ⟨rfl, -⟩
      cases r with
      | ok rows => exact hs
      | error e => exact hs
  · refine Safe.bind (ask_safe stable_inv stable_inv (fun s hs => hs) fun s hs => hs) fun holdsNothing => ?_
    refine Safe.bind (require_safe fun s hs => hs) fun _ => ?_
    refine Safe.bind (transaction_safe stable_inv (fun s hs => ⟨hs, hs⟩) fun s t hs hcommit => ?_) fun _ =>
      Meets.pure fun s hs => hs
    split at hcommit
    · cases hcommit
    · rename_i rows hcheck
      split at hcommit
      · cases hcommit
      · obtain rfl := Except.ok.inj hcommit
        have hguarantee : Guarantee T parses operations run s _ := hs.void hcheck
        exact ⟨hguarantee, hguarantee.inv⟩

theorem thread_safe : Safe T parses operations run (Inv T parses operations) (Idle T parses operations run)
    ((operations run).thread T parses run) fun _ => Inv T parses operations := by
  cases hop : operations run with
  | insert new => exact insertWriteback_safe.mono fun s hs => hs.1
  | post postingAllowed id retry => exact runPostWriteback_safe hop
  | requeue id => exact requeueWriteback_safe.mono fun s hs => hs.1
  | void decisionId => exact voidSettlementPosting_safe.mono fun s hs => hs.1

/-! ## Every interleaving -/

theorem inv_start : Inv T parses operations (⟨[], [], [], fun _ => none, []⟩ : Books ι) where
  keyed := ⟨List.nodup_nil, fun _ hw => absurd hw List.not_mem_nil⟩
  holds _ he := absurd he List.not_mem_nil
  voided _ hd := absurd hd List.not_mem_nil
  legal before e after h := absurd h.symm (List.append_ne_nil_of_right_ne_nil _ (List.cons_ne_nil _ _))

variable [DecidableEq ι] {c : Config ι (Books ι) JobError JobResult}

/-- Wherever the operations get, the invariant holds. -/
theorem inv_of_reaches (h : (start T parses operations).Reaches c) : Inv T parses operations c.shared := by
  have hstart : (start T parses operations).Sound (Rely T parses operations) (Guarantee T parses operations)
      fun _ => Ends (fun _ => Inv T parses operations) (Inv T parses operations) :=
    fun run => ⟨Idle T parses operations run, stable_idle, ⟨inv_start, fun _ _ => List.not_mem_nil⟩, thread_safe⟩
  exact (Config.sound_of_reaches (fun _ _ hne _ _ hG => hG.others _ hne) (fun _ _ _ hG _ => hG.inv) hstart inv_start h).2

omit [DecidableEq ι] in
/-- The posting of a row is one of the builders'. -/
theorem BuiltFrom.built {row : PostingWriteback} {posting : Posting} (h : BuiltFrom T parses row posting) :
    Built T parses posting := by
  obtain ⟨invoiceId, customerId, -, hbuild, -⟩ := h
  unfold buildPosting at hbuild
  dsimp only at hbuild
  split at hbuild
  · exact .zeroPayment hbuild
  · split at hbuild
    · exact .stored hbuild
    · split at hbuild
      · cases hbuild
      · split at hbuild
        · exact .found hbuild
        · exact .settlement hbuild

theorem sameLines_iff {built : List PostingLine} {stored : Option (List PostingLine)} :
    sameLines built stored = true ↔ stored = some built := by
  cases stored with
  | none => simp [sameLines]
  | some stored =>
    rw [sameLines, Bool.and_eq_true, decide_eq_true_eq, Option.some_inj]
    constructor
    · rintro ⟨hlength, hall⟩
      refine List.ext_getElem hlength fun i h1 h2 => ?_
      have hpair := List.all_eq_true.1 hall (built[i], stored[i]) (by
        rw [List.mem_iff_getElem]
        exact ⟨i, by rw [List.length_zip]; omega, List.getElem_zip⟩)
      obtain ⟨haccount, hside, hamount⟩ := of_decide_eq_true hpair
      cases hs : stored[i]
      cases hb : built[i]
      rw [hs, hb] at haccount hside hamount
      simp_all
    · rintro rfl
      refine ⟨rfl, List.all_eq_true.2 fun pair hpair => ?_⟩
      obtain ⟨i, hi, rfl⟩ := List.mem_iff_getElem.1 hpair
      simp

omit [DecidableEq ι] in
/-- An entry has its row's lines. -/
theorem BuiltFrom.lines {row : PostingWriteback} {posting : Posting} (h : BuiltFrom T parses row posting)
    (entry : JournalEntryPosting) (hentry : posting = .journalEntry entry) : row.lines = some entry.lines := by
  obtain ⟨-, -, -, -, hkept⟩ := h
  subst hentry
  exact sameLines_iff.1 hkept

omit [DecidableEq ι] in
/-- What comes after an event was allowed after it. -/
theorem Legal.later {log before after : List (Event ι)} {e e' : Event ι} (h : Legal T parses operations log)
    (hlog : log = before ++ e :: after) (he' : e' ∈ after) :
    ∃ between, e ∈ between ∧ (∀ x ∈ before, x ∈ between) ∧ Allowed T parses operations between e' := by
  obtain ⟨middle, rest, rfl⟩ := List.append_of_mem he'
  refine ⟨before ++ e :: middle, by simp, fun x hx => List.mem_append_left _ hx, h (before ++ e :: middle) e' rest ?_⟩
  rw [hlog, List.append_assoc, List.cons_append]

omit [DecidableEq ι] in
theorem Legal.earlier {log before : List (Event ι)} {e : Event ι} (h : Legal T parses operations log) (he : e ∈ before)
    {after : List (Event ι)} (hlog : log = before ++ after) :
    ∃ earlier, (∀ x ∈ earlier, x ∈ before) ∧ Allowed T parses operations earlier e := by
  obtain ⟨earlier, rest, rfl⟩ := List.append_of_mem he
  refine ⟨earlier, fun x hx => List.mem_append_left _ hx, h earlier e (rest ++ after) ?_⟩
  rw [hlog, List.append_assoc, List.cons_append]

/-- **A request leaves once in a run, and only for a row that may be sent**, with the row's own lines; in a retry, after
QuickBooks was asked and held nothing. A run records one attempt: a success only where QuickBooks holds the posting of
the row it read, and an attempt that sent nothing only where nothing was sent. Nothing is sent or recorded of a row after its success. -/
theorem sent_once_gated (hT : UpperCase T) (h : (start T parses operations).Reaches c) :
    (∀ before run id posting after, c.shared.log = before ++ .sent run id posting :: after →
      (∀ id' posting', .sent run id' posting' ∉ before ++ after) ∧ Unposted before id ∧
      (∀ postingAllowed, operations run = .post postingAllowed id true →
        ∃ reference, postingReference T id = .ok reference ∧ .found run reference [] ∈ before) ∧
      ∃ row, .read run row ∈ before ∧ row.writebackId = id ∧ Sendable row ∧ BuiltFrom T parses row posting ∧
        Built T parses posting ∧ ∀ entry, posting = .journalEntry entry → row.lines = some entry.lines) ∧
    ∀ before run attempt after, c.shared.log = before ++ .recorded run attempt :: after →
      (∀ attempt', .recorded run attempt' ∉ before ++ after) ∧ Unposted before attempt.writebackId ∧
      (isNothingSentReason attempt.reason = true → ∀ id posting, .sent run id posting ∉ before ++ after) ∧
      (attempt.status = .succeeded → ∃ row posting got id, .read run row ∈ before ∧
        row.writebackId = attempt.writebackId ∧ BuiltFrom T parses row posting ∧
        (∀ entry, posting = .journalEntry entry → row.lines = some entry.lines) ∧
        attempt.qboTxnId = some id ∧ Agrees posting got ∧
        (.sent run attempt.writebackId posting ∈ before ∧ .got run id got ∈ before ∨
          idOf got = some id ∧ ∃ reference, postingReference T attempt.writebackId = .ok reference ∧
            .found run reference [got] ∈ before)) := by
  have hlegal := (inv_of_reaches h).legal
  refine ⟨fun before run id posting after hlog => ?_, fun before run attempt after hlog => ?_⟩
  · obtain ⟨hmay, hunposted, -⟩ := hlegal before _ after hlog
    obtain ⟨row, hread, hrow, hsendable, hbuilt⟩ := hmay.row
    refine ⟨fun id' posting' hmem => ?_, hunposted, hmay.asked, row, hread, hrow, hsendable, hbuilt, hbuilt.built,
      hbuilt.lines⟩
    rcases List.mem_append.1 hmem with hmem | hmem
    · exact hmay.once id' posting' hmem
    · obtain ⟨between, hsent, -, hmay', -⟩ := hlegal.later hlog hmem
      exact hmay'.once id posting hsent
  · obtain ⟨hmay, hunposted⟩ := hlegal before _ after hlog
    refine ⟨fun attempt' hmem => ?_, hunposted, fun hreason id posting hmem => ?_, fun hposted => ?_⟩
    · rcases List.mem_append.1 hmem with hmem | hmem
      · exact hmay.once attempt' hmem
      · obtain ⟨between, hrecorded, -, hmay', -⟩ := hlegal.later hlog hmem
        exact hmay'.once attempt hrecorded
    · rcases List.mem_append.1 hmem with hmem | hmem
      · exact hmay.honest hreason id posting hmem
      · obtain ⟨between, hrecorded, -, hmay', -⟩ := hlegal.later hlog hmem
        exact hmay'.unrecorded attempt hrecorded
    · obtain ⟨row, posting, got, id, hread, hrow, hbuilt, htxn, hagreed, hhow⟩ := hmay.verified hposted
      refine ⟨row, posting, got, id, hread, hrow, hbuilt, hbuilt.lines, htxn, ?_, hhow⟩
      obtain ⟨answer, hanswer, hiff⟩ := verifyReadBack_returns (T := T) posting got
      obtain rfl := Except.ok.inj (hanswer.symm.trans hagreed)
      exact (clean_compare hT hbuilt.built.isSent got).1 (hiff.1 rfl)

/-- **Nothing is sent for a voided decision**: no request of its rows leaves after the void, and one that left before is
of a run that had ended and never records anything. -/
theorem voided_never_sent (h : (start T parses operations).Reaches c) {before after : List (Event ι)} {decisionId : Text}
    (hvoid : c.shared.log = before ++ .voided decisionId :: after) {w : Writeback} (hw : w ∈ c.shared.writebacks)
    (hdecision : w.decisionId = decisionId) (run : ι) (posting : Posting) :
    .sent run w.id posting ∉ after ∧
      (.sent run w.id posting ∈ before → .ended run ∈ before ∧ ∀ attempt, .recorded run attempt ∉ c.shared.log) := by
  have hinv := inv_of_reaches h
  -- the row a run reads is the row of the table
  have hread : ∀ row, .read run row ∈ c.shared.log → row.writebackId = w.id → row.decisionId = decisionId := by
    intro row hmem hid
    obtain ⟨w', hw', hid', hdecision'⟩ := hinv.holds _ hmem
    obtain rfl := List.inj_on_of_nodup_map hinv.keyed.ids hw' hw (hid'.trans hid)
    exact hdecision'.symm.trans hdecision
  constructor
  · intro hsent
    obtain ⟨middle, rest, rfl⟩ := List.append_of_mem hsent
    have hlog : c.shared.log = (before ++ .voided decisionId :: middle) ++ .sent run w.id posting :: rest := by
      rw [hvoid, List.append_assoc, List.cons_append]
    obtain ⟨hmay, -, hfree⟩ := hinv.legal _ _ _ hlog
    obtain ⟨row, hmem, hid, -, -⟩ := hmay.row
    have hrow := hread row (hlog ▸ List.mem_append_left _ hmem) hid
    exact hfree row hmem (by rw [hrow]; simp)
  · intro hsent
    obtain ⟨earlier, hearlier, hmay, -, -⟩ := hinv.legal.earlier hsent hvoid
    obtain ⟨row, hmem, hid, -, -⟩ := hmay.row
    have hmem' := hearlier _ hmem
    have hrow := hread row (hvoid ▸ List.mem_append_left _ hmem') hid
    obtain ⟨hended, hnone⟩ := hinv.legal before _ after hvoid run row posting hmem' hrow (hid.symm ▸ hsent)
    refine ⟨hended, fun attempt hrecorded => ?_⟩
    rw [hvoid] at hrecorded
    rcases List.mem_append.1 hrecorded with hrecorded | hrecorded
    · exact hnone attempt hrecorded
    · rcases List.mem_cons.1 hrecorded with hrecorded | hrecorded
      · cases hrecorded
      · obtain ⟨between, -, hbefore, hmay', -⟩ := hinv.legal.later hvoid hrecorded
        exact hmay'.running (hbefore _ hended)

end

/-! ## A row that is sent, and voided -/

/-- A settlement's entry of 29 cents. -/
def heldRow : Writeback :=
  ⟨"0123abcd-0000-4000-8000-000000000000".toList, "d1".toList, .journal_entry, .pending, none, "c1".toList, twentyNine,
    some ((storedPair twentyNine).map (·.line))⟩

def heldFacts (invoiceId : Option Text) : Facts where
  deductionId := "4f".toList
  schemaId := .S
  realmId := "9".toList
  postingEnabled := true
  settlementLines := some (storedPair twentyNine)
  caseAmountCents := twentyNine
  family := none
  outcome := some .lost
  recoveredCents := none
  invoiceId := invoiceId
  approvedOn := "2026-06-01".toList
  map := ⟨[], [], fun _ => [], []⟩

def heldBooks (log : List (Event (Fin 4))) : Books (Fin 4) := ⟨[heldRow], [], [], fun _ => none, log⟩

def readRow (s : Books (Fin 4)) (invoiceId : Option Text) : PostingWriteback := rowFor s (heldFacts invoiceId) heldRow

/-- The row is inserted, posted twice and voided. -/
def fourOperations : Fin 4 → Operation
  | 0 => .insert heldRow
  | 1 => .post true heldRow.id false
  | 2 => .post true heldRow.id false
  | 3 => .void "d1".toList

theorem held_built : ∃ posting, buildPosting asciiCase (fun _ => true) (readRow (heldBooks []) (some "5".toList)) "5".toList
    "7".toList = .ok posting ∧ linesKept posting heldRow.lines = true := by
  have h : (buildPosting asciiCase (fun _ => true) (readRow (heldBooks []) (some "5".toList)) "5".toList "7".toList).map
      (fun posting => linesKept posting heldRow.lines) = .ok true := by decide +kernel
  exact KeyedFold.map_ok.1 h

/-- A posting is made ready in one step. -/
theorem prepare_runs {ι : Type} {T : CaseTables} {parses : Text → Bool} {run : ι} {row : PostingWriteback} {posting : Posting}
    {invoiceId customerId : Text} {α : Type} {k : Posting → Run ι α} {q : Run ι Unit} {s s' : Books ι} {t : Run ι α}
    (hinvoice : row.invoiceId = some invoiceId) (hbuild : buildPosting T parses row invoiceId customerId = .ok posting)
    (hkept : linesKept posting row.lines = true) (h : Runs ((k posting).ending q) s t s') :
    Runs ((prepare T parses run row >>= k).ending q) s t s' := by
  unfold prepare
  rw [hinvoice]
  refine Runs.act (.ok (.ok (some customerId))) (.inl ⟨.ok (some customerId), rfl, rfl⟩) ?_
  show Runs (Thread.ending (Thread.bind (Thread.bind (Thread.done (.ok (Except.ok (some customerId)))) _) k) q) _ t s'
  simp only [Thread.bind, hbuild, hkept, if_true, notes, List.append_nil]
  exact h

/-- The row with an attempt that sent nothing. -/
def failedBooks (log : List (Event (Fin 4))) : Books (Fin 4) :=
  ⟨[{ heldRow with status := .failed }], [(heldRow.id, some .no_invoice)], [], fun _ => none, log⟩

/-- What the first run does: its process stops before QuickBooks answers. -/
def cutLog (posting : Posting) : List (Event (Fin 4)) :=
  [.read 1 (readRow (heldBooks []) (some "5".toList)), .sent 1 heldRow.id posting, .ended 1]

/-- What the second does: its case names no invoice. -/
def unsentLog : List (Event (Fin 4)) :=
  [.read 2 (readRow (heldBooks []) none), .recorded 2 (failedAttempt heldRow.id .no_invoice (none, none)), .ended 2]

theorem place_back (id : Text) (run : Fin 4) :
    Function.update (Function.update (fun _ : Text => (none : Option (Fin 4))) id (some run)) id none = fun _ => none := by
  rw [Function.update_idem]
  exact Function.update_eq_self id _

/-- The first run sends, and its process stops. -/
theorem first_runs {posting : Posting} (hbuild : buildPosting asciiCase (fun _ => true)
    (readRow (heldBooks []) (some "5".toList)) "5".toList "7".toList = .ok posting) (hkept : linesKept posting heldRow.lines = true) :
    Runs (runPostWriteback asciiCase (fun _ => true) true (1 : Fin 4) heldRow.id false) (heldBooks [])
      (.done (.error .stopped)) (heldBooks (cutLog posting)) := by
  refine Runs.act () ⟨rfl, rfl⟩ ?_
  refine Runs.act (.ok true) ⟨rfl, .inl ⟨true, rfl⟩⟩ ?_
  refine Runs.act (.ok (some (readRow (heldBooks []) (some "5".toList)))) (.inl ⟨heldFacts (some "5".toList), rfl, rfl⟩) ?_
  refine Runs.act (.ok true) ⟨rfl, .inl ⟨true, rfl⟩⟩ ?_
  refine prepare_runs rfl hbuild hkept ?_
  refine Runs.act () rfl ?_
  refine Runs.act (.error .stopped) (.inr ⟨rfl, rfl⟩) ?_
  exact Runs.act () (congrArg (fun running => { heldBooks (cutLog posting) with running }) (place_back heldRow.id 1).symm) .refl

/-- The second finds no invoice. -/
theorem second_runs (log : List (Event (Fin 4))) :
    Runs (runPostWriteback asciiCase (fun _ => true) true (2 : Fin 4) heldRow.id false) (heldBooks log)
      (.done (.error (.notSent .no_invoice))) (failedBooks (log ++ unsentLog)) := by
  refine Runs.act () ⟨rfl, rfl⟩ ?_
  refine Runs.act (.ok true) ⟨rfl, .inl ⟨true, rfl⟩⟩ ?_
  refine Runs.act (.ok (some (readRow (heldBooks []) none))) (.inl ⟨heldFacts none, rfl, rfl⟩) ?_
  refine Runs.act (.ok true) ⟨rfl, .inl ⟨true, rfl⟩⟩ ?_
  refine Runs.act (.ok ()) (.inl ⟨.inl rfl, rfl⟩) ?_
  refine Runs.act () ?_ .refl
  simp only [failedBooks, unsentLog, Books.note, place_back, heldBooks, List.append_assoc, List.cons_append, List.nil_append]
  rfl

/-- The row as the second run leaves it is voided. -/
theorem void_runs (log : List (Event (Fin 4))) :
    Runs (voidSettlementPosting "d1".toList) (failedBooks log) (.done (.ok .done))
      { failedBooks log with voided := ["d1".toList], log := log ++ [.voided "d1".toList] } := by
  refine Runs.act (.ok [{ heldRow with status := .failed }]) ⟨rfl, .inl rfl⟩ ?_
  refine Runs.act (.ok true) ⟨rfl, .inl ⟨true, rfl⟩⟩ ?_
  exact Runs.act (.ok ()) (.inl ⟨.inl rfl, rfl⟩) .refl

/-- The row is inserted and the first run has sent it. -/
theorem first_reached {posting : Posting} (hbuild : buildPosting asciiCase (fun _ => true)
    (readRow (heldBooks []) (some "5".toList)) "5".toList "7".toList = .ok posting) (hkept : linesKept posting heldRow.lines = true) :
    ∃ threads, (start asciiCase (fun _ => true) fourOperations).Reaches ⟨heldBooks (cutLog posting), threads⟩ ∧
      threads 2 = runPostWriteback asciiCase (fun _ => true) true 2 heldRow.id false ∧
      threads 3 = voidSettlementPosting "d1".toList := by
  have hinsert : Runs ((start asciiCase (fun _ => true) fourOperations).threads 0)
      (start asciiCase (fun _ => true) fourOperations).shared (.done (.ok .done)) (heldBooks []) :=
    Runs.act (.ok ()) (.inl ⟨.inl rfl, rfl⟩) .refl
  exact ⟨_, (Config.reaches_of_runs hinsert).trans (@Config.reaches_of_runs _ _ _ _ _ ⟨heldBooks [], _⟩ 1 _ _
    (first_runs hbuild hkept)), rfl, rfl⟩

/-- A request of 29 cents, with the row's own lines. -/
theorem sent_once_gated_held : ∃ c, (start asciiCase (fun _ => true) fourOperations).Reaches c ∧
    ∃ before entry after, c.shared.log = before ++ .sent 1 heldRow.id (.journalEntry entry) :: after ∧
      entry.lines = (storedPair twentyNine).map (·.line) := by
  obtain ⟨posting, hbuild, hkept⟩ := held_built
  obtain ⟨threads, hreach, -⟩ := first_reached hbuild hkept
  obtain ⟨-, -, -, row, hread, -, -, -, -, hlines⟩ :=
    (sent_once_gated asciiCase_upperCase hreach).1 [.read 1 (readRow (heldBooks []) (some "5".toList))] 1 heldRow.id posting
      [.ended 1] rfl
  obtain rfl := (Event.read.inj (List.mem_singleton.1 hread)).2
  cases posting with
  | journalEntry entry =>
    exact ⟨_, hreach, [.read 1 (readRow (heldBooks []) (some "5".toList))], entry, [.ended 1], rfl,
      (Option.some_inj.1 (hlines entry rfl)).symm⟩
  | payment payment =>
    have hno : (buildPosting asciiCase (fun _ => true) (readRow (heldBooks []) (some "5".toList)) "5".toList "7".toList).map
        (fun posting => linesKept posting none) = .ok false := by decide +kernel
    rw [hbuild] at hno
    cases hno

/-- The second attempt finds no invoice, and its row is voided: the request before it was of a run that was cut. -/
theorem voided_never_sent_held : ∃ c, (start asciiCase (fun _ => true) fourOperations).Reaches c ∧
    ∃ before posting, c.shared.log = before ++ .voided "d1".toList :: [] ∧ .sent 1 heldRow.id posting ∈ before ∧
      ∀ attempt, .recorded 1 attempt ∉ c.shared.log := by
  obtain ⟨posting, hbuild, hkept⟩ := held_built
  obtain ⟨threads, hreach, hsecond, hthird⟩ := first_reached hbuild hkept
  have hruns := second_runs (cutLog posting)
  rw [← hsecond] at hruns
  have hreach' := hreach.trans (@Config.reaches_of_runs _ _ _ _ _ ⟨heldBooks (cutLog posting), threads⟩ 2 _ _ hruns)
  have hvoid := void_runs (cutLog posting ++ unsentLog)
  rw [← hthird] at hvoid
  have hreach'' := hreach'.trans (@Config.reaches_of_runs _ _ _ _ _ ⟨failedBooks (cutLog posting ++ unsentLog), _⟩ 3 _ _ hvoid)
  have hsent : .sent 1 heldRow.id posting ∈ cutLog posting ++ unsentLog := by simp [cutLog]
  exact ⟨_, hreach'', _, posting, rfl, hsent,
    ((voided_never_sent hreach'' (w := { heldRow with status := .failed }) rfl (List.mem_singleton_self _) rfl 1 posting).2 hsent).2⟩

end Recouple.Qbo.PostingJob
