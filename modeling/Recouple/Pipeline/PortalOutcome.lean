import Recouple.Pipeline.PortalRead

/-!
# The outcome row of a portal read

`Quiet` work writes no row of the run, so it keeps whatever rows and a later clock keep (`Steady`). `Recorded` says of
the rows that there is one start row and one outcome row at most, and that the outcome is true; `prepare` keeps it
with the run unsent (`Unsent`), `start` and what follows with the start row written (`Open`), until the outcome row is
(`Closed`).

* **`portal_run_recorded`**: a run that got a start row gets one outcome row, unless the job ends with what `prepare`
  or `record-failure` failed with; an outcome that says the worker was sent nothing was written before the worker
  started the run, or once it no longer held it; and a completed run counts each capture once.
* `portal_run_unrecorded`: a start row left alone by `prepare`, and a refusal recorded of a run that was started.
-/

namespace Recouple.PortalJob
open Js Calls

variable {R : Type}

/-! ## Work that writes no row of a run -/

/-- The rows of the run are the same, no capture's row is gone, and it is no earlier. -/
structure Frame (w w' : World) : Prop where
  starts : w'.starts = w.starts
  ends : w'.ends = w.ends
  started : w'.started = w.started
  captures : w.captures ⊆ w'.captures
  clock : w.clock ≤ w'.clock

theorem Frame.refl (w : World) : Frame w w := ⟨rfl, rfl, rfl, List.Subset.refl _, le_refl _⟩

theorem Frame.trans {a b c : World} (h : Frame a b) (h' : Frame b c) : Frame a c :=
  ⟨h'.starts.trans h.starts, h'.ends.trans h.ends, h'.started.trans h.started,
    fun _ hmem => h'.captures (h.captures hmem),
    h.clock.trans h'.clock⟩

theorem Frame.tick (w : World) : Frame w w.tick := ⟨rfl, rfl, rfl, List.Subset.refl _, Nat.le_succ _⟩

/-- However it ends, the rows of the run are as they were. -/
def Quiet {ε α : Type} (p : Calls World ε α) : Prop :=
  ∀ faults w, Triple faults (Frame w) p (fun _ => Frame w) (fun _ => Frame w)

/-- What rows and a later clock keep. -/
def Steady (I : World → Prop) : Prop := ∀ w w', Frame w w' → I w → I w'

section Quiet
variable {ε α β : Type} {p : Calls World ε α} {f : α → Calls World ε β}

theorem Quiet.bind (hp : Quiet p) (hf : ∀ a, Quiet (f a)) : Quiet (p >>= f) :=
  fun faults w => Triple.bind (hp faults w) fun a => hf a faults w

theorem Quiet.pure {a : α} : Quiet (Pure.pure a : Calls World ε α) := fun _ _ => Triple.pure fun _ h => h

theorem Quiet.throw {e : ε} : Quiet (Calls.throw e : Calls World ε α) := fun _ _ => Triple.throw fun _ h => h

theorem Quiet.observe {g : World → α} : Quiet (Calls.observe g : Calls World ε α) :=
  fun _ _ => Triple.observe fun _ h => h

theorem Quiet.call {failure : ε} {g : World → Except ε α × World} (hg : ∀ w, Frame w (g w).2) :
    Quiet (Calls.call failure g) := by
  intro faults w
  exact Triple.call_keeps fun s hs => hs.trans (hg s)

theorem Quiet.recover {ε' : Type} {handler : ε → Calls World ε' α} (hp : Quiet p) (hh : ∀ e, Quiet (handler e)) :
    Quiet (Calls.recover p handler) :=
  fun faults w => Triple.recover (hp faults w) fun e => hh e faults w

/-- Quiet work keeps what is steady, besides what its answer says. -/
theorem Quiet.triple {faults : Faults} {I : World → Prop} (hp : Quiet p) (hI : Steady I) :
    Triple faults I p (fun _ => I) (fun _ => I) := by
  intro n w hw
  have h := hp faults w n w (Frame.refl w)
  rcases hrun : p faults n w with ⟨r, m, w'⟩
  rw [hrun] at h
  cases r with
  | ok a => exact hI w w' h hw
  | error e => exact hI w w' h hw

/-- With what its answer says. -/
theorem Quiet.answers {faults : Faults} {I : World → Prop} {A : α → Prop} (hp : Quiet p) (hI : Steady I)
    (h : Triple faults (fun _ => True) p (fun a _ => A a) (fun _ _ => True)) :
    Triple faults I p (fun a w => I w ∧ A a) (fun _ => I) :=
  ((hp.triple hI).and (h.pre fun _ _ => trivial)).weaken fun _ _ hw => hw.1

end Quiet

theorem ask_quiet {α : Type} (failure : PortalError) (answer : Answer α) : Quiet (ask failure answer) :=
  Quiet.call fun w => Frame.tick w

theorem kept_quiet : Quiet kept := ask_quiet _ _

theorem throwIf_quiet (broken : Prop) [Decidable broken] (error : PortalError) : Quiet (throwIf broken error) := by
  unfold throwIf
  split
  · exact Quiet.throw
  · exact Quiet.pure

variable {retries : Nat}

theorem step_quiet {α : Type} {id : StepId} {work : Job α} (hwork : Quiet work) : Quiet (step retries id work) :=
  Quiet.recover
    (fun faults w =>
      Triple.retry ((hwork.bind fun _ => kept_quiet.bind fun _ => Quiet.pure) faults w) fun _ _ h => h)
    fun _ => Quiet.throw

theorem visibleConnection_quiet (deps : PortalReadJobDeps R) (input : PortalReadJobInput) :
    Quiet (visibleConnection deps input) := by
  refine (ask_quiet _ _).bind fun found => ?_
  cases found with
  | none => exact Quiet.throw
  | some connection => exact (throwIf_quiet _ _).bind fun _ => Quiet.pure

theorem permissionRefusal_quiet (deps : PortalReadJobDeps R) (actor : RunActor) (connection : PortalJobConnection) :
    Quiet (permissionRefusal deps actor connection) := by
  unfold permissionRefusal
  split
  · exact Quiet.pure
  · refine (ask_quiet _ _).bind fun mayWrite => ?_
    split
    · exact Quiet.pure
    · refine (ask_quiet _ _).bind fun owner => ?_
      split
      · exact Quiet.pure
      · exact Quiet.pure

theorem decideRun_quiet [PortalJobRecipe R] (deps : PortalReadJobDeps R) (connection : PortalJobConnection)
    (version : PortalJobRecipeVersion R) (dryRun : Bool) : Quiet (decideRun deps connection version dryRun) := by
  unfold decideRun
  split
  · exact Quiet.pure
  · split
    · exact Quiet.pure
    · refine Quiet.observe.bind fun worker => ?_
      cases worker with
      | not_configured => exact Quiet.pure
      | ready client =>
        refine (ask_quiet _ _).bind fun found => ?_
        cases found with
        | none => exact Quiet.pure
        | some credential =>
          refine (throwIf_quiet _ _).bind fun _ => ?_
          split
          · exact Quiet.pure
          · exact Quiet.pure

theorem versionOf_quiet (deps : PortalReadJobDeps R) (input : PortalReadJobInput) (connection : PortalJobConnection) :
    Quiet (versionOf deps input connection) := by
  unfold versionOf
  cases input.recipeVersionId with
  | none => exact ask_quiet _ _
  | some recipeVersionId =>
    refine (ask_quiet _ _).bind fun found => ?_
    cases found with
    | none => exact Quiet.throw
    | some version => exact Quiet.pure

theorem requireWorker_quiet (deps : PortalReadJobDeps R) : Quiet (requireWorker deps) := by
  refine Quiet.observe.bind fun worker => ?_
  cases worker with
  | not_configured => exact Quiet.throw
  | ready client => exact Quiet.pure

theorem pollRun_quiet (deps : PortalReadJobDeps R) (runId : Text) : Quiet (pollRun deps runId) := by
  refine (requireWorker_quiet deps).bind fun client => (ask_quiet _ _).bind fun handle => ?_
  exact (throwIf_quiet _ _).bind fun _ => Quiet.pure

theorem fetchResult_quiet (deps : PortalReadJobDeps R) (actor : RunActor) : Quiet (fetchResult deps actor) := by
  refine (requireWorker_quiet deps).bind fun client => (ask_quiet _ _).bind fun result => ?_
  refine (throwIf_quiet _ _).bind fun _ => (throwIf_quiet _ _).bind fun _ => ?_
  exact (throwIf_quiet _ _).bind fun _ => (throwIf_quiet _ _).bind fun _ => Quiet.pure

theorem tenantHolds_quiet (deps : PortalReadJobDeps R) (orgId sha256 : Text) : Quiet (tenantHolds deps orgId sha256) :=
  (ask_quiet _ _).bind fun _ => Quiet.pure

theorem recordCapture_quiet (store : PortalReadJobStore R) (input : PortalJobCaptureInput) :
    Quiet (recordCapture store input) := by
  refine Quiet.call fun w => ?_
  cases store.admits w.clock with
  | error e => exact Frame.tick w
  | ok u =>
    dsimp only
    split
    · exact Frame.tick w
    · exact ⟨rfl, rfl, rfl, List.subset_append_left _ _, Nat.le_succ _⟩

theorem recordNewCapture_quiet (store : PortalReadJobStore R) (row : PortalJobCaptureRow) :
    Quiet (recordNewCapture store row) := by
  refine Quiet.call fun w => ?_
  cases store.newDocument row w.clock with
  | error e => exact Frame.tick w
  | ok documentId => exact ⟨rfl, rfl, rfl, List.subset_append_left _ _, Nat.le_succ _⟩

theorem scanned_quiet (deps : PortalReadJobDeps R) (bytes : List UInt8) : Quiet (scanned deps bytes) :=
  (ask_quiet _ _).bind fun _ => kept_quiet.bind fun _ => Quiet.pure

theorem ingestDocument_quiet (deps : PortalReadJobDeps R) (row : PortalJobCaptureRow) (bytes : List UInt8) :
    Quiet (ingestDocument deps row bytes) := by
  refine (ask_quiet _ _).bind fun existing => ?_
  cases existing with
  | none => exact (recordNewCapture_quiet _ _).bind fun _ => (scanned_quiet _ _).bind fun _ => Quiet.pure
  | some documentId =>
    refine (ask_quiet _ _).bind fun recorded => ?_
    have hscan : Quiet (do return (documentId, ← scanned deps bytes, false)) :=
      (scanned_quiet deps bytes).bind fun _ => Quiet.pure
    cases recorded with
    | none => exact hscan
    | some status =>
      cases status with
      | clean => exact Quiet.pure
      | infected => exact Quiet.pure
      | error => exact hscan

theorem ingestCapture_quiet (deps : PortalReadJobDeps R) (actor : RunActor) (recipeVersionId : Text)
    (summary : PortalJobCaptureSummary) (heldBefore : Bool) :
    Quiet (ingestCapture deps actor recipeVersionId summary heldBefore) := by
  refine (requireWorker_quiet deps).bind fun client => (ask_quiet _ _).bind fun capture => ?_
  refine (throwIf_quiet _ _).bind fun _ => (throwIf_quiet _ _).bind fun _ => ?_
  cases deps.ingest.accept capture.kind (deps.fromBase64 capture.bodyBase64) capture.filename with
  | error code => exact (recordCapture_quiet _ _).bind fun _ => Quiet.pure
  | ok u =>
    refine (ingestDocument_quiet _ _ _).bind fun ingested => ?_
    dsimp only
    split
    · exact (recordCapture_quiet _ _).bind fun _ => (throwIf_quiet _ _).bind fun _ => Quiet.pure
    · exact (throwIf_quiet _ _).bind fun _ => Quiet.pure

/-! ## The rows of a run -/

/-- An outcome which says that the worker was sent nothing. -/
def PortalJobRunEnd.BeforeWorker : PortalJobRunEnd → Prop
  | .refused _ | .not_configured _ => True
  | _ => False

/-- The run's captures were all seen through: completed, or completed but for what the door refused. -/
def PortalJobRunEnd.Completed : PortalJobRunEnd → Prop
  | .completed | .needs_attention .capture_refused => True
  | _ => False

/-- Asked then, the worker did not hold the run, or there was none to ask. -/
def DoesNotHold (deps : PortalReadJobDeps R) (runId : Text) (t : Nat) : Prop :=
  deps.worker t = .not_configured ∨
    ∃ client, deps.worker t = .ready client ∧ client.runState runId t = .error (.portal .runLost)

/-- What a listed capture is counted as. -/
inductive Counted | new | deduplicated | refused
deriving DecidableEq

/-- The capture the worker answered, at a moment, for one it had listed. -/
structure Answered (deps : PortalReadJobDeps R) (runId : Text) (summary : PortalJobCaptureSummary) (t : Nat)
    (capture : PortalJobRunCapture) : Prop where
  worker : ∃ client, deps.worker t = .ready client ∧ client.capture runId summary.index t = .ok capture
  same : capture.runId = runId ∧ capture.index = summary.index ∧ capture.sha256 = summary.sha256
  bytes : deps.sha256 (deps.fromBase64 capture.bodyBase64) = summary.sha256

/-- The row of a capture is written, and says what became of it. -/
def RowWritten (runId : Text) (rows : List PortalJobCaptureInput) (capture : PortalJobRunCapture)
    (became : RejectionCode ⊕ Text) : Prop :=
  ∃ input ∈ rows, input.row.runId = runId ∧ input.row.stepName = capture.stepName ∧
    input.row.sha256 = capture.sha256 ∧ input.became = became

/-- A capture the door took, and what the tenant, asked before it was fetched, held of its bytes. -/
def StoredCapture (deps : PortalReadJobDeps R) (runId orgId : Text) (rows : List PortalJobCaptureInput)
    (summary : PortalJobCaptureSummary) (held : Option Text) : Prop :=
  ∃ t t' capture documentId, t < t' ∧ deps.ingest.findDocumentByHash orgId summary.sha256 t = .ok held ∧
    Answered deps runId summary t' capture ∧
    deps.ingest.accept capture.kind (deps.fromBase64 capture.bodyBase64) capture.filename = .ok () ∧
    RowWritten runId rows capture (.inr documentId)

/-- What became of a listed capture: new where the tenant held nothing of its bytes, deduplicated where it held a
document of them, refused where the door refused it. -/
def Became (deps : PortalReadJobDeps R) (runId orgId : Text) (rows : List PortalJobCaptureInput)
    (summary : PortalJobCaptureSummary) : Counted → Prop
  | .new => StoredCapture deps runId orgId rows summary none
  | .deduplicated => ∃ documentId, StoredCapture deps runId orgId rows summary (some documentId)
  | .refused => ∃ t capture code, Answered deps runId summary t capture ∧
      deps.ingest.accept capture.kind (deps.fromBase64 capture.bodyBase64) capture.filename = .error code ∧
      RowWritten runId rows capture (.inl code)

/-- Each capture the worker's result lists is counted once, as what became of it. -/
structure CountsOnce (deps : PortalReadJobDeps R) (row : PortalJobRunEndInput) (rows : List PortalJobCaptureInput)
    (result : PortalJobRunResult) (counted : List Counted) : Prop where
  answered : ∃ t client, deps.worker t = .ready client ∧ client.runResult row.runId t = .ok result
  became : List.Forall₂ (Became deps row.runId row.orgId rows) result.captures counted
  apart : (result.captures.map (·.index)).Nodup
  new : row.counts.newDocuments = counted.count .new
  deduplicated : row.counts.deduplicated = counted.count .deduplicated
  once : row.counts.newDocuments + row.counts.deduplicated + counted.count .refused = row.counts.captures
  every : row.counts.captures = result.captures.length
  completed : row.ended = .completed → .refused ∉ counted

/-- The rows of a run: one start row and one outcome row at most, and an outcome row that is true. -/
structure Recorded (deps : PortalReadJobDeps R) (runId : Text) (w : World) : Prop where
  starts : w.starts = [] ∨ ∃ row, w.starts = [row] ∧ row.runId = runId
  ends : w.ends = [] ∨ ∃ e, w.ends = [e] ∧ e.row.runId = runId
  begun : w.ends ≠ [] → w.starts ≠ []
  past : ∀ t, w.started = some t → t < w.clock
  moment : ∀ e ∈ w.ends, e.moment < w.clock
  honest : ∀ e ∈ w.ends, e.row.ended.BeforeWorker → ∀ t, w.started = some t →
    e.moment < t ∨ ∃ t', t < t' ∧ t' ≤ e.moment ∧ DoesNotHold deps runId t'
  counted : ∀ e ∈ w.ends, e.row.ended.Completed → ∃ result counted, CountsOnce deps e.row w.captures result counted

variable {deps : PortalReadJobDeps R} {runId : Text} {faults : Faults}

/-- A row that is written stays. -/
theorem RowWritten.mono {rows rows' : List PortalJobCaptureInput} {capture : PortalJobRunCapture}
    {became : RejectionCode ⊕ Text} (h : RowWritten runId rows capture became) (hrows : rows ⊆ rows') :
    RowWritten runId rows' capture became := by
  obtain ⟨input, hmem, hrow⟩ := h
  exact ⟨input, hrows hmem, hrow⟩

theorem StoredCapture.mono {orgId : Text} {rows rows' : List PortalJobCaptureInput} {summary : PortalJobCaptureSummary}
    {held : Option Text} (h : StoredCapture deps runId orgId rows summary held) (hrows : rows ⊆ rows') :
    StoredCapture deps runId orgId rows' summary held := by
  obtain ⟨t, t', capture, documentId, hlt, hheld, hanswered, haccept, hrow⟩ := h
  exact ⟨t, t', capture, documentId, hlt, hheld, hanswered, haccept, hrow.mono hrows⟩

theorem Became.mono {orgId : Text} {rows rows' : List PortalJobCaptureInput} {summary : PortalJobCaptureSummary}
    {counted : Counted} (hrows : rows ⊆ rows') (h : Became deps runId orgId rows summary counted) :
    Became deps runId orgId rows' summary counted := by
  cases counted with
  | new => exact StoredCapture.mono h hrows
  | deduplicated =>
    obtain ⟨documentId, hstored⟩ := h
    exact ⟨documentId, hstored.mono hrows⟩
  | refused =>
    obtain ⟨t, capture, code, hanswered, haccept, hrow⟩ := h
    exact ⟨t, capture, code, hanswered, haccept, hrow.mono hrows⟩

theorem Recorded.steady : Steady (Recorded deps runId) := by
  rintro w w' ⟨hstarts, hends, hstarted, hcaptures, hclock⟩ h
  refine ⟨?_, ?_, ?_, ?_, ?_, ?_, ?_⟩
  · rw [hstarts]
    exact h.starts
  · rw [hends]
    exact h.ends
  · rw [hstarts, hends]
    exact h.begun
  · rw [hstarted]
    exact fun t ht => (h.past t ht).trans_le hclock
  · rw [hends]
    exact fun e he => (h.moment e he).trans_le hclock
  · rw [hstarted, hends]
    exact h.honest
  · rw [hends]
    intro e he hcompleted
    obtain ⟨result, counted, hcounts⟩ := h.counted e he hcompleted
    exact ⟨result, counted, { hcounts with became := hcounts.became.imp fun _ _ => Became.mono hcaptures }⟩

theorem Steady.and {I J : World → Prop} (hI : Steady I) (hJ : Steady J) : Steady fun w => I w ∧ J w :=
  fun w w' hf hw => ⟨hI w w' hf hw.1, hJ w w' hf hw.2⟩

theorem begun_steady : Steady fun w => w.starts ≠ [] := by
  intro w w' hf hw
  rwa [hf.starts]

theorem ended_steady : Steady fun w => w.ends ≠ [] := by
  intro w w' hf hw
  rwa [hf.ends]

theorem unsent_steady : Steady fun w => w.started = none := by
  intro w w' hf hw
  rwa [hf.started]

/-- Since the worker started the run it was found not to hold it. -/
def Unheld (deps : PortalReadJobDeps R) (runId : Text) (w : World) : Prop :=
  ∀ t, w.started = some t → ∃ t', t < t' ∧ t' ≤ w.clock ∧ DoesNotHold deps runId t'

theorem Unheld.steady : Steady (Unheld deps runId) := by
  intro w w' hf hw t ht
  rw [hf.started] at ht
  obtain ⟨t', hlt, hclock, hno⟩ := hw t ht
  exact ⟨t', hlt, hclock.trans hf.clock, hno⟩

/-! ## The writes -/

theorem write_triple {store : PortalReadJobStore R} {f : World → Except PortalError Unit × World} {P Q : World → Prop}
    (hP : Steady P) (hleft : ∀ w, P w → P (f w).2.tick) (hok : ∀ w, P w → (f w).1 = .ok () → Q (f w).2.tick) :
    Triple faults P (write store f) (fun _ => Q) (fun _ => P) := by
  refine Triple.call (fun w hw => ?_) (fun _ w hw => hw) fun _ w hw => ?_
  · cases store.admits w.clock with
    | error e => exact hP w _ (Frame.tick w) hw
    | ok u =>
      have hleft' := hleft w hw
      dsimp only
      cases hf : (f w).1 with
      | ok v => exact hok w hw hf
      | error e => exact hleft'
  · cases store.admits w.clock with
    | error e => exact hP w _ (Frame.tick w) hw
    | ok u => exact hleft w hw

/-- The worker has not been sent the run: a start row is written, or is there already. -/
theorem recordRunStart_keeps {store : PortalReadJobStore R} {input : PortalJobRunStart} (hid : input.runId = runId) :
    Triple faults (fun w => Recorded deps runId w ∧ w.started = none) (recordRunStart store input)
      (fun _ w => (Recorded deps runId w ∧ w.started = none) ∧ w.starts ≠ [])
      (fun _ w => Recorded deps runId w ∧ w.started = none) := by
  have hsteady : Steady fun w => Recorded deps runId w ∧ w.started = none := Recorded.steady.and unsent_steady
  -- what the store makes of the row, before the clock moves
  have hrow : ∀ w, Recorded deps runId w ∧ w.started = none → w.starts = [] →
      Recorded deps runId { w with starts := w.starts ++ [input] } := by
    rintro w ⟨h, -⟩ hnone
    refine ⟨.inr ⟨input, by rw [hnone]; rfl, hid⟩, h.ends, fun _ => ?_, h.past, h.moment, h.honest, h.counted⟩
    simp only [ne_eq, List.append_eq_nil_iff, List.cons_ne_self, and_false, not_false_eq_true]
  have hfind : ∀ (w : World) (row : PortalJobRunStart), w.starts = [row] → row.runId = runId →
      w.starts.find? (·.runId = input.runId) = some row := by
    intro w row hone hrun
    rw [hone, List.find?_singleton, hid, hrun, decide_eq_true rfl, if_pos rfl]
  refine write_triple hsteady (fun w hw => ?_) fun w hw _ => ?_
  · rcases hw.1.starts with hnone | ⟨row, hone, hrun⟩
    · have hnew := hrow w hw hnone
      rw [hnone] at hnew ⊢
      exact hsteady _ _ (Frame.tick _) ⟨hnew, hw.2⟩
    · rw [hfind w row hone hrun]
      dsimp only
      split
      · exact hsteady _ _ (Frame.tick _) hw
      · exact hsteady _ _ (Frame.tick _) hw
  · rcases hw.1.starts with hnone | ⟨row, hone, hrun⟩
    · have hnew := hrow w hw hnone
      rw [hnone] at hnew ⊢
      exact ⟨hsteady _ _ (Frame.tick _) ⟨hnew, hw.2⟩, List.cons_ne_nil _ _⟩
    · have hbegun : w.starts ≠ [] := by
        rw [hone]
        exact List.cons_ne_nil _ _
      rw [hfind w row hone hrun]
      dsimp only
      split
      · exact ⟨hsteady _ _ (Frame.tick _) hw, hbegun⟩
      · exact ⟨hsteady _ _ (Frame.tick _) hw, hbegun⟩

variable (deps faults) in
/-- An outcome row is written, or there is one already. -/
theorem recordRunEnd_keeps (store : PortalReadJobStore R) (input : PortalJobRunEndInput) (hid : input.runId = runId)
    {I : World → Prop} (hI : Steady I) (hends : ∀ w ends, I w → I { w with ends := ends })
    (hbegun : ∀ w, I w → w.starts ≠ []) (hhonest : input.ended.BeforeWorker → ∀ w, I w → Unheld deps runId w)
    (hcounted : input.ended.Completed → ∀ w, I w → ∃ result counted, CountsOnce deps input w.captures result counted) :
    Triple faults (fun w => Recorded deps runId w ∧ I w) (recordRunEnd store input)
      (fun _ w => (Recorded deps runId w ∧ I w) ∧ w.ends ≠ []) (fun _ w => Recorded deps runId w ∧ I w) := by
  have hsteady : Steady fun w => Recorded deps runId w ∧ I w := Recorded.steady.and hI
  have hrow : ∀ w, Recorded deps runId w ∧ I w → w.ends = [] →
      Recorded deps runId { w with ends := w.ends ++ [⟨w.clock, input⟩], clock := w.clock + 1 } := by
    rintro w ⟨h, hw⟩ hnone
    rw [hnone, List.nil_append]
    refine ⟨h.starts, .inr ⟨_, rfl, hid⟩, fun _ => hbegun w hw, fun t ht => (h.past t ht).trans (Nat.lt_succ_self _),
      ?_, ?_, ?_⟩
    · simp only [List.mem_singleton, forall_eq]
      exact Nat.lt_succ_self _
    · simp only [List.mem_singleton, forall_eq]
      intro hbefore t ht
      obtain ⟨t', hlt, hclock, hno⟩ := hhonest hbefore w hw t ht
      exact .inr ⟨t', hlt, hclock, hno⟩
    · simp only [List.mem_singleton, forall_eq]
      exact fun hcompleted => hcounted hcompleted w hw
  have hfind : ∀ (w : World) (e : RecordedEnd), w.ends = [e] → e.row.runId = runId →
      w.ends.find? (·.row.runId = input.runId) = some e := by
    intro w e hone hrun
    rw [hone, List.find?_singleton, hid, hrun, decide_eq_true rfl, if_pos rfl]
  refine write_triple hsteady (fun w hw => ?_) fun w hw _ => ?_
  · rcases hw.1.ends with hnone | ⟨e, hone, hrun⟩
    · have hnew := hrow w hw hnone
      have hleft := hI _ _ (Frame.tick _) (hends w (w.ends ++ [⟨w.clock, input⟩]) hw.2)
      rw [hnone] at hnew hleft ⊢
      exact ⟨hnew, hleft⟩
    · rw [hfind w e hone hrun]
      dsimp only
      split
      · exact hsteady _ _ (Frame.tick _) hw
      · exact hsteady _ _ (Frame.tick _) hw
  · rcases hw.1.ends with hnone | ⟨e, hone, hrun⟩
    · have hnew := hrow w hw hnone
      have hleft := hI _ _ (Frame.tick _) (hends w (w.ends ++ [⟨w.clock, input⟩]) hw.2)
      rw [hnone] at hnew hleft ⊢
      exact ⟨⟨hnew, hleft⟩, List.cons_ne_nil _ _⟩
    · have hended : w.ends ≠ [] := by
        rw [hone]
        exact List.cons_ne_nil _ _
      rw [hfind w e hone hrun]
      dsimp only
      split
      · exact ⟨hsteady _ _ (Frame.tick _) hw, hended⟩
      · exact ⟨hsteady _ _ (Frame.tick _) hw, hended⟩

/-! ## `prepare` -/

/-- The worker has not been sent the run. -/
def Unsent (deps : PortalReadJobDeps R) (runId : Text) (w : World) : Prop := Recorded deps runId w ∧ w.started = none

theorem Unsent.steady : Steady (Unsent deps runId) := Recorded.steady.and unsent_steady

/-- An end found in `prepare` has its start row written first. -/
theorem endBeforeWorker_prepare {actor : RunActor} (hid : actor.runId = runId) {recipeVersionId : Option Text}
    {ended : PortalJobRunEnd} (hended : ¬ ended.Completed) :
    Triple faults (Unsent deps runId) (endBeforeWorker deps actor recipeVersionId ended true)
      (fun _ w => Unsent deps runId w ∧ w.ends ≠ []) (fun _ => Unsent deps runId) := by
  refine Triple.bind (recordRunStart_keeps hid) fun _ => ?_
  refine Triple.bind (M := fun _ w => Unsent deps runId w ∧ w.ends ≠ []) ?_ fun _ => Triple.pure fun w hw => hw
  have hkeeps := recordRunEnd_keeps deps faults deps.store
    { runId := actor.runId, orgId := actor.orgId, ended := ended, atStep := none, counts := NO_COUNTS,
                stepLog := [] } hid (I := fun w => w.started = none ∧ w.starts ≠ []) (unsent_steady.and begun_steady)
    (fun _ _ hw => hw) (fun _ hw => hw.2) (fun _ w hw t ht => by cases hw.1.symm.trans ht)
    (fun h => absurd h hended)
  exact ((hkeeps.pre fun w hw => ⟨hw.1.1, hw.1.2, hw.2⟩).post fun _ w hw => ⟨⟨hw.1.1, hw.1.2.1⟩, hw.2⟩).weaken
    fun _ w hw => ⟨hw.1, hw.2.1⟩

/-- The ends found before the worker is asked are none of a run that was seen through. -/
theorem permissionRefusal_ends (actor : RunActor) (connection : PortalJobConnection) :
    Triple faults (fun _ => True) (permissionRefusal deps actor connection)
      (fun refusal _ => ∀ ended, refusal = some ended → ¬ ended.Completed) (fun _ _ => True) := by
  have hrefused : ∀ c ended, some (refused c) = some ended → ¬ ended.Completed := by
    rintro c ended ⟨⟩
    exact not_false
  unfold permissionRefusal
  split
  · exact Triple.pure fun _ _ => hrefused _
  · refine Triple.bind ((ask_quiet _ _).triple fun _ _ _ h => h) fun mayWrite => ?_
    split
    · exact Triple.pure fun _ _ => hrefused _
    · refine Triple.bind ((ask_quiet _ _).triple fun _ _ _ h => h) fun owner => ?_
      split
      · exact Triple.pure fun _ _ => hrefused _
      · refine Triple.pure fun _ _ => ?_
        rintro ended ⟨⟩

theorem decideRun_ends [PortalJobRecipe R] (connection : PortalJobConnection) (version : PortalJobRecipeVersion R)
    (dryRun : Bool) :
    Triple faults (fun _ => True) (decideRun deps connection version dryRun)
      (fun decided _ => ∀ ended, decided = .stop ended → ¬ ended.Completed) (fun _ _ => True) := by
  have hrefused : ∀ c ended, Decided.stop (R := R) (refused c) = .stop ended → ¬ ended.Completed := by
    rintro c ended ⟨⟩
    exact not_false
  have hmissing : ∀ c ended, Decided.stop (R := R) (notConfigured c) = .stop ended → ¬ ended.Completed := by
    rintro c ended ⟨⟩
    exact not_false
  unfold decideRun
  split
  · exact Triple.pure fun _ _ => hrefused _
  · split
    · exact Triple.pure fun _ _ => hrefused _
    · refine Triple.bind (Quiet.observe.triple fun _ _ _ h => h) fun worker => ?_
      cases worker with
      | not_configured => exact Triple.pure fun _ _ => hmissing _
      | ready client =>
        refine Triple.bind ((ask_quiet _ _).triple fun _ _ _ h => h) fun found => ?_
        cases found with
        | none => exact Triple.pure fun _ _ => hmissing _
        | some credential =>
          refine Triple.bind ((throwIf_quiet _ _).triple fun _ _ _ h => h) fun _ => ?_
          split
          · refine Triple.pure fun _ _ => ?_
            rintro ended ⟨⟩
            exact not_false
          · refine Triple.pure fun _ _ => ?_
            rintro ended ⟨⟩

/-- What `prepare` answers: an outcome row is there, or the start row of a run the worker has not been sent. -/
def PreparedRows (deps : PortalReadJobDeps R) (runId : Text) : Prepared → World → Prop
  | .ended _, w => Unsent deps runId w ∧ w.ends ≠ []
  | .ready _ _, w => Unsent deps runId w ∧ w.starts ≠ []

variable (faults) in
theorem prepareRun_rows [PortalJobRecipe R] (input : PortalReadJobInput) (actor : RunActor)
    (hid : actor.runId = runId) :
    Triple faults (Unsent deps runId) (prepareRun deps input actor) (PreparedRows deps runId)
      (fun _ => Unsent deps runId) := by
  have hend : ∀ version ended, ¬ ended.Completed → Triple faults (Unsent deps runId)
      (do return Prepared.ended (← endBeforeWorker deps actor version ended true)) (PreparedRows deps runId)
      (fun _ => Unsent deps runId) := fun version ended hended =>
    Triple.bind (endBeforeWorker_prepare hid hended) fun _ => Triple.pure fun w hw => hw
  unfold prepareRun
  refine Triple.bind ((visibleConnection_quiet deps input).triple Unsent.steady) fun connection => ?_
  refine Triple.bind ((permissionRefusal_quiet deps actor connection).answers Unsent.steady
    (permissionRefusal_ends actor connection)) fun refusal => Triple.assume fun hrefusal => ?_
  cases refusal with
  | some ended => exact hend _ _ (hrefusal ended rfl)
  | none =>
    refine Triple.bind ((versionOf_quiet deps input connection).triple Unsent.steady) fun found => ?_
    cases found with
    | none => exact hend _ _ not_false
    | some version =>
      refine Triple.bind ((throwIf_quiet _ _).triple Unsent.steady) fun _ => ?_
      refine Triple.bind ((decideRun_quiet deps connection version input.dryRun).answers Unsent.steady
        (decideRun_ends connection version input.dryRun)) fun decided => Triple.assume fun hdecided => ?_
      cases decided with
      | stop ended => exact hend _ _ (hdecided ended rfl)
      | go client credential => exact Triple.bind (recordRunStart_keeps hid) fun _ => Triple.pure fun w hw => hw

/-! ## `start` -/

/-- The start row is written. -/
def Open (deps : PortalReadJobDeps R) (runId : Text) (w : World) : Prop := Recorded deps runId w ∧ w.starts ≠ []

theorem Open.steady : Steady (Open deps runId) := Recorded.steady.and begun_steady

/-- An outcome row is written. -/
def Closed (deps : PortalReadJobDeps R) (runId : Text) (w : World) : Prop := Open deps runId w ∧ w.ends ≠ []

theorem Closed.steady : Steady (Closed deps runId) := Open.steady.and ended_steady

theorem Triple.ask {α : Type} {failure : PortalError} {answer : Answer α} {P : World → Prop} {Q : α → World → Prop}
    {E : PortalError → World → Prop}
    (hok : ∀ w a, P w → answer w.clock = .ok a → Q a w.tick)
    (herror : ∀ w e, P w → answer w.clock = .error e → E e w.tick)
    (hfailure : ∀ w, P w → E failure w ∧ E failure w.tick) : Triple faults P (ask failure answer) Q E := by
  refine Triple.call (fun w hw => ?_) (fun _ w hw => (hfailure w hw).1) fun _ w hw => (hfailure w hw).2
  cases hanswer : answer w.clock with
  | ok a => exact hok w a hw hanswer
  | error e => exact herror w e hw hanswer

/-- What `start` answers: an outcome row is there, or the run goes on. -/
def StartedRows (deps : PortalReadJobDeps R) (runId : Text) : Started → World → Prop
  | .ended _ => Closed deps runId
  | .started _ _ => Open deps runId

/-- What the worker is found to hold: the run, which goes on, or nothing. -/
def FoundRows (deps : PortalReadJobDeps R) (runId : Text) : Option Started → World → Prop
  | none, w => Open deps runId w ∧ Unheld deps runId w
  | some started, w => StartedRows deps runId started w

/-- The run as `start` finds it on the worker: where it is not found, the worker does not hold it. -/
theorem onWorkerAlready_rows {actor : RunActor} (hid : actor.runId = runId) :
    Triple faults (Open deps runId) (onWorkerAlready deps actor) (FoundRows deps runId) (fun _ => Open deps runId) := by
  -- what is asked after the start is asked later than it
  have hunheld : ∀ w, Open deps runId w → DoesNotHold deps runId w.clock → Unheld deps runId w :=
    fun w hw hno t ht => ⟨w.clock, hw.1.past t ht, le_refl _, hno⟩
  unfold onWorkerAlready
  refine Triple.bind (M := fun worker w => Open deps runId w ∧ deps.worker w.clock = worker)
    (Triple.observe fun w hw => ⟨hw, rfl⟩) fun worker => ?_
  cases worker with
  | not_configured => exact Triple.pure fun w hw => ⟨hw.1, hunheld w hw.1 (.inl hw.2)⟩
  | ready client =>
    have hasked : Triple faults (fun w => Open deps runId w ∧ deps.worker w.clock = .ready client)
        (some <$> ask unavailable (client.runState actor.runId)) (fun held w => Open deps runId w ∧ held ≠ none)
        (fun e w => Open deps runId w ∧ (e = .portal .runLost → Unheld deps runId w)) := by
      refine Triple.bind (M := fun _ => Open deps runId) (Triple.ask
        (fun w _ hw _ => Open.steady _ _ (Frame.tick w) hw.1) (fun w e hw hanswer => ?_) fun w hw => ?_) fun handle =>
          Triple.pure fun w hw => ⟨hw, Option.some_ne_none _⟩
      · refine ⟨Open.steady _ _ (Frame.tick w) hw.1, ?_⟩
        rintro rfl
        exact Unheld.steady _ _ (Frame.tick w) (hunheld w hw.1 (.inr ⟨client, hw.2, by rw [← hid]; exact hanswer⟩))
      · refine ⟨⟨hw.1, ?_⟩, Open.steady _ _ (Frame.tick w) hw.1, ?_⟩
        · rintro ⟨⟩
        · rintro ⟨⟩
    refine Triple.bind (M := fun held w => Open deps runId w ∧ (held = none → Unheld deps runId w))
      (Triple.handle (hasked.post fun held w hw => ⟨hw.1, fun h => absurd h hw.2⟩) fun e => ?_) fun held => ?_
    · split
      · exact Triple.pure fun w hw => ⟨hw.1, fun _ => hw.2 rfl⟩
      · exact Triple.throw fun w hw => hw.1
    · cases held with
      | none => exact Triple.pure fun w hw => ⟨hw.1, hw.2 rfl⟩
      | some handle =>
        refine Triple.pre (P := Open deps runId) ?_ fun w hw => hw.1
        refine Triple.bind ((throwIf_quiet _ _).triple Open.steady) fun _ => ?_
        refine Triple.bind ((ask_quiet _ _).triple Open.steady) fun found => ?_
        cases found with
        | none => exact Triple.throw fun w hw => hw
        | some credential => exact Triple.pure fun w hw => hw

theorem endUnlessStarted_rows {actor : RunActor} (hid : actor.runId = runId) {recipeVersionId : Text}
    {ended : PortalJobRunEnd} (hended : ¬ ended.Completed) :
    Triple faults (Open deps runId) (endUnlessStarted deps actor recipeVersionId ended) (StartedRows deps runId)
      (fun _ => Open deps runId) := by
  refine Triple.bind (onWorkerAlready_rows hid) fun found => ?_
  cases found with
  | some started => exact Triple.pure fun w hw => hw
  | none =>
    have hkeeps := recordRunEnd_keeps deps faults deps.store
      { runId := actor.runId, orgId := actor.orgId, ended := ended, atStep := none, counts := NO_COUNTS,
                  stepLog := [] } hid (I := fun w => w.starts ≠ [] ∧ Unheld deps runId w)
      (begun_steady.and Unheld.steady) (fun _ _ hw => hw) (fun _ hw => hw.1) (fun _ _ hw => hw.2)
      (fun h => absurd h hended)
    have hrow : Triple faults (fun w => Open deps runId w ∧ Unheld deps runId w)
        (endBeforeWorker deps actor (some recipeVersionId) ended false) (fun _ => Closed deps runId)
        (fun _ => Open deps runId) := by
      refine Triple.bind (M := fun _ => Closed deps runId) ?_ fun _ => Triple.pure fun w hw => hw
      exact ((hkeeps.pre fun w hw => ⟨hw.1.1, hw.1.2, hw.2⟩).post fun _ w hw => ⟨⟨hw.1.1, hw.1.2.1⟩, hw.2⟩).weaken
        fun _ w hw => ⟨hw.1, hw.2.1⟩
    exact Triple.bind hrow fun _ => Triple.pure fun w hw => hw

/-- The worker may have been sent the run, at that moment and not before. -/
theorem sendToWorker_open {client : PortalWorkerClient R} {request : PortalJobRunRequest R} :
    Triple faults (Open deps runId) (sendToWorker client request) (fun _ => Open deps runId)
      (fun _ => Open deps runId) := by
  have hsent : ∀ w, Open deps runId w →
      Open deps runId { w.tick with started := w.started.or (some w.clock) } := by
    rintro w ⟨h, hbegun⟩
    refine ⟨⟨h.starts, h.ends, h.begun, fun t ht => ?_, fun e he => (h.moment e he).trans (Nat.lt_succ_self _),
      fun e he hbefore t ht => ?_, h.counted⟩, hbegun⟩
    · cases hstarted : w.started with
      | none =>
        rw [hstarted, Option.none_or, Option.some.injEq] at ht
        exact ht ▸ Nat.lt_succ_self _
      | some t' =>
        rw [hstarted, Option.some_or, Option.some.injEq] at ht
        exact (h.past t (hstarted.trans (congrArg some ht))).trans (Nat.lt_succ_self _)
    · cases hstarted : w.started with
      | none =>
        rw [hstarted, Option.none_or, Option.some.injEq] at ht
        exact .inl (ht ▸ h.moment e he)
      | some t' =>
        rw [hstarted, Option.some_or, Option.some.injEq] at ht
        exact h.honest e he hbefore t (hstarted.trans (congrArg some ht))
  have hleft : ∀ w, Open deps runId w → Open deps runId
      { w.tick with started := if (client.startRun request w.clock).1 || (client.startRun request w.clock).2.isOk
        then w.started.or (some w.clock) else w.started } := by
    intro w hw
    split
    · exact hsent w hw
    · exact Open.steady _ _ (Frame.tick w) hw
  exact Triple.call_keeps hleft

theorem startRun_rows [PortalJobRecipe R] {input : PortalReadJobInput} {actor : RunActor}
    (hid : actor.runId = runId) {recipeVersionId : Text} :
    Triple faults (Open deps runId) (startRun deps input actor recipeVersionId) (StartedRows deps runId)
      (fun _ => Open deps runId) := by
  unfold startRun
  refine Triple.bind ((visibleConnection_quiet deps input).triple Open.steady) fun connection => ?_
  refine Triple.bind ((permissionRefusal_quiet deps actor connection).answers Open.steady
    (permissionRefusal_ends actor connection)) fun refusal => Triple.assume fun hrefusal => ?_
  cases refusal with
  | some ended => exact endUnlessStarted_rows hid (hrefusal ended rfl)
  | none =>
    refine Triple.bind ((ask_quiet _ _).triple Open.steady) fun found => ?_
    cases found with
    | none => exact Triple.throw fun w hw => hw
    | some version =>
      refine Triple.bind ((throwIf_quiet _ _).triple Open.steady) fun _ => ?_
      refine Triple.bind ((decideRun_quiet deps connection version input.dryRun).answers Open.steady
        (decideRun_ends connection version input.dryRun)) fun decided => Triple.assume fun hdecided => ?_
      cases decided with
      | stop ended => exact endUnlessStarted_rows hid (hdecided ended rfl)
      | go client credential =>
        refine Triple.bind sendToWorker_open fun handle => ?_
        exact Triple.bind ((throwIf_quiet _ _).triple Open.steady) fun _ => Triple.pure fun w hw => hw

/-! ## The steps -/

section Steps
variable {retries : Nat} {α : Type}

/-- A step that may be done again ends as its work does, or fails by its name. -/
theorem step_triple (retries : Nat) (id : StepId) {work : Job α} {P : World → Prop} {Q : α → World → Prop} (hQ : ∀ a, Steady (Q a))
    (hleft : ∀ a w, Q a w → P w) (hwork : Triple faults P work Q (fun _ => P)) :
    Triple faults P (step retries id work) Q (fun e w => P w ∧ ∃ name, e = .step id name) := by
  refine Triple.recover (E := fun _ => P) (Triple.retry ?_ fun _ _ hw => hw) fun e =>
    Triple.throw fun w hw => ⟨hw, errorClassOf e, rfl⟩
  refine Triple.bind hwork fun a => ?_
  refine Triple.bind ((kept_quiet.triple (hQ a)).weaken fun _ w hw => hleft a w hw) fun _ => ?_
  exact Triple.pure fun w hw => hw

/-- Work that writes no row of the run, and what its answer says. -/
theorem step_answers {id : StepId} {work : Job α} {A : α → Prop} {P : World → Prop} (hP : Steady P) (hwork : Quiet work)
    (hA : Triple faults (fun _ => True) work (fun a _ => A a) (fun _ _ => True)) :
    Triple faults P (step retries id work) (fun a w => P w ∧ A a) (fun e w => P w ∧ ∃ name, e = .step id name) :=
  step_triple _ _ (fun _ w w' hf hw => ⟨hP w w' hf hw.1, hw.2⟩) (fun _ _ hw => hw.1) (hwork.answers hP hA)

/-- What the `try` of the job leaves where it stops. -/
def InterruptedRows (deps : PortalReadJobDeps R) (runId : Text) : PortalError × Progress → World → Prop
  | (error, progress), w =>
    Open deps runId w ∧ ((∃ result, error = .alert result) ∨ progress.endRecorded = true → w.ends ≠ [])

/-- A step that stops the `try` before its end is recorded. -/
theorem during_step {id : StepId} {work : Job α} {P : World → Prop} {Q : α → World → Prop} {progress : Progress}
    (hprogress : progress.endRecorded = false) (hopen : ∀ w, P w → Open deps runId w)
    (hstep : Triple faults P (step retries id work) Q (fun e w => P w ∧ ∃ name, e = .step id name)) :
    Triple faults P (during progress (step retries id work)) Q (InterruptedRows deps runId) := by
  refine Triple.recover hstep fun e => Triple.throw ?_
  rintro w ⟨hw, name, rfl⟩
  refine ⟨hopen w hw, ?_⟩
  rintro (⟨result, ⟨⟩⟩ | hrecorded)
  cases hprogress.symm.trans hrecorded

theorem awaitDone_open {polls poll : Nat} {state : RunState} :
    Triple faults (Open deps runId) (awaitDone retries deps runId polls poll state) (fun _ => Open deps runId)
      (fun e w => Open deps runId w ∧ ∀ result, e ≠ .alert result) := by
  induction polls generalizing poll state with
  | zero =>
    cases state with
    | done => exact Triple.pure fun w hw => hw
    | running =>
      refine Triple.throw fun w hw => ⟨hw, ?_⟩
      rintro result ⟨⟩
  | succ polls ih =>
    cases state with
    | done => exact Triple.pure fun w hw => hw
    | running =>
      refine Triple.bind (M := fun _ => Open deps runId) ?_ fun state => ih
      refine (step_triple _ _ (fun _ => Open.steady) (fun _ _ hw => hw)
        ((pollRun_quiet deps runId).triple Open.steady)).weaken ?_
      rintro e w ⟨hw, name, rfl⟩
      refine ⟨hw, ?_⟩
      rintro result ⟨⟩

theorem throwIf_triple {broken : Prop} [Decidable broken] {error : PortalError} {P : World → Prop} :
    Triple faults P (throwIf broken error) (fun _ w => P w ∧ ¬ broken) (fun _ => P) := by
  unfold throwIf
  split
  · exact Triple.throw fun w hw => hw
  · rename_i hwhole
    exact Triple.pure fun w hw => ⟨hw, hwhole⟩

/-- The captures a result lists, by index. -/
structure Listed (deps : PortalReadJobDeps R) (runId : Text) (result : PortalJobRunResult) : Prop where
  answered : ∃ t client, deps.worker t = .ready client ∧ client.runResult runId t = .ok result
  captures : result.counts.captures = result.captures.length
  indices : result.captures.map (·.index) = List.range result.captures.length

/-- The worker there is when it is asked. -/
theorem requireWorker_ready {P : World → Prop} :
    Triple faults P (requireWorker deps) (fun client w => P w ∧ deps.worker w.clock = .ready client) (fun _ => P) := by
  refine Triple.bind (M := fun worker w => P w ∧ deps.worker w.clock = worker) (Triple.observe fun _ hw => ⟨hw, rfl⟩)
    fun worker => ?_
  cases worker with
  | not_configured => exact Triple.throw fun _ hw => hw.1
  | ready client => exact Triple.pure fun _ hw => hw

theorem fetchResult_listed {actor : RunActor} (hid : actor.runId = runId) :
    Triple faults (fun _ => True) (fetchResult deps actor) (fun result _ => Listed deps runId result)
      (fun _ _ => True) := by
  refine Triple.bind requireWorker_ready fun client => ?_
  refine Triple.bind (M := fun result _ => ∃ t client, deps.worker t = .ready client ∧
    client.runResult runId t = .ok result) (Triple.ask (fun w result hw hanswer => ?_) (fun _ _ _ _ => trivial)
      fun _ _ => ⟨trivial, trivial⟩) fun result => ?_
  · exact ⟨w.clock, client, hw.2, hid ▸ hanswer⟩
  · refine Triple.bind (throwIf_triple.weaken fun _ _ _ => trivial) fun _ => Triple.assume fun _ => ?_
    refine Triple.bind (throwIf_triple.weaken fun _ _ _ => trivial) fun _ => Triple.assume fun hcaptures => ?_
    refine Triple.bind (throwIf_triple.weaken fun _ _ _ => trivial) fun _ => Triple.assume fun _ => ?_
    refine Triple.bind (throwIf_triple.weaken fun _ _ _ => trivial) fun _ => Triple.assume fun hindices => ?_
    exact Triple.pure fun _ hw => ⟨hw, not_not.1 hcaptures, not_not.1 hindices⟩

/-! ## The captures -/

/-- What the tenant held of some bytes, asked before now. -/
def KnownBefore (deps : PortalReadJobDeps R) (orgId sha256 : Text) (held : Bool) (w : World) : Prop :=
  ∃ t document, t < w.clock ∧ deps.ingest.findDocumentByHash orgId sha256 t = .ok document ∧ held = document.isSome

theorem KnownBefore.steady {orgId sha256 : Text} {held : Bool} : Steady (KnownBefore deps orgId sha256 held) := by
  rintro w w' hf ⟨t, document, hlt, hknown⟩
  exact ⟨t, document, hlt.trans_le hf.clock, hknown⟩

theorem tenantHolds_known {orgId sha256 : Text} : Triple faults (fun _ => True) (tenantHolds deps orgId sha256)
    (fun held => KnownBefore deps orgId sha256 held) (fun _ _ => True) := by
  refine Triple.bind (M := fun document => KnownBefore deps orgId sha256 document.isSome) ?_ fun document =>
    Triple.pure fun w hw => hw
  exact Triple.ask (fun w document _ hanswer => ⟨w.clock, document, Nat.lt_succ_self _, hanswer, rfl⟩)
    (fun _ _ _ _ => trivial) fun _ _ => ⟨trivial, trivial⟩

/-- A row is there once it is recorded. -/
theorem recordCapture_written {store : PortalReadJobStore R} {input : PortalJobCaptureInput} :
    Triple faults (fun _ => True) (recordCapture store input) (fun _ w => input ∈ w.captures) (fun _ _ => True) := by
  refine write_triple (fun _ _ _ h => h) (fun _ _ => trivial) fun w _ _ => ?_
  dsimp only
  split
  · assumption
  · exact List.mem_append_right _ (List.mem_singleton_self _)

/-- The document of a capture is stored with its row, or its row is not written. -/
theorem ingestDocument_written {row : PortalJobCaptureRow} {bytes : List UInt8} :
    Triple faults (fun _ => True) (ingestDocument deps row bytes)
      (fun ingested w => ingested.2.2 = true → ⟨row, .inr ingested.1⟩ ∈ w.captures) (fun _ _ => True) := by
  have hquiet {β : Type} {p : Job β} (hp : Quiet p) : Triple faults (fun _ => True) p (fun _ _ => True)
      (fun _ _ => True) := hp.triple fun _ _ _ h => h
  refine Triple.bind (hquiet (ask_quiet _ _)) fun existing => ?_
  cases existing with
  | none =>
    have hnew : Triple faults (fun _ => True) (recordNewCapture deps.store row)
        (fun documentId w => ⟨row, .inr documentId⟩ ∈ w.captures) (fun _ _ => True) := by
      refine Triple.call (fun w _ => ?_) (fun _ _ _ => trivial) fun _ _ _ => trivial
      cases deps.store.newDocument row w.clock with
      | error e => trivial
      | ok documentId => exact List.mem_append_right _ (List.mem_singleton_self _)
    refine Triple.bind hnew fun documentId => ?_
    have hkept : Steady fun w => (⟨row, .inr documentId⟩ : PortalJobCaptureInput) ∈ w.captures :=
      fun w w' hf hw => hf.captures hw
    exact Triple.bind (((scanned_quiet deps bytes).triple hkept).weaken fun _ _ _ => trivial) fun _ =>
      Triple.pure fun w hw _ => hw
  | some documentId =>
    refine Triple.bind (hquiet (ask_quiet _ _)) fun recorded => ?_
    have hscan : Triple faults (fun _ => True) (do return (documentId, ← scanned deps bytes, false))
        (fun ingested w => ingested.2.2 = true → ⟨row, .inr ingested.1⟩ ∈ w.captures) (fun _ _ => True) := by
      refine Triple.bind (hquiet (scanned_quiet deps bytes)) fun _ => Triple.pure ?_
      rintro w - ⟨⟩
    cases recorded with
    | none => exact hscan
    | some status =>
      cases status with
      | error => exact hscan
      | clean =>
        refine Triple.pure ?_
        rintro w - ⟨⟩
      | infected =>
        refine Triple.pure ?_
        rintro w - ⟨⟩

/-- What an outcome counts as. -/
def CaptureOutcome.counted : CaptureOutcome → Counted
  | stored _ _ _ deduplicated _ => if deduplicated then .deduplicated else .new
  | refused _ _ _ => .refused

/-- What the tenant held before decides whether a capture the door took is new. -/
theorem StoredCapture.became {orgId : Text} {rows : List PortalJobCaptureInput} {summary : PortalJobCaptureSummary}
    {document : Option Text} (h : StoredCapture deps runId orgId rows summary document) (index : Nat)
    (stepName documentId : Text) (clean : Bool) :
    Became deps runId orgId rows summary
      (CaptureOutcome.stored index stepName documentId document.isSome clean).counted := by
  cases document with
  | none => exact h
  | some held => exact ⟨held, h⟩

/-- The outcome of a capture is what became of it. -/
theorem ingestCapture_became {actor : RunActor} (hid : actor.runId = runId) {recipeVersionId : Text}
    {summary : PortalJobCaptureSummary} {heldBefore : Bool} :
    Triple faults (KnownBefore deps actor.orgId summary.sha256 heldBefore)
      (ingestCapture deps actor recipeVersionId summary heldBefore)
      (fun outcome w => Became deps runId actor.orgId w.captures summary outcome.counted) (fun _ _ => True) := by
  subst hid
  refine Triple.bind (requireWorker_ready.weaken fun _ _ _ => trivial) fun client => ?_
  -- what was known was known before the worker is asked
  refine Triple.bind (M := fun capture _ => True ∧ ∃ t t' document, t < t' ∧
    deps.ingest.findDocumentByHash actor.orgId summary.sha256 t = .ok document ∧ heldBefore = document.isSome ∧
    ∃ client, deps.worker t' = .ready client ∧ client.capture actor.runId summary.index t' = .ok capture)
    (Triple.ask (fun w capture hw hanswer => ?_) (fun _ _ _ _ => trivial) fun _ _ => ⟨trivial, trivial⟩) fun capture =>
      Triple.assume ?_
  · obtain ⟨⟨t, document, hlt, hknown, hheld⟩, hworker⟩ := hw
    exact ⟨trivial, t, w.clock, document, hlt, hknown, hheld, client, hworker, hanswer⟩
  rintro ⟨t, t', document, hlt, hknown, rfl, hworker⟩
  refine Triple.bind (throwIf_triple.weaken fun _ _ _ => trivial) fun _ => Triple.assume fun hsame => ?_
  refine Triple.bind (throwIf_triple.weaken fun _ _ _ => trivial) fun _ => Triple.assume fun hbytes => ?_
  simp only [not_or, not_not] at hsame hbytes
  obtain ⟨hrun, hindex, -, -, hsha⟩ := hsame
  have hanswered : Answered deps actor.runId summary t' capture :=
    ⟨hworker, ⟨hrun, hindex, hsha⟩, hbytes.2.trans hsha⟩
  cases haccept : deps.ingest.accept capture.kind (deps.fromBase64 capture.bodyBase64) capture.filename with
  | error code =>
    refine Triple.bind recordCapture_written fun _ => Triple.pure fun w hw => ?_
    exact ⟨t', capture, code, hanswered, haccept, _, hw, rfl, rfl, rfl, rfl⟩
  | ok u =>
    refine Triple.bind ingestDocument_written fun ingested => ?_
    have hstored : Triple faults (fun w => RowWritten actor.runId w.captures capture (.inr ingested.1))
        (do
          throwIf (ingested.2.1 = .error) (.portal .captureUnscanned)
          return CaptureOutcome.stored summary.index capture.stepName ingested.1 document.isSome
            (ingested.2.1 = .clean))
        (fun outcome w => Became deps actor.runId actor.orgId w.captures summary outcome.counted) (fun _ _ => True) := by
      refine Triple.bind (throwIf_triple.weaken fun _ _ _ => trivial) fun _ => Triple.pure fun w hw => ?_
      exact StoredCapture.became ⟨t, t', capture, ingested.1, hlt, hknown, hanswered, haccept, hw.1⟩ _ _ _ _
    dsimp only
    split
    · refine Triple.bind (recordCapture_written.pre fun _ _ => trivial) fun _ => hstored.pre fun w hw => ?_
      exact ⟨_, hw, rfl, rfl, rfl, rfl⟩
    · rename_i hwritten
      refine hstored.pre fun w hw => ⟨_, hw ?_, rfl, rfl, rfl, rfl⟩
      simpa using hwritten

/-- The captures taken so far, each as what became of it. -/
def TakenSoFar (deps : PortalReadJobDeps R) (runId orgId : Text) (done : List PortalJobCaptureSummary)
    (captures : List CaptureOutcome) (w : World) : Prop :=
  List.Forall₂ (Became deps runId orgId w.captures) done (captures.map (·.counted))

theorem TakenSoFar.steady {orgId : Text} {done : List PortalJobCaptureSummary} {captures : List CaptureOutcome} :
    Steady (TakenSoFar deps runId orgId done captures) :=
  fun _ _ hf hw => hw.imp fun _ _ => Became.mono hf.captures

/-- A pass over the captures adds the outcome of one. -/
theorem takeCapture_rows {actor : RunActor} (hid : actor.runId = runId) {recipeVersionId : Text}
    {result : PortalJobRunResult} {done : List PortalJobCaptureSummary} {captures : List CaptureOutcome}
    {summary : PortalJobCaptureSummary} :
    Triple faults (fun w => Open deps runId w ∧ TakenSoFar deps runId actor.orgId done captures w)
      (takeCapture retries deps actor recipeVersionId result captures summary)
      (fun captures w => Open deps runId w ∧ TakenSoFar deps runId actor.orgId (done ++ [summary]) captures w)
      (InterruptedRows deps runId) := by
  have htaken : Steady fun w => Open deps runId w ∧ TakenSoFar deps runId actor.orgId done captures w :=
    Open.steady.and TakenSoFar.steady
  refine Triple.bind (during_step rfl (fun _ hw => hw.1) (step_triple _ _
    (fun _ => htaken.and KnownBefore.steady) (fun _ _ hw => hw.1)
    ((((tenantHolds_quiet _ _ _).triple htaken).and (tenantHolds_known.pre fun _ _ => trivial)).weaken
      fun _ _ hw => hw.1))) fun heldBefore => ?_
  have hbefore : Steady (KnownBefore deps actor.orgId summary.sha256 heldBefore) := KnownBefore.steady
  have hknown := htaken.and hbefore
  have hbecame (outcome : CaptureOutcome) :
      Steady fun w => Became deps runId actor.orgId w.captures summary outcome.counted :=
    fun _ _ hf hw => hw.mono hf.captures
  refine Triple.bind (during_step rfl (fun _ hw => hw.1.1) (step_triple _ _
    (fun outcome => hknown.and (hbecame outcome)) (fun _ _ hw => hw.1)
    ((((ingestCapture_quiet _ _ _ _ _).triple hknown).and
      ((ingestCapture_became hid).pre fun _ hw => hw.2)).weaken fun _ _ hw => hw.1))) fun outcome => ?_
  refine Triple.pure fun w hw => ⟨hw.1.1.1, ?_⟩
  rw [TakenSoFar, List.map_append, List.map_singleton]
  exact List.rel_append hw.1.1.2 (.cons hw.2 .nil)

/-! ## The outcome -/

theorem countP_isNew (captures : List CaptureOutcome) :
    captures.countP (·.isNew) = (captures.map (·.counted)).count .new := by
  rw [List.count, List.countP_map]
  refine List.countP_congr fun outcome _ => ?_
  rcases outcome with ⟨_, _, _, _ | _, _⟩ | ⟨⟩ <;> simp [CaptureOutcome.isNew, CaptureOutcome.counted]

theorem countP_isDeduplicated (captures : List CaptureOutcome) :
    captures.countP (·.isDeduplicated) = (captures.map (·.counted)).count .deduplicated := by
  rw [List.count, List.countP_map]
  refine List.countP_congr fun outcome _ => ?_
  rcases outcome with ⟨_, _, _, _ | _, _⟩ | ⟨⟩ <;> simp [CaptureOutcome.isDeduplicated, CaptureOutcome.counted]

/-- A capture is new, deduplicated or refused, and one of these only. -/
theorem count_counted (counted : List Counted) :
    counted.count .new + counted.count .deduplicated + counted.count .refused = counted.length := by
  induction counted with
  | nil => rfl
  | cons kind rest ih =>
    rw [List.length_cons, ← ih]
    cases kind <;> simp only [List.count_cons_self, List.count_cons_of_ne, ne_eq, reduceCtorEq, not_false_eq_true] <;> omega

/-- A run which the worker saw through is never said to have ended before it. -/
theorem endOf_not_before (result : PortalJobRunResult) (captures : List CaptureOutcome) :
    ¬ (endOf result captures).1.BeforeWorker := by
  unfold endOf
  cases result.ended with
  | completed =>
    dsimp only
    cases captures.findSome? CaptureOutcome.refusedAt with
    | none => exact not_false
    | some stepName => exact not_false
  | needs_attention reason atStep => exact not_false
  | failed reason atStep => exact not_false
  | error errorClass atStep => exact not_false

/-- A run recorded as completed had no capture refused. -/
theorem no_refused_of_completed {result : PortalJobRunResult} {captures : List CaptureOutcome}
    (h : (endOf result captures).1 = .completed) : .refused ∉ captures.map (·.counted) := by
  unfold endOf at h
  cases hended : result.ended with
  | completed =>
    rw [hended] at h
    cases hfind : captures.findSome? CaptureOutcome.refusedAt with
    | none =>
      rw [List.mem_map]
      rintro ⟨outcome, hmem, hrefused⟩
      have hnone := List.findSome?_eq_none_iff.1 hfind outcome hmem
      cases outcome with
      | stored index stepName documentId deduplicated clean => cases deduplicated <;> cases hrefused
      | refused index stepName refusal => cases hnone
    | some stepName =>
      rw [hfind] at h
      cases h
  | needs_attention reason atStep =>
    rw [hended] at h
    cases h
  | failed reason atStep =>
    rw [hended] at h
    cases h
  | error errorClass atStep =>
    rw [hended] at h
    cases h

/-- The counts of a result whose captures were all taken. -/
theorem Listed.countsOnce {result : PortalJobRunResult} (h : Listed deps runId result) {captures : List CaptureOutcome}
    {orgId : Text} {rows : List PortalJobCaptureInput}
    (hbecame : List.Forall₂ (Became deps runId orgId rows) result.captures (captures.map (·.counted)))
    (stepLog : List PortalJobStepLogEntry) :
    CountsOnce deps ⟨runId, orgId, (endOf result captures).1, (endOf result captures).2,
      countsOf (some result) captures, stepLog⟩ rows result (captures.map (·.counted)) where
  answered := h.answered
  became := hbecame
  apart := h.indices ▸ List.nodup_range
  new := countP_isNew captures
  deduplicated := countP_isDeduplicated captures
  once := by
    have hcounted := count_counted (captures.map (·.counted))
    rw [← countP_isNew, ← countP_isDeduplicated, ← hbecame.length_eq, ← h.captures] at hcounted
    exact hcounted
  every := h.captures
  completed := no_refused_of_completed

theorem turnOffRefused_quiet (deps : PortalReadJobDeps R) (actor : RunActor) (ended : PortalJobRunEnd)
    (credentialId : Text) : Quiet (turnOffRefused deps actor ended credentialId) := by
  unfold turnOffRefused
  split
  · exact (ask_quiet _ _).bind fun _ => Quiet.pure
  · exact Quiet.pure

theorem finishRun_rows {actor : RunActor} (hid : actor.runId = runId) {result : PortalJobRunResult}
    (hlisted : Listed deps runId result) {captures : List CaptureOutcome} {credentialId : Text} :
    Triple faults (fun w => Open deps runId w ∧ TakenSoFar deps runId actor.orgId result.captures captures w)
      (finishRun deps actor (endOf result captures).1 (endOf result captures).2 (countsOf (some result) captures)
        result.steps credentialId)
      (fun _ w => Closed deps runId w ∧ TakenSoFar deps runId actor.orgId result.captures captures w)
      (fun _ w => Open deps runId w ∧ TakenSoFar deps runId actor.orgId result.captures captures w) := by
  have hkeeps := recordRunEnd_keeps deps faults deps.store
    { runId := actor.runId, orgId := actor.orgId, ended := (endOf result captures).1,
                atStep := (endOf result captures).2, counts := countsOf (some result) captures,
                stepLog := result.steps } hid
    (I := fun w => w.starts ≠ [] ∧ TakenSoFar deps runId actor.orgId result.captures captures w)
    (begun_steady.and TakenSoFar.steady) (fun _ _ hw => hw) (fun _ hw => hw.1)
    (fun h => absurd h (endOf_not_before result captures))
    (fun _ w hw => ⟨result, captures.map (·.counted), hid ▸ hlisted.countsOnce hw.2 result.steps⟩)
  refine Triple.bind ((turnOffRefused_quiet _ _ _ _).triple (Open.steady.and TakenSoFar.steady)) fun disabled => ?_
  refine Triple.bind (M := fun _ w => Closed deps runId w ∧ TakenSoFar deps runId actor.orgId result.captures captures w)
    ?_ fun _ => Triple.pure fun w hw => hw
  exact ((hkeeps.pre fun w hw => ⟨hw.1.1, hw.1.2, hw.2⟩).post fun _ w hw =>
    ⟨⟨⟨hw.1.1, hw.1.2.1⟩, hw.2⟩, hw.1.2.2⟩).weaken fun _ w hw => ⟨⟨hw.1, hw.2.1⟩, hw.2.2⟩

theorem requestReads_quiet (captures : List CaptureOutcome) : Quiet (requestReads retries captures) := by
  unfold requestReads
  dsimp only
  split
  · exact (step_quiet (Quiet.call fun w => ⟨rfl, rfl, rfl, List.Subset.refl _, Nat.le_succ _⟩)).bind fun _ => Quiet.pure
  · exact Quiet.pure

theorem settle_quiet (result : PortalReadJobResult) : Quiet (settle result) := by
  unfold settle
  split
  · exact Quiet.throw
  · exact Quiet.pure

/-- What follows once the end is recorded leaves it recorded. -/
theorem during_closed {progress : Progress} {p : Job α} (hp : Quiet p) :
    Triple faults (Closed deps runId) (during progress p) (fun _ => Closed deps runId) (InterruptedRows deps runId) :=
  Triple.recover (hp.triple Closed.steady) fun _ => Triple.throw fun _ hw => ⟨hw.1, fun _ => hw.2⟩

theorem followRun_rows [PortalJobRecipe R] {input : PortalReadJobInput} {actor : RunActor}
    (hid : actor.runId = runId) {recipeVersionId : Text} {maxRunMs : Option ℚ} :
    Triple faults (Open deps runId) (followRun retries deps input actor recipeVersionId maxRunMs)
      (fun _ => Closed deps runId) (InterruptedRows deps runId) := by
  have hsteady : ∀ started, Steady (StartedRows deps runId started) := by
    intro started
    cases started with
    | ended result => exact Closed.steady
    | started credentialId state => exact Open.steady
  have hopen : ∀ started w, StartedRows deps runId started w → Open deps runId w := by
    intro started w hw
    cases started with
    | ended result => exact hw.1
    | started credentialId state => exact hw
  subst hid
  unfold followRun
  refine Triple.bind (during_step rfl (fun _ hw => hw) (step_triple _ _ hsteady hopen (startRun_rows rfl)))
    fun started => ?_
  cases started with
  | ended result => exact during_closed (settle_quiet result)
  | started credentialId state =>
    have hwait : Triple faults (Open deps actor.runId)
        (during ⟨none, [], false⟩ (awaitDone retries deps actor.runId (portalReadPollLimit maxRunMs) 1 state))
        (fun _ => Open deps actor.runId) (InterruptedRows deps actor.runId) := by
      refine Triple.recover awaitDone_open fun e => Triple.throw fun w hw => ⟨hw.1, ?_⟩
      rintro (⟨result, rfl⟩ | hrecorded)
      · exact absurd rfl (hw.2 result)
      · cases hrecorded
    refine Triple.bind hwait fun _ => ?_
    refine Triple.bind (during_step rfl (fun _ hw => hw) (step_answers Open.steady (fetchResult_quiet _ _)
      (fetchResult_listed rfl))) fun result => Triple.assume fun hlisted => ?_
    split
    · refine Triple.throw fun w hw => ⟨hw, ?_⟩
      rintro (⟨stopped, hstopped⟩ | hrecorded)
      · cases hstopped
      · cases hrecorded
    · refine Triple.bind (Triple.pre (Triple.foldlM (I := fun done captures w =>
          Open deps actor.runId w ∧ TakenSoFar deps actor.runId actor.orgId done captures w)
            fun done summary rest _ captures => takeCapture_rows rfl) fun w hw => ⟨hw, .nil⟩) fun captures => ?_
      refine Triple.bind (during_step rfl (fun _ hw => hw.1) (step_triple _ _
        (fun _ => Closed.steady.and TakenSoFar.steady) (fun _ _ hw => ⟨hw.1.1, hw.2⟩) (finishRun_rows rfl hlisted)))
        fun disabled => ?_
      exact (during_closed ((requestReads_quiet captures).bind fun _ => settle_quiet _)).pre fun _ hw => hw.1

/-- How the job ends: one outcome row is there, or there was no start row, or the job ends with what one of two steps
failed with. -/
def EndRows (deps : PortalReadJobDeps R) (runId : Text) (r : Except PortalError PortalReadJobResult) (w : World) : Prop :=
  Recorded deps runId w ∧
    (w.starts = [] ∨ w.ends ≠ [] ∨ ∃ name, r = .error (.step .prepare name) ∨ r = .error (.step .recordFailure name))

theorem Closed.endRows {r : Except PortalError PortalReadJobResult} {w : World} (h : Closed deps runId w) :
    EndRows deps runId r w :=
  ⟨h.1.1, .inr (.inl h.2)⟩

/-- The `catch` leaves an outcome row, or fails in the step that writes it. -/
theorem recordFailure_rows {actor : RunActor} (hid : actor.runId = runId) {recipeVersionId : Text}
    {stopped : PortalError × Progress} :
    Triple faults (InterruptedRows deps runId stopped) (recordFailure retries deps actor recipeVersionId stopped)
      (fun result => EndRows deps runId (.ok result)) (fun e => EndRows deps runId (.error e)) := by
  obtain ⟨error, progress⟩ := stopped
  have hthrown : ∀ e, Triple faults (Closed deps runId) (throw e : Job PortalReadJobResult)
      (fun result => EndRows deps runId (.ok result)) (fun e => EndRows deps runId (.error e)) :=
    fun e => Triple.throw fun w hw => hw.endRows
  unfold recordFailure
  dsimp only
  split
  · exact (hthrown _).pre fun w hw => ⟨hw.1, hw.2 (.inl ⟨_, rfl⟩)⟩
  · split
    · rename_i hrecorded
      exact (hthrown _).pre fun w hw => ⟨hw.1, hw.2 (.inr hrecorded)⟩
    · have hkeeps := recordRunEnd_keeps deps faults deps.store
        { runId := actor.runId, orgId := actor.orgId, ended := .error (errorClassOf error), atStep := none,
                    counts := countsOf progress.result progress.captures,
                    stepLog := (progress.result.map (·.steps)).getD [] } hid (I := fun w => w.starts ≠ [])
        begun_steady (fun _ _ hw => hw) (fun _ hw => hw) (fun h => absurd h not_false) (fun h => absurd h not_false)
      have hrow := step_triple retries .recordFailure (fun _ => Closed.steady)
        (fun _ _ hw => hw.1) hkeeps
      refine Triple.bind (((hrow.pre fun w hw => hw.1).weaken ?_)) fun _ => ?_
      · rintro e w ⟨hw, name, rfl⟩
        exact ⟨hw.1, .inr (.inr ⟨name, .inr rfl⟩)⟩
      · refine Triple.bind (((requestReads_quiet progress.captures).triple Closed.steady).weaken fun e w hw =>
          hw.endRows) fun documentIds => hthrown _

/-- Before the job no row of its run is there, and the worker has not been sent it. -/
def Unbegun (w : World) : Prop := w.starts = [] ∧ w.ends = [] ∧ w.started = none

theorem Unbegun.steady : Steady Unbegun := by
  rintro w w' ⟨hstarts, hends, hstarted, -, -⟩ ⟨h, h', h''⟩
  exact ⟨hstarts.trans h, hends.trans h', hstarted.trans h''⟩

theorem Unbegun.unsent {w : World} (h : Unbegun w) : Unsent deps runId w := by
  obtain ⟨hstarts, hends, hstarted⟩ := h
  refine ⟨⟨.inl hstarts, .inl hends, fun hne => absurd hends hne, ?_, ?_, ?_, ?_⟩, hstarted⟩
  · rw [hstarted]
    rintro t ⟨⟩
  all_goals
    rw [hends]
    rintro e ⟨⟩

theorem readPortalJob_rows [PortalJobRecipe R] (retries : Nat) (deps : PortalReadJobDeps R) (input : PortalReadJobInput)
    (faults : Faults) :
    Triple faults Unbegun (readPortalJob retries deps input)
      (fun result w => ∃ runId, EndRows deps runId (.ok result) w)
      (fun e w => ∃ runId, EndRows deps runId (.error e) w) := by
  have hnone : ∀ r w, Unbegun w → ∃ runId, EndRows deps runId r w :=
    fun r w hw => ⟨[], hw.unsent.1, .inl hw.1⟩
  unfold readPortalJob
  refine Triple.bind (M := fun _ => Unbegun) (Triple.lift (fun _ _ w hw => hw) fun e _ w hw => hnone _ w hw)
    fun _ => ?_
  refine Triple.bind ((step_triple _ _ (P := Unbegun) (fun _ => Unbegun.steady) (fun _ _ hw => hw)
    ((ask_quiet _ _).triple Unbegun.steady)).weaken fun e w hw => hnone _ w hw.1) fun runId => ?_
  have hsteady : ∀ prepared, Steady (PreparedRows deps runId prepared) := by
    intro prepared
    cases prepared with
    | ended result => exact Unsent.steady.and ended_steady
    | ready recipeVersionId maxRunMs => exact Unsent.steady.and begun_steady
  have hleft : ∀ prepared w, PreparedRows deps runId prepared w → Unsent deps runId w := by
    intro prepared w hw
    cases prepared with
    | ended result => exact hw.1
    | ready recipeVersionId maxRunMs => exact hw.1
  have hprepare := step_triple retries .prepare hsteady hleft
    (prepareRun_rows faults input ⟨runId, input.orgId, input.connectionId, input.dryRun, input.userId⟩ rfl)
  refine Triple.bind ((hprepare.pre fun w hw => hw.unsent).weaken ?_) fun prepared => ?_
  · rintro e w ⟨hw, name, rfl⟩
    exact ⟨runId, hw.1, .inr (.inr ⟨name, .inl rfl⟩)⟩
  · cases prepared with
    | ended result =>
      have hclosed : ∀ w, PreparedRows deps runId (.ended result) w → Closed deps runId w :=
        fun w hw => ⟨⟨hw.1.1, hw.1.1.begun hw.2⟩, hw.2⟩
      exact ((((settle_quiet result).triple Closed.steady).pre hclosed).post fun _ w hw =>
        ⟨runId, hw.endRows⟩).weaken fun _ w hw => ⟨runId, hw.endRows⟩
    | ready recipeVersionId maxRunMs =>
      refine Triple.recover (((followRun_rows rfl).pre fun w hw => ⟨hw.1.1, hw.2⟩).post fun _ w hw =>
        ⟨runId, hw.endRows⟩) fun stopped => ?_
      exact ((recordFailure_rows rfl).post fun _ w hw => ⟨runId, hw⟩).weaken fun _ w hw => ⟨runId, hw⟩

/-- What the rows of a portal run say once its job has ended with `r`. -/
structure RunRecorded (deps : PortalReadJobDeps R) (r : Except PortalError PortalReadJobResult) (w : World) : Prop where
  /-- The store never holds two start rows or two outcome rows of the run, and the outcome is the started run's. -/
  atMostOne : w.starts.length ≤ 1 ∧ w.ends.length ≤ 1 ∧ ∀ e ∈ w.ends, ∃ start ∈ w.starts, e.row.runId = start.runId
  exactlyOne : w.starts ≠ [] → w.ends.length = 1 ∨
    ∃ name, r = .error (.step .prepare name) ∨ r = .error (.step .recordFailure name)
  honest : ∀ e ∈ w.ends, e.row.ended.BeforeWorker → ∀ t, w.started = some t →
    e.moment < t ∨ ∃ t', t < t' ∧ t' ≤ e.moment ∧ DoesNotHold deps e.row.runId t'
  counted : ∀ e ∈ w.ends, e.row.ended.Completed → ∃ result counted, CountsOnce deps e.row w.captures result counted

theorem EndRows.runRecorded {r : Except PortalError PortalReadJobResult} {w : World} (h : EndRows deps runId r w) :
    RunRecorded deps r w := by
  obtain ⟨h, hend⟩ := h
  have hstarts : w.starts.length ≤ 1 := by
    rcases h.starts with hnone | ⟨row, hone, -⟩
    · rw [hnone]
      exact Nat.zero_le _
    · rw [hone]
      exact le_refl _
  have hends : w.ends.length ≤ 1 := by
    rcases h.ends with hnone | ⟨e, hone, -⟩
    · rw [hnone]
      exact Nat.zero_le _
    · rw [hone]
      exact le_refl _
  have hrun : ∀ e ∈ w.ends, e.row.runId = runId := by
    intro e he
    rcases h.ends with hnone | ⟨e', hone, hid⟩
    · rw [hnone] at he
      cases he
    · rw [hone, List.mem_singleton] at he
      exact he ▸ hid
  refine ⟨⟨hstarts, hends, fun e he => ?_⟩, fun hbegun => ?_, fun e he hbefore t ht => ?_, h.counted⟩
  · rcases h.starts with hnone | ⟨row, hone, hid⟩
    · exact absurd hnone (h.begun (List.ne_nil_of_mem he))
    · exact ⟨row, hone ▸ List.mem_singleton_self row, (hrun e he).trans hid.symm⟩
  · rcases hend with hnone | hended | hfailed
    · exact absurd hnone hbegun
    · exact .inl (le_antisymm hends (List.length_pos_iff.2 hended))
    · exact .inr hfailed
  · rw [hrun e he]
    exact h.honest e he hbefore t ht

end Steps

/-- The tables before the run, whose id is new. -/
def World.unbegun (clock : Nat) : World := ⟨clock, [], [], none, [], []⟩

/-- **Every portal run that got a start row gets its outcome row**, unless the job ends with what `prepare` or the
step that records a failure failed with; whatever is lost, and whatever is answered when it is asked again. -/
theorem portal_run_recorded [PortalJobRecipe R] (retries : Nat) (deps : PortalReadJobDeps R)
    (input : PortalReadJobInput) (faults : Faults) (clock : Nat) :
    RunRecorded deps (readPortalJob retries deps input faults 0 (World.unbegun clock)).1
      (after (readPortalJob retries deps input) faults (World.unbegun clock)) := by
  have h := readPortalJob_rows retries deps input faults 0
    (World.unbegun clock) ⟨rfl, rfl, rfl⟩
  unfold after
  rcases hrun : readPortalJob retries deps input faults 0 (World.unbegun clock) with ⟨r, n, w⟩
  rw [hrun] at h
  cases r with
  | ok result =>
    obtain ⟨runId, hrows⟩ := h
    exact hrows.runRecorded
  | error e =>
    obtain ⟨runId, hrows⟩ := h
    exact hrows.runRecorded

/-! ## A portal and two runs of it -/

/-- The one recipe of a portal. -/
inductive Recipe | orders

instance : PortalJobRecipe Recipe where
  portalKey _ := "sap_business_network".toList
  portalAdr _ := "0062".toList
  maxRunMs _ := some 600000

def Recipe.binding : PortalJobBinding := ⟨"https://portal".toList, ["/login".toList], "h1".toList⟩

/-- A portal whose member may write until the given moment, and whose worker forgets the run it starts. -/
def Recipe.portal (mayWriteUntil : Nat) : PortalReadJobDeps Recipe where
  store :=
    { memberMayWrite _ _ t := .ok (t < mayWriteUntil)
      memberIsOwner _ _ _ := .ok true
      connection id _ := .ok (some ⟨id, "org".toList, "sap_business_network".toList, "acct".toList, [], true,
        "user".toList⟩)
      promotedRecipe _ _ := .ok (some ⟨"v1".toList, "sap_business_network".toList, .orders, some .promoted⟩)
      recipeVersion id _ := .ok (some ⟨id, "sap_business_network".toList, .orders, some .promoted⟩)
      latestCredential id _ := .ok (some ⟨"cred".toList, id, ⟨[], [], [], []⟩, Recipe.binding⟩)
      disableConnection _ _ _ := .ok (some .disabled)
      admits _ := .ok ()
      newDocument _ _ := .ok "doc".toList }
  worker _ := .ready
    { startRun request _ := (true, .ok ⟨request.runId, .running⟩)
      runState _ _ := .error (.portal .runLost)
      runResult _ _ := .error (.portal .runLost)
      capture _ _ _ := .error (.portal .runLost) }
  terms := [("0062".toList, ⟨"sap_business_network".toList⟩)]
  bindingOf _ := Recipe.binding
  ingest :=
    { accept _ _ _ := .ok ()
      findDocumentByHash _ _ _ := .ok none
      latestScan _ _ := .ok none
      scan _ _ := .ok .clean }
  randomUUID _ := "run".toList
  fromBase64 _ := []
  sha256 _ := []

def Recipe.input : PortalReadJobInput := ⟨"conn".toList, "org".toList, "user".toList, false, none⟩

/-- The start row's answer is lost, and the store answers nothing more. -/
def startRowLast : Faults := fun n => if n < 7 then none else if n = 7 then some .unacknowledged else some .lost

/-- What the worker answers to being sent the run is lost. -/
def handleLost : Faults := fun n => if n = 14 then some .unacknowledged else none

/-- A start row whose run ends with no outcome row, and a run the worker started that is recorded refused: its answer
was lost, and the worker, asked again, had forgotten it. -/
theorem portal_run_unrecorded :
    ((after (readPortalJob 3 (Recipe.portal 15) Recipe.input) startRowLast (World.unbegun 0)).starts.length = 1 ∧
      (after (readPortalJob 3 (Recipe.portal 15) Recipe.input) startRowLast (World.unbegun 0)).ends.length = 0) ∧
    (after (readPortalJob 3 (Recipe.portal 15) Recipe.input) handleLost (World.unbegun 0)).started = some 14 ∧
      (after (readPortalJob 3 (Recipe.portal 15) Recipe.input) handleLost (World.unbegun 0)).ends.map
        (fun e => (e.moment, e.row.ended)) = [(18, .refused "PortalReadRefusedError".toList)] := by
  decide +kernel

end Recouple.PortalJob
