import Recouple.Database.WorkflowSafety

/-!
# Whether the packet an assembly returns can be approved

`assemblePacket` answers contents it has seen with the row they were assembled under; `approve` takes only the
newest row of the decision (`workflow.ts` 744-758, 838-856).

* **`assembled_packet_approvable`**: in every run whose assemblies all return the newest row of their decision, the
  packet of the last assembly is one an eligible approver can approve.
* **`superseded_refused`**: no other packet of a decision can be approved by anybody.
* **`reassembled_packet_refused`**: contents that change and change back leave the case with a returned packet that
  is refused.
-/

namespace Recouple.Database.Workflow
open Js Guarded
open Pipeline (CaseState)

def Db.packetsOf (s : Db) (decision_id : Nat) : List Packet := s.packets.filter (·.decision_id = decision_id)

/-- The order PostgreSQL reads packets in: when their transaction began, then id. -/
def Packet.rank (p : Packet) : Nat ×ₗ Nat := toLex (p.created_at, p.id)

/-- No packet of its decision comes after this one. -/
def Newest : WorkflowStore → Db → Packet → Prop
  | .postgres, s, p => ∀ q ∈ s.packetsOf p.decision_id, q.rank ≤ p.rank
  | .memory, s, p => (s.packetsOf p.decision_id).getLast? = some p

instance (s : Db) (p : Packet) : ∀ store, Decidable (Newest store s p)
  | .postgres => inferInstanceAs (Decidable (∀ q ∈ _, _))
  | .memory => inferInstanceAs (Decidable (_ = _))

/-- What an assembly would write: the narrative and the documents it encloses. -/
def contents (store : WorkflowStore) (s : Db) (existing : Case) (decision : Decision) (findings : List Packet.Finding)
    (letterTerms : Packet.LetterTerms) : Option (Text × List Nat) :=
  let written := match store with
    | .postgres => Postgres.letterFor existing decision findings letterTerms s
    | .memory => Memory.letterFor existing decision findings s
  match written with
  | .ok letter _ => some letter
  | .error _ _ => none

/-- Before a step: an assembly of contents seen before finds them under the newest packet of the decision, and one of
new contents began after every packet of the decision was made. -/
def AssemblesNewest (store : WorkflowStore) (tools : Tools) (s : Db) : Step → Prop
  | .call m (.assemblePacket deductionId decisionId _ findings letterTerms) =>
    ∀ existing ∈ s.find deductionId, ∀ decision ∈ s.decision decisionId,
      ∀ letter ∈ contents store s existing decision findings letterTerms,
        let seen := s.packetWith decisionId (packetContentHash tools decisionId letter.1 letter.2)
        (∀ p ∈ seen, Newest store s p) ∧
          (seen = none → store = .postgres → ∀ q ∈ s.packetsOf decisionId, q.rank < toLex (m.now, m.newId))
  | _ => True

instance (store : WorkflowStore) (tools : Tools) (s : Db) : ∀ step, Decidable (AssemblesNewest store tools s step)
  | .call _ (.assemblePacket ..) => inferInstanceAs (Decidable (∀ existing ∈ _, _))
  | .call _ (.recordHumanDecision ..) | .call _ (.approve ..) | .call _ (.recordSubmission ..)
  | .call _ (.recordOutcome ..) | .call _ (.declineCase ..) | .call _ (.setDisputeDeadline ..) | .papers _ =>
    isTrue trivial

/-- Every step of a run is `ok` where it is made. -/
def Along (ok : Db → Step → Prop) (store : WorkflowStore) (tools : Tools) : List Step → Db → Prop
  | [], _ => True
  | step :: steps, s => ok s step ∧ Along ok store tools steps (step.run store tools s)

instance (ok : Db → Step → Prop) [∀ s step, Decidable (ok s step)] (store : WorkflowStore) (tools : Tools) :
    ∀ steps s, Decidable (Along ok store tools steps s)
  | [], _ => isTrue trivial
  | _ :: steps, _ => @instDecidableAnd _ _ _ (instDecidableAlong ok store tools steps _)

/-- The packet a step returns for a decision. -/
def Step.returns (store : WorkflowStore) (tools : Tools) (s : Db) (decisionId : Nat) : Step → Option Nat
  | .call m (.assemblePacket deductionId decision assembledBy findings letterTerms) =>
    if decision = decisionId then
      match exec store tools m (.assemblePacket deductionId decision assembledBy findings letterTerms) s with
      | .ok (.assembled packetId _ _ _) _ => some packetId
      | _ => none
    else none
  | _ => none

/-- The packet the last successful assembly of a run returned for a decision. -/
def returned (store : WorkflowStore) (tools : Tools) (decisionId : Nat) : List Step → Db → Option Nat
  | [], _ => none
  | step :: steps, s =>
    (returned store tools decisionId steps (step.run store tools s)).or (step.returns store tools s decisionId)

/-! ## What an assembly does -/

section
variable {s s' : Db} {store : WorkflowStore} {tools : Tools} {m : Moment}

theorem Newest.congr {p : Packet} (h : s'.packetsOf p.decision_id = s.packetsOf p.decision_id) :
    Newest store s' p ↔ Newest store s p := by
  cases store <;> simp only [Newest, h]

theorem packets_addPacket (s : Db) (p : Packet) (source : CaseState) :
    (s.addPacket p source).packets = s.packets ++ [p] := by
  unfold Db.addPacket
  dsimp only
  split <;> rfl

/-- An assembly answers with a packet of its decision: the one its contents are under, or the one it adds. -/
theorem assemble_ok {id decisionId assembledBy : Nat} {findings : List Packet.Finding}
    {letterTerms : Packet.LetterTerms} {answer : Answer}
    (h : exec store tools m (.assemblePacket id decisionId assembledBy findings letterTerms) s = .ok answer s') :
    ∃ existing decision letter p, s.find id = some existing ∧ s.decision decisionId = some decision ∧
      contents store s existing decision findings letterTerms = some letter ∧ answer = assembledFrom p ∧
      p.decision_id = decisionId ∧
      ((s.packetWith decisionId (packetContentHash tools decisionId letter.1 letter.2) = some p ∧ s' = s) ∨
        (s.packetWith decisionId (packetContentHash tools decisionId letter.1 letter.2) = none ∧
          s.packet p.id = none ∧ s'.packets = s.packets ++ [p] ∧
          (store = .postgres → p.rank = toLex (m.now, m.newId)))) := by
  have hof : ∀ {hash : Text} {p : Packet}, s.packetWith decisionId hash = some p → p.decision_id = decisionId :=
    fun hfound => (by simpa using List.find?_some hfound : _ ∧ _).1
  cases store with
  | postgres =>
    have h : Postgres.assemblePacket tools m id decisionId assembledBy findings letterTerms s = .ok answer s' :=
      transaction_ok.1 h
    simp only [Postgres.assemblePacket, Postgres.requireCaller, require_bind_ok, (lockCase_checks _ _ _ _).bind_ok,
      lockCase_ok, get_bind_ok, found_bind_ok, (letterFor_checks _ _ _ _).bind_ok] at h
    obtain ⟨-, row, ⟨hrow, -⟩, decision, hdecision, letter, hletter, h⟩ := h
    have hcontents : contents .postgres s row decision findings letterTerms = some letter := by
      simp [contents, hletter]
    refine ⟨row, decision, letter, ?_⟩
    generalize hfound : s.packetWith decisionId _ = already at h
    cases already with
    | some already =>
      obtain ⟨rfl, rfl⟩ := pure_ok.1 h
      exact ⟨already, hrow, (Option.filter_eq_some_iff.1 hdecision).1, hcontents, rfl, hof hfound, .inl ⟨rfl, rfl⟩⟩
    | none =>
      simp only [absent_bind_ok, (requireAssembling_checks _).bind_ok, bind_ok (x := Postgres.insertPacket _ _)] at h
      obtain ⟨-, _, -, _, _, hinsert, h⟩ := h
      simp only [Postgres.insertPacket, get_bind_ok, require_bind_ok, modify_ok] at hinsert
      obtain ⟨-, ⟨-, hnew⟩, rfl⟩ := hinsert
      obtain ⟨rfl, rfl⟩ := pure_ok.1 h
      exact ⟨_, hrow, (Option.filter_eq_some_iff.1 hdecision).1, hcontents, rfl, rfl,
        .inr ⟨rfl, hnew, packets_addPacket _ _ _, fun _ => rfl⟩⟩
  | memory =>
    have h : Memory.assemblePacket tools m id decisionId assembledBy findings s = .ok answer s' := h
    simp only [Memory.assemblePacket, (caseOrThrow_checks _).bind_ok, caseOrThrow_ok, (requireWriter_checks _ _).bind_ok,
      get_bind_ok, found_bind_ok, (memoryLetterFor_checks _ _ _).bind_ok] at h
    obtain ⟨row, hrow, _, -, decision, hdecision, letter, hletter, h⟩ := h
    have hcontents : contents .memory s row decision findings letterTerms = some letter := by
      simp [contents, hletter]
    refine ⟨row, decision, letter, ?_⟩
    generalize hfound : s.packetWith decisionId _ = already at h
    cases already with
    | some already =>
      obtain ⟨rfl, rfl⟩ := pure_ok.1 h
      exact ⟨already, hrow, (Option.filter_eq_some_iff.1 hdecision).1, hcontents, rfl, hof hfound, .inl ⟨rfl, rfl⟩⟩
    | none =>
      simp only [absent_bind_ok, (requireAssembling_checks _).bind_ok, modify_bind_ok, pure_ok] at h
      obtain ⟨-, _, -, rfl, rfl⟩ := h
      exact ⟨_, hrow, (Option.filter_eq_some_iff.1 hdecision).1, hcontents, rfl, rfl,
        .inr ⟨rfl, lookup_freshId _, packets_addPacket _ _ _, fun h => (by cases h)⟩⟩

/-- No other request writes a packet. -/
theorem exec_packets {request : Request} {answer : Answer} (h : exec store tools m request s = .ok answer s')
    (hother : ∀ id decision by' findings terms, request ≠ .assemblePacket id decision by' findings terms) :
    s'.packets = s.packets := by
  cases store with
  | postgres =>
    have h : Postgres.call tools m request s = .ok answer s' := transaction_ok.1 h
    cases request with
    | assemblePacket => exact absurd rfl (hother _ _ _ _ _)
    | recordHumanDecision => exact (decide_changes h).2
    | approve => exact (approve_changes h).2
    | recordSubmission => exact (submit_changes h).2
    | recordOutcome => exact (outcome_changes h).2
    | declineCase => exact (decline_changes h).2
    | setDisputeDeadline => exact (deadline_changes h).2
  | memory =>
    cases request with
    | assemblePacket => exact absurd rfl (hother _ _ _ _ _)
    | recordHumanDecision => exact (memory_decide_changes h).2
    | approve => exact (memory_approve_changes h).2
    | recordSubmission => exact (memory_submit_changes h).2
    | recordOutcome => exact (memory_outcome_changes h).2
    | declineCase => exact (memory_decline_changes h).2
    | setDisputeDeadline => exact (memory_deadline_changes h).2

/-! ## The newest packet -/

/-- What an assembly returned stays its decision's newest packet until the next one. -/
def ReturnsNewest (store : WorkflowStore) (s : Db) (decisionId packetId : Nat) : Prop :=
  ∃ p, s.packet packetId = some p ∧ p.decision_id = decisionId ∧ Newest store s p

/-- Packets are never taken away. -/
theorem packets_grow (hc : Changes s s') : ∃ added, s'.packets = s.packets ++ added := by
  induction hc with
  | refl => exact ⟨[], (List.append_nil _).symm⟩
  | tail _ hlast ih =>
    obtain ⟨added, hadded⟩ := ih
    cases hlast with
    | @packet p =>
      refine ⟨added ++ [p], ?_⟩
      rw [packets_addPacket, hadded, List.append_assoc]
    | decline => exact ⟨added, (packets_addDecline _ _).trans hadded⟩
    | decision | approval | grant | submission | outcome | deadline | papers => exact ⟨added, hadded⟩

/-- Only an assembly of a decision adds to its packets. -/
theorem packetsOf_step {step : Step} {decisionId : Nat} (h : step.returns store tools s decisionId = none) :
    (step.run store tools s).packetsOf decisionId = s.packetsOf decisionId := by
  cases step with
  | papers => rfl
  | call m request =>
    show (after (exec store tools m request) s).packetsOf decisionId = _
    rcases (exec_whole store tools m request).after s with ⟨answer, hok⟩ | hsame
    · by_cases hassembly : ∃ id decision by' findings terms, request = .assemblePacket id decision by' findings terms
      · obtain ⟨id, decision, by', findings, terms, rfl⟩ := hassembly
        obtain ⟨_, _, letter, p, -, -, -, rfl, hof, hwritten⟩ := assemble_ok hok
        have hother : decision ≠ decisionId := by
          rintro rfl
          simp [Step.returns, hok, assembledFrom] at h
        rcases hwritten with ⟨-, hs'⟩ | ⟨-, -, hpackets, -⟩
        · rw [hs']
        · simp only [Db.packetsOf, hpackets, List.filter_append, hof, List.filter_singleton]
          simp [hother]
      · rw [Db.packetsOf, exec_packets hok fun id decision by' findings terms he =>
          hassembly ⟨id, decision, by', findings, terms, he⟩]
        rfl
    · rw [hsame]

/-- A packet stays under its id. -/
theorem packet_step {step : Step} {id : Nat} {p : Packet} (h : s.packet id = some p) :
    (step.run store tools s).packet id = some p := by
  obtain ⟨added, hadded⟩ := packets_grow (step_changes store tools s step)
  unfold Db.packet Rows.lookup at h ⊢
  rw [hadded, List.find?_append, h]
  rfl

theorem returns_some {step : Step} {decisionId packetId : Nat} (h : step.returns store tools s decisionId = some packetId) :
    ∃ m id by' findings terms hash narrative ids s', step = .call m (.assemblePacket id decisionId by' findings terms) ∧
      exec store tools m (.assemblePacket id decisionId by' findings terms) s =
        .ok (.assembled packetId hash narrative ids) s' := by
  cases step with
  | papers => cases h
  | call m request =>
    cases request with
    | assemblePacket id decision by' findings terms =>
      simp only [Step.returns] at h
      split at h
      · rename_i hdecision
        subst hdecision
        split at h
        · rename_i hok
          cases h
          exact ⟨m, id, by', findings, terms, _, _, _, _, rfl, hok⟩
        · cases h
      · cases h
    | recordHumanDecision | approve | recordSubmission | recordOutcome | declineCase | setDisputeDeadline => cases h

theorem after_ok {request : Request} {answer : Answer} (h : exec store tools m request s = .ok answer s') :
    after (exec store tools m request) s = s' := by
  unfold after
  rw [h]

/-- An assembly that meets the condition returns the newest packet. -/
theorem returnsNewest_assembly {step : Step} {decisionId packetId : Nat} {start : Db} (hs : Sound start s)
    (hstep : AssemblesNewest store tools s step) (h : step.returns store tools s decisionId = some packetId) :
    ReturnsNewest store (step.run store tools s) decisionId packetId := by
  obtain ⟨m, id, by', findings, terms, hash, narrative, ids, s', rfl, hok⟩ := returns_some h
  show ReturnsNewest store (after _ s) decisionId packetId
  rw [after_ok hok]
  obtain ⟨existing, d, letter, p, hfind, hd, hcontents, hanswer, hof, hwritten⟩ := assemble_ok hok
  obtain rfl : packetId = p.id := (Answer.assembled.inj hanswer).1
  obtain ⟨hseen, hnew⟩ := hstep existing hfind d hd letter hcontents
  rcases hwritten with ⟨hfound, rfl⟩ | ⟨hfound, hfresh, hpackets, hrank⟩
  · exact ⟨p, (Rows.lookup_eq_some hs.packet_ids).2 ⟨List.mem_of_find?_eq_some hfound, rfl⟩, hof, hseen p hfound⟩
  · refine ⟨p, ?_, hof, ?_⟩
    · unfold Db.packet
      rw [hpackets, Rows.lookup_insert hfresh, if_pos rfl]
    · have hlist : s'.packetsOf p.decision_id = s.packetsOf p.decision_id ++ [p] := by
        simp [Db.packetsOf, hpackets, List.filter_append]
      cases store with
      | postgres =>
        intro q hq
        rw [hlist] at hq
        rcases List.mem_append.1 hq with hold | hself
        · rw [hrank rfl]
          exact (hnew hfound rfl q (hof ▸ hold)).le
        · exact le_of_eq (by rw [List.mem_singleton.1 hself])
      | memory => exact (congrArg List.getLast? hlist).trans List.getLast?_concat

/-- Steps without an assembly of the decision keep its newest packet. -/
theorem returnsNewest_rest {decisionId packetId : Nat} : ∀ {steps : List Step} {s : Db},
    returned store tools decisionId steps s = none → ReturnsNewest store s decisionId packetId →
      ReturnsNewest store (run store tools steps s) decisionId packetId := by
  intro steps
  induction steps with
  | nil => exact fun _ h => h
  | cons step steps ih =>
    rintro s h ⟨p, hp, rfl, hnewest⟩
    unfold returned at h
    obtain ⟨hlater, hnone⟩ := Option.or_eq_none_iff.1 h
    exact ih hlater ⟨p, packet_step hp, rfl, (Newest.congr (packetsOf_step hnone)).2 hnewest⟩

/-- Every state of a run keeps what the last assembly returned. -/
theorem returnsNewest_run {start : Db} {decisionId : Nat} : ∀ {steps : List Step} {s : Db}, Sound start s →
    Along (AssemblesNewest store tools) store tools steps s → ∀ {packetId : Nat}, returned store tools decisionId steps s = some packetId →
      ReturnsNewest store (run store tools steps s) decisionId packetId := by
  intro steps
  induction steps with
  | nil => intro s _ _ packetId h; cases h
  | cons step steps ih =>
    intro s hs hsteps packetId h
    have hs' : Sound start (step.run store tools s) := (hs.changes (step_changes store tools s step)).1
    unfold returned at h
    cases hlater : returned store tools decisionId steps (step.run store tools s) with
    | some later =>
      rw [hlater, Option.some_or] at h
      cases h
      exact ih hs' hsteps.2 hlater
    | none =>
      rw [hlater, Option.none_or] at h
      exact returnsNewest_rest (s := step.run store tools s) hlater (returnsNewest_assembly hs hsteps.1 h)

/-! ## What `approve` takes -/

/-- No other packet is read as the latest one. -/
theorem latest_of_newest {p : Packet} (hp : p ∈ s.packets) (h : Newest .postgres s p) :
    (Postgres.latestPacket s p.decision_id).filter (fun q => q.id ≠ p.id) = none := by
  rw [Option.filter_eq_none_iff]
  intro q hq
  have hmem : p ∈ s.packetsOf p.decision_id := by simpa [Db.packetsOf] using hp
  have hle : q.rank ≤ p.rank := h q (List.argmax_mem hq)
  have hge : p.rank ≤ q.rank := List.le_of_mem_argmax hmem hq
  have hrank : q.rank = p.rank := le_antisymm hle hge
  have hid : q.id = p.id := congrArg (fun r => (ofLex r).2) hrank
  simp [hid]

theorem newest_of_latest {start : Db} (hs : Sound start s) {p : Packet} (hp : p ∈ s.packets)
    (h : (Postgres.latestPacket s p.decision_id).filter (fun q => q.id ≠ p.id) = none) : Newest .postgres s p := by
  have hmem : p ∈ s.packetsOf p.decision_id := by simpa [Db.packetsOf] using hp
  obtain ⟨q, hq⟩ : ∃ q, Postgres.latestPacket s p.decision_id = some q := by
    cases hlatest : Postgres.latestPacket s p.decision_id with
    | some q => exact ⟨q, rfl⟩
    | none => exact absurd (List.argmax_eq_none.1 hlatest) (List.ne_nil_of_mem hmem)
  have hid : q.id = p.id := by
    have := (Option.filter_eq_none_iff.1 h) q hq
    simpa using this
  have hqs : q ∈ s.packets := (List.mem_filter.1 (List.argmax_mem hq)).1
  obtain rfl : q = p := List.inj_on_of_nodup_map hs.packet_ids hqs hp hid
  exact fun r hr => List.le_of_mem_argmax hr hq

/-- What a person needs to approve a decision: an approver's role, and not to have prepared it. -/
def Eligible (s : Db) (user : Nat) (d : Decision) : Prop :=
  (∃ r ∈ approverRoles, s.roleOf user = some r) ∧ user ≠ d.prepared_by

/-- The two ids the database generates are no approval's yet. -/
def FreshIds (s : Db) (m : Moment) : Prop :=
  (∀ a ∈ s.approvals, a.id ≠ m.newId ∧ a.id ≠ m.secondId) ∧ m.newId ≠ m.secondId

instance (s : Db) (m : Moment) : Decidable (FreshIds s m) := inferInstanceAs (Decidable (_ ∧ _))

theorem roleOf_any {user : Nat} {roles : List MembershipRole} (h : ∃ r ∈ roles, s.roleOf user = some r) :
    (s.roleOf user).any (· ∈ roles) = true := by
  obtain ⟨r, hr, hrole⟩ := h
  simp [hrole, hr]

theorem insertApproval_eq (new : Approval) {d : Decision} (hcaller : new.approver_id = m.caller)
    (hd : s.decision new.decision_id = some d) (heligible : Eligible s new.approver_id d)
    (hone : ∀ b ∈ s.approvals, ¬ (b.decision_id = new.decision_id ∧ b.action_type = new.action_type))
    (hhash : ∀ hash ∈ new.packet_hash, s.packetWith new.decision_id hash ≠ none)
    (hid : ∀ a ∈ s.approvals, a.id ≠ new.id) :
    Postgres.insertApproval m new s = .ok ⟨⟩ (s.addApproval new) := by
  simp only [Postgres.insertApproval, get_bind_ok, require_bind_ok, found_bind_ok, absent_bind_ok, modify_ok]
  exact ⟨hcaller, d, hd, heligible.2.symm, roleOf_any heligible.1, find?_eq_none_iff.2 hone, hhash, hid, trivial⟩

theorem packetWith_of_mem {p : Packet} (hp : p ∈ s.packets) : s.packetWith p.decision_id p.content_hash ≠ none := by
  unfold Db.packetWith
  rw [Ne, find?_eq_none_iff]
  exact fun h => h p hp ⟨rfl, rfl⟩

theorem postgres_approve_ok {p : Packet} {d : Decision} {row : Case} (note : Option Text) (alsoWriteback : Bool)
    (hp : s.packet p.id = some p) (hd : s.decision p.decision_id = some d) (hrow : s.find p.deduction_id = some row)
    (hwaiting : row.state = .awaiting_approval) (hunapproved : ∀ a ∈ s.approvals, a.decision_id ≠ p.decision_id)
    (hnewest : Newest .postgres s p) (heligible : Eligible s m.caller d) (hfresh : FreshIds s m) :
    ∃ s', Postgres.approve m p.decision_id p.id m.caller note alsoWriteback s =
      .ok (.approved m.newId p.deduction_id) s' := by
  have hmem : p ∈ s.packets := Rows.mem_of_lookup hp
  have hmay : Postgres.memberMayWrite s m.caller = true := by
    obtain ⟨⟨r, hr, hrole⟩, -⟩ := heligible
    refine roleOf_any ⟨r, ?_, hrole⟩
    revert hr
    cases r <;> decide
  let approval : Approval := ⟨m.newId, p.decision_id, m.caller, .submit, note, some p.content_hash⟩
  have hfirst := insertApproval_eq (m := m) approval rfl hd heligible
    (fun b hb he => hunapproved b hb he.1) (fun hash hhash => Option.some.inj hhash ▸ packetWith_of_mem hmem) (fun a ha => (hfresh.1 a ha).1)
  cases alsoWriteback with
  | false =>
    refine ⟨(s.addApproval approval).withGrant p.deduction_id approval, ?_⟩
    simp only [Postgres.approve, Postgres.requireCaller, require_bind_ok, (packetFor_checks _ _ _).bind_ok, packetFor_ok,
      (lockCase_checks _ _ _ _).bind_ok, lockCase_ok, get_bind_ok, absent_bind_ok,
      bind_ok (x := Postgres.insertApproval _ _)]
    refine ⟨trivial, p, ⟨hp, rfl⟩, row, ⟨hrow, hmay⟩, hwaiting, latest_of_newest hmem hnewest, _, _, hfirst, ?_⟩
    rfl
  | true =>
    let writeback : Approval := ⟨m.secondId, p.decision_id, m.caller, .writeback, note, none⟩
    have hsecond := insertApproval_eq (m := m) (s := s.addApproval approval) writeback rfl hd heligible
      (fun b hb he => by
        rcases List.mem_append.1 hb with hold | hself
        · exact hunapproved b hold he.1
        · obtain rfl := List.mem_singleton.1 hself
          cases he.2)
      (by simp) (fun a ha => by
        rcases List.mem_append.1 ha with hold | hself
        · exact (hfresh.1 a hold).2
        · obtain rfl := List.mem_singleton.1 hself
          exact hfresh.2)
    refine ⟨(((s.addApproval approval).addApproval writeback).withGrant p.deduction_id writeback).withGrant
      p.deduction_id approval, ?_⟩
    simp only [Postgres.approve, Postgres.requireCaller, require_bind_ok, (packetFor_checks _ _ _).bind_ok, packetFor_ok,
      (lockCase_checks _ _ _ _).bind_ok, lockCase_ok, get_bind_ok, absent_bind_ok,
      bind_ok (x := Postgres.insertApproval _ _), if_true]
    exact ⟨trivial, p, ⟨hp, rfl⟩, row, ⟨hrow, hmay⟩, hwaiting, latest_of_newest hmem hnewest, _, _, hfirst, _, _,
      hsecond, rfl⟩

theorem memory_approve_ok {p : Packet} {d : Decision} {row : Case} {user : Nat} (note : Option Text)
    (hp : s.packet p.id = some p) (hd : s.decision p.decision_id = some d) (hrow : s.find p.deduction_id = some row)
    (hwaiting : row.state = .awaiting_approval) (hunapproved : ∀ a ∈ s.approvals, a.decision_id ≠ p.decision_id)
    (hnewest : Newest .memory s p) (heligible : Eligible s user d) :
    ∃ answer s', Memory.approve p.decision_id p.id user note s = .ok answer s' := by
  let approval : Approval :=
    ⟨Memory.freshId (s.approvals.map (·.id)), p.decision_id, user, .submit, note, some p.content_hash⟩
  refine ⟨.approved approval.id p.deduction_id, (s.addApproval approval).withGrant p.deduction_id approval, ?_⟩
  simp only [Memory.approve, (memoryPacketFor_checks _ _ _).bind_ok, memoryPacketFor_ok, (caseOrThrow_checks _).bind_ok,
    caseOrThrow_ok, get_bind_ok, found_bind_ok, require_bind_ok, absent_bind_ok, modify_bind_ok, pure_ok]
  have hlatest : Memory.latestPacket s p.decision_id = some p := hnewest
  exact ⟨p, ⟨hp, rfl⟩, row, hrow, d, hd, heligible.2.symm, roleOf_any heligible.1, hwaiting, by simp [hlatest],
    find?_eq_none_iff.2 hunapproved, rfl, rfl⟩

/-- **Only the newest packet of a decision is ever approved.** -/
theorem superseded_refused {start : Db} (hs : Sound start s) {decisionId packetId user : Nat} {note : Option Text}
    {alsoWriteback : Bool} {answer : Answer}
    (h : exec store tools m (.approve decisionId packetId user note alsoWriteback) s = .ok answer s') :
    ReturnsNewest store s decisionId packetId := by
  cases store with
  | postgres =>
    have h : Postgres.approve m decisionId packetId user note alsoWriteback s = .ok answer s' := transaction_ok.1 h
    simp only [Postgres.approve, Postgres.requireCaller, require_bind_ok, (packetFor_checks _ _ _).bind_ok, packetFor_ok,
      (lockCase_checks _ _ _ _).bind_ok, lockCase_ok, get_bind_ok, absent_bind_ok] at h
    obtain ⟨-, p, ⟨hp, rfl⟩, -, -, -, hlatest, -⟩ := h
    exact ⟨p, hp, rfl, newest_of_latest hs (Rows.mem_of_lookup hp) hlatest⟩
  | memory =>
    have h : Memory.approve decisionId packetId user note s = .ok answer s' := h
    simp only [Memory.approve, (memoryPacketFor_checks _ _ _).bind_ok, memoryPacketFor_ok, (caseOrThrow_checks _).bind_ok,
      caseOrThrow_ok, get_bind_ok, found_bind_ok, require_bind_ok, absent_bind_ok] at h
    obtain ⟨p, ⟨hp, rfl⟩, -, -, -, -, -, -, -, hlatest, -⟩ := h
    have hmem : p ∈ s.packetsOf p.decision_id := by simpa [Db.packetsOf] using Rows.mem_of_lookup hp
    refine ⟨p, hp, rfl, ?_⟩
    obtain ⟨q, hq⟩ : ∃ q, (s.packetsOf p.decision_id).getLast? = some q :=
      ⟨_, List.getLast?_eq_some_getLast (List.ne_nil_of_mem hmem)⟩
    have hid : q.id = p.id := by
      have := (Option.filter_eq_none_iff.1 hlatest) q hq
      simpa using this
    have hqs : q ∈ s.packets := (List.mem_filter.1 (List.mem_of_getLast? hq)).1
    obtain rfl : q = p := List.inj_on_of_nodup_map hs.packet_ids hqs (Rows.mem_of_lookup hp) hid
    exact hq

/-- **The packet an assembly returned last can be approved**, where every assembly of the run returned the newest packet
of its decision. -/
theorem assembled_packet_approvable {start : Db} (h : start.Unworked) {steps : List Step}
    (hsteps : Along (AssemblesNewest store tools) store tools steps start) {d : Decision} {packetId : Nat}
    (hreturned : returned store tools d.id steps start = some packetId)
    (hd : d ∈ (run store tools steps start).decisions)
    (hwaiting : (run store tools steps start).stateOf d.deduction_id = some .awaiting_approval)
    (hunapproved : (run store tools steps start).submitApproval d.id = none)
    (heligible : Eligible (run store tools steps start) m.caller d) (hfresh : FreshIds (run store tools steps start) m)
    (note : Option Text) (alsoWriteback : Bool) :
    ∃ answer s', exec store tools m (.approve d.id packetId m.caller note alsoWriteback) (run store tools steps start) =
      .ok answer s' := by
  have hs : Sound start (run store tools steps start) := (h.sound.changes (run_changes store tools steps start)).1
  obtain ⟨p, hp, hof, hnewest⟩ := returnsNewest_run h.sound hsteps hreturned
  generalize run store tools steps start = s at *
  obtain rfl : p.id = packetId := Rows.key_of_lookup hp
  -- the packet's decision is `d`, and so is its case
  have hdecision : s.decision p.decision_id = some d := (Rows.lookup_eq_some hs.decision_ids).2 ⟨hd, hof.symm⟩
  obtain ⟨d', hd', hid', hcase'⟩ := hs.packets p (Rows.mem_of_lookup hp)
  obtain rfl := hs.decision_eq hd' hd (hid'.trans hof)
  obtain ⟨row, hrow, hstate⟩ := Option.map_eq_some_iff.1 (hcase' ▸ hwaiting)
  have hnone : ∀ a ∈ s.approvals, a.decision_id ≠ p.decision_id := fun a ha he => by
    obtain ⟨b, hb, hfor, hsubmit⟩ := hs.submitFirst a ha
    exact find?_eq_none_iff.1 hunapproved b hb ⟨hfor.trans (he.trans hof), hsubmit⟩
  rw [← hof]
  cases store with
  | postgres =>
    obtain ⟨s', hok⟩ := postgres_approve_ok note alsoWriteback hp hdecision hrow hstate hnone hnewest heligible hfresh
    exact ⟨_, s', transaction_ok.2 hok⟩
  | memory => exact memory_approve_ok note hp hdecision hrow hstate hnone hnewest heligible

end

/-! ## Contents that come back -/

def finding (message : String) : Packet.Finding := ⟨"quantity_mismatch".toList, message.toList⟩

/-- The case decided, then assembled with one finding after another; each assembly begins after the one before. -/
def assembledWith (messages : List String) : List Step :=
  .call ⟨1, 10, 0, 1, 0⟩ (.recordHumanDecision 3 1 "shortage_quantity".toList "the delivery was signed for".toList) ::
    messages.mapIdx fun index message =>
      .call ⟨1, 20 + index, 0, 2 + index, 0⟩ (.assemblePacket 3 10 1 [finding message] ⟨none, none, []⟩)

/-- The owner, once the case is assembled. -/
def owner : Moment := ⟨2, 30, 31, 9, 0⟩

def theDecision : Decision :=
  ⟨10, 3, "shortage_quantity".toList, "the delivery was signed for".toList, 1⟩

/-- The case waits for the owner's approval of the packet returned last. -/
def WaitsFor (steps : List Step) (packetId : Nat) : Prop :=
  returned .postgres plainTools 10 steps aCase = some packetId ∧
    let s := run .postgres plainTools steps aCase
    theDecision ∈ s.decisions ∧ s.stateOf 3 = some .awaiting_approval ∧ s.submitApproval 10 = none ∧
      s.roleOf 2 = some .owner ∧ FreshIds s owner

instance (steps : List Step) (packetId : Nat) : Decidable (WaitsFor steps packetId) :=
  inferInstanceAs (Decidable (_ ∧ _))

theorem changed_packet_approved :
    ∃ answer s', exec .postgres plainTools owner (.approve 10 21 2 none false)
      (run .postgres plainTools (assembledWith ["10 units short", "12 units short"]) aCase) = .ok answer s' := by
  have hnewest : Along (AssemblesNewest .postgres plainTools) .postgres plainTools
      (assembledWith ["10 units short", "12 units short"]) aCase := by decide +kernel
  have hwaits : WaitsFor (assembledWith ["10 units short", "12 units short"]) 21 := by decide +kernel
  obtain ⟨hreturned, hd, hwaiting, hunapproved, hrole, hfresh⟩ := hwaits
  exact assembled_packet_approvable (m := owner) (d := theDecision) aCase_unworked hnewest hreturned hd hwaiting
    hunapproved ⟨⟨.owner, by decide, hrole⟩, by decide⟩ hfresh none false

/-- **Assembled, changed and changed back, a case is left with a returned packet nobody can approve.** -/
theorem reassembled_packet_refused :
    ¬ ∀ (store : WorkflowStore) (tools : Tools) (start : Db), start.Unworked → ∀ (steps : List Step) (d : Decision)
      (packetId : Nat), returned store tools d.id steps start = some packetId →
      d ∈ (run store tools steps start).decisions →
      (run store tools steps start).stateOf d.deduction_id = some .awaiting_approval →
      (run store tools steps start).submitApproval d.id = none → ∀ m : Moment,
      Eligible (run store tools steps start) m.caller d → FreshIds (run store tools steps start) m →
      ∀ (note : Option Text) (alsoWriteback : Bool), ∃ answer s',
        exec store tools m (.approve d.id packetId m.caller note alsoWriteback) (run store tools steps start) =
          .ok answer s' := by
  intro h
  have hwaits : WaitsFor (assembledWith ["10 units short", "12 units short", "10 units short"]) 20 ∧
      accepts (exec .postgres plainTools owner (.approve 10 20 2 none false)) (run .postgres plainTools
        (assembledWith ["10 units short", "12 units short", "10 units short"]) aCase) = false := by decide +kernel
  obtain ⟨⟨hreturned, hd, hwaiting, hunapproved, hrole, hfresh⟩, hrefused⟩ := hwaits
  obtain ⟨answer, s', hok⟩ := h .postgres plainTools aCase aCase_unworked _ theDecision 20 hreturned hd hwaiting
    hunapproved owner ⟨⟨.owner, by decide, hrole⟩, by decide⟩ hfresh none false
  exact absurd ((accepts_of_ok hok).symm.trans hrefused) (by decide)

end Recouple.Database.Workflow
