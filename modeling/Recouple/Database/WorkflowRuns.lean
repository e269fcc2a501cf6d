import Recouple.Database.WorkflowStores

/-!
# What runs of the workflow keep

`Change` says what one write of either store's calls does and what was checked before it; `Sound` is what every
change keeps.
-/

namespace Recouple.Database.Workflow
open Js Guarded
open Pipeline (CaseState)

/-! ## The state as a fold of events -/

def Payload.trigger : Payload → Trigger
  | .decision_recorded .. => .decision_recorded
  | .packet_assembled .. => .packet_assembled
  | .approval_granted .. => .approval_granted
  | .submission_recorded .. => .submission_recorded
  | .outcome_recorded .. => .outcome_recorded
  | .deadline_set .. => .deadline_set
  | .declined .. => .declined

/-- An outcome says which of its edges is taken. -/
def Payload.reaches (payload : Payload) (target : CaseState) : Bool :=
  match payload with
  | .outcome_recorded outcome .. => target = outcome.state
  | _ => true

/-- Where an event takes a case: along the edge of its trigger, if there is one. -/
def advance (state : CaseState) (payload : Payload) : CaseState :=
  match transitions.find? fun t => t.source = state ∧ t.trigger = payload.trigger ∧ payload.reaches t.target = true with
  | some t => t.target
  | none => state

/-- The events of a case, oldest first. -/
def Db.history (s : Db) (id : Nat) : List Payload :=
  (s.deduction_events.filter (·.deduction_id = id)).map (·.payload)

section
variable (state : CaseState)

theorem advance_packet {packet_id decision_id : Nat} {content_hash : Text} {ids : List Nat} {assembled_by : Nat} :
    advance .analyst_review (.packet_assembled packet_id decision_id content_hash ids assembled_by) = .awaiting_approval ∧
      advance .awaiting_approval (.packet_assembled packet_id decision_id content_hash ids assembled_by) =
        .awaiting_approval := ⟨rfl, rfl⟩

theorem advance_grant {approval_id decision_id : Nat} {action : ActionType} {hash : Option Text} {approver_id : Nat} :
    advance state (.approval_granted approval_id decision_id action hash approver_id) = state := by
  cases state <;> rfl

theorem advance_submission {submission_id decision_id : Nat} {channel : Channel} {hash confirmation : Text}
    {submitted_at recorded_by : Nat} :
    advance .awaiting_approval
      (.submission_recorded submission_id decision_id channel hash confirmation submitted_at recorded_by) = .submitted :=
  rfl

theorem advance_outcome {outcome : CaseOutcome} {cents : Int} {recorded_by : Nat} {note : Option Text} :
    advance .submitted (.outcome_recorded outcome cents recorded_by note) = outcome.state := by
  cases outcome <;> rfl

theorem advance_deadline {deadline basis : Text} {set_by : Nat} :
    advance state (.deadline_set deadline basis set_by) = state := by
  cases state <;> rfl

theorem advance_declined {id : Nat} {reason : Text} {cents : Int} {source : Pipeline.UploadSource} {kind : ProvenanceKind}
    {decided_by : Text} {missing : List Text} :
    advance state (.declined id reason cents source kind decided_by missing) = state := by
  cases state <;> rfl

end

/-! ## Reading after writing -/

section
variable (s : Db)

theorem stateOf_withState (id : Nat) (state : CaseState) (id' : Nat) :
    (s.withState id state).stateOf id' = if id' = id then (s.stateOf id').map fun _ => state else s.stateOf id' := by
  unfold Db.stateOf Db.find Db.withState
  have hlookup := @Rows.lookup_modify _ _ _ Case.id s.cases id (fun c => { c with state := state }) (fun _ => rfl) id'
  dsimp only
  rw [hlookup]
  split
  · rw [Option.map_map, Option.map_map]
    rfl
  · rfl

theorem stateOf_withDeadline (id : Nat) (deadline : Text) (id' : Nat) :
    (s.withDeadline id deadline).stateOf id' = s.stateOf id' := by
  unfold Db.stateOf Db.find Db.withDeadline
  have hlookup := @Rows.lookup_modify _ _ _ Case.id s.cases id (fun c => { c with dispute_deadline := some deadline })
    (fun _ => rfl) id'
  dsimp only
  rw [hlookup]
  split
  · rw [Option.map_map]
    rfl
  · rfl

theorem history_withEvent (id : Nat) (payload : Payload) (id' : Nat) :
    (s.withEvent id payload).history id' = s.history id' ++ if id' = id then [payload] else [] := by
  unfold Db.history Db.withEvent
  rw [List.filter_append, List.map_append]
  by_cases h : id' = id
  · simp [h]
  · simp [h, Ne.symm h]

@[simp] theorem stateOf_withEvent (id : Nat) (payload : Payload) (id' : Nat) :
    (s.withEvent id payload).stateOf id' = s.stateOf id' := rfl

@[simp] theorem history_withState (id : Nat) (state : CaseState) (id' : Nat) :
    (s.withState id state).history id' = s.history id' := rfl

end

/-! ## Changes -/

/-- One write of a call, with what was checked before it. -/
inductive Change (s : Db) : Db → Prop
  | decision {d : Decision} (hnew : s.decision d.id = none) (hstate : s.stateOf d.deduction_id = some .classified)
      (hfree : s.decline d.deduction_id = none) : Change s (s.addDecision d)
  | packet {p : Packet} {source : CaseState} (hnew : s.packet p.id = none)
      (hfresh : s.packetWith p.decision_id p.content_hash = none)
      (hdecision : (s.decision p.decision_id).map (·.deduction_id) = some p.deduction_id)
      (hstate : s.stateOf p.deduction_id = some source)
      (hsource : source = .analyst_review ∨
        (source = .awaiting_approval ∧ (s.submitApproval p.decision_id).bind (·.packet_hash) = none)) :
      Change s (s.addPacket p source)
  | approval {a : Approval} {d : Decision} {p : Packet}
      (hone : ∀ b ∈ s.approvals, ¬ (b.decision_id = a.decision_id ∧ b.action_type = a.action_type))
      (hdecision : s.decision a.decision_id = some d) (hpreparer : d.prepared_by ≠ a.approver_id)
      (hrole : (s.roleOf a.approver_id).any (· ∈ approverRoles) = true)
      (hpacket : p ∈ s.packets) (hof : p.decision_id = a.decision_id)
      (hstate : s.stateOf p.deduction_id = some .awaiting_approval)
      (haction : (a.action_type = .submit ∧ a.packet_hash = some p.content_hash) ∨
        (a.action_type ≠ .submit ∧ a.packet_hash = none ∧ s.submitApproval a.decision_id ≠ none)) :
      Change s (s.addApproval a)
  | grant (id : Nat) (a : Approval) : Change s (s.withGrant id a)
  | submission {f : Submission} {p : Packet} {a : Approval} (recordedBy : Nat)
      (hone : s.submission f.decision_id f.channel = none)
      (hpacket : p ∈ s.packets) (hof : p.decision_id = f.decision_id) (hcase : p.deduction_id = f.deduction_id)
      (hhash : p.content_hash = f.packet_hash) (happroval : a ∈ s.approvals) (hfor : a.decision_id = f.decision_id)
      (hnames : a.packet_hash = some p.content_hash)
      (hstate : s.stateOf f.deduction_id = some .awaiting_approval) : Change s (s.addSubmission f recordedBy)
  | outcome {id : Nat} (outcome : CaseOutcome) (cents : Int) (recordedBy : Nat) (note : Option Text)
      (hstate : s.stateOf id = some .submitted) : Change s (s.addOutcome id outcome cents recordedBy note)
  | decline {k : Decline} (hfree : s.decisionOn k.deduction_id = none) : Change s (s.addDecline k)
  | deadline (id : Nat) (deadline basis : Text) (setBy : Nat) : Change s (s.addDeadline id deadline basis setBy)
  | papers (papers : Papers) : Change s { s with papers }

/-- What a call makes of the rows: changes one after another. -/
abbrev Changes : Db → Db → Prop := Relation.ReflTransGen Change

/-! ## The invariant -/

/-- Where a case is once its packet is assembled. -/
def pastAssembly : List CaseState := [.awaiting_approval, .submitted, .won, .lost, .partially]

def Db.PastAssembly (s : Db) (id : Nat) : Prop := ∃ st ∈ pastAssembly, s.stateOf id = some st

/-- The approver is not the preparer, and holds an approver's role. -/
def Db.Separated (s : Db) (a : Approval) (d : Decision) : Prop :=
  a.approver_id ≠ d.prepared_by ∧ ∃ r ∈ approverRoles, s.roleOf a.approver_id = some r

/-- A packet under these contents was assembled for the decision. -/
def Db.Assembled (s : Db) (decision_id : Nat) (hash : Text) : Prop :=
  ∃ p ∈ s.packets, p.decision_id = decision_id ∧ p.content_hash = hash

structure Sound (start s : Db) : Prop where
  decision_ids : (s.decisions.map (·.id)).Nodup
  packet_ids : (s.packets.map (·.id)).Nodup
  packets : ∀ p ∈ s.packets, ∃ d ∈ s.decisions, d.id = p.decision_id ∧ d.deduction_id = p.deduction_id
  approvals : ∀ a ∈ s.approvals, ∃ d ∈ s.decisions, d.id = a.decision_id ∧ s.Separated a d ∧ s.PastAssembly d.deduction_id
  hashes : ∀ a ∈ s.approvals, (a.action_type = .submit ↔ a.packet_hash ≠ none) ∧
    ∀ hash ∈ a.packet_hash, s.Assembled a.decision_id hash
  submitFirst : ∀ a ∈ s.approvals, ∃ b ∈ s.approvals, b.decision_id = a.decision_id ∧ b.action_type = .submit
  once : s.approvals.Pairwise fun a b => ¬ (a.decision_id = b.decision_id ∧ a.action_type = b.action_type)
  filed : ∀ f ∈ s.submissions,
    (∃ p ∈ s.packets, p.decision_id = f.decision_id ∧ p.deduction_id = f.deduction_id ∧ p.content_hash = f.packet_hash) ∧
      ∃ a ∈ s.approvals, a.decision_id = f.decision_id ∧ a.packet_hash = some f.packet_hash
  filedOnce : s.submissions.Pairwise fun f g => ¬ (f.decision_id = g.decision_id ∧ f.channel = g.channel)
  apart : ∀ d ∈ s.decisions, ∀ k ∈ s.declined_candidates, k.deduction_id ≠ d.deduction_id
  projected : ∀ id, s.stateOf id = (start.stateOf id).map fun st => (s.history id).foldl advance st

section
variable {start s s' : Db}

/-- A decision under its id. -/
theorem Sound.decision_eq (h : Sound start s) {d d' : Decision} (hd : d ∈ s.decisions) (hd' : d' ∈ s.decisions)
    (hid : d.id = d'.id) : d = d' := List.inj_on_of_nodup_map h.decision_ids hd hd' hid

/-- No case that waits for its packet, or for a decision, has an approval. -/
theorem Sound.unapproved (h : Sound start s) {a : Approval} {d : Decision} {st : CaseState} (ha : a ∈ s.approvals)
    (hd : d ∈ s.decisions) (hid : d.id = a.decision_id) (hst : s.stateOf d.deduction_id = some st) : st ∈ pastAssembly := by
  obtain ⟨d', hd', hid', -, st', hmem, hst'⟩ := h.approvals a ha
  obtain rfl := h.decision_eq hd hd' (hid.trans hid'.symm)
  rw [hst] at hst'
  cases hst'
  exact hmem

/-- A move that does not take a case back before its packet. -/
theorem pastAssembly_withState {id id' : Nat} {source target : CaseState} (hsource : s.stateOf id = some source)
    (hkeeps : source ∈ pastAssembly → target ∈ pastAssembly) (h : s.PastAssembly id') :
    (s.withState id target).PastAssembly id' := by
  obtain ⟨st, hmem, hst⟩ := h
  by_cases he : id' = id
  · subst he
    rw [hsource] at hst
    cases hst
    exact ⟨target, hkeeps hmem, by rw [stateOf_withState, if_pos rfl, hsource]; rfl⟩
  · exact ⟨st, hmem, by rw [stateOf_withState, if_neg he, hst]⟩

/-- An event and the move it stands for keep the projection. -/
theorem projected_move (h : ∀ id, s.stateOf id = (start.stateOf id).map fun st => (s.history id).foldl advance st)
    {id : Nat} {source : CaseState} {payload : Payload} (hsource : s.stateOf id = some source) (id' : Nat) :
    ((s.withEvent id payload).withState id (advance source payload)).stateOf id' =
      (start.stateOf id').map fun st =>
        (((s.withEvent id payload).withState id (advance source payload)).history id').foldl advance st := by
  rw [stateOf_withState, stateOf_withEvent, history_withState, history_withEvent]
  by_cases he : id' = id
  · subst he
    have hid := h id'
    rw [hsource] at hid
    rw [if_pos rfl, if_pos rfl, hsource]
    cases hstart : start.stateOf id' with
    | none => simp [hstart] at hid
    | some st =>
      rw [hstart] at hid
      simp only [Option.map_some, Option.some.injEq] at hid
      simp only [Option.map_some, List.foldl_append, List.foldl_cons, List.foldl_nil, ← hid]
  · rw [if_neg he, if_neg he, List.append_nil, h id']

/-- An event that moves its case nowhere keeps it too. -/
theorem projected_event (h : ∀ id, s.stateOf id = (start.stateOf id).map fun st => (s.history id).foldl advance st)
    {id : Nat} {payload : Payload} (hstill : ∀ st, s.stateOf id = some st → advance st payload = st) (id' : Nat) :
    (s.withEvent id payload).stateOf id' =
      (start.stateOf id').map fun st => ((s.withEvent id payload).history id').foldl advance st := by
  rw [stateOf_withEvent, history_withEvent]
  by_cases he : id' = id
  · subst he
    rw [if_pos rfl]
    cases hstart : start.stateOf id' with
    | none => rw [h id', hstart]; rfl
    | some st =>
      have hid := h id'
      rw [hstart] at hid
      rw [hid]
      simp only [Option.map_some, List.foldl_append, List.foldl_cons, List.foldl_nil, hstill _ hid]
  · rw [if_neg he, List.append_nil, h id']

/-! What each row, event and move keeps. -/

theorem find?_eq_none_iff {α : Type} {l : List α} {P : α → Prop} [DecidablePred P] :
    l.find? (fun a => P a) = none ↔ ∀ a ∈ l, ¬ P a := by simp

/-- Events and moves leave the other tables alone. -/
theorem Sound.move (h : Sound start s) {id : Nat} {source : CaseState} {payload : Payload}
    (hsource : s.stateOf id = some source)
    (hkeeps : source ∈ pastAssembly → advance source payload ∈ pastAssembly) :
    Sound start ((s.withEvent id payload).withState id (advance source payload)) where
  decision_ids := h.decision_ids
  packet_ids := h.packet_ids
  packets := h.packets
  approvals := fun a ha => by
    obtain ⟨d, hd, hid, hsep, hpast⟩ := h.approvals a ha
    exact ⟨d, hd, hid, hsep, pastAssembly_withState (s := s.withEvent id payload) hsource hkeeps hpast⟩
  hashes := h.hashes
  submitFirst := h.submitFirst
  once := h.once
  filed := h.filed
  filedOnce := h.filedOnce
  apart := h.apart
  projected := projected_move h.projected hsource

theorem Sound.event (h : Sound start s) {id : Nat} {payload : Payload}
    (hstill : ∀ st, s.stateOf id = some st → advance st payload = st) : Sound start (s.withEvent id payload) where
  decision_ids := h.decision_ids
  packet_ids := h.packet_ids
  packets := h.packets
  approvals := h.approvals
  hashes := h.hashes
  submitFirst := h.submitFirst
  once := h.once
  filed := h.filed
  filedOnce := h.filedOnce
  apart := h.apart
  projected := projected_event h.projected hstill

theorem Sound.deadline (h : Sound start s) (id : Nat) (deadline : Text) : Sound start (s.withDeadline id deadline) where
  decision_ids := h.decision_ids
  packet_ids := h.packet_ids
  packets := h.packets
  approvals := fun a ha => by
    obtain ⟨d, hd, hid, hsep, st, hmem, hst⟩ := h.approvals a ha
    exact ⟨d, hd, hid, hsep, st, hmem, (stateOf_withDeadline s id deadline _).trans hst⟩
  hashes := h.hashes
  submitFirst := h.submitFirst
  once := h.once
  filed := h.filed
  filedOnce := h.filedOnce
  apart := h.apart
  projected := fun id' => (stateOf_withDeadline s id deadline id').trans (h.projected id')

theorem Sound.insertDecision (h : Sound start s) {d : Decision} (hnew : s.decision d.id = none)
    (hfree : s.decline d.deduction_id = none) : Sound start { s with decisions := s.decisions ++ [d] } where
  decision_ids := Rows.nodup_insert h.decision_ids hnew
  packet_ids := h.packet_ids
  packets := fun p hp =>
    let ⟨d', hd', hof⟩ := h.packets p hp
    ⟨d', List.mem_append_left _ hd', hof⟩
  approvals := fun a ha =>
    let ⟨d', hd', hof⟩ := h.approvals a ha
    ⟨d', List.mem_append_left _ hd', hof⟩
  hashes := h.hashes
  submitFirst := h.submitFirst
  once := h.once
  filed := h.filed
  filedOnce := h.filedOnce
  apart := fun d' hd' k hk => by
    rcases List.mem_append.1 hd' with hold | hself
    · exact h.apart d' hold k hk
    · obtain rfl := List.mem_singleton.1 hself
      exact find?_eq_none_iff.1 hfree k hk
  projected := h.projected

theorem Sound.insertPacket (h : Sound start s) {p : Packet} (hnew : s.packet p.id = none)
    (hdecision : (s.decision p.decision_id).map (·.deduction_id) = some p.deduction_id) :
    Sound start { s with packets := s.packets ++ [p] } where
  decision_ids := h.decision_ids
  packet_ids := Rows.nodup_insert h.packet_ids hnew
  packets := fun p' hp' => by
    rcases List.mem_append.1 hp' with hold | hself
    · exact h.packets p' hold
    · obtain rfl := List.mem_singleton.1 hself
      obtain ⟨d, hd, hcase⟩ := Option.map_eq_some_iff.1 hdecision
      exact ⟨d, Rows.mem_of_lookup hd, Rows.key_of_lookup hd, hcase⟩
  approvals := h.approvals
  hashes := fun a ha => ⟨(h.hashes a ha).1, fun hash hhash =>
    let ⟨p', hp', hof⟩ := (h.hashes a ha).2 hash hhash
    ⟨p', List.mem_append_left _ hp', hof⟩⟩
  submitFirst := h.submitFirst
  once := h.once
  filed := fun f hf =>
    let ⟨⟨p', hp', hof⟩, hnamed⟩ := h.filed f hf
    ⟨⟨p', List.mem_append_left _ hp', hof⟩, hnamed⟩
  filedOnce := h.filedOnce
  apart := h.apart
  projected := h.projected

theorem Sound.insertDecline (h : Sound start s) {k : Decline} (hfree : s.decisionOn k.deduction_id = none) :
    Sound start { s with declined_candidates := s.declined_candidates ++ [k] } where
  decision_ids := h.decision_ids
  packet_ids := h.packet_ids
  packets := h.packets
  approvals := h.approvals
  hashes := h.hashes
  submitFirst := h.submitFirst
  once := h.once
  filed := h.filed
  filedOnce := h.filedOnce
  apart := fun d hd k' hk' => by
    rcases List.mem_append.1 hk' with hold | hself
    · exact h.apart d hd k' hold
    · obtain rfl := List.mem_singleton.1 hself
      exact Ne.symm (find?_eq_none_iff.1 hfree d hd)
  projected := h.projected

/-- Adding a row to a table where no row is like it. -/
theorem pairwise_concat {α : Type} {R : α → α → Prop} {l : List α} {a : α} (h : l.Pairwise R) (ha : ∀ b ∈ l, R b a) :
    (l ++ [a]).Pairwise R :=
  List.pairwise_append.2 ⟨h, List.pairwise_singleton R a, fun b hb _ hself => List.mem_singleton.1 hself ▸ ha b hb⟩

theorem Sound.insertApproval (h : Sound start s) {a : Approval} {d : Decision} {p : Packet}
    (hone : ∀ b ∈ s.approvals, ¬ (b.decision_id = a.decision_id ∧ b.action_type = a.action_type))
    (hdecision : s.decision a.decision_id = some d) (hpreparer : d.prepared_by ≠ a.approver_id)
    (hrole : (s.roleOf a.approver_id).any (· ∈ approverRoles) = true)
    (hpacket : p ∈ s.packets) (hof : p.decision_id = a.decision_id)
    (hstate : s.stateOf p.deduction_id = some .awaiting_approval)
    (haction : (a.action_type = .submit ∧ a.packet_hash = some p.content_hash) ∨
      (a.action_type ≠ .submit ∧ a.packet_hash = none ∧ s.submitApproval a.decision_id ≠ none)) :
    Sound start (s.addApproval a) where
  decision_ids := h.decision_ids
  packet_ids := h.packet_ids
  packets := h.packets
  approvals := fun a' ha' => by
    rcases List.mem_append.1 ha' with hold | hself
    · exact h.approvals a' hold
    · obtain rfl := List.mem_singleton.1 hself
      -- the packet's case is the decision's, so the decision's case waits for its approval
      obtain ⟨d', hd', hid', hcase'⟩ := h.packets p hpacket
      have hid : d.id = a'.decision_id := Rows.key_of_lookup hdecision
      obtain rfl : d' = d := h.decision_eq hd' (Rows.mem_of_lookup hdecision) (by rw [hid', hof, hid])
      obtain ⟨r, hr, hmem⟩ : ∃ r, s.roleOf a'.approver_id = some r ∧ r ∈ approverRoles := by
        simpa [Option.any_eq_true] using hrole
      exact ⟨d', hd', hid, ⟨Ne.symm hpreparer, r, hmem, hr⟩, .awaiting_approval, List.mem_cons_self, hcase' ▸ hstate⟩
  hashes := fun a' ha' => by
    rcases List.mem_append.1 ha' with hold | hself
    · exact h.hashes a' hold
    · obtain rfl := List.mem_singleton.1 hself
      rcases haction with ⟨hsubmit, hhash⟩ | ⟨hother, hhash, -⟩
      · refine ⟨by simp [hsubmit, hhash], fun hash hmem => ⟨p, hpacket, hof, ?_⟩⟩
        rw [hhash] at hmem
        exact Option.some.inj hmem
      · exact ⟨by simp [hother, hhash], fun hash hmem => by simp [hhash] at hmem⟩
  submitFirst := fun a' ha' => by
    rcases List.mem_append.1 ha' with hold | hself
    · obtain ⟨b, hb, hfor⟩ := h.submitFirst a' hold
      exact ⟨b, List.mem_append_left _ hb, hfor⟩
    · obtain rfl := List.mem_singleton.1 hself
      rcases haction with ⟨hsubmit, -⟩ | ⟨-, -, hfirst⟩
      · exact ⟨a', ha', rfl, hsubmit⟩
      · obtain ⟨b, hb⟩ := Option.ne_none_iff_exists'.1 hfirst
        have hfound : b.decision_id = a'.decision_id ∧ b.action_type = .submit := by simpa using List.find?_some hb
        exact ⟨b, List.mem_append_left _ (List.mem_of_find?_eq_some hb), hfound⟩
  once := pairwise_concat h.once hone
  filed := fun f hf =>
    let ⟨hpacket', a', ha', hfor⟩ := h.filed f hf
    ⟨hpacket', a', List.mem_append_left _ ha', hfor⟩
  filedOnce := h.filedOnce
  apart := h.apart
  projected := h.projected

theorem Sound.insertSubmission (h : Sound start s) {f : Submission} {p : Packet} {a : Approval}
    (hone : s.submission f.decision_id f.channel = none) (hpacket : p ∈ s.packets) (hof : p.decision_id = f.decision_id)
    (hcase : p.deduction_id = f.deduction_id) (hhash : p.content_hash = f.packet_hash) (happroval : a ∈ s.approvals)
    (hfor : a.decision_id = f.decision_id) (hnames : a.packet_hash = some p.content_hash) :
    Sound start { s with submissions := s.submissions ++ [f] } where
  decision_ids := h.decision_ids
  packet_ids := h.packet_ids
  packets := h.packets
  approvals := h.approvals
  hashes := h.hashes
  submitFirst := h.submitFirst
  once := h.once
  filed := fun f' hf' => by
    rcases List.mem_append.1 hf' with hold | hself
    · exact h.filed f' hold
    · obtain rfl := List.mem_singleton.1 hself
      exact ⟨⟨p, hpacket, hof, hcase, hhash⟩, a, happroval, hfor, hhash ▸ hnames⟩
  filedOnce := pairwise_concat h.filedOnce (find?_eq_none_iff.1 hone)
  apart := h.apart
  projected := h.projected

/-- What one change keeps. -/
theorem Sound.change (h : Sound start s) (hc : Change s s') : Sound start s' := by
  cases hc with
  | decision hnew hstate hfree =>
    exact (h.insertDecision hnew hfree).move hstate fun hpast => by simp [pastAssembly] at hpast
  | packet hnew hfresh hdecision hstate hsource =>
    rcases hsource with rfl | ⟨rfl, -⟩
    · exact (h.insertPacket hnew hdecision).move hstate fun hpast => by simp [pastAssembly] at hpast
    · refine (h.insertPacket hnew hdecision).event fun st hst => ?_
      obtain rfl := Option.some.inj (hstate.symm.trans hst)
      exact advance_packet.2
  | approval hone hdecision hpreparer hrole hpacket hof hstate haction =>
    exact h.insertApproval hone hdecision hpreparer hrole hpacket hof hstate haction
  | grant id a => exact h.event fun st _ => advance_grant st
  | submission recordedBy hone hpacket hof hcase hhash happroval hfor hnames hstate =>
    exact (h.insertSubmission hone hpacket hof hcase hhash happroval hfor hnames).move hstate
      fun _ => by simp [advance_submission, pastAssembly]
  | outcome outcome cents recordedBy note hstate =>
    have hkeeps : CaseState.submitted ∈ pastAssembly →
        advance .submitted (.outcome_recorded outcome cents recordedBy note) ∈ pastAssembly := fun _ => by
      rw [advance_outcome]
      cases outcome <;> decide
    have hmoved := h.move hstate hkeeps
    rwa [advance_outcome] at hmoved
  | @decline k hfree =>
    unfold Db.addDecline
    split
    · exact (h.insertDecline hfree).event fun st _ => advance_declined st
    · exact h.insertDecline hfree
  | deadline id deadline basis setBy => exact (h.deadline id deadline).event fun st _ => advance_deadline st
  | papers papers =>
    exact ⟨h.decision_ids, h.packet_ids, h.packets, h.approvals, h.hashes, h.submitFirst, h.once, h.filed, h.filedOnce,
      h.apart, h.projected⟩

end

/-! ## Calls as changes -/

section
variable {s s' : Db}

theorem stateOf_find {id : Nat} {row : Case} (h : s.find id = some row) : s.stateOf id = some row.state := by
  rw [Db.stateOf, h]
  rfl

/-! What only reads. -/

theorem applyTransition_checks (source target : CaseState) (trigger : Trigger) :
    Checks (applyTransition source target trigger) := .require _ _

theorem checkRationale_checks (id : Nat) (reason rationale : Text) : Checks (checkRationale id reason rationale) :=
  .bind (.require _ _) fun _ => .bind (.require _ _) fun _ => .bind (.require _ _) fun _ => .pure _

theorem checkRecoveredCents_checks (id : Nat) (outcome : CaseOutcome) (recovered : Rat) (deduction : Int) :
    Checks (checkRecoveredCents id outcome recovered deduction) := .require _ _

theorem checkEnteredDeadline_checks (id : Nat) (deadline basis : Text) (today : Int) :
    Checks (checkEnteredDeadline id deadline basis today) :=
  .bind (.found _ _) fun _ => .bind (.require _ _) fun _ => .bind (.require _ _) fun _ => .bind (.require _ _) fun _ =>
    .bind (.require _ _) fun _ => .pure _

theorem buildNarrative_checks (s : Db) (existing : Case) (decision : Decision) (supplier : Text) (amount : Int)
    (documents : List Packet.PacketDocument) (findings : List Packet.Finding) (letterTerms : Packet.LetterTerms) :
    Checks (buildNarrativeOrRefuse s existing decision supplier amount documents findings letterTerms) := .lift _

theorem exactCents_checks (id : Nat) (amount : Option Int) : Checks (exactCents id amount) :=
  .bind (.found _ _) fun _ => .bind (.require _ _) fun _ => .pure _

theorem letterFor_checks (existing : Case) (decision : Decision) (findings : List Packet.Finding)
    (letterTerms : Packet.LetterTerms) : Checks (Postgres.letterFor existing decision findings letterTerms) :=
  .bind .get fun _ => .bind (.require _ _) fun _ => .bind (.found _ _) fun _ => .bind (exactCents_checks _ _) fun _ =>
    .bind (buildNarrative_checks _ _ _ _ _ _ _ _) fun _ => .pure _

theorem requireAssembling_checks (existing : Case) : Checks (requireAssembling existing) := by
  unfold requireAssembling
  split
  · exact applyTransition_checks _ _ _
  · exact .require _ _

theorem lockCase_checks (m : Moment) (id : Nat) (action : Act) (roles : List MembershipRole) :
    Checks (Postgres.lockCase m id action roles) :=
  .bind .get fun _ => .bind (.found _ _) fun _ => .bind (.require _ _) fun _ => .pure _

theorem packetFor_checks (packetId decisionId : Nat) (action : Act) :
    Checks (Postgres.packetFor packetId decisionId action) := .bind .get fun _ => .found _ _

theorem lockCase_ok {m : Moment} {id : Nat} {action : Act} {roles : List MembershipRole} {row : Case} :
    Postgres.lockCase m id action roles s = .ok row s ↔ s.find id = some row ∧ Postgres.memberMayWrite s m.caller = true := by
  simp only [Postgres.lockCase, get_bind_ok, found_bind_ok, require_bind_ok, pure_ok, and_true]
  constructor
  · rintro ⟨_, hrow, hmay, rfl⟩
    exact ⟨hrow, hmay⟩
  · rintro ⟨hrow, hmay⟩
    exact ⟨row, hrow, hmay, rfl⟩

theorem packetFor_ok {packetId decisionId : Nat} {action : Act} {p : Packet} :
    Postgres.packetFor packetId decisionId action s = .ok p s ↔ s.packet packetId = some p ∧ p.decision_id = decisionId := by
  simp [Postgres.packetFor, Option.filter_eq_some_iff]

theorem requireAssembling_ok {existing : Case} {u : Unit} (h : requireAssembling existing s = .ok u s) :
    existing.state = .analyst_review ∨ existing.state = .awaiting_approval := by
  unfold requireAssembling at h
  split at h
  · exact .inl ‹_›
  · exact .inr (require_ok.1 h).1

/-! PostgreSQL. Only an assembly adds to the packets. -/

theorem packets_addDecline (s : Db) (k : Decline) : (s.addDecline k).packets = s.packets := by
  unfold Db.addDecline
  split <;> rfl

theorem decide_changes {m : Moment} {id preparedBy : Nat} {reason rationale : Text} {answer : Answer}
    (h : Postgres.recordHumanDecision m id preparedBy reason rationale s = .ok answer s') : Changes s s' ∧ s'.packets = s.packets := by
  simp only [Postgres.recordHumanDecision, Postgres.requireCaller, require_bind_ok, (lockCase_checks _ _ _ _).bind_ok,
    (checkRationale_checks _ _ _).bind_ok, get_bind_ok, absent_bind_ok, (applyTransition_checks _ _ _).bind_ok,
    lockCase_ok, bind_ok (x := Postgres.insertDecision _ _)] at h
  obtain ⟨-, row, ⟨hrow, -⟩, hfree, hclassified, kept, -, _, -, _, _, hinsert, h⟩ := h
  simp only [Postgres.insertDecision, get_bind_ok, require_bind_ok, modify_ok] at hinsert
  obtain ⟨-, hnew, rfl⟩ := hinsert
  obtain ⟨-, rfl⟩ := pure_ok.1 h
  exact ⟨.single (.decision hnew (hclassified ▸ stateOf_find hrow) hfree), rfl⟩

theorem assemble_changes {tools : Tools} {m : Moment} {id decisionId assembledBy : Nat} {findings : List Packet.Finding}
    {letterTerms : Packet.LetterTerms} {answer : Answer}
    (h : Postgres.assemblePacket tools m id decisionId assembledBy findings letterTerms s = .ok answer s') :
    Changes s s' := by
  simp only [Postgres.assemblePacket, Postgres.requireCaller, require_bind_ok, (lockCase_checks _ _ _ _).bind_ok,
    lockCase_ok, get_bind_ok, found_bind_ok, (letterFor_checks _ _ _ _).bind_ok] at h
  obtain ⟨-, row, ⟨hrow, -⟩, decision, hdecision, letter, -, h⟩ := h
  generalize hfresh : s.packetWith decisionId _ = already at h
  cases already with
  | some already =>
    obtain ⟨-, rfl⟩ := pure_ok.1 h
    exact .refl
  | none =>
    simp only [absent_bind_ok, (requireAssembling_checks _).bind_ok, bind_ok (x := Postgres.insertPacket _ _)] at h
    obtain ⟨hunapproved, _, hassembling, _, _, hinsert, h⟩ := h
    simp only [Postgres.insertPacket, get_bind_ok, require_bind_ok, modify_ok] at hinsert
    obtain ⟨hof, ⟨-, hnew⟩, rfl⟩ := hinsert
    obtain ⟨-, rfl⟩ := pure_ok.1 h
    refine .single (.packet hnew hfresh hof (stateOf_find hrow) ?_)
    rcases requireAssembling_ok hassembling with hreview | hwaiting
    · exact .inl hreview
    · rw [if_pos hwaiting] at hunapproved
      exact .inr ⟨hwaiting, hunapproved⟩

theorem insertApproval_ok {m : Moment} {new : Approval} {u : Unit} (h : Postgres.insertApproval m new s = .ok u s') :
    ∃ d, s.decision new.decision_id = some d ∧ d.prepared_by ≠ new.approver_id ∧
      (s.roleOf new.approver_id).any (· ∈ approverRoles) = true ∧
      (∀ b ∈ s.approvals, ¬ (b.decision_id = new.decision_id ∧ b.action_type = new.action_type)) ∧
      s' = s.addApproval new := by
  simp only [Postgres.insertApproval, get_bind_ok, require_bind_ok, found_bind_ok, absent_bind_ok, modify_ok] at h
  obtain ⟨-, d, hd, hpreparer, hrole, hone, -, -, rfl⟩ := h
  exact ⟨d, hd, hpreparer, hrole, find?_eq_none_iff.1 hone, rfl⟩

theorem submitApproval_addApproval {a : Approval} (h : a.action_type = .submit) :
    (s.addApproval a).submitApproval a.decision_id ≠ none := by
  unfold Db.submitApproval Db.addApproval
  rw [Ne, find?_eq_none_iff]
  exact fun hall => hall a (List.mem_append_right _ (List.mem_singleton.2 rfl)) ⟨rfl, h⟩

theorem approve_changes {m : Moment} {decisionId packetId approverId : Nat} {note : Option Text} {alsoWriteback : Bool}
    {answer : Answer} (h : Postgres.approve m decisionId packetId approverId note alsoWriteback s = .ok answer s') :
    Changes s s' ∧ s'.packets = s.packets := by
  simp only [Postgres.approve, Postgres.requireCaller, require_bind_ok, (packetFor_checks _ _ _).bind_ok, packetFor_ok,
    (lockCase_checks _ _ _ _).bind_ok, lockCase_ok, get_bind_ok, absent_bind_ok,
    bind_ok (x := Postgres.insertApproval _ _)] at h
  obtain ⟨-, packet, ⟨hpacket, hof⟩, row, ⟨hrow, -⟩, hwaiting, -, _, s₁, hinsert, h⟩ := h
  obtain ⟨d, hd, hpreparer, hrole, hone, rfl⟩ := insertApproval_ok hinsert
  have hmem : packet ∈ s.packets := Rows.mem_of_lookup hpacket
  have hstate : s.stateOf packet.deduction_id = some .awaiting_approval := hwaiting ▸ stateOf_find hrow
  have hsubmit : Changes s (s.addApproval _) :=
    .single (.approval hone hd hpreparer hrole hmem hof hstate (.inl ⟨rfl, rfl⟩))
  cases alsoWriteback with
  | false =>
    simp only [Bool.false_eq_true, if_false, modify_bind_ok, pure_ok] at h
    obtain ⟨-, rfl⟩ := h
    exact ⟨hsubmit.tail (.grant _ _), rfl⟩
  | true =>
    simp only [if_true, bind_ok (x := Postgres.insertApproval _ _), modify_bind_ok, pure_ok] at h
    obtain ⟨_, s₂, hinsert', -, rfl⟩ := h
    obtain ⟨d', hd', hpreparer', hrole', hone', rfl⟩ := insertApproval_ok hinsert'
    refine ⟨((hsubmit.tail ?_).tail (.grant _ _)).tail (.grant _ _), rfl⟩
    exact .approval hone' hd' hpreparer' hrole' hmem hof hstate
      (.inr ⟨by simp, rfl, submitApproval_addApproval (a := ⟨m.newId, decisionId, approverId, .submit, note, _⟩) rfl⟩)

theorem submit_changes {m : Moment} {decisionId packetId approvalId : Nat} {channel : Channel} {confirmation : Text}
    {submittedAt actorId : Nat} {answer : Answer}
    (h : Postgres.recordSubmission m decisionId packetId approvalId channel confirmation submittedAt actorId s =
      .ok answer s') : Changes s s' ∧ s'.packets = s.packets := by
  simp only [Postgres.recordSubmission, Postgres.requireCaller, require_bind_ok, (packetFor_checks _ _ _).bind_ok,
    packetFor_ok, get_bind_ok, found_bind_ok, (lockCase_checks _ _ _ _).bind_ok, lockCase_ok, absent_bind_ok,
    (applyTransition_checks _ _ _).bind_ok, bind_ok (x := Postgres.insertSubmission _ _)] at h
  obtain ⟨-, packet, ⟨hpacket, hof⟩, approval, happroval, hash, hnames, row, ⟨hrow, -⟩, -, hwaiting, hhash, -, _, -, _, _,
    hinsert, h⟩ := h
  simp only [Postgres.insertSubmission, get_bind_ok, require_bind_ok, absent_bind_ok, modify_ok] at hinsert
  obtain ⟨-, hone, -, rfl⟩ := hinsert
  obtain ⟨-, rfl⟩ := pure_ok.1 h
  obtain ⟨hfound, hfor⟩ := Option.filter_eq_some_iff.1 happroval
  exact ⟨.single (.submission actorId hone (Rows.mem_of_lookup hpacket) hof rfl rfl (List.mem_of_find?_eq_some hfound)
    (by simpa using hfor) (hhash ▸ hnames) (hwaiting ▸ stateOf_find hrow)), rfl⟩

theorem outcome_changes {m : Moment} {id : Nat} {outcome : CaseOutcome} {recovered : Rat} {recordedBy : Nat}
    {note : Option Text} {answer : Answer}
    (h : Postgres.recordOutcome m id outcome recovered recordedBy note s = .ok answer s') : Changes s s' ∧ s'.packets = s.packets := by
  simp only [Postgres.recordOutcome, Postgres.requireCaller, require_bind_ok, (lockCase_checks _ _ _ _).bind_ok,
    lockCase_ok, found_bind_ok, (checkRecoveredCents_checks _ _ _ _).bind_ok, (applyTransition_checks _ _ _).bind_ok,
    modify_bind_ok, pure_ok] at h
  obtain ⟨-, row, ⟨hrow, -⟩, hsubmitted, _, -, _, -, _, -, -, rfl⟩ := h
  exact ⟨.single (.outcome _ _ _ _ (hsubmitted ▸ stateOf_find hrow)), rfl⟩

theorem decline_changes {m : Moment} {id : Nat} {reason decidedBy : Text} {missing : List Text} {detail : Option Text}
    {answer : Answer} (h : Postgres.declineCase m id reason decidedBy missing detail s = .ok answer s') : Changes s s' ∧ s'.packets = s.packets := by
  simp only [Postgres.declineCase, require_bind_ok, (lockCase_checks _ _ _ _).bind_ok, lockCase_ok, get_bind_ok,
    absent_bind_ok, (exactCents_checks _ _).bind_ok, found_bind_ok, modify_bind_ok, pure_ok] at h
  obtain ⟨row, -, -, hfree, -, _, -, _, -, -, -, -, -, rfl⟩ := h
  exact ⟨.single (.decline hfree), packets_addDecline _ _⟩

theorem deadline_changes {m : Moment} {id : Nat} {deadline basis : Text} {setBy : Nat} {answer : Answer}
    (h : Postgres.setDisputeDeadline m id deadline basis setBy s = .ok answer s') : Changes s s' ∧ s'.packets = s.packets := by
  simp only [Postgres.setDisputeDeadline, Postgres.requireCaller, require_bind_ok, (lockCase_checks _ _ _ _).bind_ok,
    lockCase_ok, absent_bind_ok, (checkEnteredDeadline_checks _ _ _ _).bind_ok, modify_bind_ok, pure_ok] at h
  obtain ⟨-, row, -, -, -, kept, -, -, rfl⟩ := h
  exact ⟨.single (.deadline _ _ _ _), rfl⟩

theorem postgres_changes {tools : Tools} {m : Moment} {request : Request} {answer : Answer}
    (h : Postgres.call tools m request s = .ok answer s') : Changes s s' := by
  cases request with
  | recordHumanDecision => exact (decide_changes h).1
  | assemblePacket => exact assemble_changes h
  | approve => exact (approve_changes h).1
  | recordSubmission => exact (submit_changes h).1
  | recordOutcome => exact (outcome_changes h).1
  | declineCase => exact (decline_changes h).1
  | setDisputeDeadline => exact (deadline_changes h).1

/-! In memory. -/

theorem lt_freshId {ids : List Nat} {id : Nat} (h : id ∈ ids) : id < Memory.freshId ids := by
  unfold Memory.freshId
  induction ids with
  | nil => cases h
  | cons i ids ih =>
    rw [List.foldr_cons]
    rcases List.mem_cons.1 h with rfl | h
    · omega
    · have := ih h
      omega

theorem lookup_freshId {α : Type} {key : α → Nat} (rows : List α) :
    Rows.lookup key rows (Memory.freshId (rows.map key)) = none :=
  Rows.lookup_eq_none.2 fun r hr he => by
    have := lt_freshId (List.mem_map_of_mem (f := key) hr)
    omega

theorem caseOrThrow_checks (id : Nat) : Checks (Memory.caseOrThrow id) := .bind .get fun _ => .found _ _

theorem requireWriter_checks (userId : Nat) (action : Act) : Checks (Memory.requireWriter userId action) :=
  .bind .get fun _ => .require _ _

theorem memoryPacketFor_checks (packetId decisionId : Nat) (action : Act) :
    Checks (Memory.packetFor packetId decisionId action) := .bind .get fun _ => .found _ _

theorem memoryLetterFor_checks (existing : Case) (decision : Decision) (findings : List Packet.Finding) :
    Checks (Memory.letterFor existing decision findings) :=
  .bind .get fun _ => .bind (.require _ _) fun _ => .bind (.found _ _) fun _ => .bind (.found _ _) fun _ =>
    .bind (buildNarrative_checks _ _ _ _ _ _ _ _) fun _ => .pure _

theorem caseOrThrow_ok {id : Nat} {row : Case} : Memory.caseOrThrow id s = .ok row s ↔ s.find id = some row := by
  simp [Memory.caseOrThrow]

theorem memoryPacketFor_ok {packetId decisionId : Nat} {action : Act} {p : Packet} :
    Memory.packetFor packetId decisionId action s = .ok p s ↔ s.packet packetId = some p ∧ p.decision_id = decisionId := by
  simp [Memory.packetFor, Option.filter_eq_some_iff]

theorem memory_decide_changes {id preparedBy : Nat} {reason rationale : Text} {answer : Answer}
    (h : Memory.recordHumanDecision id preparedBy reason rationale s = .ok answer s') : Changes s s' ∧ s'.packets = s.packets := by
  simp only [Memory.recordHumanDecision, (caseOrThrow_checks _).bind_ok, caseOrThrow_ok, (requireWriter_checks _ _).bind_ok,
    get_bind_ok, absent_bind_ok, require_bind_ok, (checkRationale_checks _ _ _).bind_ok,
    (applyTransition_checks _ _ _).bind_ok, modify_bind_ok, pure_ok] at h
  obtain ⟨row, hrow, _, -, hfree, hclassified, kept, -, _, -, -, rfl⟩ := h
  exact ⟨.single (.decision (lookup_freshId _) (hclassified ▸ stateOf_find hrow) hfree), rfl⟩

theorem memory_assemble_changes {tools : Tools} {m : Moment} {id decisionId assembledBy : Nat}
    {findings : List Packet.Finding} {answer : Answer}
    (h : Memory.assemblePacket tools m id decisionId assembledBy findings s = .ok answer s') : Changes s s' := by
  simp only [Memory.assemblePacket, (caseOrThrow_checks _).bind_ok, caseOrThrow_ok, (requireWriter_checks _ _).bind_ok,
    get_bind_ok, found_bind_ok, (memoryLetterFor_checks _ _ _).bind_ok] at h
  obtain ⟨row, hrow, _, -, decision, hdecision, letter, -, h⟩ := h
  obtain ⟨hdecided, hcase⟩ := Option.filter_eq_some_iff.1 hdecision
  generalize hfresh : s.packetWith decisionId _ = already at h
  cases already with
  | some already =>
    obtain ⟨-, rfl⟩ := pure_ok.1 h
    exact .refl
  | none =>
    simp only [absent_bind_ok, (requireAssembling_checks _).bind_ok, modify_bind_ok, pure_ok] at h
    obtain ⟨hunapproved, _, hassembling, -, rfl⟩ := h
    refine .single (.packet (lookup_freshId _) hfresh ?_ (stateOf_find hrow) ?_)
    · rw [hdecided]
      simpa using hcase
    · rcases requireAssembling_ok hassembling with hreview | hwaiting
      · exact .inl hreview
      · rw [if_pos hwaiting] at hunapproved
        exact .inr ⟨hwaiting, hunapproved⟩

theorem memory_approve_changes {decisionId packetId approverId : Nat} {note : Option Text} {answer : Answer}
    (h : Memory.approve decisionId packetId approverId note s = .ok answer s') : Changes s s' ∧ s'.packets = s.packets := by
  simp only [Memory.approve, (memoryPacketFor_checks _ _ _).bind_ok, memoryPacketFor_ok, (caseOrThrow_checks _).bind_ok,
    caseOrThrow_ok, get_bind_ok, found_bind_ok, require_bind_ok, absent_bind_ok, modify_bind_ok, pure_ok] at h
  obtain ⟨packet, ⟨hpacket, hof⟩, row, hrow, d, hd, hpreparer, hrole, hwaiting, -, hone, -, rfl⟩ := h
  have hsubmit : Change s (s.addApproval
      ⟨Memory.freshId (s.approvals.map (·.id)), decisionId, approverId, .submit, note, some packet.content_hash⟩) :=
    .approval (fun b hb he => find?_eq_none_iff.1 hone b hb he.1) hd hpreparer hrole (Rows.mem_of_lookup hpacket) hof
      (hwaiting ▸ stateOf_find hrow) (.inl ⟨rfl, rfl⟩)
  exact ⟨(Relation.ReflTransGen.single hsubmit).tail (.grant _ _), rfl⟩

theorem memory_submit_changes {decisionId packetId approvalId : Nat} {channel : Channel} {confirmation : Text}
    {submittedAt actorId : Nat} {answer : Answer}
    (h : Memory.recordSubmission decisionId packetId approvalId channel confirmation submittedAt actorId s =
      .ok answer s') : Changes s s' ∧ s'.packets = s.packets := by
  simp only [Memory.recordSubmission, (memoryPacketFor_checks _ _ _).bind_ok, memoryPacketFor_ok, get_bind_ok,
    found_bind_ok, (caseOrThrow_checks _).bind_ok, caseOrThrow_ok, (requireWriter_checks _ _).bind_ok, absent_bind_ok,
    require_bind_ok, (applyTransition_checks _ _ _).bind_ok, modify_bind_ok, pure_ok] at h
  obtain ⟨packet, ⟨hpacket, hof⟩, approval, happroval, row, hrow, _, -, hone, hwaiting, hnames, -, _, -, -, rfl⟩ := h
  obtain ⟨hfound, hfor⟩ := Option.filter_eq_some_iff.1 happroval
  exact ⟨.single (.submission actorId hone (Rows.mem_of_lookup hpacket) hof rfl rfl (List.mem_of_find?_eq_some hfound)
    (by simpa using hfor) hnames (hwaiting ▸ stateOf_find hrow)), rfl⟩

theorem memory_outcome_changes {id : Nat} {outcome : CaseOutcome} {recovered : Rat} {recordedBy : Nat}
    {note : Option Text} {answer : Answer}
    (h : Memory.recordOutcome id outcome recovered recordedBy note s = .ok answer s') : Changes s s' ∧ s'.packets = s.packets := by
  simp only [Memory.recordOutcome, (caseOrThrow_checks _).bind_ok, caseOrThrow_ok, (requireWriter_checks _ _).bind_ok,
    require_bind_ok, found_bind_ok, (checkRecoveredCents_checks _ _ _ _).bind_ok, (applyTransition_checks _ _ _).bind_ok,
    modify_bind_ok, pure_ok] at h
  obtain ⟨row, hrow, _, -, hsubmitted, _, -, _, -, _, -, -, rfl⟩ := h
  exact ⟨.single (.outcome _ _ _ _ (hsubmitted ▸ stateOf_find hrow)), rfl⟩

theorem memory_decline_changes {id : Nat} {reason decidedBy : Text} {missing : List Text} {detail : Option Text}
    {answer : Answer} (h : Memory.declineCase id reason decidedBy missing detail s = .ok answer s') : Changes s s' ∧ s'.packets = s.packets := by
  simp only [Memory.declineCase, (caseOrThrow_checks _).bind_ok, caseOrThrow_ok, require_bind_ok, get_bind_ok,
    absent_bind_ok, (exactCents_checks _ _).bind_ok, modify_bind_ok, pure_ok] at h
  obtain ⟨row, -, -, hfree, -, _, -, -, -, rfl⟩ := h
  exact ⟨.single (.decline hfree), packets_addDecline _ _⟩

theorem memory_deadline_changes {m : Moment} {id : Nat} {deadline basis : Text} {setBy : Nat} {answer : Answer}
    (h : Memory.setDisputeDeadline m id deadline basis setBy s = .ok answer s') : Changes s s' ∧ s'.packets = s.packets := by
  simp only [Memory.setDisputeDeadline, (caseOrThrow_checks _).bind_ok, caseOrThrow_ok, (requireWriter_checks _ _).bind_ok,
    require_bind_ok, absent_bind_ok, (checkEnteredDeadline_checks _ _ _ _).bind_ok, modify_bind_ok, pure_ok] at h
  obtain ⟨row, -, _, -, -, -, kept, -, -, rfl⟩ := h
  exact ⟨.single (.deadline _ _ _ _), rfl⟩

theorem memory_changes {tools : Tools} {m : Moment} {request : Request} {answer : Answer}
    (h : Memory.call tools m request s = .ok answer s') : Changes s s' := by
  cases request with
  | recordHumanDecision => exact (memory_decide_changes h).1
  | assemblePacket => exact memory_assemble_changes h
  | approve => exact (memory_approve_changes h).1
  | recordSubmission => exact (memory_submit_changes h).1
  | recordOutcome => exact (memory_outcome_changes h).1
  | declineCase => exact (memory_decline_changes h).1
  | setDisputeDeadline => exact (memory_deadline_changes h).1

/-- The store in memory checks everything before it writes anything. -/
theorem memory_whole (tools : Tools) (m : Moment) (request : Request) : Whole (Memory.call tools m request) := by
  cases request with
  | recordHumanDecision id preparedBy reason rationale =>
    exact .check (caseOrThrow_checks _) fun _ => .check (requireWriter_checks _ _) fun _ => .check .get fun _ =>
      .check (.absent _ _) fun _ => .check (.require _ _) fun _ => .check (checkRationale_checks _ _ _) fun _ =>
        .check (applyTransition_checks _ _ _) fun _ => (Total.bind (.modify _) fun _ => .pure _).whole
  | assemblePacket id decisionId assembledBy findings letterTerms =>
    refine .check (caseOrThrow_checks _) fun _ => .check (requireWriter_checks _ _) fun _ => .check .get fun s =>
      .check (.found _ _) fun _ => .check (memoryLetterFor_checks _ _ _) fun _ => ?_
    dsimp only
    split
    · exact (Total.pure _).whole
    · exact .check (.absent _ _) fun _ => .check (requireAssembling_checks _) fun _ =>
        (Total.bind (.modify _) fun _ => .pure _).whole
  | approve decisionId packetId approverId note _ =>
    exact .check (memoryPacketFor_checks _ _ _) fun _ => .check (caseOrThrow_checks _) fun _ => .check .get fun _ =>
      .check (.found _ _) fun _ => .check (.require _ _) fun _ => .check (.require _ _) fun _ =>
        .check (.require _ _) fun _ => .check (.absent _ _) fun _ => .check (.absent _ _) fun _ =>
          (Total.bind (.modify _) fun _ => .pure _).whole
  | recordSubmission decisionId packetId approvalId channel confirmation submittedAt actorId =>
    exact .check (memoryPacketFor_checks _ _ _) fun _ => .check .get fun _ => .check (.found _ _) fun _ =>
      .check (caseOrThrow_checks _) fun _ => .check (requireWriter_checks _ _) fun _ => .check (.absent _ _) fun _ =>
        .check (.require _ _) fun _ => .check (.require _ _) fun _ => .check (.require _ _) fun _ =>
          .check (applyTransition_checks _ _ _) fun _ => (Total.bind (.modify _) fun _ => .pure _).whole
  | recordOutcome id outcome recovered recordedBy note =>
    exact .check (caseOrThrow_checks _) fun _ => .check (requireWriter_checks _ _) fun _ => .check (.require _ _) fun _ =>
      .check (.found _ _) fun _ => .check (checkRecoveredCents_checks _ _ _ _) fun _ =>
        .check (applyTransition_checks _ _ _) fun _ => (Total.bind (.modify _) fun _ => .pure _).whole
  | declineCase id reason decidedBy missing detail =>
    exact .check (caseOrThrow_checks _) fun _ => .check (.require _ _) fun _ => .check .get fun _ =>
      .check (.absent _ _) fun _ => .check (.require _ _) fun _ => .check (exactCents_checks _ _) fun _ =>
        .check (.absent _ _) fun _ => (Total.bind (.modify _) fun _ => .pure _).whole
  | setDisputeDeadline id deadline basis setBy =>
    exact .check (caseOrThrow_checks _) fun _ => .check (requireWriter_checks _ _) fun _ => .check (.require _ _) fun _ =>
      .check (.absent _ _) fun _ => .check (checkEnteredDeadline_checks _ _ _ _) fun _ =>
        (Total.bind (.modify _) fun _ => .pure _).whole

end

end Recouple.Database.Workflow
