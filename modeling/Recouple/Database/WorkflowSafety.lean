import Recouple.Database.WorkflowRuns

/-!
# What holds after any run of the workflow

* **`workflow_safe`**: after any requests, refused ones included, every submission was approved under its own
  packet's hash, by somebody who did not prepare it; a decision has one approval for each action and one submission
  for each channel; its packets stay as they were once it is approved; a case is decided or declined, never both;
  and the state of a case is the fold of its events.
* **`approved_twice`**: an approval that authorises the posting too is two rows for one decision.
-/

namespace Recouple.Database.Workflow
open Js Guarded
open Pipeline (CaseState)

/-- Nobody has worked the cases yet. -/
structure Db.Unworked (s : Db) : Prop where
  decisions : s.decisions = []
  packets : s.packets = []
  approvals : s.approvals = []
  submissions : s.submissions = []
  declines : s.declined_candidates = []
  events : s.deduction_events = []

structure Safe (start s : Db) : Prop where
  /-- A submission's packet was assembled for its decision, and one approval of that decision names it. -/
  submitted : ∀ f ∈ s.submissions, ∃ p ∈ s.packets,
    p.decision_id = f.decision_id ∧ p.deduction_id = f.deduction_id ∧ p.content_hash = f.packet_hash ∧
      (s.approvals.filter fun a => a.decision_id = f.decision_id ∧ a.packet_hash = some p.content_hash).length = 1
  approved : ∀ a ∈ s.approvals, ∃ d ∈ s.decisions, d.id = a.decision_id ∧ s.Separated a d
  named : ∀ a ∈ s.approvals, ∀ hash ∈ a.packet_hash, s.Assembled a.decision_id hash
  oneApproval : ∀ decision action,
    (s.approvals.filter fun a => a.decision_id = decision ∧ a.action_type = action).length ≤ 1
  oneSubmission : ∀ decision channel,
    (s.submissions.filter fun f => f.decision_id = decision ∧ f.channel = channel).length ≤ 1
  state : ∀ id, s.stateOf id = (start.stateOf id).map fun st => (s.history id).foldl advance st

section
variable {start s s' : Db}

theorem Db.Unworked.sound (h : start.Unworked) : Sound start start where
  decision_ids := by simp [h.decisions]
  packet_ids := by simp [h.packets]
  packets := by simp [h.packets]
  approvals := by simp [h.approvals]
  hashes := by simp [h.approvals]
  submitFirst := by simp [h.approvals]
  once := by simp [h.approvals]
  filed := by simp [h.submissions]
  filedOnce := by simp [h.submissions]
  apart := by simp [h.decisions]
  projected := by simp [Db.history, h.events]

/-- Rows that no two share a key have at most one under a key. -/
theorem length_filter_le_one {α : Type} {R : α → α → Prop} {P : α → Prop} [DecidablePred P] {l : List α}
    (h : l.Pairwise R) (hP : ∀ a ∈ l, ∀ b ∈ l, P a → P b → ¬ R a b) : (l.filter fun a => P a).length ≤ 1 := by
  have hpair : (l.filter fun a => P a).Pairwise R := h.sublist List.filter_sublist
  have hmem : ∀ a ∈ l.filter fun a => P a, a ∈ l ∧ P a := fun a ha => by simpa using List.mem_filter.1 ha
  generalize l.filter (fun a => P a) = kept at hpair hmem
  match kept, hpair, hmem with
  | [], _, _ => simp
  | [a], _, _ => simp
  | a :: b :: rest, hpair, hmem =>
    obtain ⟨ha, hPa⟩ := hmem a (by simp)
    obtain ⟨hb, hPb⟩ := hmem b (by simp)
    exact absurd (List.rel_of_pairwise_cons hpair (by simp)) (hP a ha b hb hPa hPb)

theorem Sound.safe (h : Sound start s) : Safe start s where
  submitted := fun f hf => by
    obtain ⟨⟨p, hp, hof, hcase, hhash⟩, a, ha, hfor, hnames⟩ := h.filed f hf
    refine ⟨p, hp, hof, hcase, hhash, le_antisymm ?_ ?_⟩
    · -- approvals that name a packet are for submitting
      refine length_filter_le_one h.once fun a ha b hb hPa hPb => ?_
      have hsubmit : ∀ c ∈ s.approvals, c.packet_hash = some p.content_hash → c.action_type = .submit :=
        fun c hc hn => (h.hashes c hc).1.2 (by simp [hn])
      exact fun hR => hR ⟨hPa.1.trans hPb.1.symm, (hsubmit a ha hPa.2).trans (hsubmit b hb hPb.2).symm⟩
    · refine List.length_pos_of_mem (List.mem_filter.2 ⟨ha, ?_⟩)
      simpa [hfor, hhash] using hnames
  approved := fun a ha =>
    let ⟨d, hd, hid, hsep, _⟩ := h.approvals a ha
    ⟨d, hd, hid, hsep⟩
  named := fun a ha => (h.hashes a ha).2
  oneApproval := fun _ _ => length_filter_le_one h.once fun _ _ _ _ hPa hPb hR =>
    hR ⟨hPa.1.trans hPb.1.symm, hPa.2.trans hPb.2.symm⟩
  oneSubmission := fun _ _ => length_filter_le_one h.filedOnce fun _ _ _ _ hPa hPb hR =>
    hR ⟨hPa.1.trans hPb.1.symm, hPa.2.trans hPb.2.symm⟩
  state := h.projected

/-- What later states keep of earlier ones. -/
structure Grows (s s' : Db) : Prop where
  decisions : s.decisions ⊆ s'.decisions
  declines : s.declined_candidates ⊆ s'.declined_candidates
  approvals : s.approvals ⊆ s'.approvals
  /-- Once a decision is approved its packets are what they were. -/
  packets : ∀ a ∈ s.approvals,
    s'.packets.filter (·.decision_id = a.decision_id) = s.packets.filter (·.decision_id = a.decision_id)

theorem Grows.refl (s : Db) : Grows s s :=
  ⟨List.Subset.refl _, List.Subset.refl _, List.Subset.refl _, fun _ _ => rfl⟩

theorem Grows.trans {s'' : Db} (h : Grows s s') (h' : Grows s' s'') : Grows s s'' where
  decisions := List.Subset.trans h.decisions h'.decisions
  declines := List.Subset.trans h.declines h'.declines
  approvals := List.Subset.trans h.approvals h'.approvals
  packets := fun a ha => (h'.packets a (h.approvals ha)).trans (h.packets a ha)

/-- A packet is assembled only for a decision without an approval. -/
theorem Sound.unapproved_packet (h : Sound start s) {p : Packet} {source : CaseState}
    (hdecision : (s.decision p.decision_id).map (·.deduction_id) = some p.deduction_id)
    (hstate : s.stateOf p.deduction_id = some source)
    (hsource : source = .analyst_review ∨
      (source = .awaiting_approval ∧ (s.submitApproval p.decision_id).bind (·.packet_hash) = none))
    {a : Approval} (ha : a ∈ s.approvals) : p.decision_id ≠ a.decision_id := by
  intro hof
  obtain ⟨d, hd, hcase⟩ := Option.map_eq_some_iff.1 hdecision
  have hid : d.id = a.decision_id := (Rows.key_of_lookup hd).trans hof
  rcases hsource with rfl | ⟨-, hnone⟩
  · -- the case of an approved decision is past its review
    have := h.unapproved ha (Rows.mem_of_lookup hd) hid (hcase ▸ hstate)
    simp [pastAssembly] at this
  · -- and its submit approval names a packet
    obtain ⟨b, hb, hfor, hsubmit⟩ := h.submitFirst a ha
    cases hfound : s.submitApproval p.decision_id with
    | none => exact find?_eq_none_iff.1 hfound b hb ⟨hfor.trans hof.symm, hsubmit⟩
    | some c =>
      rw [hfound] at hnone
      have hc : c.decision_id = p.decision_id ∧ c.action_type = .submit := by simpa using List.find?_some hfound
      exact (h.hashes c (List.mem_of_find?_eq_some hfound)).1.1 hc.2 hnone

theorem Sound.grows (h : Sound start s) (hc : Change s s') : Grows s s' := by
  have hconcat : ∀ {α : Type} (l : List α) (a : α), l ⊆ l ++ [a] := fun l a => List.subset_append_left l [a]
  cases hc with
  | decision hnew hstate hfree =>
    exact ⟨hconcat _ _, List.Subset.refl _, List.Subset.refl _, fun _ _ => rfl⟩
  | @packet p source hnew hfresh hdecision hstate hsource =>
    have hadded : ∀ a ∈ s.approvals, (s.packets ++ [p]).filter (·.decision_id = a.decision_id) =
        s.packets.filter (·.decision_id = a.decision_id) := fun a ha => by
      rw [List.filter_append, List.filter_singleton, decide_eq_false (h.unapproved_packet hdecision hstate hsource ha)]
      simp
    unfold Db.addPacket
    dsimp only
    split
    · exact ⟨List.Subset.refl _, List.Subset.refl _, List.Subset.refl _, hadded⟩
    · exact ⟨List.Subset.refl _, List.Subset.refl _, List.Subset.refl _, hadded⟩
  | approval hone hdecision hpreparer hrole hpacket hof hstate haction =>
    exact ⟨List.Subset.refl _, List.Subset.refl _, hconcat _ _, fun _ _ => rfl⟩
  | decline hfree =>
    unfold Db.addDecline
    split
    · exact ⟨List.Subset.refl _, hconcat _ _, List.Subset.refl _, fun _ _ => rfl⟩
    · exact ⟨List.Subset.refl _, hconcat _ _, List.Subset.refl _, fun _ _ => rfl⟩
  | grant => exact ⟨List.Subset.refl _, List.Subset.refl _, List.Subset.refl _, fun _ _ => rfl⟩
  | submission => exact ⟨List.Subset.refl _, List.Subset.refl _, List.Subset.refl _, fun _ _ => rfl⟩
  | outcome => exact ⟨List.Subset.refl _, List.Subset.refl _, List.Subset.refl _, fun _ _ => rfl⟩
  | deadline => exact ⟨List.Subset.refl _, List.Subset.refl _, List.Subset.refl _, fun _ _ => rfl⟩
  | papers => exact ⟨List.Subset.refl _, List.Subset.refl _, List.Subset.refl _, fun _ _ => rfl⟩

/-! ## Runs -/

theorem Sound.changes (h : Sound start s) (hc : Changes s s') : Sound start s' ∧ Grows s s' := by
  induction hc with
  | refl => exact ⟨h, .refl s⟩
  | tail _ hlast ih => exact ⟨ih.1.change hlast, ih.2.trans (ih.1.grows hlast)⟩

theorem exec_whole (store : WorkflowStore) (tools : Tools) (m : Moment) (request : Request) :
    Whole (exec store tools m request) := by
  cases store with
  | postgres => exact transaction_whole _
  | memory => exact memory_whole tools m request

theorem exec_changes {store : WorkflowStore} {tools : Tools} {m : Moment} {request : Request} {answer : Answer}
    (h : exec store tools m request s = .ok answer s') : Changes s s' := by
  cases store with
  | postgres => exact postgres_changes (transaction_ok.1 h)
  | memory => exact memory_changes h

theorem step_changes (store : WorkflowStore) (tools : Tools) (s : Db) (step : Step) :
    Changes s (step.run store tools s) := by
  cases step with
  | call m request =>
    rcases (exec_whole store tools m request).after s with ⟨answer, hok⟩ | hsame
    · exact exec_changes hok
    · show Changes s (after _ s)
      rw [hsame]
  | papers papers => exact .single (.papers papers)

theorem run_changes (store : WorkflowStore) (tools : Tools) (steps : List Step) (s : Db) :
    Changes s (run store tools steps s) := by
  induction steps generalizing s with
  | nil => exact .refl
  | cons step steps ih => exact (step_changes store tools s step).trans (ih _)

/-- **Any run of either store's workflow is safe**, and a refused request changes nothing. -/
theorem workflow_safe (store : WorkflowStore) (tools : Tools) (h : start.Unworked) (steps : List Step) :
    let s := run store tools steps start
    Safe start s ∧
      (∀ more, let s' := run store tools more s
        (∀ a ∈ s.approvals,
          s'.packets.filter (·.decision_id = a.decision_id) = s.packets.filter (·.decision_id = a.decision_id)) ∧
        (∀ k ∈ s.declined_candidates, ∀ d ∈ s'.decisions, d.deduction_id ≠ k.deduction_id) ∧
        ∀ d ∈ s.decisions, ∀ k ∈ s'.declined_candidates, k.deduction_id ≠ d.deduction_id) ∧
      ∀ m request refusal s', exec store tools m request s = .error refusal s' → s' = s := by
  intro s
  have hs : Sound start s := (h.sound.changes (run_changes store tools steps start)).1
  refine ⟨hs.safe, fun more => ?_, fun m request => exec_whole store tools m request s⟩
  obtain ⟨hs', hgrows⟩ := hs.changes (run_changes store tools more s)
  exact ⟨hgrows.packets, fun k hk d hd => (hs'.apart d hd k (hgrows.declines hk)).symm,
    fun d hd k hk => hs'.apart d (hgrows.decisions hd) k hk⟩

end

/-! ## One case -/

/-- A digest and an id that read as what they are of. -/
def plainTools : Tools := ⟨id, decimal⟩

/-- A notice of a classified case, an analyst and an owner. -/
def aCase : Db where
  memberships := [(1, .analyst), (2, .owner)]
  papers := ⟨some "Acme".toList, [(3, "Kroger".toList)],
    [⟨7, "notice.pdf".toList, List.replicate 64 'a', 0, some .email_in, none⟩], [⟨3, 7, .notice⟩],
    [(3, "INV-1".toList)]⟩
  cases := [⟨3, .classified, some "CB-1".toList, some 10000, none, none⟩]
  decisions := []
  packets := []
  approvals := []
  submissions := []
  declined_candidates := []
  deduction_events := []

theorem aCase_unworked : aCase.Unworked := ⟨rfl, rfl, rfl, rfl, rfl, rfl⟩

/-- The analyst decides and assembles, and the owner approves. -/
def toApproval (alsoWriteback : Bool) : List Step :=
  [.call ⟨1, 10, 0, 1, 0⟩ (.recordHumanDecision 3 1 "shortage_quantity".toList "the delivery was signed for".toList),
    .call ⟨1, 20, 0, 2, 0⟩ (.assemblePacket 3 10 1 [] ⟨none, none, []⟩),
    .call ⟨2, 30, 31, 3, 0⟩ (.approve 10 20 2 none alsoWriteback)]

theorem filed_case_safe :
    let s := run .postgres plainTools
      (toApproval true ++ [.call ⟨1, 40, 0, 4, 0⟩ (.recordSubmission 10 20 30 .manual_portal "C-9".toList 4 1)]) aCase
    s.submissions.length = 1 ∧ Safe aCase s :=
  ⟨by decide +kernel, (workflow_safe .postgres plainTools aCase_unworked _).1⟩

/-- **An approval that authorises the posting too is a second approval of its decision.** -/
theorem approved_twice :
    ¬ ∀ (store : WorkflowStore) (tools : Tools) (start : Db), start.Unworked → ∀ (steps : List Step) (decision : Nat),
      ((run store tools steps start).approvals.filter (·.decision_id = decision)).length ≤ 1 := by
  intro h
  have htwo : ((run .postgres plainTools (toApproval true) aCase).approvals.filter (·.decision_id = 10)).length = 2 := by
    decide +kernel
  have := h .postgres plainTools aCase aCase_unworked (toApproval true) 10
  omega

end Recouple.Database.Workflow
