import Recouple.Pipeline.PortalConnection

/-!
# What a refused sign-in leaves

A hold is named by an entered credential, and an entered credential that is not the latest never is again, so a
credential once held or superseded stays so (`HeldOff`). `Inv` says that an enabled connection's current credential is
not held, that an outcome row saying `credential_rejected` leaves every credential its run sent held off, that no run
which began its `start` after such a row sent one of them, and that the row of a run which fetched such a result says
so, or that its job failed. Each party keeps it by what it may rely on of the
others (`Rely`), whatever its own statements answer.

* **`refused_sign_in_held`**: over every interleaving the four hold, and a job that ends well has written the row.
* **`refused_sign_in_recorded_failed`**: a run whose connection cannot be turned off is recorded failed, and the next
  run sends the refused credential.
-/

namespace Recouple.PortalConnection
open Js Thread PortalJob
open scoped List

section
variable {ι : Type}

/-! ## Holds -/

/-- A refusal or a removal names the current credential. -/
def Rows.Held (s : Rows ι) : Prop := (s.credentialHold s.latest CREDENTIAL_DISABLES).isSome

/-- The credential was entered, and is held or no longer current. -/
def Rows.HeldOff (s : Rows ι) (credentialId : Nat) : Prop :=
  credentialId ∈ s.ids ∧
    ((s.credentialHold (some credentialId) CREDENTIAL_DISABLES).isSome ∨ s.latest ≠ some credentialId)

theorem credentialHold_isSome {s : Rows ι} {credentialId : Option Nat} {reasons : List PortalDisableReason} :
    (s.credentialHold credentialId reasons).isSome ↔
      ∃ d ∈ s.disables, d.reason ∈ reasons ∧ d.credentialId = credentialId := by
  simp [Rows.credentialHold, List.find?_isSome]

theorem latest_mem {s : Rows ι} {credentialId : Nat} (h : s.latest = some credentialId) : credentialId ∈ s.ids := by
  obtain ⟨row, hrow, rfl⟩ := Option.map_eq_some_iff.1 h
  exact List.mem_map_of_mem (List.argmax_mem hrow)

/-- A credential that is stored becomes the latest, or the latest stays. -/
theorem latest_concat (s : Rows ι) (row : CredentialRow) (sharers : Set ι) :
    Rows.latest { s with credentials := s.credentials ++ [row], sharers := sharers } = s.latest ∨
      Rows.latest { s with credentials := s.credentials ++ [row], sharers := sharers } = some row.id := by
  unfold Rows.latest
  rw [List.argmax_concat]
  cases s.credentials.argmax (·.seq) with
  | none => exact .inr rfl
  | some current =>
    dsimp only
    split
    · exact .inr rfl
    · exact .inl rfl

/-! ## What runs did -/

def Event.run : Event ι → ι
  | .began run | .sent run _ | .fetched run _ | .ended run _ => run

/-- An outcome row says that the portal refused the sign-in. -/
def OutcomeRow.Rejected (row : OutcomeRow) : Prop := row.ended = .needs_attention (.worker .credential_rejected)

def Refused (run : ι) (log : List (Event ι)) : Prop := ∃ row : OutcomeRow, row.Rejected ∧ .ended run row ∈ log

/-- The run began its `start` after the outcome row of one whose sign-in with the credential was refused. -/
def Doomed (run : ι) (credentialId : Nat) (log : List (Event ι)) : Prop :=
  ∃ other, ∃ row : OutcomeRow, row.Rejected ∧ [.ended other row, .began run] <+ log ∧ .sent other credentialId ∈ log

/-- What the run fetched last. -/
def LastFetched (run : ι) (ended : PortalWorkerRunEnd) (log : List (Event ι)) : Prop :=
  ∃ before after, log = before ++ .fetched run ended :: after ∧ ∀ ended', .fetched run ended' ∉ after

/-- The result it fetched last says that the portal refused the sign-in. -/
def FetchedRefusal (run : ι) (log : List (Event ι)) : Prop :=
  ∃ atStep, LastFetched run (.needs_attention .credential_rejected atStep) log

/-- The row of a job that failed. -/
def OutcomeRow.Failure (row : OutcomeRow) : Prop := ∃ error, row.ended = .error (errorClassOf error)

/-- The outcome row of a run that fetched a refusal says so, or that its job failed. -/
def Told (log : List (Event ι)) : Prop :=
  ∀ run before (row : OutcomeRow) after, log = before ++ .ended run row :: after → FetchedRefusal run before →
    row.Rejected ∨ row.Failure

/-- No run sent a credential it was to be spared. -/
def Spared (log : List (Event ι)) : Prop :=
  ∀ run other credentialId (row : OutcomeRow), row.Rejected → .sent other credentialId ∈ log →
    ¬ [.ended other row, .began run, .sent run credentialId] <+ log

/-- A last event that was not added. -/
theorem sublist_of_append {α : Type} {l new : List α} {x : α} (before : List α) (hx : x ∉ new)
    (h : before ++ [x] <+ l ++ new) : before ++ [x] <+ l := by
  obtain ⟨l₁, l₂, heq, h₁, h₂⟩ := List.sublist_append_iff.1 h
  rcases List.eq_nil_or_concat l₂ with rfl | ⟨l₂, y, rfl⟩
  · rw [List.append_nil] at heq
    exact heq ▸ h₁
  · rw [List.concat_eq_append, ← List.append_assoc] at heq
    obtain ⟨-, hlast⟩ := List.append_inj' heq rfl
    obtain rfl := List.singleton_inj.1 hlast
    exact absurd (h₂.mem (by simp)) hx

/-- What is added that the run did not fetch leaves its last result. -/
theorem lastFetched_append {log new : List (Event ι)} {run : ι} {ended : PortalWorkerRunEnd}
    (hnew : ∀ ended', .fetched run ended' ∉ new) : LastFetched run ended (log ++ new) ↔ LastFetched run ended log := by
  constructor
  · rintro ⟨before, after, heq, hlast⟩
    rcases List.append_eq_append_iff.1 heq with ⟨middle, rfl, hnew'⟩ | ⟨middle, rfl, hafter⟩
    · exact absurd (hnew' ▸ List.mem_append_right _ List.mem_cons_self) (hnew ended)
    · cases middle with
      | nil =>
        rw [List.nil_append] at hafter
        exact absurd (hafter ▸ List.mem_cons_self) (hnew ended)
      | cons e middle =>
        obtain ⟨rfl, rfl⟩ := List.cons.inj hafter
        exact ⟨before, middle, rfl, fun ended' hmem => hlast ended' (List.mem_append_left _ hmem)⟩
  · rintro ⟨before, after, rfl, hlast⟩
    refine ⟨before, after ++ new, by rw [List.append_assoc, List.cons_append], fun ended' hmem => ?_⟩
    exact (List.mem_append.1 hmem).elim (hlast ended') (hnew ended')

/-- What was fetched just now is the last result. -/
theorem lastFetched_fetched {log : List (Event ι)} {run : ι} {ended ended' : PortalWorkerRunEnd} :
    LastFetched run ended (log ++ [.fetched run ended']) ↔ ended = ended' := by
  constructor
  · rintro ⟨before, after, heq, hlast⟩
    rcases List.eq_nil_or_concat after with rfl | ⟨after, e, rfl⟩
    · obtain ⟨-, hend⟩ := List.append_inj' heq rfl
      exact (Event.fetched.inj (List.singleton_inj.1 hend)).2.symm
    · rw [List.concat_eq_append, ← List.cons_append, ← List.append_assoc] at heq
      obtain ⟨-, hend⟩ := List.append_inj' heq rfl
      exact absurd (by rw [List.concat_eq_append, ← hend]; simp) (hlast ended')
  · rintro rfl
    exact ⟨log, [], rfl, fun _ => List.not_mem_nil⟩

theorem LastFetched.unique {log : List (Event ι)} {run : ι} {ended ended' : PortalWorkerRunEnd}
    (h : LastFetched run ended log) (h' : LastFetched run ended' log) : ended = ended' := by
  obtain ⟨before, after, rfl, hlast⟩ := h
  rw [List.append_cons] at h'
  exact (lastFetched_fetched.1 ((lastFetched_append hlast).1 h')).symm

theorem LastFetched.mem {log : List (Event ι)} {run : ι} {ended : PortalWorkerRunEnd} (h : LastFetched run ended log) :
    .fetched run ended ∈ log := by
  obtain ⟨before, after, rfl, -⟩ := h
  exact List.mem_append_right _ List.mem_cons_self

/-- An event more: if it is an outcome, it tells of a refusal that was fetched. -/
theorem Told.note {log : List (Event ι)} (h : Told log) {e : Event ι}
    (he : ∀ run (row : OutcomeRow), e = .ended run row → FetchedRefusal run log → row.Rejected ∨ row.Failure) :
    Told (log ++ [e]) := by
  intro run before row after heq hfetched
  rcases List.eq_nil_or_concat after with rfl | ⟨after, e', rfl⟩
  · obtain ⟨rfl, hend⟩ := List.append_inj' heq rfl
    exact he run row (List.singleton_inj.1 hend) hfetched
  · rw [List.concat_eq_append, ← List.cons_append, ← List.append_assoc] at heq
    obtain ⟨rfl, -⟩ := List.append_inj' heq rfl
    exact h run before row after rfl hfetched

theorem mem_of_ended_began {log : List (Event ι)} {other run : ι} {row : OutcomeRow}
    (h : [.ended other row, .began run] <+ log) : .ended other row ∈ log :=
  h.mem List.mem_cons_self

/-! ## The invariant -/

structure Inv (s : Rows ι) : Prop where
  named : ∀ d ∈ s.disables, ∀ credentialId, d.credentialId = some credentialId → credentialId ∈ s.ids
  off : s.enabled → ¬ s.Held
  refused : ∀ run, Refused run s.log → ∀ credentialId, .sent run credentialId ∈ s.log → s.HeldOff credentialId
  spared : Spared s.log
  told : Told s.log

/-- What a party may rely on of the others. -/
structure Rely (party : ι) (s s' : Rows ι) : Prop where
  inv : Inv s'
  ids : ∀ credentialId ∈ s.ids, credentialId ∈ s'.ids
  latest : s'.latest = s.latest ∨ ∃ credentialId, s'.latest = some credentialId ∧ credentialId ∉ s.ids
  holds : ∀ d ∈ s.disables, d ∈ s'.disables
  log : ∃ new, s'.log = s.log ++ new ∧ ∀ e ∈ new, e.run ≠ party
  done : ∀ run, Refused run s.log → ∀ credentialId, .sent run credentialId ∈ s'.log → .sent run credentialId ∈ s.log
  held : s.holder = some party → s'.holder = some party ∧ s'.enabled = s.enabled ∧ s'.disables = s.disables

/-- What a party guarantees. -/
structure Guarantee (party : ι) (s s' : Rows ι) : Prop where
  inv : Inv s'
  others : ∀ other, party ≠ other → Rely other s s'

section
variable {party : ι} {s s' : Rows ι}

/-! ## What stays -/

theorem stable_inv : Stable (Rely party) Inv := fun _ _ _ h => h.inv

/-- An entered credential that is not the latest never is again. -/
theorem superseded_stays {credentialId : Nat}
    (hlatest : s'.latest = s.latest ∨ ∃ newer, s'.latest = some newer ∧ newer ∉ s.ids) (hid : credentialId ∈ s.ids)
    (hs : s.latest ≠ some credentialId) : s'.latest ≠ some credentialId := by
  rcases hlatest with hsame | ⟨newer, hnewer, hfresh⟩
  · rwa [hsame]
  · rw [hnewer]
    intro heq
    exact hfresh (Option.some_inj.1 heq ▸ hid)

theorem Rows.HeldOff.mono {credentialId : Nat} (hids : ∀ credentialId ∈ s.ids, credentialId ∈ s'.ids)
    (hlatest : s'.latest = s.latest ∨ ∃ newer, s'.latest = some newer ∧ newer ∉ s.ids)
    (hholds : ∀ d ∈ s.disables, d ∈ s'.disables) (h : s.HeldOff credentialId) : s'.HeldOff credentialId := by
  obtain ⟨hid, hs⟩ := h
  refine ⟨hids _ hid, hs.imp (fun hhold => ?_) fun hs => superseded_stays hlatest hid hs⟩
  obtain ⟨d, hd, hnames⟩ := credentialHold_isSome.1 hhold
  exact credentialHold_isSome.2 ⟨d, hholds d hd, hnames⟩

theorem Rows.HeldOff.commit {credentialId : Nat} (h : s.HeldOff credentialId) (writes : Writes) :
    (s.commit writes).HeldOff credentialId := by
  refine Rows.HeldOff.mono (s := s) (fun _ hid => hid) (.inl rfl) (fun d hd => ?_) h
  exact List.mem_append_left _ hd

theorem stable_heldOff (credentialId : Nat) : Stable (Rely party) fun s => s.HeldOff credentialId :=
  fun _ _ hs h => hs.mono h.ids h.latest h.holds

/-- What a party did itself, the others leave. -/
theorem Rely.own (h : Rely party s s') {e : Event ι} (he : e.run = party) : e ∈ s'.log ↔ e ∈ s.log := by
  obtain ⟨new, hnew, hothers⟩ := h.log
  rw [hnew, List.mem_append]
  exact or_iff_left fun hmem => hothers e hmem he

/-- What is known of the row while it is locked. -/
theorem stable_locked (φ : Bool → List DisableRow → Prop) :
    Stable (Rely party) fun s => s.holder = some party ∧ φ s.enabled s.disables := by
  rintro s s' ⟨hholder, hφ⟩ h
  obtain ⟨hholder', henabled, hdisables⟩ := h.held hholder
  exact ⟨hholder', by rwa [henabled, hdisables]⟩

/-! ## What a party does -/

/-- Nothing that is read changes, and nobody else's lock. -/
theorem Guarantee.of_same (h : Inv s) (henabled : s'.enabled = s.enabled) (hcredentials : s'.credentials = s.credentials)
    (hdisables : s'.disables = s.disables) (hlog : s'.log = s.log)
    (hholder : ∀ other, party ≠ other → s.holder = some other → s'.holder = some other) : Guarantee party s s' := by
  obtain ⟨enabled, credentials, nextSeq, disables, holder, sharers, log⟩ := s
  obtain ⟨enabled', credentials', nextSeq', disables', holder', sharers', log'⟩ := s'
  dsimp only at henabled hcredentials hdisables hlog
  subst henabled hcredentials hdisables hlog
  have hinv : Inv (⟨enabled', credentials', nextSeq', disables', holder', sharers', log'⟩ : Rows ι) :=
    ⟨h.named, h.off, h.refused, h.spared, h.told⟩
  exact ⟨hinv, fun other hne => ⟨hinv, fun _ => id, .inl rfl, fun _ => id, ⟨[], (List.append_nil _).symm, by simp⟩,
    fun _ _ _ => id, fun hheld => ⟨hholder other hne hheld, rfl, rfl⟩⟩⟩

theorem Guarantee.refl (h : Inv s) : Guarantee party s s :=
  .of_same h rfl rfl rfl rfl fun _ _ => id

/-- What is noted of the party itself, unless it sends after an outcome that refused it. -/
theorem Guarantee.note {e : Event ι} (hinv : Inv (s.note e)) (he : e.run = party)
    (hdone : ∀ credentialId, e = .sent party credentialId → ¬ Refused party s.log) : Guarantee party s (s.note e) := by
  refine ⟨hinv, fun other hne => ⟨hinv, fun _ => id, .inl rfl, fun _ => id, ⟨[e], rfl, ?_⟩, ?_, fun h => ⟨h, rfl, rfl⟩⟩⟩
  · intro e' he'
    rw [List.mem_singleton.1 he', he]
    exact hne
  · intro run hrefused credentialId hmem
    rcases List.mem_append.1 hmem with hmem | hmem
    · exact hmem
    · obtain rfl := List.mem_singleton.1 hmem
      obtain rfl : run = party := he
      exact absurd hrefused (hdone credentialId rfl)

/-- The holder's writes. -/
theorem Guarantee.of_holder {writes : Writes} (hholder : s.holder = some party) (hinv : Inv (s.commit writes)) :
    Guarantee party s (s.commit writes) :=
  ⟨hinv, fun _ hne => ⟨hinv, fun _ => id, .inl rfl, fun _ => List.mem_append_left _,
    ⟨[], (List.append_nil _).symm, by simp⟩, fun _ _ _ => id,
    fun hother => absurd (Option.some_inj.1 (hholder.symm.trans hother)) hne⟩⟩

theorem mem_ids_concat {row : CredentialRow} {sharers : Set ι} {credentialId : Nat} :
    credentialId ∈ Rows.ids { s with credentials := s.credentials ++ [row], sharers := sharers } ↔
      credentialId ∈ s.ids ∨ credentialId = row.id := by
  simp [Rows.ids, eq_comm]

/-- A new credential is named by no hold. -/
theorem Inv.credential (h : Inv s) {row : CredentialRow} (hfresh : row.id ∉ s.ids) (sharers : Set ι) :
    Inv { s with credentials := s.credentials ++ [row], sharers := sharers } := by
  have hids : ∀ credentialId ∈ s.ids,
      credentialId ∈ Rows.ids { s with credentials := s.credentials ++ [row], sharers := sharers } :=
    fun _ hid => mem_ids_concat.2 (.inl hid)
  have hlatest := latest_concat s row sharers
  refine ⟨fun d hd credentialId hnames => hids _ (h.named d hd credentialId hnames), fun henabled hheld => ?_,
    fun run hrefused credentialId hsent => ?_, h.spared, h.told⟩
  · obtain ⟨d, hd, hreason, hnames⟩ := credentialHold_isSome.1 hheld
    rcases hlatest with hsame | hnew
    · exact h.off henabled (credentialHold_isSome.2 ⟨d, hd, hreason, hnames.trans hsame⟩)
    · exact hfresh (h.named d hd row.id (hnames.trans hnew))
  · exact (h.refused run hrefused credentialId hsent).mono hids (hlatest.imp id fun hnew => ⟨row.id, hnew, hfresh⟩)
      fun _ => id

theorem Guarantee.credential (h : Inv s) {row : CredentialRow} (hfresh : row.id ∉ s.ids) (sharers : Set ι) :
    Guarantee party s { s with credentials := s.credentials ++ [row], sharers := sharers } := by
  have hinv := h.credential hfresh sharers
  refine ⟨hinv, fun other _ => ⟨hinv, fun _ hid => mem_ids_concat.2 (.inl hid), ?_, fun _ => id,
    ⟨[], (List.append_nil _).symm, by simp⟩, fun _ _ _ => id, fun hheld => ⟨hheld, rfl, rfl⟩⟩⟩
  exact (latest_concat s row sharers).imp id fun hnew => ⟨row.id, hnew, hfresh⟩

/-! ## What is noted of a run -/

theorem Refused.of_note {e : Event ι} {run : ι} (h : Refused run (s.note e).log)
    (he : ∀ row : OutcomeRow, row.Rejected → e ≠ .ended run row) : Refused run s.log := by
  obtain ⟨row, hrow, hmem⟩ := h
  rcases List.mem_append.1 hmem with hmem | hmem
  · exact ⟨row, hrow, hmem⟩
  · exact absurd (List.mem_singleton.1 hmem).symm (he row hrow)

/-- Whatever is noted but a credential sent: a refused sign-in is noted of a run that sent what is held off, and of a
run that fetched one nothing else is but that its job failed. -/
theorem Inv.note (h : Inv s) {e : Event ι} (hsent : ∀ run credentialId, e ≠ .sent run credentialId)
    (hrow : ∀ run (row : OutcomeRow), e = .ended run row → row.Rejected →
      ∀ credentialId, .sent run credentialId ∈ s.log → s.HeldOff credentialId)
    (htold : ∀ run (row : OutcomeRow), e = .ended run row → FetchedRefusal run s.log → row.Rejected ∨ row.Failure) :
    Inv (s.note e) := by
  have hold : ∀ run credentialId, .sent run credentialId ∈ (s.note e).log → .sent run credentialId ∈ s.log := by
    intro run credentialId hmem
    rcases List.mem_append.1 hmem with hmem | hmem
    · exact hmem
    · exact absurd (List.mem_singleton.1 hmem).symm (hsent run credentialId)
  refine ⟨h.named, h.off, ?_, ?_, h.told.note htold⟩
  · rintro run ⟨row, hrejected, hmem⟩ credentialId hs
    rcases List.mem_append.1 hmem with hmem | hmem
    · exact h.refused run ⟨row, hrejected, hmem⟩ credentialId (hold _ _ hs)
    · exact hrow run row (List.mem_singleton.1 hmem).symm hrejected credentialId (hold _ _ hs)
  · intro run other credentialId row hrejected hs hsub
    refine h.spared run other credentialId row hrejected (hold _ _ hs) ?_
    have hlast : (.sent run credentialId : Event ι) ∉ [e] :=
      fun hmem => hsent run credentialId (List.mem_singleton.1 hmem).symm
    exact sublist_of_append ([.ended other row, .began run] : List (Event ι)) hlast hsub

/-- A run sends what no run was refused with before it began. -/
theorem Inv.sent (h : Inv s) {run : ι} {credentialId : Nat} (hopen : ¬ Refused run s.log)
    (hspared : ¬ Doomed run credentialId s.log) : Inv (s.note (.sent run credentialId)) := by
  have hrefused : ∀ other (row : OutcomeRow), row.Rejected → .ended other row ∈ (s.note (.sent run credentialId)).log →
      .ended other row ∈ s.log := by
    intro other row _ hmem
    rcases List.mem_append.1 hmem with hmem | hmem
    · exact hmem
    · cases List.mem_singleton.1 hmem
  -- what a refused run sent, it sent before
  have hold : ∀ other (row : OutcomeRow), row.Rejected → .ended other row ∈ s.log → ∀ sent,
      .sent other sent ∈ (s.note (.sent run credentialId)).log → .sent other sent ∈ s.log := by
    intro other row hrejected hended sent hmem
    rcases List.mem_append.1 hmem with hmem | hmem
    · exact hmem
    · cases List.mem_singleton.1 hmem
      exact absurd ⟨row, hrejected, hended⟩ hopen
  refine ⟨h.named, h.off, ?_, ?_, h.told.note fun _ _ heq => by cases heq⟩
  · rintro other ⟨row, hrejected, hmem⟩ sent hs
    have hended := hrefused other row hrejected hmem
    exact h.refused other ⟨row, hrejected, hended⟩ sent (hold other row hrejected hended sent hs)
  · intro run' other sent row hrejected hs hsub
    have hended := hrefused other row hrejected (hsub.mem List.mem_cons_self)
    have hs' := hold other row hrejected hended sent hs
    by_cases hlast : (.sent run' sent : Event ι) = .sent run credentialId
    · cases hlast
      have hbegan : ([.ended other row, .began run] : List (Event ι)) ++ [.sent run credentialId] <+
          s.log ++ [.sent run credentialId] := hsub
      exact hspared ⟨other, row, hrejected, (List.append_sublist_append_right _).1 hbegan, hs'⟩
    · have hnew : (.sent run' sent : Event ι) ∉ [.sent run credentialId] := fun hmem => hlast (List.mem_singleton.1 hmem)
      exact h.spared run' other sent row hrejected hs'
        (sublist_of_append ([.ended other row, .began run'] : List (Event ι)) hnew hsub)

/-! ## Judgements -/

/-- The party's steps from `A`, ending with `P` or thrown with `E`. -/
abbrev Safe {ε α : Type} (party : ι) (E A : Rows ι → Prop) (t : Thread (Rows ι) ε α) (P : α → Rows ι → Prop) : Prop :=
  t.Meets (Rely party) (Guarantee party) (Ends P E) A

/-- What the others keep, besides the invariant. -/
structure Kept (party : ι) (A : Rows ι → Prop) : Prop where
  stable : Stable (Rely party) A
  inv : ∀ s, A s → Inv s

theorem kept_inv : Kept party Inv := ⟨stable_inv, fun _ => id⟩

theorem Kept.and {A B : Rows ι → Prop} (hA : Kept party A) (hB : Stable (Rely party) B) :
    Kept party fun s => A s ∧ B s :=
  ⟨hA.stable.and hB, fun s hs => hA.inv s hs.1⟩

section
variable {ε α β : Type} {E A : Rows ι → Prop} {P : α → Rows ι → Prop}

theorem Safe.bind {p : Thread (Rows ι) ε α} {f : α → Thread (Rows ι) ε β} {M : α → Rows ι → Prop}
    {P : β → Rows ι → Prop} (hp : Safe party E A p M) (hf : ∀ a, Safe party E (M a) (f a) P) :
    Safe party E A (p >>= f) P :=
  Meets.bind hp hf fun _ _ => id

/-- Less is said of how it ends. -/
theorem Safe.weaken {E' : Rows ι → Prop} {P' : α → Rows ι → Prop} {t : Thread (Rows ι) ε α} (h : Safe party E A t P)
    (hP : ∀ a s, P a s → P' a s) (hE : ∀ s, E s → E' s) : Safe party E' A t P' := by
  refine h.post fun r s hs => ?_
  cases r with
  | ok a => exact hP a s hs
  | error e => exact hE s hs

theorem Safe.pre {A' : Rows ι → Prop} {t : Thread (Rows ι) ε α} (h : Safe party E A t P) (hA : ∀ s, A' s → A s) :
    Safe party E A' t P :=
  h.mono hA

/-- A statement that keeps what is known, however it answers. -/
theorem attempt_safe {act : Rows ι → Except PortalError α → Rows ι → Prop} (hA : Kept party A)
    (hact : ∀ s r s', A s → act s r s' → Guarantee party s s' ∧ A s') :
    Safe party A A (attempt act : Party ι α) fun _ => A := by
  refine Meets.attempt (fun s r s' hs h => (hact s r s' hs h).1) (Stable.ends (fun _ => hA.stable) hA.stable) ?_
  intro s r s' hs h
  cases r with
  | ok a => exact (hact s _ s' hs h).2
  | error e => exact (hact s _ s' hs h).2

theorem elsewhere_safe (hA : Kept party A) : Safe party A A (elsewhere : Party ι α) fun _ => A :=
  attempt_safe hA fun s _ s' hs h => by
    obtain rfl := h
    exact ⟨Guarantee.refl (hA.inv _ hs), hs⟩

theorem read_safe {f : Rows ι → α} (hA : Kept party A) (hP : ∀ a, Stable (Rely party) (P a))
    (hread : ∀ s, A s → P (f s) s) : Safe party A A (read f) fun a s => A s ∧ P a s := by
  refine Meets.attempt ?_ (Stable.ends (fun a => hA.stable.and (hP a)) hA.stable) ?_
  · rintro s r s' hs ⟨rfl, -⟩
    exact Guarantee.refl (hA.inv _ hs)
  · rintro s r s' hs ⟨rfl, hr⟩
    cases r with
    | ok a => exact ⟨hs, hr a rfl ▸ hread _ hs⟩
    | error e => exact hs

/-- A step does its work again from where it failed, or where its answer was not kept. -/
theorem step_safe {retries : Nat} {id : StepId} {work : Party ι α} (hA : Kept party A)
    (hP : ∀ a, Stable (Rely party) (P a)) (hback : ∀ a s, P a s → A s) (hwork : Safe party A A work P) :
    Safe party A A (step retries id work) P := by
  refine Meets.recover (Q := Ends P A) (Meets.retry ?_ (fun _ _ => fun hs => hs) retries) (fun _ _ => fun hs => hs)
    fun e => Meets.throw fun s hs => hs
  refine Safe.bind hwork fun a => Safe.bind (M := fun _ => P a) ?_ fun _ => Meets.pure fun s hs => hs
  exact (elsewhere_safe ⟨hP a, fun s hs => hA.inv s (hback a s hs)⟩).weaken (fun _ _ hs => hs) (hback a)

theorem during_safe {progress : Progress} {p : Party ι α} (h : Safe party E A p P) :
    Safe party E A (during progress p) P :=
  Meets.recover h (fun _ _ hs => hs) fun _ => Meets.throw fun _ hs => hs

/-- What the holder's own writes keep, where they keep the invariant. -/
structure Transacts (party : ι) (A : Rows ι → Prop) : Prop extends Kept party A where
  holder : ∀ s holder, A s → A { s with holder := holder }
  commit : ∀ s writes, A s → Inv (s.commit writes) → A (s.commit writes)

theorem transacts_inv : Transacts party Inv :=
  ⟨kept_inv, fun _ _ h => ⟨h.named, h.off, h.refused, h.spared, h.told⟩, fun _ _ _ => id⟩

/-- The holder's writes leave what was done. -/
theorem Transacts.and_log {φ : List (Event ι) → Prop} (hA : Transacts party A)
    (hφ : Stable (Rely party) fun s => φ s.log) : Transacts party fun s => A s ∧ φ s.log where
  stable := hA.stable.and hφ
  inv s hs := hA.inv s hs.1
  holder s holder hs := ⟨hA.holder s holder hs.1, hs.2⟩
  commit s writes hs hinv := ⟨hA.commit s writes hs.1 hinv, hs.2⟩

/-- Work under the lock, whose writes keep the invariant, and are taken or not. -/
theorem underLock_safe {work : Bool → Party ι (α × Writes)} {M : α × Writes → Rows ι → Prop} (hA : Transacts party A)
    (hP : ∀ a, Stable (Rely party) (P a))
    (hwork : ∀ enabled, Safe party (fun s => A s ∧ s.holder = some party)
      (fun s => A s ∧ s.holder = some party ∧ s.enabled = enabled) (work enabled)
      fun done s => (A s ∧ s.holder = some party) ∧ M done s)
    (hcommit : ∀ done s, A s → M done s → Inv (s.commit done.2) ∧ P done.1 (s.commit done.2)) :
    Safe party A A (underLock party work) fun a s => A s ∧ P a s := by
  have hheld : Stable (Rely party) fun s => s.holder = some party := fun s s' hs h => (h.held hs).1
  refine Safe.bind (elsewhere_safe hA.toKept) fun _ => Safe.bind (elsewhere_safe hA.toKept) fun _ => ?_
  refine Safe.bind (M := fun enabled s => A s ∧ s.holder = some party ∧ s.enabled = enabled) ?_ fun enabled => ?_
  · refine Meets.attempt ?_
      (Stable.ends (fun enabled => hA.stable.and (stable_locked fun b _ => b = enabled)) hA.stable) ?_
    · rintro s r s' hs (⟨rfl, hfree, -, rfl⟩ | ⟨-, rfl⟩)
      · exact Guarantee.of_same (hA.inv s hs) rfl rfl rfl rfl fun other _ hother =>
          absurd (hfree.symm.trans hother) (Option.some_ne_none _).symm
      · exact Guarantee.refl (hA.inv _ hs)
    · rintro s r s' hs (⟨rfl, -, -, rfl⟩ | ⟨⟨e, rfl⟩, rfl⟩)
      · exact ⟨hA.holder s _ hs, rfl, rfl⟩
      · exact hs
  have hfreed : ∀ s, A s → s.holder = some party → Guarantee party s { s with holder := none } :=
    fun s hs hholder => Guarantee.of_same (hA.inv s hs) rfl rfl rfl rfl fun other hne hother =>
      absurd (Option.some_inj.1 (hholder.symm.trans hother)) hne
  refine Safe.bind (Meets.recover (hwork enabled) (fun _ _ hs => hs) fun e => ?_) fun done => ?_
  · refine Safe.bind (M := fun _ => A) (Meets.atomic ?_ (fun _ => hA.stable) ?_) fun _ => Meets.throw fun s hs => hs
    · rintro s _ s' ⟨hs, -⟩ ⟨hholder, rfl⟩
      exact hfreed s hs hholder
    · rintro s _ s' ⟨hs, -⟩ ⟨-, rfl⟩
      exact hA.holder s _ hs
  · refine Meets.attempt ?_ (Stable.ends (fun a => hA.stable.and (hP a)) hA.stable) ?_
    · rintro s r s' ⟨⟨hs, -⟩, hM⟩ ⟨hholder, ⟨-, rfl⟩ | ⟨-, rfl | rfl⟩⟩
      · exact Guarantee.of_holder hholder (hcommit done s hs hM).1
      · exact Guarantee.of_holder hholder (hcommit done s hs hM).1
      · exact hfreed s hs hholder
    · rintro s r s' ⟨⟨hs, -⟩, hM⟩ ⟨-, ⟨rfl, rfl⟩ | ⟨⟨e, rfl⟩, rfl | rfl⟩⟩
      · obtain ⟨hinv, hdone⟩ := hcommit done s hs hM
        exact ⟨hA.commit s _ hs hinv, hdone⟩
      · exact hA.commit s _ hs (hcommit done s hs hM).1
      · exact hA.holder s _ hs

/-! ## What an owner does -/

/-- Writes that turn nothing on, and hold entered credentials. -/
structure TurnsOff (writes : Writes) (s : Rows ι) : Prop where
  enabled : writes.enabled = some false ∨ writes.enabled = none ∧ (writes.disables = [] ∨ s.enabled = false)
  named : ∀ d ∈ writes.disables, ∀ credentialId, d.credentialId = some credentialId → credentialId ∈ s.ids

theorem TurnsOff.inv {writes : Writes} (hw : TurnsOff writes s) (h : Inv s) : Inv (s.commit writes) := by
  refine ⟨fun d hd credentialId hnames => ?_, fun henabled => ?_, fun run hrefused credentialId hsent => ?_, h.spared,
    h.told⟩
  · rcases List.mem_append.1 hd with hd | hd
    · exact h.named d hd credentialId hnames
    · exact hw.named d hd credentialId hnames
  · rcases hw.enabled with hoff | ⟨hsame, hnone | hoff⟩
    · exact absurd henabled (by simp [Rows.commit, hoff])
    · have hheld : (s.commit writes).Held ↔ s.Held := by
        simp only [Rows.Held, credentialHold_isSome, Rows.commit, hnone, List.append_nil]
        rfl
      rw [hheld]
      exact h.off (by simpa [Rows.commit, hsame] using henabled)
    · exact absurd henabled (by simp [Rows.commit, hsame, hoff])
  · exact (h.refused run hrefused credentialId hsent).commit writes

/-- The hold is recorded already, or written. -/
def Records (reason : PortalDisableReason) (credentialId : Option Nat) (writes : Writes) (s : Rows ι) : Prop :=
  ∃ d ∈ s.disables ++ writes.disables, d.reason = reason ∧ d.credentialId = credentialId

theorem turnOff_safe {enabled : Bool} {reason : PortalDisableReason} {credentialId : Option Nat} (hA : Kept party A)
    (hentered : ∀ s, A s → ∀ id, credentialId = some id → id ∈ s.ids) :
    Safe party (fun s => A s ∧ s.holder = some party) (fun s => A s ∧ s.holder = some party ∧ s.enabled = enabled)
      (turnOff enabled reason credentialId) fun done s => (A s ∧ s.holder = some party) ∧
        TurnsOff done.2 s ∧ (reason ≠ .turned_off → Records reason credentialId done.2 s) := by
  have hlocked : Kept party fun s => A s ∧ s.holder = some party ∧ s.enabled = enabled :=
    hA.and (stable_locked fun b _ => b = enabled)
  have hwritten : ∀ s alreadyOff (b : Option Bool), A s → b = some false ∨ b = none ∧ s.enabled = false →
      TurnsOff ⟨b, [⟨reason, credentialId, alreadyOff⟩]⟩ s ∧
        (reason ≠ .turned_off → Records reason credentialId ⟨b, [⟨reason, credentialId, alreadyOff⟩]⟩ s) := by
    intro s alreadyOff b hs hb
    refine ⟨⟨hb.imp id fun h => ⟨h.1, .inr h.2⟩, fun d hd => ?_⟩, fun _ => ?_⟩
    · rw [List.mem_singleton.1 hd]
      exact hentered s hs
    · exact ⟨_, List.mem_append_right _ List.mem_cons_self, rfl, rfl⟩
  have hcall : Safe party (fun s => A s ∧ s.holder = some party)
      (fun s => A s ∧ s.holder = some party ∧ s.enabled = enabled) (elsewhere : Party ι Unit)
      fun _ s => A s ∧ s.holder = some party ∧ s.enabled = enabled :=
    (elsewhere_safe hlocked).weaken (fun _ _ hs => hs) fun s hs => ⟨hs.1, hs.2.1⟩
  unfold turnOff
  split
  · refine Safe.bind hcall fun _ => ?_
    exact Meets.pure fun s hs => ⟨⟨hs.1, hs.2.1⟩, hwritten s _ _ hs.1 (.inl rfl)⟩
  · rename_i hoff
    have hoff' : enabled = false := by simpa using hoff
    split
    · rename_i hturned
      exact Meets.pure fun s hs =>
        ⟨⟨hs.1, hs.2.1⟩, ⟨.inr ⟨rfl, .inl rfl⟩, by simp⟩, fun hreason => absurd hturned hreason⟩
    · refine Safe.bind (M := fun hold s => (A s ∧ s.holder = some party ∧ s.enabled = enabled) ∧
          (hold.isSome → ∃ d ∈ s.disables, d.reason = reason ∧ d.credentialId = credentialId)) ?_ fun hold => ?_
      · refine (read_safe hlocked (fun hold => ?_) fun s hs hsome => ?_).weaken (fun _ _ hs => hs)
          fun s hs => ⟨hs.1, hs.2.1⟩
        · rintro s s' hs h hsome
          obtain ⟨d, hd, hnames⟩ := hs hsome
          exact ⟨d, h.holds d hd, hnames⟩
        · simpa using credentialHold_isSome.1 hsome
      · split
        · rename_i hsome
          refine Meets.pure fun s hs => ⟨⟨hs.1.1, hs.1.2.1⟩, ⟨.inr ⟨rfl, .inl rfl⟩, by simp⟩, fun _ => ?_⟩
          obtain ⟨d, hd, hnames⟩ := hs.2 hsome
          exact ⟨d, List.mem_append_left _ hd, hnames⟩
        · refine Safe.bind (hcall.mono fun s hs => hs.1) fun _ => ?_
          exact Meets.pure fun s hs => ⟨⟨hs.1, hs.2.1⟩, hwritten s _ _ hs.1 (.inr ⟨rfl, hs.2.2.trans hoff'⟩)⟩

/-- What is read of the latest credential: it was entered, and one entered before that it is not never is again. -/
def KnownLatest (A : Rows ι → Prop) (latest : Option Nat) (s : Rows ι) : Prop :=
  (∀ id, latest = some id → id ∈ s.ids) ∧
    ∀ id, (∀ s, A s → id ∈ s.ids) → id ∈ s.ids ∧ (latest ≠ some id → s.latest ≠ some id)

theorem stable_knownLatest {latest : Option Nat} : Stable (Rely party) (KnownLatest A latest) := by
  rintro s s' ⟨hentered, hcurrent⟩ h
  refine ⟨fun id hid => h.ids _ (hentered id hid), fun id hid => ?_⟩
  obtain ⟨hmem, hne⟩ := hcurrent id hid
  exact ⟨h.ids _ hmem, fun hlatest => superseded_stays h.latest hmem (hne hlatest)⟩

/-- Whoever asks for it; what an entered credential was refused for is held, or a newer one was entered. -/
theorem disableConnection_safe (hA : Transacts party A) (input : DisablePortalConnectionInput) :
    Safe party A A (disableConnection party input) fun _ s => A s ∧ ∀ credentialId,
      input = .credential_rejected credentialId → (∀ s, A s → credentialId ∈ s.ids) → s.HeldOff credentialId := by
  refine underLock_safe (M := fun done s => TurnsOff done.2 s ∧ ∀ credentialId,
    input = .credential_rejected credentialId → (∀ s, A s → credentialId ∈ s.ids) →
      s.HeldOff credentialId ∨ credentialId ∈ s.ids ∧ Records .credential_rejected (some credentialId) done.2 s) hA
    (fun _ s s' hs h credentialId hinput hentered =>
      stable_heldOff credentialId s s' (hs credentialId hinput hentered) h)
    (fun enabled => ?_) ?_
  · have hlocked : Kept party fun s => A s ∧ s.holder = some party ∧ s.enabled = enabled :=
      hA.toKept.and (stable_locked fun b _ => b = enabled)
    refine Safe.bind (M := fun latest s => (A s ∧ s.holder = some party ∧ s.enabled = enabled) ∧ KnownLatest A latest s)
      ?_ fun latest => ?_
    · refine (read_safe hlocked (fun _ => stable_knownLatest) fun s hs => ?_).weaken (fun _ _ hs => hs)
        fun s hs => ⟨hs.1, hs.2.1⟩
      exact ⟨fun id hlatest => latest_mem hlatest, fun id hentered => ⟨hentered s hs.1, fun hne => hne⟩⟩
    have hknown : Kept party fun s => A s ∧ KnownLatest A latest s := hA.toKept.and stable_knownLatest
    cases input with
    | credential_rejected refused =>
      have hlockedKnown : Kept party fun s =>
          (A s ∧ s.holder = some party ∧ s.enabled = enabled) ∧ KnownLatest A latest s :=
        hlocked.and stable_knownLatest
      refine Safe.bind (M := fun named s => ((A s ∧ s.holder = some party ∧ s.enabled = enabled) ∧
        KnownLatest A latest s) ∧ (named = true → refused ∈ s.ids)) ?_ fun named => ?_
      · refine (read_safe (P := fun named s => named = true → refused ∈ s.ids) hlockedKnown ?_
          fun s _ hnamed => ?_).weaken (fun _ _ hs => hs) fun s hs => ⟨hs.1.1, hs.1.2.1⟩
        · exact fun named s s' hs h hnamed => h.ids _ (hs hnamed)
        · exact of_decide_eq_true hnamed
      cases named with
      | false => exact Meets.throw fun s hs => ⟨hs.1.1.1, hs.1.1.2.1⟩
      | true =>
        have hnamed : Kept party fun s => (A s ∧ KnownLatest A latest s) ∧ refused ∈ s.ids :=
          hknown.and fun s s' hs h => h.ids _ hs
        simp only [Bool.not_true, Bool.false_eq_true, if_false]
        split
        · rename_i hnewer
          refine Meets.pure fun s hs => ⟨⟨hs.1.1.1, hs.1.1.2.1⟩, ⟨.inr ⟨rfl, .inl rfl⟩, by simp⟩, ?_⟩
          rintro id ⟨⟩ hentered
          obtain ⟨hmem, hne⟩ := hs.1.2.2 refused hentered
          exact .inl ⟨hmem, .inr (hne hnewer)⟩
        · refine ((turnOff_safe hnamed fun s hs id hid => Option.some_inj.1 hid ▸ hs.2).pre ?_).weaken ?_ ?_
          · exact fun s hs => ⟨⟨⟨hs.1.1.1, hs.1.2⟩, hs.2 trivial⟩, hs.1.1.2⟩
          · rintro done s ⟨⟨⟨⟨hs, -⟩, hid⟩, hholder⟩, hoff, hrecords⟩
            refine ⟨⟨hs, hholder⟩, hoff, ?_⟩
            rintro id ⟨⟩ -
            exact .inr ⟨hid, hrecords (by decide)⟩
          · exact fun s hs => ⟨hs.1.1.1, hs.2⟩
    | credential_removed =>
      refine ((turnOff_safe hknown fun s hs id hid => hs.2.1 id hid).pre ?_).weaken ?_ ?_
      · exact fun s hs => ⟨⟨hs.1.1, hs.2⟩, hs.1.2⟩
      · exact fun done s hs => ⟨⟨hs.1.1.1, hs.1.2⟩, hs.2.1, fun _ hinput => by cases hinput⟩
      · exact fun s hs => ⟨hs.1.1, hs.2⟩
    | turned_off =>
      refine ((turnOff_safe hknown fun s hs id hid => absurd hid.symm (Option.some_ne_none id)).pre ?_).weaken ?_ ?_
      · exact fun s hs => ⟨⟨hs.1.1, hs.2⟩, hs.1.2⟩
      · exact fun done s hs => ⟨⟨hs.1.1.1, hs.1.2⟩, hs.2.1, fun _ hinput => by cases hinput⟩
      · exact fun s hs => ⟨hs.1.1, hs.2⟩
  · rintro done s hs ⟨hoff, hrefused⟩
    refine ⟨hoff.inv (hA.inv s hs), fun credentialId hinput hentered => ?_⟩
    rcases hrefused credentialId hinput hentered with hheld | ⟨hid, d, hd, hreason, hnames⟩
    · exact hheld.commit _
    · exact ⟨hid, .inl (credentialHold_isSome.2 ⟨d, hd, by simp [hreason, CREDENTIAL_DISABLES], hnames⟩)⟩

/-- While the row is locked no hold is recorded, and a credential stored meanwhile is named by none. -/
theorem Rely.unheld (h : Rely party s s') (hinv : Inv s) (hholder : s.holder = some party) :
    s'.latest = s.latest ∧ (s'.Held ↔ s.Held) ∨ ¬ s'.Held := by
  have hdisables := (h.held hholder).2.2
  rcases h.latest with hsame | ⟨newer, hnewer, hfresh⟩
  · refine .inl ⟨hsame, ?_⟩
    simp only [Rows.Held, credentialHold_isSome, hdisables, hsame]
  · refine .inr fun hheld => ?_
    obtain ⟨d, hd, -, hnames⟩ := credentialHold_isSome.1 hheld
    exact hfresh (hinv.named d (hdisables ▸ hd) newer (hnames.trans hnewer))

/-- An enabled connection's current credential is not held, whoever turned it on. -/
theorem enableConnection_safe : Safe party Inv Inv (enableConnection party) fun _ => Inv := by
  have hdone : Safe party Inv Inv (enableConnection party) fun _ s => Inv s ∧ True := by
    refine underLock_safe (M := fun done s => done.2.disables = [] ∧
      (done.2.enabled = none ∨ done.2.enabled = some true ∧ ¬ s.Held)) transacts_inv (fun _ => Stable.const)
      (fun enabled => ?_) ?_
    · have hlocked : Kept party fun s => Inv s ∧ s.holder = some party :=
        kept_inv.and fun s s' hs h => (h.held hs).1
      -- read once, the latest is current until a credential that is not held is
      have hread : ∀ latest, Kept party fun s => (Inv s ∧ s.holder = some party) ∧ (s.latest = latest ∨ ¬ s.Held) := by
        refine fun latest => ⟨fun s s' hs h => ⟨hlocked.stable s s' hs.1 h, ?_⟩, fun s hs => hs.1.1⟩
        rcases h.unheld hs.1.1 hs.1.2 with ⟨hsame, hheld⟩ | hfree
        · exact hs.2.imp hsame.trans hheld.not.2
        · exact .inr hfree
      have hfree : Kept party fun s => (Inv s ∧ s.holder = some party) ∧ ¬ s.Held := by
        refine ⟨fun s s' hs h => ⟨hlocked.stable s s' hs.1 h, ?_⟩, fun s hs => hs.1.1⟩
        rcases h.unheld hs.1.1 hs.1.2 with ⟨-, hheld⟩ | hfree
        · exact hheld.not.2 hs.2
        · exact hfree
      cases enabled with
      | true => exact Meets.pure fun s hs => ⟨⟨hs.1, hs.2.1⟩, rfl, .inl rfl⟩
      | false =>
        refine Safe.bind (M := fun latest s => (Inv s ∧ s.holder = some party) ∧ (s.latest = latest ∨ ¬ s.Held)) ?_
          fun latest => ?_
        · refine Meets.attempt ?_ (Stable.ends (fun latest => (hread latest).stable) hlocked.stable) ?_
          · rintro s r s' hs ⟨rfl, -⟩
            exact Guarantee.refl hs.1
          · rintro s r s' hs ⟨rfl, hr⟩
            cases r with
            | ok latest => exact ⟨⟨hs.1, hs.2.1⟩, .inl (hr latest rfl).symm⟩
            | error e => exact ⟨hs.1, hs.2.1⟩
        refine Safe.bind (M := fun held s => (Inv s ∧ s.holder = some party) ∧ (held = none → ¬ s.Held)) ?_
          fun held => ?_
        · refine Meets.attempt ?_ (Stable.ends (fun held s s' hs h => ⟨hlocked.stable s s' hs.1 h, fun hnone => ?_⟩)
            hlocked.stable) ?_
          · rintro s r s' hs ⟨rfl, -⟩
            exact Guarantee.refl hs.1.1
          · exact (hfree.stable s s' ⟨hs.1, hs.2 hnone⟩ h).2
          · rintro s r s' hs ⟨rfl, hr⟩
            cases r with
            | ok held =>
              refine ⟨hs.1, fun hnone => hs.2.elim (fun hlatest => ?_) id⟩
              have hnone' : s'.credentialHold latest CREDENTIAL_DISABLES = none := (hr held rfl).symm.trans hnone
              rw [Rows.Held, hlatest, hnone']
              exact Bool.noConfusion
            | error e => exact hs.1
        cases held with
        | some reason => exact Meets.throw fun s hs => hs.1
        | none =>
          refine Safe.bind (M := fun _ s => (Inv s ∧ s.holder = some party) ∧ ¬ s.Held) ?_ fun _ => ?_
          · exact ((elsewhere_safe hfree).pre fun s hs => ⟨hs.1, hs.2 rfl⟩).weaken (fun _ _ hs => hs) fun s hs => hs.1
          · exact Meets.pure fun s hs => ⟨hs.1, rfl, .inr ⟨rfl, hs.2⟩⟩
    · rintro ⟨answer, writes⟩ s hs ⟨hnone, hwhich⟩
      dsimp only at hnone hwhich
      have hheld : (s.commit writes).Held ↔ s.Held := by
        simp only [Rows.Held, credentialHold_isSome, Rows.commit, hnone, List.append_nil]
        rfl
      refine ⟨⟨fun d hd => ?_, fun henabled => ?_, fun run hrefused id hsent => ?_, hs.spared, hs.told⟩, trivial⟩
      · exact hs.named d (by simpa [Rows.commit, hnone] using hd)
      · rw [hheld]
        rcases hwhich with hsame | ⟨-, hfree⟩
        · exact hs.off (by simpa [Rows.commit, hsame] using henabled)
        · exact hfree
      · exact (hs.refused run hrefused id hsent).commit writes
  exact hdone.weaken (fun _ _ hs => hs.1) fun _ hs => hs

theorem sealAndStoreCredential_safe : Safe party Inv Inv (sealAndStoreCredential party) fun _ => Inv := by
  have hsame : ∀ {s : Rows ι} (nextSeq : Nat) (sharers : Set ι), Inv s →
      Guarantee party s { s with nextSeq := nextSeq, sharers := sharers } :=
    fun _ _ hs => Guarantee.of_same hs rfl rfl rfl rfl fun _ _ => id
  refine Safe.bind (elsewhere_safe kept_inv) fun _ => Safe.bind (elsewhere_safe kept_inv) fun _ => ?_
  refine Safe.bind (M := fun _ => Inv) (attempt_safe kept_inv ?_) fun row =>
    Safe.bind (M := fun _ => Inv) (attempt_safe kept_inv ?_) fun _ => Safe.bind (M := fun _ => Inv) ?_ fun _ =>
    attempt_safe kept_inv ?_
  · rintro s r s' hs (⟨row, -, -, rfl⟩ | ⟨-, rfl⟩)
    · exact ⟨hsame _ _ hs, (hsame _ _ hs).inv⟩
    · exact ⟨Guarantee.refl hs, hs⟩
  · rintro s r s' hs (⟨-, -, rfl⟩ | ⟨-, rfl⟩)
    · exact ⟨hsame _ _ hs, (hsame _ _ hs).inv⟩
    · exact ⟨Guarantee.refl hs, hs⟩
  · refine Meets.recover (elsewhere_safe kept_inv) (fun _ _ hs => hs) fun e => ?_
    refine Safe.bind (M := fun _ => Inv) (Meets.atomic ?_ (fun _ => stable_inv) ?_) fun _ => Meets.throw fun s hs => hs
    · rintro s _ s' hs rfl
      exact hsame _ _ hs
    · rintro s _ s' hs rfl
      exact (hsame _ _ hs).inv
  · rintro s r s' hs (⟨hfresh, rfl⟩ | ⟨-, rfl⟩)
    · exact ⟨Guarantee.credential hs hfresh _, hs.credential hfresh _⟩
    · exact ⟨hsame _ _ hs, (hsame _ _ hs).inv⟩

end

/-! ## What a read knows -/

/-- The run was not refused and fetched no result, and every credential it sent was entered. -/
def Own (run : ι) (s : Rows ι) : Prop :=
  Inv s ∧ ¬ Refused run s.log ∧ (∀ credentialId, .sent run credentialId ∈ s.log → credentialId ∈ s.ids) ∧
    ∀ ended, .fetched run ended ∉ s.log

/-- The credential was entered, and whatever else the run sent is no longer current. -/
def Covers (run : ι) (credentialId : Nat) (s : Rows ι) : Prop :=
  credentialId ∈ s.ids ∧ ∀ sent, .sent run sent ∈ s.log → sent ∈ s.ids ∧ (sent = credentialId ∨ s.latest ≠ some sent)

/-- What a run was refused with before this one began is not current. -/
def Spares (run : ι) (s : Rows ι) : Prop :=
  ∀ credentialId, Doomed run credentialId s.log → credentialId ∈ s.ids ∧ s.latest ≠ some credentialId

theorem Rely.doomed (h : Rely party s s') {credentialId : Nat} (hs : Doomed party credentialId s'.log) :
    Doomed party credentialId s.log := by
  obtain ⟨other, row, hrow, hsub, hsent⟩ := hs
  obtain ⟨new, hnew, hothers⟩ := h.log
  rw [hnew] at hsub
  have hbegan : (.began party : Event ι) ∉ new := fun hmem => hothers _ hmem rfl
  have hsub' : [.ended other row, .began party] <+ s.log :=
    sublist_of_append ([.ended other row] : List (Event ι)) hbegan hsub
  exact ⟨other, row, hrow, hsub', h.done other ⟨row, hrow, mem_of_ended_began hsub'⟩ credentialId hsent⟩

theorem kept_own : Kept party (Own party) := by
  refine ⟨fun s s' hs h => ⟨h.inv, fun hrefused => hs.2.1 ?_, fun id hsent => ?_, fun ended hmem => ?_⟩, fun s hs => hs.1⟩
  · obtain ⟨row, hrow, hmem⟩ := hrefused
    exact ⟨row, hrow, (h.own rfl).1 hmem⟩
  · exact h.ids _ (hs.2.2.1 id ((h.own rfl).1 hsent))
  · exact hs.2.2.2 ended ((h.own rfl).1 hmem)

/-- What a run fetched last, the others leave. -/
theorem stable_lastFetched (ended : PortalWorkerRunEnd) : Stable (Rely party) fun s => LastFetched party ended s.log := by
  intro s s' hs h
  obtain ⟨new, hnew, hothers⟩ := h.log
  rw [hnew]
  exact (lastFetched_append fun ended' hmem => hothers _ hmem rfl).2 hs

theorem stable_logged {e : Event ι} : Stable (Rely party) fun s => e ∈ s.log := by
  intro s s' hs h
  obtain ⟨new, hnew, -⟩ := h.log
  rw [hnew]
  exact List.mem_append_left _ hs

theorem stable_covers (credentialId : Nat) : Stable (Rely party) (Covers party credentialId) := by
  refine fun s s' hs h => ⟨h.ids _ hs.1, fun sent hsent => ?_⟩
  obtain ⟨hid, hold⟩ := hs.2 sent ((h.own rfl).1 hsent)
  exact ⟨h.ids _ hid, hold.imp id fun hne => superseded_stays h.latest hid hne⟩

theorem stable_spares : Stable (Rely party) (Spares party) := by
  intro s s' hs h id hdoomed
  obtain ⟨hid, hne⟩ := hs id (h.doomed hdoomed)
  exact ⟨h.ids _ hid, superseded_stays h.latest hid hne⟩

theorem stable_undoomed (credentialId : Nat) : Stable (Rely party) fun s => ¬ Doomed party credentialId s.log :=
  fun _ _ hs h hdoomed => hs (h.doomed hdoomed)

/-- An enabled connection's current credential is none that a run was refused with. -/
theorem Inv.spares (h : Inv s) (henabled : s.enabled = true) (run : ι) : Spares run s := by
  rintro id ⟨other, row, hrow, hsub, hsent⟩
  obtain ⟨hid, hoff⟩ := h.refused other ⟨row, hrow, mem_of_ended_began hsub⟩ id hsent
  refine ⟨hid, fun hlatest => hoff.elim (fun hheld => h.off henabled ?_) fun hne => hne hlatest⟩
  rwa [Rows.Held, hlatest]

/-- The latest covers what the run sent before. -/
theorem Own.covers (h : Own party s) {credentialId : Nat} (hlatest : s.latest = some credentialId) :
    Covers party credentialId s := by
  refine ⟨latest_mem hlatest, fun sent hsent => ⟨h.2.2.1 sent hsent, ?_⟩⟩
  rw [hlatest]
  exact (em (sent = credentialId)).imp id fun hne heq => hne (Option.some_inj.1 heq).symm

/-! ## What it notes -/

/-- Noting an end that is no refusal, or that the run has begun. -/
theorem Own.note (h : Own party s) {e : Event ι} (he : e.run = party) (hsent : ∀ run id, e ≠ .sent run id)
    (hfetched : ∀ run ended, e ≠ .fetched run ended)
    (hrow : ∀ run (row : OutcomeRow), e = .ended run row → ¬ row.Rejected) :
    Guarantee party s (s.note e) ∧ Own party (s.note e) := by
  have hinv : Inv (s.note e) := by
    refine h.1.note hsent (fun run row heq hrejected => absurd hrejected (hrow run row heq)) ?_
    rintro run row rfl ⟨atStep, hlast⟩
    obtain rfl : run = party := he
    exact absurd hlast.mem (h.2.2.2 _)
  refine ⟨Guarantee.note hinv he fun id heq => absurd heq (hsent _ id), hinv, fun hrefused => h.2.1 ?_,
    fun id hmem => ?_, fun ended hmem => ?_⟩
  · exact hrefused.of_note fun row hrejected heq => hrow _ row heq hrejected
  · rcases List.mem_append.1 hmem with hmem | hmem
    · exact h.2.2.1 id hmem
    · exact absurd (List.mem_singleton.1 hmem).symm (hsent _ id)
  · rcases List.mem_append.1 hmem with hmem | hmem
    · exact h.2.2.2 ended hmem
    · exact hfetched party ended (List.mem_singleton.1 hmem).symm

theorem Covers.note {credentialId : Nat} (h : Covers party credentialId s) {e : Event ι}
    (hsent : ∀ run id, e ≠ .sent run id) : Covers party credentialId (s.note e) := by
  refine ⟨h.1, fun sent hmem => ?_⟩
  rcases List.mem_append.1 hmem with hmem | hmem
  · exact h.2 sent hmem
  · exact absurd (List.mem_singleton.1 hmem).symm (hsent _ sent)

section
variable {α : Type} {A : Rows ι → Prop}

/-- The row is there once it is answered. -/
theorem recordRunEnd_safe {row : OutcomeRow} (hA : Kept party A)
    (hnote : ∀ s, A s → Inv (s.note (.ended party row)) ∧ A (s.note (.ended party row))) :
    Safe party A A (recordRunEnd party row) fun _ s => A s ∧ .ended party row ∈ s.log := by
  have hnoted : ∀ s, A s → Guarantee party s (s.note (.ended party row)) := fun s hs =>
    Guarantee.note (hnote s hs).1 rfl fun id heq => by cases heq
  refine Meets.attempt ?_ (Stable.ends (fun _ => hA.stable.and stable_logged) hA.stable) ?_
  · rintro s r s' hs (⟨-, rfl⟩ | ⟨-, -, rfl⟩ | ⟨-, rfl⟩)
    · exact hnoted s hs
    · exact Guarantee.refl (hA.inv _ hs)
    · exact Guarantee.refl (hA.inv _ hs)
  · rintro s r s' hs (⟨-, rfl⟩ | ⟨rfl, hmem, rfl⟩ | ⟨⟨e, rfl⟩, rfl⟩)
    · cases r with
      | ok _ => exact ⟨(hnote s hs).2, List.mem_append_right _ (List.mem_singleton_self _)⟩
      | error e => exact (hnote s hs).2
    · exact ⟨hs, hmem⟩
    · exact hs

theorem endBeforeWorker_safe {ended : PortalJobRunEnd} {writeStart : Bool}
    (hended : ended ≠ .needs_attention (.worker .credential_rejected)) :
    Safe party (Own party) (Own party) (endBeforeWorker party ended writeStart) fun _ => Own party := by
  have hend : Safe party (Own party) (Own party) (recordRunEnd party ⟨ended, none, NO_COUNTS, []⟩)
      fun _ => Own party := by
    refine (recordRunEnd_safe kept_own fun s hs => ?_).weaken (fun _ _ hs => hs.1) fun _ hs => hs
    have hkept := hs.note (e := .ended party ⟨ended, none, NO_COUNTS, []⟩) rfl (fun _ _ heq => by cases heq)
      (fun _ _ heq => by cases heq) (by
        rintro run row ⟨⟩
        exact hended)
    exact ⟨hkept.2.1, hkept.2⟩
  unfold endBeforeWorker
  cases writeStart with
  | true => exact Safe.bind (elsewhere_safe kept_own) fun _ => hend
  | false => exact hend

theorem permissionRefusal_safe {enabled : Bool} (hA : Kept party A) :
    Safe party A A (permissionRefusal enabled) fun refusal s => A s ∧ (refusal = none → enabled = true) ∧
      ∀ ended, refusal = some ended → ended ≠ .needs_attention (.worker .credential_rejected) := by
  have hrefusal : ∀ (c : PortalReadErrorClass) s, A s → A s ∧ (some (refused c) = none → enabled = true) ∧
      ∀ ended, some (refused c) = some ended → ended ≠ .needs_attention (.worker .credential_rejected) := by
    refine fun c s hs => ⟨hs, fun h => absurd h (Option.some_ne_none _), ?_⟩
    rintro ended ⟨⟩
    exact PortalJobRunEnd.noConfusion
  unfold permissionRefusal
  cases enabled with
  | false => exact Meets.pure (hrefusal _)
  | true =>
    refine Safe.bind (elsewhere_safe hA) fun mayWrite => ?_
    cases mayWrite with
    | false => exact Meets.pure (hrefusal _)
    | true =>
      refine Safe.bind (elsewhere_safe hA) fun owner => ?_
      cases owner with
      | false => exact Meets.pure (hrefusal _)
      | true =>
        refine Meets.pure fun s hs => ⟨hs, fun _ => rfl, ?_⟩
        rintro ended ⟨⟩

/-- The credential to send is the latest when it is read. -/
theorem decideRun_safe {L : Nat → Rows ι → Prop} (hA : Kept party A) (hL : ∀ id, Stable (Rely party) (L id))
    (hlatest : ∀ s id, A s → s.latest = some id → L id s) :
    Safe party A A decideRun fun decided s => A s ∧ (∀ id, decided = .inr id → L id s) ∧
      ∀ ended, decided = .inl ended → ended ≠ .needs_attention (.worker .credential_rejected) := by
  have hstop : ∀ ended s, ended ≠ .needs_attention (.worker .credential_rejected) → A s →
      A s ∧ (∀ id, (.inl ended : PortalJobRunEnd ⊕ Nat) = .inr id → L id s) ∧
        ∀ e, (.inl ended : PortalJobRunEnd ⊕ Nat) = .inl e → e ≠ .needs_attention (.worker .credential_rejected) :=
    fun ended s hended hs => ⟨hs, fun _ heq => absurd heq Sum.inl_ne_inr, fun e heq => Sum.inl_injective heq ▸ hended⟩
  unfold decideRun
  refine Safe.bind (elsewhere_safe hA) fun rejected => ?_
  cases rejected with
  | true => exact Meets.pure fun s hs => hstop _ s PortalJobRunEnd.noConfusion hs
  | false =>
    refine Safe.bind (elsewhere_safe hA) fun stopped => ?_
    cases stopped with
    | true => exact Meets.pure fun s hs => hstop _ s PortalJobRunEnd.noConfusion hs
    | false =>
      refine Safe.bind (elsewhere_safe hA) fun missing => ?_
      cases missing with
      | true => exact Meets.pure fun s hs => hstop _ s PortalJobRunEnd.noConfusion hs
      | false =>
        refine Safe.bind (read_safe (P := fun latest s => ∀ id, latest = some id → L id s) hA ?_ ?_) fun latest => ?_
        · exact fun latest s s' hs h id heq => hL id s s' (hs id heq) h
        · exact fun s hs id heq => hlatest s id hs heq
        cases latest with
        | none => exact Meets.pure fun s hs => hstop _ s PortalJobRunEnd.noConfusion hs.1
        | some id =>
          have hkept : Kept party fun s => A s ∧ L id s := hA.and (hL id)
          refine Safe.bind (M := fun _ s => A s ∧ L id s) ?_ fun mismatch => ?_
          · exact ((elsewhere_safe hkept).pre fun s hs => ⟨hs.1, hs.2 id rfl⟩).weaken (fun _ _ hs => hs) fun s hs => hs.1
          cases mismatch with
          | true => exact Meets.pure fun s hs => hstop _ s (by decide) hs.1
          | false =>
            refine Meets.pure fun s hs => ⟨hs.1, fun id' heq => Sum.inr_injective heq ▸ hs.2, fun e heq => ?_⟩
            exact absurd heq Sum.inr_ne_inl

theorem prepareRun_safe : Safe party (Own party) (Own party) (prepareRun party) fun _ => Own party := by
  have hstop : ∀ ended, ended ≠ .needs_attention (.worker .credential_rejected) → Safe party (Own party) (Own party) (do
      endBeforeWorker party ended true
      return Prepared.ended) fun _ => Own party :=
    fun ended hended => Safe.bind (endBeforeWorker_safe hended) fun _ => Meets.pure fun s hs => hs
  have hvisible : Safe party (Own party) (Own party) visibleConnection fun _ => Own party :=
    (read_safe (P := fun _ _ => True) kept_own (fun _ => Stable.const) fun _ _ => trivial).weaken (fun _ _ hs => hs.1)
      fun _ hs => hs
  refine Safe.bind hvisible fun enabled => Safe.bind (permissionRefusal_safe kept_own) fun refusal => ?_
  cases refusal with
  | some ended => exact (Meets.assume (hstop ended)).mono fun s hs => ⟨hs.1, hs.2.2 ended rfl⟩
  | none =>
    refine Safe.bind ((elsewhere_safe kept_own).pre fun s hs => hs.1) fun found => ?_
    cases found with
    | none => exact hstop _ PortalJobRunEnd.noConfusion
    | some maxRunMs =>
      refine Safe.bind (decideRun_safe (L := fun _ _ => True) kept_own (fun _ => Stable.const) fun _ _ _ _ => trivial)
        fun decided => ?_
      cases decided with
      | inl ended => exact (Meets.assume (hstop ended)).mono fun s hs => ⟨hs.1, hs.2.2 ended rfl⟩
      | inr id =>
        exact Safe.bind ((elsewhere_safe kept_own).pre fun s hs => hs.1) fun _ => Meets.pure fun s hs => hs

/-- What the run goes on with. -/
def Begun (run : ι) : Started → Rows ι → Prop
  | .ended, _ => True
  | .started credentialId _, s => Covers run credentialId s

theorem stable_begun {started : Started} : Stable (Rely party) (Begun party started) := by
  cases started with
  | ended => exact Stable.const
  | started credentialId state => exact stable_covers credentialId

theorem onWorkerAlready_safe : Safe party (Own party) (Own party) onWorkerAlready fun found s =>
    Own party s ∧ ∀ started, found = some started → Begun party started s := by
  refine Safe.bind (elsewhere_safe kept_own) fun held => ?_
  cases held with
  | none =>
    refine Meets.pure fun s hs => ⟨hs, ?_⟩
    rintro started ⟨⟩
  | some state =>
    refine Safe.bind (read_safe (P := fun latest s => ∀ id, latest = some id → Covers party id s) kept_own ?_ ?_)
      fun latest => ?_
    · exact fun latest s s' hs h id heq => stable_covers id s s' (hs id heq) h
    · exact fun s hs id heq => hs.covers heq
    cases latest with
    | none => exact Meets.throw fun s hs => hs.1
    | some id =>
      refine Meets.pure fun s hs => ⟨hs.1, ?_⟩
      rintro started ⟨⟩
      exact hs.2 id rfl

theorem endUnlessStarted_safe {ended : PortalJobRunEnd}
    (hended : ended ≠ .needs_attention (.worker .credential_rejected)) :
    Safe party (Own party) (Own party) (endUnlessStarted party ended) fun started s =>
      Own party s ∧ Begun party started s := by
  refine Safe.bind onWorkerAlready_safe fun found => ?_
  cases found with
  | some started => exact Meets.pure fun s hs => ⟨hs.1, hs.2 started rfl⟩
  | none =>
    refine Safe.bind ((endBeforeWorker_safe hended).pre fun s hs => hs.1) fun _ => ?_
    exact Meets.pure fun s hs => ⟨hs, trivial⟩

/-- It sends what it was to send: entered, current when it was read, and refused to no run that ended before. -/
theorem sendToWorker_safe {credentialId : Nat} :
    Safe party (Own party) (fun s => Own party s ∧ ¬ Doomed party credentialId s.log ∧ Covers party credentialId s)
      (sendToWorker party credentialId) fun _ s => Own party s ∧ Covers party credentialId s := by
  have hsent : ∀ s, Own party s ∧ ¬ Doomed party credentialId s.log ∧ Covers party credentialId s →
      Guarantee party s (s.note (.sent party credentialId)) ∧ Own party (s.note (.sent party credentialId)) ∧
        Covers party credentialId (s.note (.sent party credentialId)) := by
    rintro s ⟨hs, hspared, hcovers⟩
    have hinv := hs.1.sent hs.2.1 hspared
    refine ⟨Guarantee.note hinv rfl fun _ _ => hs.2.1, ⟨hinv, fun hrefused => hs.2.1 ?_, fun id hmem => ?_,
      fun ended hmem => ?_⟩, hcovers.1, fun id hmem => ?_⟩
    · exact hrefused.of_note fun row _ heq => by cases heq
    · rcases List.mem_append.1 hmem with hmem | hmem
      · exact hs.2.2.1 id hmem
      · cases List.mem_singleton.1 hmem
        exact hcovers.1
    · rcases List.mem_append.1 hmem with hmem | hmem
      · exact hs.2.2.2 ended hmem
      · cases List.mem_singleton.1 hmem
    · rcases List.mem_append.1 hmem with hmem | hmem
      · exact hcovers.2 id hmem
      · cases List.mem_singleton.1 hmem
        exact ⟨hcovers.1, .inl rfl⟩
  refine Meets.attempt ?_ (Stable.ends (fun _ => kept_own.stable.and (stable_covers credentialId)) kept_own.stable) ?_
  · rintro s r s' hs (rfl | ⟨-, rfl⟩)
    · exact (hsent s hs).1
    · exact Guarantee.refl hs.1.1
  · rintro s r s' hs (rfl | ⟨⟨e, rfl⟩, rfl⟩)
    · cases r with
      | ok state => exact (hsent s hs).2
      | error e => exact (hsent s hs).2.1
    · exact hs.1

theorem startRun_safe : Safe party (Own party) (Own party) (startRun party) fun started s =>
    Own party s ∧ Begun party started s := by
  refine Safe.bind (M := fun enabled s => Own party s ∧ (enabled = true → Spares party s)) ?_ fun enabled => ?_
  · refine read_safe kept_own (fun enabled s s' hs h henabled => stable_spares s s' (hs henabled) h) ?_
    exact fun s hs henabled => hs.1.spares henabled party
  have hkept : Kept party fun s => Own party s ∧ (enabled = true → Spares party s) :=
    kept_own.and fun s s' hs h henabled => stable_spares s s' (hs henabled) h
  refine Safe.bind ((permissionRefusal_safe hkept).weaken (fun _ _ hs => hs) fun s hs => hs.1) fun refusal => ?_
  cases refusal with
  | some ended => exact (Meets.assume endUnlessStarted_safe).mono fun s hs => ⟨hs.1.1, hs.2.2 ended rfl⟩
  | none =>
    have hspares : Kept party fun s => Own party s ∧ Spares party s := kept_own.and stable_spares
    refine Safe.bind (M := fun _ s => Own party s ∧ Spares party s) ?_ fun _ => ?_
    · exact ((elsewhere_safe hspares).pre fun s hs => ⟨hs.1.1, hs.1.2 (hs.2.1 rfl)⟩).weaken (fun _ _ hs => hs)
        fun s hs => hs.1
    refine Safe.bind ((decideRun_safe (L := fun id s => ¬ Doomed party id s.log ∧ Covers party id s) hspares
      (fun id => (stable_undoomed id).and (stable_covers id)) ?_).weaken (fun _ _ hs => hs) fun s hs => hs.1)
      fun decided => ?_
    · exact fun s id hs hlatest => ⟨fun hdoomed => (hs.2 id hdoomed).2 hlatest, hs.1.covers hlatest⟩
    cases decided with
    | inl ended => exact (Meets.assume endUnlessStarted_safe).mono fun s hs => ⟨hs.1.1, hs.2.2 ended rfl⟩
    | inr id =>
      refine Safe.bind (sendToWorker_safe.mono fun s hs => ⟨hs.1.1, hs.2.1 id rfl⟩) fun state => ?_
      exact Meets.pure fun s hs => hs

/-! ## What follows -/

/-- What a run knows once it was sent, whatever its outcome is. -/
def Follows (run : ι) (credentialId : Nat) (s : Rows ι) : Prop := Inv s ∧ Covers run credentialId s

theorem transacts_follows (credentialId : Nat) : Transacts party (Follows party credentialId) where
  stable := stable_inv.and (stable_covers credentialId)
  inv _ hs := hs.1
  holder s holder hs := ⟨(@transacts_inv ι party).holder s holder hs.1, hs.2⟩
  commit _ _ hs hinv := ⟨hinv, hs.2⟩

/-- What a run knows once it has its result. -/
def Fetched (run : ι) (credentialId : Nat) (ended : PortalWorkerRunEnd) (s : Rows ι) : Prop :=
  Follows run credentialId s ∧ LastFetched run ended s.log

theorem transacts_fetched (credentialId : Nat) (ended : PortalWorkerRunEnd) :
    Transacts party (Fetched party credentialId ended) :=
  (transacts_follows credentialId).and_log (stable_lastFetched ended)

/-- The row says that the sign-in was refused where the result does. -/
def OutcomeRow.Of (row : OutcomeRow) (ended : PortalWorkerRunEnd) : Prop :=
  ∀ atStep, ended = .needs_attention .credential_rejected atStep → row.Rejected

/-- The outcome row of a refusal says so, and is written once what the run sent is held off. -/
theorem finishRun_safe {row : OutcomeRow} {credentialId : Nat} {ended : PortalWorkerRunEnd} (hrow : row.Of ended) :
    Safe party (Fetched party credentialId ended) (Fetched party credentialId ended) (finishRun party row credentialId)
      fun _ s => Fetched party credentialId ended s ∧ .ended party row ∈ s.log := by
  have hfetched : Transacts party (Fetched party credentialId ended) := transacts_fetched credentialId ended
  have hnoted : ∀ {s : Rows ι}, Fetched party credentialId ended s → Inv (s.note (.ended party row)) →
      Fetched party credentialId ended (s.note (.ended party row)) := by
    intro s hs hinv
    refine ⟨⟨hinv, hs.1.2.note fun _ _ heq => by cases heq⟩, ?_⟩
    exact (lastFetched_append fun ended' hmem => by cases List.mem_singleton.1 hmem).2 hs.2
  have htold : ∀ {s : Rows ι}, Fetched party credentialId ended s → ∀ run (row' : OutcomeRow),
      (.ended party row : Event ι) = .ended run row' → FetchedRefusal run s.log → row'.Rejected ∨ row'.Failure := by
    rintro s hs run row' ⟨⟩ ⟨atStep, hlast⟩
    exact .inl (hrow atStep (hs.2.unique hlast))
  unfold finishRun
  split
  · have hheld : Kept party fun s => Fetched party credentialId ended s ∧ s.HeldOff credentialId :=
      hfetched.toKept.and (stable_heldOff credentialId)
    refine Safe.bind (M := fun _ s => Fetched party credentialId ended s ∧ s.HeldOff credentialId) ?_ fun _ => ?_
    · refine (disableConnection_safe hfetched (.credential_rejected credentialId)).weaken ?_ fun _ hs => hs
      exact fun _ s hs => ⟨hs.1, hs.2 credentialId rfl fun s hs => hs.1.2.1⟩
    · refine (recordRunEnd_safe hheld fun s hs => ?_).weaken (fun _ _ hs => ⟨hs.1.1, hs.2⟩) fun _ hs => hs.1
      have hinv : Inv (s.note (.ended party row)) := by
        refine hs.1.1.1.note (fun _ _ heq => by cases heq) ?_ (htold hs.1)
        rintro run row' ⟨⟩ - sent hsent
        obtain ⟨hid, rfl | hne⟩ := hs.1.1.2.2 sent hsent
        · exact hs.2
        · exact ⟨hid, .inr hne⟩
      exact ⟨hinv, hnoted hs.1 hinv, hs.2⟩
  · rename_i hended
    refine recordRunEnd_safe hfetched.toKept fun s hs => ?_
    have hinv : Inv (s.note (.ended party row)) := by
      refine hs.1.1.note (fun _ _ heq => by cases heq) ?_ (htold hs)
      rintro run row' ⟨⟩ hrejected
      exact absurd hrejected hended
    exact ⟨hinv, hnoted hs hinv⟩

section
variable {α : Type} {A : Rows ι → Prop} {retries : Nat}

theorem elsewhere_step_safe {id : StepId} (hA : Kept party A) :
    Safe party A A (step retries id (elsewhere : Party ι α)) fun _ => A :=
  step_safe hA (fun _ => hA.stable) (fun _ _ hs => hs) (elsewhere_safe hA)

theorem awaitDone_safe (hA : Kept party A) (left poll : Nat) (state : RunState) :
    Safe party A A (awaitDone retries left poll state) fun _ => A := by
  induction left generalizing poll state with
  | zero =>
    cases state with
    | running => exact Meets.throw fun s hs => hs
    | done => exact Meets.pure fun s hs => hs
  | succ left ih =>
    cases state with
    | running => exact Safe.bind (elsewhere_step_safe hA) fun state => ih (poll + 1) state
    | done => exact Meets.pure fun s hs => hs

theorem requestReads_safe (hA : Kept party A) (captures : List CaptureOutcome) :
    Safe party A A (requestReads retries captures) fun _ => A := by
  unfold requestReads
  dsimp only
  split
  · exact elsewhere_step_safe hA
  · exact Meets.pure fun s hs => hs

theorem takeCaptures_safe (hA : Kept party A) (result : PortalJobRunResult) (summaries : List PortalJobCaptureSummary)
    (captures : List CaptureOutcome) :
    Safe party A A (summaries.foldlM (takeCapture retries result) captures) fun _ => A := by
  induction summaries generalizing captures with
  | nil => exact Meets.pure fun s hs => hs
  | cons summary summaries ih =>
    rw [List.foldlM_cons]
    refine Safe.bind (M := fun _ => A) ?_ fun captures => ih captures
    refine Safe.bind (during_safe (elsewhere_step_safe hA)) fun _ => ?_
    exact Safe.bind (during_safe (elsewhere_step_safe hA)) fun _ => Meets.pure fun s hs => hs

theorem fetchResult_safe {credentialId : Nat} :
    Safe party (Follows party credentialId) (Follows party credentialId) (fetchResult party)
      fun result => Fetched party credentialId result.ended := by
  have hnoted : ∀ {s : Rows ι}, Follows party credentialId s → ∀ ended,
      Inv (s.note (.fetched party ended)) ∧ Fetched party credentialId ended (s.note (.fetched party ended)) := by
    intro s hs ended
    have hinv : Inv (s.note (.fetched party ended)) :=
      hs.1.note (fun _ _ heq => by cases heq) (fun _ _ heq => by cases heq) fun _ _ heq => by cases heq
    exact ⟨hinv, ⟨hinv, hs.2.note fun _ _ heq => by cases heq⟩, lastFetched_fetched.2 rfl⟩
  refine Meets.attempt ?_ (Stable.ends (fun result => (transacts_fetched credentialId result.ended).stable)
    (transacts_follows credentialId).stable) ?_
  · rintro s r s' hs (⟨result, rfl, rfl⟩ | ⟨-, rfl⟩)
    · exact Guarantee.note (hnoted hs result.ended).1 rfl fun _ heq => by cases heq
    · exact Guarantee.refl hs.1
  · rintro s r s' hs (⟨result, rfl, rfl⟩ | ⟨⟨e, rfl⟩, rfl⟩)
    · exact (hnoted hs result.ended).2
    · exact hs

/-- The row of a refusal says so. -/
theorem endOf_of (result : PortalJobRunResult) (captures : List CaptureOutcome) (atStep : Option Text)
    (counts : PortalJobRunCounts) (steps : List PortalJobStepLogEntry) :
    OutcomeRow.Of ⟨(endOf result captures).1, atStep, counts, steps⟩ result.ended := by
  intro atStep' hended
  unfold OutcomeRow.Rejected endOf
  rw [hended]

/-- A job that ends well with a refusal has recorded it. -/
def RefusalRecorded (run : ι) (s : Rows ι) : Prop :=
  Inv s ∧ (FetchedRefusal run s.log → ∃ row : OutcomeRow, row.Rejected ∧ .ended run row ∈ s.log)

theorem Own.refusalRecorded {run : ι} (h : Own run s) : RefusalRecorded run s :=
  ⟨h.1, fun ⟨_, hlast⟩ => absurd hlast.mem (h.2.2.2 _)⟩

theorem followRun_safe (maxRunMs : Option ℚ) :
    Safe party Inv (Own party) (followRun retries party maxRunMs) fun _ => RefusalRecorded party := by
  have hown : ∀ s, Own party s → Inv s := fun s hs => hs.1
  have hbegan : Safe party (Own party) (Own party) (note (.began party) : Party ι Unit) fun _ => Own party := by
    have hnote : ∀ s, Own party s → Guarantee party s (s.note (.began party)) ∧ Own party (s.note (.began party)) :=
      fun s hs => hs.note rfl (fun _ _ heq => by cases heq) (fun _ _ heq => by cases heq) fun _ _ heq => by cases heq
    refine Meets.atomic ?_ (fun _ => kept_own.stable) ?_
    · rintro s _ s' hs rfl
      exact (hnote s hs).1
    · rintro s _ s' hs rfl
      exact (hnote s hs).2
  refine Safe.bind ((during_safe hbegan).weaken (fun _ _ hs => hs) hown) fun _ => ?_
  have hstart : Safe party (Own party) (Own party) (step retries .start (startRun party)) fun started s =>
      Own party s ∧ Begun party started s :=
    step_safe kept_own (fun _ => kept_own.stable.and stable_begun) (fun _ _ hs => hs.1) startRun_safe
  refine Safe.bind ((during_safe hstart).weaken (fun _ _ hs => hs) hown) fun started => ?_
  cases started with
  | ended => exact Meets.pure fun s hs => hs.1.refusalRecorded
  | started credentialId state =>
    have hfollows : Kept party (Follows party credentialId) := (transacts_follows credentialId).toKept
    refine (Safe.weaken (E := Follows party credentialId) ?_ (fun _ _ hs => hs) fun s hs => hs.1 :
      Safe party Inv (Follows party credentialId) _ _).mono fun s hs => ⟨hs.1.1, hs.2⟩
    refine Safe.bind (during_safe (awaitDone_safe hfollows _ _ _)) fun _ => ?_
    have hresult : Safe party (Follows party credentialId) (Follows party credentialId)
        (step retries .result (fetchResult party)) fun result => Fetched party credentialId result.ended :=
      step_safe hfollows (fun result => (transacts_fetched credentialId result.ended).stable) (fun _ _ hs => hs.1)
        fetchResult_safe
    refine Safe.bind (during_safe hresult) fun result => ?_
    have hfetched : Kept party (Fetched party credentialId result.ended) :=
      (transacts_fetched credentialId result.ended).toKept
    have hrest : Safe party (Follows party credentialId) (Fetched party credentialId result.ended) (do
        let captures ← result.captures.foldlM (takeCapture retries result) []
        let row : OutcomeRow := ⟨(endOf result captures).1, (endOf result captures).2,
          countsOf (some result) captures, result.steps⟩
        during ⟨some result, captures, false⟩ (step retries .finish (finishRun party row credentialId))
        during ⟨some result, captures, true⟩ (requestReads retries captures)) fun _ => RefusalRecorded party := by
      refine Safe.bind ((takeCaptures_safe hfetched result _ _).weaken (fun _ _ hs => hs) fun _ hs => hs.1)
        fun captures => ?_
      have hrow := endOf_of result captures (endOf result captures).2 (countsOf (some result) captures) result.steps
      generalize (⟨(endOf result captures).1, (endOf result captures).2, countsOf (some result) captures,
        result.steps⟩ : OutcomeRow) = row at hrow
      have hended : Kept party fun s => Fetched party credentialId result.ended s ∧ .ended party row ∈ s.log :=
        hfetched.and stable_logged
      refine Safe.bind ((during_safe (step_safe hfetched (fun _ => hended.stable) (fun _ _ hs => hs.1)
        (finishRun_safe hrow))).weaken (fun _ _ hs => hs) fun _ hs => hs.1) fun _ => ?_
      refine (during_safe (requestReads_safe hended captures)).weaken (fun _ s hs => ⟨hs.1.1.1, ?_⟩) fun _ hs => hs.1.1
      rintro ⟨atStep, hlast⟩
      exact ⟨row, hrow atStep (hs.1.2.unique hlast), hs.2⟩
    dsimp only
    split
    · exact Meets.bind (Q := fun _ => Fetched party credentialId result.ended) (Meets.throw fun s hs => hs)
        (fun _ => hrest) fun _ _ hs => hs.1
    · exact hrest

/-- The row of a failure says so, and no more. -/
theorem recordFailure_safe (stopped : PortalError × Progress) :
    Safe party Inv Inv (recordFailure retries party stopped) fun _ => RefusalRecorded party := by
  have hrecord (row : OutcomeRow) (hrow : row.Failure) :
      Safe party Inv Inv (step retries .recordFailure (recordRunEnd party row)) fun _ => Inv := by
    refine step_safe kept_inv (fun _ => stable_inv) (fun _ _ hs => hs)
      ((recordRunEnd_safe kept_inv fun s hs => ?_).weaken (fun _ _ hs => hs.1) fun _ hs => hs)
    have hinv : Inv (s.note (.ended party row)) := by
      refine hs.note (fun _ _ heq => by cases heq) ?_ ?_
      · rintro run row' ⟨⟩ hrejected
        obtain ⟨error, hended⟩ := hrow
        exact PortalJobRunEnd.noConfusion (hended.symm.trans hrejected)
      · rintro run row' ⟨⟩ -
        exact .inr hrow
    exact ⟨hinv, hinv⟩
  have hrest : Safe party Inv Inv (do
      step retries .recordFailure (recordRunEnd party
        { ended := .error (errorClassOf stopped.1), atStep := none,
          counts := countsOf stopped.2.result stopped.2.captures,
          stepLog := (stopped.2.result.map (·.steps)).getD [] })
      requestReads retries stopped.2.captures
      throw stopped.1 : Party ι Unit) fun _ => RefusalRecorded party := by
    refine Safe.bind (hrecord _ ⟨stopped.1, rfl⟩) fun _ => ?_
    exact Safe.bind (requestReads_safe kept_inv _) fun _ => Meets.throw fun s hs => hs
  unfold recordFailure
  split
  · exact Meets.bind (Q := fun _ => Inv) (Meets.throw fun s hs => hs) (fun _ => hrest) fun _ _ hs => hs
  · exact hrest

theorem readPortalJob_safe (input : PortalReadJobInput) :
    Safe party Inv (Own party) (readPortalJob retries party input) fun _ => RefusalRecorded party := by
  have hown : ∀ s, Own party s → Inv s := fun s hs => hs.1
  refine Safe.bind (M := fun _ => Own party) ?_ fun _ => ?_
  · intro s hs
    cases assertInput input with
    | ok u => exact hs
    | error e => exact hs.1
  refine Safe.bind ((elsewhere_step_safe kept_own).weaken (fun _ _ hs => hs) hown) fun _ => ?_
  have hprepare : Safe party (Own party) (Own party) (step retries .prepare (prepareRun party)) fun _ => Own party :=
    step_safe kept_own (fun _ => kept_own.stable) (fun _ _ hs => hs) prepareRun_safe
  refine Safe.bind (hprepare.weaken (fun _ _ hs => hs) hown) fun prepared => ?_
  cases prepared with
  | ended => exact Meets.pure fun s hs => hs.refusalRecorded
  | ready maxRunMs =>
    exact Meets.recover (followRun_safe maxRunMs) (fun _ _ hs => hs) fun stopped => recordFailure_safe stopped

end

end

end

/-! ## Every interleaving -/

theorem inv_created : Inv (created : Rows ι) where
  named _ hd := absurd hd List.not_mem_nil
  off _ hheld := by
    obtain ⟨d, hd, -⟩ := credentialHold_isSome.1 hheld
    exact absurd hd List.not_mem_nil
  refused _ h := by
    obtain ⟨row, -, hmem⟩ := h
    exact absurd hmem List.not_mem_nil
  spared _ _ _ _ _ hsent := absurd hsent List.not_mem_nil
  told _ _ _ _ hlog := absurd hlog (by simp [created])

theorem own_created (party : ι) : Own party (created : Rows ι) := by
  refine ⟨inv_created, fun hrefused => ?_, fun _ hsent => absurd hsent List.not_mem_nil, fun _ => List.not_mem_nil⟩
  obtain ⟨row, -, hmem⟩ := hrefused
  exact absurd hmem List.not_mem_nil

/-- What an errand ends well with. -/
def Errand.Done (party : ι) : Errand → Rows ι → Prop
  | .read _ => RefusalRecorded party
  | _ => Inv

theorem errand_safe (retries : Nat) (party : ι) (errand : Errand) :
    Safe party Inv (Own party) (errand.thread retries party) fun _ => errand.Done party := by
  have hinv : ∀ s, Own party s → Inv s := fun s hs => hs.1
  cases errand with
  | read input => exact readPortalJob_safe input
  | enterCredential => exact sealAndStoreCredential_safe.mono hinv
  | disable input =>
    exact (Safe.bind (P := fun _ => Inv) (disableConnection_safe transacts_inv input)
      fun _ => Meets.pure fun s hs => hs.1).mono hinv
  | enable =>
    exact (Safe.bind (P := fun _ => Inv) enableConnection_safe fun _ => Meets.pure fun s hs => hs).mono hinv

variable [DecidableEq ι] {retries : Nat} {errands : ι → Errand} {c : Config ι (Rows ι) PortalError Unit}

theorem sound_of_reaches (h : (start retries errands).Reaches c) :
    c.Sound Rely Guarantee (fun party => Ends (fun _ => (errands party).Done party) Inv) ∧ Inv c.shared := by
  have hstart : (start retries errands : Config ι (Rows ι) PortalError Unit).Sound Rely Guarantee
      fun party => Ends (fun _ => (errands party).Done party) Inv :=
    fun party => ⟨Own party, kept_own.stable, own_created party, errand_safe retries party (errands party)⟩
  exact Config.sound_of_reaches (fun _ _ hne _ _ hG => hG.others _ hne) (fun _ _ _ hG _ => hG.inv) hstart
    inv_created h

end

/-! ## Three parties -/

/-- An owner enters a credential, and two reads are asked for. -/
def errands : Fin 3 → Errand :=
  ![.enterCredential, .read ⟨['c'], ['o'], ['u'], false, none⟩, .read ⟨['c'], ['o'], ['u'], false, none⟩]

/-- The threads once the credential was entered. -/
def threads : Fin 3 → Party (Fin 3) Unit :=
  Function.update (start 3 errands).threads 0 (.done (.ok ()))

end Recouple.PortalConnection
