import Recouple.Qbo.PostingJob

/-!
# What is so of the posted rows

`Legal` says what may happen after what has happened, `Inv` adds what the rows say of it. A run that has a row's place
alone changes the row while it is pending (`Rely`, `Guarantee`), so the row it read stays what it was until it records
its attempt (`stable_holding`), and a void, which needs a failed entry and no success, cannot come between its reading
and its request. Each step keeps the invariant: an event of a run (`Inv.note`), its place (`Inv.acquire`,
`Inv.release`), its attempt (`Inv.record`), and a person's insertion, retry and void.
-/

namespace Recouple.Qbo.PostingJob
open Js Journal Thread

section
variable {ι : Type}

/-! ## The log -/

/-- A run recorded an attempt that may have sent something. -/
def Told (log : List (Event ι)) (run : ι) (id : Text) : Prop :=
  ∃ attempt, .recorded run attempt ∈ log ∧ attempt.writebackId = id ∧ isNothingSentReason attempt.reason = false

/-- A run ended and recorded nothing. -/
def Cut (log : List (Event ι)) (run : ι) : Prop := .ended run ∈ log ∧ ∀ attempt, .recorded run attempt ∉ log

/-- No attempt of the row was a success. -/
def Unposted (log : List (Event ι)) (id : Text) : Prop :=
  ∀ run attempt, .recorded run attempt ∈ log → attempt.writebackId = id → attempt.status ≠ .succeeded

/-- A row that may be sent. -/
structure Sendable (row : PostingWriteback) : Prop where
  pending : row.status = .pending
  enabled : row.postingEnabled = true
  voided : row.voided = false
  entry : row.method = .payment_application → row.journalEntryId.isSome = true

section
variable (T : CaseTables) (parses : Text → Bool) (operations : ι → Operation)

/-- The posting of a row, with the row's own lines. -/
def BuiltFrom (row : PostingWriteback) (posting : Posting) : Prop :=
  ∃ invoiceId customerId, row.invoiceId = some invoiceId ∧ buildPosting T parses row invoiceId customerId = .ok posting ∧
    linesKept posting row.lines = true

/-- What a request needs of what a run has done. -/
structure MaySend (log : List (Event ι)) (run : ι) (id : Text) (posting : Posting) : Prop where
  once : ∀ id' posting', .sent run id' posting' ∉ log
  unrecorded : ∀ attempt, .recorded run attempt ∉ log
  asked : ∀ postingAllowed, operations run = .post postingAllowed id true →
    ∃ reference, postingReference T id = .ok reference ∧ .found run reference [] ∈ log
  row : ∃ row, .read run row ∈ log ∧ row.writebackId = id ∧ Sendable row ∧ BuiltFrom T parses row posting

/-- What an attempt needs of what a run has done. -/
structure MayRecord (log : List (Event ι)) (run : ι) (attempt : PostingAttempt) : Prop where
  once : ∀ attempt', .recorded run attempt' ∉ log
  running : .ended run ∉ log
  honest : isNothingSentReason attempt.reason = true → ∀ id posting, .sent run id posting ∉ log
  verified : attempt.status = .succeeded → ∃ row posting got id, .read run row ∈ log ∧
    row.writebackId = attempt.writebackId ∧ BuiltFrom T parses row posting ∧ attempt.qboTxnId = some id ∧
    verifyReadBack T posting got = .ok .agreed ∧
    (.sent run attempt.writebackId posting ∈ log ∧ .got run id got ∈ log ∨
      idOf got = some id ∧ ∃ reference, postingReference T attempt.writebackId = .ok reference ∧
        .found run reference [got] ∈ log)

/-- What may happen after what has happened. -/
def Allowed (before : List (Event ι)) : Event ι → Prop
  | .sent run id posting => MaySend T parses operations before run id posting ∧ Unposted before id ∧
      ∀ row, .read run row ∈ before → .voided row.decisionId ∉ before
  | .recorded run attempt => MayRecord T parses before run attempt ∧ Unposted before attempt.writebackId
  | .voided decisionId => ∀ run row posting, .read run row ∈ before → row.decisionId = decisionId →
      .sent run row.writebackId posting ∈ before → Cut before run
  | _ => True

/-- Every event was allowed after those before it. -/
def Legal (log : List (Event ι)) : Prop :=
  ∀ before e after, log = before ++ e :: after → Allowed T parses operations before e

variable {T parses operations}

theorem Legal.append {log : List (Event ι)} {e : Event ι} (h : Legal T parses operations log)
    (he : Allowed T parses operations log e) : Legal T parses operations (log ++ [e]) := by
  intro before e' after heq
  rcases List.eq_nil_or_concat after with rfl | ⟨after, last, rfl⟩
  · obtain ⟨rfl, hlast⟩ := List.append_inj' heq rfl
    obtain rfl := List.singleton_inj.1 hlast
    exact he
  · rw [List.concat_eq_append, ← List.cons_append, ← List.append_assoc] at heq
    exact h before e' after (List.append_inj' heq rfl).1

end

/-! ## The invariant -/

/-- An entry, or a payment whose entry is posted. -/
def EntryKnown (s : Books ι) (w : Writeback) : Prop :=
  w.method = .journal_entry ∨ ∃ e ∈ s.writebacks, e.decisionId = w.decisionId ∧ e.status = .succeeded

/-- A run is between its request and its attempt. -/
def Midway (s : Books ι) (run : ι) (id : Text) : Prop :=
  s.running id = some run ∧ (∃ w ∈ s.writebacks, w.id = id ∧ w.status = .pending) ∧ ∀ attempt, .recorded run attempt ∉ s.log

/-- What the rows say of an event. -/
def Holds (s : Books ι) : Event ι → Prop
  | .read _ row => ∃ w ∈ s.writebacks, w.id = row.writebackId ∧ w.decisionId = row.decisionId
  | .sent run id _ => (∃ w ∈ s.writebacks, w.id = id ∧ EntryKnown s w) ∧
      (Told s.log run id ∨ Cut s.log run ∨ Midway s run id)
  | .recorded _ attempt => (attempt.writebackId, attempt.reason) ∈ s.attempts ∧
      (attempt.status = .succeeded → ∃ w ∈ s.writebacks, w.id = attempt.writebackId ∧ w.status = .succeeded)
  | .voided decisionId => decisionId ∈ s.voided
  | _ => True

/-- The keys of the rows. -/
structure Keyed (rows : List Writeback) : Prop where
  ids : (rows.map Writeback.id).Nodup
  methods : ∀ w ∈ rows, ∀ w' ∈ rows, w.decisionId = w'.decisionId → w.method = w'.method → w = w'

variable (T : CaseTables) (parses : Text → Bool) (operations : ι → Operation)

structure Inv (s : Books ι) : Prop where
  keyed : Keyed s.writebacks
  holds : ∀ e ∈ s.log, Holds s e
  voided : ∀ decisionId ∈ s.voided, .voided decisionId ∈ s.log
  legal : Legal T parses operations s.log

/-- What a void needs of the rows. -/
def Voidable (s : Books ι) (decisionId : Text) : Prop :=
  (∃ e ∈ s.writebacks, e.decisionId = decisionId ∧ e.method = .journal_entry ∧ e.status = .failed) ∧
    ∀ w ∈ s.writebacks, w.decisionId = decisionId → w.status ≠ .succeeded

/-- What a run may rely on of the others. -/
structure Rely (run : ι) (s s' : Books ι) : Prop where
  inv : Inv T parses operations s'
  mine : ∀ e : Event ι, e.run = some run → (e ∈ s'.log ↔ e ∈ s.log)
  running : ∀ id, s.running id = some run → s'.running id = some run
  pending : ∀ w ∈ s.writebacks, s.running w.id = some run → w.status = .pending → w ∈ s'.writebacks
  posted : ∀ w ∈ s.writebacks, w.status = .succeeded →
    ∃ w' ∈ s'.writebacks, w'.decisionId = w.decisionId ∧ w'.status = .succeeded
  voided : ∀ decisionId ∈ s'.voided, decisionId ∈ s.voided ∨ Voidable s decisionId

/-- What a run guarantees. -/
structure Guarantee (run : ι) (s s' : Books ι) : Prop where
  inv : Inv T parses operations s'
  others : ∀ other, run ≠ other → Rely T parses operations other s s'

/-- A run has a row's place, and has done so much. -/
structure Running (run : ι) (id : Text) (done : List (Event ι)) (s : Books ι) : Prop where
  inv : Inv T parses operations s
  place : s.running id = some run
  mine : ∀ e : Event ι, e.run = some run → (e ∈ s.log ↔ e ∈ done)

/-- A run has the place of a row that may be sent. -/
structure Holding (run : ι) (w : Writeback) (done : List (Event ι)) (s : Books ι) : Prop
    extends Running T parses operations run w.id done s where
  row : w ∈ s.writebacks
  pending : w.status = .pending
  free : w.decisionId ∉ s.voided
  entry : EntryKnown s w

/-- A run has a row's place. -/
def Closing (run : ι) (id : Text) (s : Books ι) : Prop := Inv T parses operations s ∧ s.running id = some run

/-- The run's steps from `A`, ending with `P`, or with an error and `E`. -/
abbrev Safe {α : Type} (run : ι) (E A : Books ι → Prop) (t : Run ι α) (P : α → Books ι → Prop) : Prop :=
  t.Meets (Rely T parses operations run) (Guarantee T parses operations run) (Ends P E) A

variable {T parses operations} {run : ι} {id : Text} {w : Writeback} {done : List (Event ι)} {s s' : Books ι}

theorem stable_inv : Stable (Rely T parses operations run) (Inv T parses operations) := fun _ _ _ h => h.inv

theorem stable_running : Stable (Rely T parses operations run) (Running T parses operations run id done) :=
  fun _ _ hs h => ⟨h.inv, h.running id hs.place, fun e he => (h.mine e he).trans (hs.mine e he)⟩

theorem stable_closing : Stable (Rely T parses operations run) (Closing T parses operations run id) :=
  fun _ _ hs h => ⟨h.inv, h.running id hs.2⟩

/-- The row of a run stays what it was, and is not voided. -/
theorem stable_holding : Stable (Rely T parses operations run) (Holding T parses operations run w done) := by
  intro s s' hs h
  refine ⟨stable_running s s' hs.toRunning h, h.pending w hs.row hs.place hs.pending, hs.pending, fun hvoided => ?_, ?_⟩
  · rcases h.voided _ hvoided with hbefore | ⟨⟨e, he, hdecision, hmethod, hfailed⟩, hnone⟩
    · exact hs.free hbefore
    · rcases hs.entry with hentry | ⟨e', he', hdecision', hposted⟩
      · obtain rfl := hs.inv.keyed.methods e he w hs.row hdecision (hmethod.trans hentry.symm)
        rw [hs.pending] at hfailed
        cases hfailed
      · exact hnone e' he' hdecision' hposted
  · rcases hs.entry with hentry | ⟨e, he, hdecision, hposted⟩
    · exact .inl hentry
    · obtain ⟨e', he', hdecision', hposted'⟩ := h.posted e he hposted
      exact .inr ⟨e', he', hdecision'.trans hdecision, hposted'⟩

theorem Holding.closing (h : Holding T parses operations run w done s) : Closing T parses operations run w.id s :=
  ⟨h.inv, h.place⟩

/-! ## What a step keeps -/

/-- The rows stay, with their keys, and a success is final. -/
def Evolves (rows rows' : List Writeback) : Prop :=
  ∀ w ∈ rows, ∃ w' ∈ rows', w'.id = w.id ∧ w'.decisionId = w.decisionId ∧ w'.method = w.method ∧
    (w.status = .succeeded → w'.status = .succeeded)

theorem Evolves.refl (rows : List Writeback) : Evolves rows rows := fun w hw => ⟨w, hw, rfl, rfl, rfl, id⟩

theorem EntryKnown.evolves {w' : Writeback} (h : EntryKnown s w) (hrows : Evolves s.writebacks s'.writebacks)
    (hdecision : w'.decisionId = w.decisionId) (hmethod : w'.method = w.method) : EntryKnown s' w' := by
  rcases h with h | ⟨e, he, hd, hposted⟩
  · exact .inl (hmethod.trans h)
  · obtain ⟨e', he', -, hd', -, hposted'⟩ := hrows e he
    exact .inr ⟨e', he', hd'.trans (hd.trans hdecision.symm), hposted' hposted⟩

/-- What the rows say of an event, they go on saying. -/
theorem Holds.evolves {e : Event ι} (h : Holds s e) (he : e ∈ s.log) (hrows : Evolves s.writebacks s'.writebacks)
    (hattempts : ∀ a ∈ s.attempts, a ∈ s'.attempts) (hvoided : ∀ d ∈ s.voided, d ∈ s'.voided)
    (hlog : ∀ e ∈ s.log, e ∈ s'.log) (hcut : ∀ run, Cut s.log run → Cut s'.log run)
    (hmidway : ∀ run id posting, .sent run id posting ∈ s.log → Midway s run id →
      Told s'.log run id ∨ Cut s'.log run ∨ Midway s' run id) : Holds s' e := by
  cases e with
  | read run row =>
    obtain ⟨w, hw, hid, hdecision⟩ := h
    obtain ⟨w', hw', hid', hdecision', -⟩ := hrows w hw
    exact ⟨w', hw', hid'.trans hid, hdecision'.trans hdecision⟩
  | sent run id posting =>
    obtain ⟨⟨w, hw, hid, hentry⟩, hhow⟩ := h
    obtain ⟨w', hw', hid', hdecision', hmethod', -⟩ := hrows w hw
    refine ⟨⟨w', hw', hid'.trans hid, hentry.evolves hrows hdecision' hmethod'⟩, ?_⟩
    rcases hhow with ⟨attempt, hmem, hof, hreason⟩ | hhow | hhow
    · exact .inl ⟨attempt, hlog _ hmem, hof, hreason⟩
    · exact .inr (.inl (hcut run hhow))
    · exact hmidway run id posting he hhow
  | recorded run attempt =>
    refine ⟨hattempts _ h.1, fun hposted => ?_⟩
    obtain ⟨w, hw, hid, hstatus⟩ := h.2 hposted
    obtain ⟨w', hw', hid', -, -, hstatus'⟩ := hrows w hw
    exact ⟨w', hw', hid'.trans hid, hstatus' hstatus⟩
  | voided decisionId => exact hvoided _ h
  | found | got | ended => trivial

/-- An event that is no attempt leaves a run cut. -/
theorem Cut.append {log : List (Event ι)} {e : Event ι} (h : Cut log run) (he : ∀ attempt, e ≠ .recorded run attempt) :
    Cut (log ++ [e]) run := by
  refine ⟨List.mem_append_left _ h.1, fun attempt hmem => ?_⟩
  rcases List.mem_append.1 hmem with hmem | hmem
  · exact h.2 attempt hmem
  · exact he attempt (List.mem_singleton.1 hmem).symm

theorem Midway.append {e : Event ι} (h : Midway s run id) (he : ∀ attempt, e ≠ .recorded run attempt)
    (hrows : s'.writebacks = s.writebacks) (hrunning : s'.running id = some run) (hlog : s'.log = s.log ++ [e]) :
    Midway s' run id := by
  refine ⟨hrunning, hrows ▸ h.2.1, fun attempt hmem => ?_⟩
  rcases List.mem_append.1 (hlog ▸ hmem) with hmem | hmem
  · exact h.2.2 attempt hmem
  · exact he attempt (List.mem_singleton.1 hmem).symm

/-- No attempt of a pending row was a success. -/
theorem Inv.unposted (h : Inv T parses operations s) (hw : w ∈ s.writebacks) (hpending : w.status = .pending) :
    Unposted s.log w.id := by
  intro run attempt hmem hid hposted
  obtain ⟨w', hw', hid', hstatus⟩ := (h.holds _ hmem).2 hposted
  obtain rfl := List.inj_on_of_nodup_map h.keyed.ids hw' hw (hid'.trans hid)
  rw [hpending] at hstatus
  cases hstatus

/-! ## The steps -/

theorem Rely.refl (h : Inv T parses operations s) : Rely T parses operations run s s where
  inv := h
  mine _ _ := Iff.rfl
  running _ := id
  pending _ hw _ _ := hw
  posted w hw hposted := ⟨w, hw, rfl, hposted⟩
  voided _ := .inl

theorem Guarantee.refl (h : Inv T parses operations s) : Guarantee T parses operations run s s :=
  ⟨h, fun _ _ => Rely.refl h⟩

/-- An event of one run is none of another. -/
theorem mem_append_other {other : ι} {log : List (Event ι)} {e e' : Event ι} (he : e.run = some run) (hne : run ≠ other)
    (he' : e'.run = some other) : e' ∈ log ++ [e] ↔ e' ∈ log := by
  rw [List.mem_append, List.mem_singleton]
  refine ⟨fun h => h.resolve_right fun heq => hne ?_, .inl⟩
  rw [heq, he] at he'
  exact Option.some_inj.1 he'

/-- An event that is no attempt is noted. -/
theorem Inv.note {e : Event ι} (h : Inv T parses operations s) (hallowed : Allowed T parses operations s.log e)
    (hnew : Holds (s.note e) e) (he : ∀ run attempt, e ≠ .recorded run attempt) : Inv T parses operations (s.note e) where
  keyed := h.keyed
  holds e' he' := by
    rcases List.mem_append.1 he' with hold | hlast
    · exact (h.holds e' hold).evolves hold (Evolves.refl _) (fun _ => id) (fun _ => id)
        (fun _ hmem => List.mem_append_left _ hmem) (fun run hcut => hcut.append (he run))
        fun run id _ _ hmidway => .inr (.inr (hmidway.append (he run) rfl hmidway.1 rfl))
    · rw [List.mem_singleton.1 hlast]
      exact hnew
  voided d hd := List.mem_append_left _ (h.voided d hd)
  legal := h.legal.append hallowed

theorem Guarantee.note {e : Event ι} (h : Inv T parses operations s) (howner : e.run = some run)
    (hallowed : Allowed T parses operations s.log e) (hnew : Holds (s.note e) e)
    (he : ∀ run attempt, e ≠ .recorded run attempt) : Guarantee T parses operations run s (s.note e) := by
  have hinv := h.note hallowed hnew he
  refine ⟨hinv, fun other hne => ⟨hinv, fun e' he' => mem_append_other howner hne he', fun _ => id,
    fun _ hw _ _ => hw, fun w hw hposted => ⟨w, hw, rfl, hposted⟩, fun _ => .inl⟩⟩

theorem Running.note {e : Event ι} (h : Running T parses operations run id done s) (hinv : Inv T parses operations (s.note e)) :
    Running T parses operations run id (done ++ [e]) (s.note e) := by
  refine ⟨hinv, h.place, fun e' he' => ?_⟩
  rw [Books.note, List.mem_append, List.mem_append, h.mine e' he']

theorem Holding.note {e : Event ι} (h : Holding T parses operations run w done s)
    (hinv : Inv T parses operations (s.note e)) : Holding T parses operations run w (done ++ [e]) (s.note e) :=
  ⟨h.toRunning.note hinv, h.row, h.pending, h.free, h.entry⟩

/-- A run takes a place that nobody has. -/
theorem Inv.acquire (h : Inv T parses operations s) (hfree : s.running id = none) :
    Inv T parses operations { s with running := Function.update s.running id (some run) } where
  keyed := h.keyed
  holds e he := by
    refine (h.holds e he).evolves he (Evolves.refl _) (fun _ h => h) (fun _ h => h) (fun _ h => h)
      (fun _ h => h) fun run' id' _ _ hmidway => .inr (.inr ⟨?_, hmidway.2⟩)
    have hne : id' ≠ id := by
      rintro rfl
      exact Option.some_ne_none _ (hmidway.1.symm.trans hfree)
    exact (Function.update_of_ne hne _ _).trans hmidway.1
  voided := h.voided
  legal := h.legal

theorem Guarantee.acquire (h : Inv T parses operations s) (hfree : s.running id = none) :
    Guarantee T parses operations run s { s with running := Function.update s.running id (some run) } := by
  refine ⟨h.acquire hfree, fun other _ => ⟨h.acquire hfree, fun _ _ => Iff.rfl, fun id' hid' => ?_,
    fun _ hw _ _ => hw, fun w hw hposted => ⟨w, hw, rfl, hposted⟩, fun _ => .inl⟩⟩
  have hne : id' ≠ id := by
    rintro rfl
    exact Option.some_ne_none _ (hid'.symm.trans hfree)
  exact (Function.update_of_ne hne _ _).trans hid'

/-- A run that gives its place up between its request and its attempt is cut. -/
theorem Inv.release (h : Inv T parses operations s) (hplace : s.running id = some run) :
    Inv T parses operations
      { s with running := Function.update s.running id none, log := s.log ++ [.ended run] } where
  keyed := h.keyed
  holds e he := by
    rcases List.mem_append.1 he with hold | hlast
    · refine (h.holds e hold).evolves hold (Evolves.refl _) (fun _ h => h) (fun _ h => h)
        (fun _ hmem => List.mem_append_left _ hmem) (fun run' hcut => hcut.append fun _ heq => by cases heq)
        fun run' id' _ _ hmidway => .inr ?_
      by_cases hid : id' = id
      · subst hid
        obtain rfl := Option.some_inj.1 (hmidway.1.symm.trans hplace)
        refine .inl ⟨List.mem_append_right _ (List.mem_singleton_self _), fun attempt hmem => ?_⟩
        rcases List.mem_append.1 hmem with hmem | hmem
        · exact hmidway.2.2 attempt hmem
        · cases List.mem_singleton.1 hmem
      · refine .inr (hmidway.append (e := .ended run) (fun _ heq => by cases heq) rfl ?_ rfl)
        exact (Function.update_of_ne hid _ _).trans hmidway.1
    · rw [List.mem_singleton.1 hlast]
      trivial
  voided d hd := List.mem_append_left _ (h.voided d hd)
  legal := h.legal.append trivial

theorem Guarantee.release (h : Inv T parses operations s) (hplace : s.running id = some run) :
    Guarantee T parses operations run s
      { s with running := Function.update s.running id none, log := s.log ++ [.ended run] } := by
  refine ⟨h.release hplace, fun other hne => ⟨h.release hplace, fun _ he => mem_append_other rfl hne he,
    fun id' hid' => ?_, fun _ hw _ _ => hw, fun w hw hposted => ⟨w, hw, rfl, hposted⟩, fun _ => .inl⟩⟩
  have hneId : id' ≠ id := by
    rintro rfl
    exact hne (Option.some_inj.1 (hplace.symm.trans hid'))
  exact (Function.update_of_ne hneId _ _).trans hid'

/-! ## Rows that change -/

theorem Keyed.modify {rows : List Writeback} {f : Writeback → Writeback} (h : Keyed rows)
    (hf : ∀ w, (f w).id = w.id ∧ (f w).decisionId = w.decisionId ∧ (f w).method = w.method) :
    Keyed (Rows.modify Writeback.id rows id f) where
  ids := by
    rw [Rows.keys_modify fun w => (hf w).1]
    exact h.ids
  methods w hw w' hw' hdecision hmethod := by
    obtain ⟨r, hr, rfl⟩ := Rows.mem_modify.1 hw
    obtain ⟨r', hr', rfl⟩ := Rows.mem_modify.1 hw'
    have hkeys : ∀ r : Writeback, (if r.id = id then f r else r).decisionId = r.decisionId ∧
        (if r.id = id then f r else r).method = r.method := by
      intro r
      split
      · exact (hf r).2
      · exact ⟨rfl, rfl⟩
    rw [h.methods r hr r' hr' ((hkeys r).1.symm.trans (hdecision.trans (hkeys r').1))
      ((hkeys r).2.symm.trans (hmethod.trans (hkeys r').2))]

/-- A row that is another's stays. -/
theorem mem_modify_of_ne {rows : List Writeback} {f : Writeback → Writeback} (hw : w ∈ rows) (hne : w.id ≠ id) :
    w ∈ Rows.modify Writeback.id rows id f :=
  Rows.mem_modify.2 ⟨w, hw, (if_neg hne).symm⟩

theorem Evolves.modify {rows : List Writeback} {f : Writeback → Writeback}
    (hf : ∀ w, (f w).id = w.id ∧ (f w).decisionId = w.decisionId ∧ (f w).method = w.method)
    (hposted : ∀ w ∈ rows, w.id = id → w.status ≠ .succeeded) : Evolves rows (Rows.modify Writeback.id rows id f) := by
  intro w hw
  by_cases hid : w.id = id
  · refine ⟨f w, Rows.mem_modify.2 ⟨w, hw, (if_pos hid).symm⟩, (hf w).1, (hf w).2.1, (hf w).2.2, fun h => ?_⟩
    exact absurd h (hposted w hw hid)
  · exact ⟨w, mem_modify_of_ne hw hid, rfl, rfl, rfl, fun h => h⟩

theorem Evolves.append (rows : List Writeback) (new : Writeback) : Evolves rows (rows ++ [new]) :=
  fun w hw => ⟨w, List.mem_append_left _ hw, rfl, rfl, rfl, fun h => h⟩

theorem Evolves.posted {rows rows' : List Writeback} (h : Evolves rows rows') (hw : w ∈ rows)
    (hposted : w.status = .succeeded) : ∃ w' ∈ rows', w'.decisionId = w.decisionId ∧ w'.status = .succeeded := by
  obtain ⟨w', hw', -, hdecision, -, hstatus⟩ := h w hw
  exact ⟨w', hw', hdecision, hstatus hposted⟩

/-! ## An attempt -/

/-- What a run may record by its own doings, it may record. -/
theorem MayRecord.of_mine {log : List (Event ι)} {attempt : PostingAttempt} (h : MayRecord T parses done run attempt)
    (hmine : ∀ e : Event ι, e.run = some run → (e ∈ log ↔ e ∈ done)) : MayRecord T parses log run attempt where
  once attempt' hmem := h.once attempt' ((hmine _ rfl).1 hmem)
  running hmem := h.running ((hmine _ rfl).1 hmem)
  honest hreason id posting hmem := h.honest hreason id posting ((hmine _ rfl).1 hmem)
  verified hposted := by
    obtain ⟨row, posting, got, id, hread, hid, hbuilt, htxn, hagreed, hhow⟩ := h.verified hposted
    refine ⟨row, posting, got, id, (hmine _ rfl).2 hread, hid, hbuilt, htxn, hagreed, ?_⟩
    rcases hhow with ⟨hsent, hgot⟩ | ⟨hidOf, reference, hreference, hfound⟩
    · exact .inl ⟨(hmine _ rfl).2 hsent, (hmine _ rfl).2 hgot⟩
    · exact .inr ⟨hidOf, reference, hreference, (hmine _ rfl).2 hfound⟩

theorem record_ok {attempt : PostingAttempt} (h : record s run attempt = .ok s') : s' = { s with
    writebacks := Rows.modify Writeback.id s.writebacks attempt.writebackId attempt.project
    attempts := s.attempts ++ [(attempt.writebackId, attempt.reason)]
    log := s.log ++ [.recorded run attempt] } := by
  unfold record at h
  split at h
  · cases h
  · split at h
    · cases h
    · exact (Except.ok.inj h).symm

/-- What a run records of the row it holds. -/
structure Recordable (T : CaseTables) (parses : Text → Bool) (run : ι) (id : Text) (done : List (Event ι))
    (attempt : PostingAttempt) : Prop where
  may : MayRecord T parses done run attempt
  row : attempt.writebackId = id
  own : ∀ id' posting, .sent run id' posting ∈ done → id' = id

section
variable {attempt : PostingAttempt}

/-- A pending row has not succeeded. -/
theorem Holding.not_posted (h : Holding T parses operations run w done s) :
    ∀ w' ∈ s.writebacks, w'.id = w.id → w'.status ≠ .succeeded := by
  intro w' hw' hid hposted
  obtain rfl := List.inj_on_of_nodup_map h.inv.keyed.ids hw' h.row hid
  rw [h.pending] at hposted
  cases hposted

theorem Holding.evolves (h : Holding T parses operations run w done s) (hrow : attempt.writebackId = w.id) :
    Evolves s.writebacks (Rows.modify Writeback.id s.writebacks attempt.writebackId attempt.project) :=
  Evolves.modify (fun _ => ⟨rfl, rfl, rfl⟩) (hrow ▸ h.not_posted)

theorem Inv.record (h : Holding T parses operations run w done s) (ha : Recordable T parses run w.id done attempt)
    (hrecord : record s run attempt = .ok s') : Inv T parses operations s' := by
  obtain rfl := record_ok hrecord
  have hrow := ha.row
  have hevolves := h.evolves hrow
  have hother : ∀ run' ≠ run, ∀ attempt', (.recorded run attempt : Event ι) ≠ .recorded run' attempt' := by
    rintro run' hne attempt' heq
    exact hne (Event.recorded.inj heq).1.symm
  refine ⟨h.inv.keyed.modify fun _ => ⟨rfl, rfl, rfl⟩, fun e he => ?_, fun d hd => List.mem_append_left _ (h.inv.voided d hd),
    h.inv.legal.append ⟨ha.may.of_mine h.mine, hrow ▸ h.inv.unposted h.row h.pending⟩⟩
  rcases List.mem_append.1 he with hold | hlast
  · refine (h.inv.holds e hold).evolves hold hevolves (fun _ hmem => List.mem_append_left _ hmem) (fun _ h => h)
      (fun _ hmem => List.mem_append_left _ hmem) (fun run' hcut => hcut.append (hother run' ?_))
      fun run' id' posting hsent hmidway => ?_
    · rintro rfl
      exact ha.may.running ((h.mine _ rfl).1 hcut.1)
    · by_cases hrun : run' = run
      · -- its own request: the attempt tells of it
        subst hrun
        have hdone := (h.mine _ rfl).1 hsent
        refine .inl ⟨attempt, List.mem_append_right _ (List.mem_singleton_self _), hrow.trans (ha.own _ _ hdone).symm, ?_⟩
        rw [Bool.eq_false_iff]
        exact fun hreason => ha.may.honest hreason _ _ hdone
      · have hne : id' ≠ attempt.writebackId := by
          rintro rfl
          exact hrun (Option.some_inj.1 (hmidway.1.symm.trans (hrow ▸ h.place)))
        obtain ⟨hplace, ⟨w', hw', hid', hpending⟩, hnone⟩ := hmidway
        refine .inr (.inr ⟨hplace, ⟨w', mem_modify_of_ne hw' (hid'.symm ▸ hne), hid', hpending⟩, fun attempt' hmem => ?_⟩)
        rcases List.mem_append.1 hmem with hmem | hmem
        · exact hnone attempt' hmem
        · exact hother run' hrun attempt' (List.mem_singleton.1 hmem).symm
  · rw [List.mem_singleton.1 hlast]
    refine ⟨List.mem_append_right _ (List.mem_singleton_self _), fun hposted => ?_⟩
    refine ⟨_, Rows.mem_modify.2 ⟨w, h.row, rfl⟩, ?_, ?_⟩
    · rw [if_pos hrow.symm]
      exact hrow.symm
    · rw [if_pos hrow.symm]
      exact congrArg AttemptStatus.status hposted

theorem Guarantee.record (h : Holding T parses operations run w done s) (ha : Recordable T parses run w.id done attempt)
    (hrecord : record s run attempt = .ok s') : Guarantee T parses operations run s s' := by
  have hinv := Inv.record h ha hrecord
  obtain rfl := record_ok hrecord
  have hevolves := h.evolves ha.row
  refine ⟨hinv, fun other hne => ⟨hinv, fun _ he => mem_append_other rfl hne he, fun _ h => h,
    fun w' hw' hplace _ => mem_modify_of_ne hw' fun hid => hne ?_, fun w' hw' hposted => hevolves.posted hw' hposted,
    fun _ => .inl⟩⟩
  rw [hid, ha.row, h.place] at hplace
  exact Option.some_inj.1 hplace

end

/-! ## A person's steps -/

theorem Inv.insert {new : Writeback} (h : Inv T parses operations s)
    (hnew : ∀ w ∈ s.writebacks, w.id ≠ new.id ∧ ¬ (w.decisionId = new.decisionId ∧ w.method = new.method)) :
    Inv T parses operations { s with writebacks := s.writebacks ++ [new] } where
  keyed := by
    refine ⟨Rows.nodup_insert h.keyed.ids (Rows.lookup_eq_none.2 fun w hw => (hnew w hw).1),
      fun w hw w' hw' hdecision hmethod => ?_⟩
    rcases List.mem_append.1 hw with hw | hw <;> rcases List.mem_append.1 hw' with hw' | hw'
    · exact h.keyed.methods w hw w' hw' hdecision hmethod
    · rw [List.mem_singleton.1 hw'] at hdecision hmethod
      exact absurd ⟨hdecision, hmethod⟩ (hnew w hw).2
    · rw [List.mem_singleton.1 hw] at hdecision hmethod
      exact absurd ⟨hdecision.symm, hmethod.symm⟩ (hnew w' hw').2
    · rw [List.mem_singleton.1 hw, List.mem_singleton.1 hw']
  holds e he := by
    refine (h.holds e he).evolves he (Evolves.append _ _) (fun _ h => h) (fun _ h => h) (fun _ h => h)
      (fun _ h => h) fun run' id' _ _ hmidway => .inr (.inr ⟨hmidway.1, ?_, hmidway.2.2⟩)
    obtain ⟨w, hw, hid, hpending⟩ := hmidway.2.1
    exact ⟨w, List.mem_append_left _ hw, hid, hpending⟩
  voided := h.voided
  legal := h.legal

/-- A failed row goes back to pending. -/
theorem Inv.requeue (h : Inv T parses operations s) (hw : w ∈ s.writebacks) (hfailed : w.status = .failed) :
    Guarantee T parses operations run s
      { s with writebacks := Rows.modify Writeback.id s.writebacks w.id fun w => { w with status := .pending } } := by
  have hunique : ∀ w' ∈ s.writebacks, w'.id = w.id → w'.status = .failed := by
    intro w' hw' hid
    rw [List.inj_on_of_nodup_map h.keyed.ids hw' hw hid]
    exact hfailed
  have hevolves : Evolves s.writebacks
      (Rows.modify Writeback.id s.writebacks w.id fun w => { w with status := .pending }) := by
    refine Evolves.modify (fun _ => ⟨rfl, rfl, rfl⟩) fun w' hw' hid hposted => ?_
    rw [hunique w' hw' hid] at hposted
    cases hposted
  have hkept : ∀ w' ∈ s.writebacks, w'.status = .pending →
      w' ∈ Rows.modify Writeback.id s.writebacks w.id fun w => { w with status := .pending } := by
    refine fun w' hw' hpending => mem_modify_of_ne hw' fun hid => ?_
    rw [hunique w' hw' hid] at hpending
    cases hpending
  have hinv : Inv T parses operations
      { s with writebacks := Rows.modify Writeback.id s.writebacks w.id fun w => { w with status := .pending } } := by
    refine ⟨h.keyed.modify fun _ => ⟨rfl, rfl, rfl⟩, fun e he => ?_, h.voided, h.legal⟩
    refine (h.holds e he).evolves he hevolves (fun _ h => h) (fun _ h => h) (fun _ h => h)
      (fun _ h => h) fun run' id' _ _ hmidway => .inr (.inr ⟨hmidway.1, ?_, hmidway.2.2⟩)
    obtain ⟨w', hw', hid, hpending⟩ := hmidway.2.1
    exact ⟨w', hkept w' hw' hpending, hid, hpending⟩
  exact ⟨hinv, fun other _ => ⟨hinv, fun _ _ => Iff.rfl, fun _ h => h, fun w' hw' _ => hkept w' hw',
    fun w' hw' hposted => hevolves.posted hw' hposted, fun _ => .inl⟩⟩

/-- What a void finds: no success, and a failed entry that sent nothing. -/
theorem checkVoid_ok {decisionId : Text} {rows : List Writeback} (h : checkVoid s decisionId = .ok rows) :
    (∀ w ∈ s.writebacks, w.decisionId = decisionId → w.status ≠ .succeeded) ∧
      ∃ e ∈ s.writebacks, e.decisionId = decisionId ∧ e.method = .journal_entry ∧ e.status = .failed ∧
        nothingWasSent (reasonsOf s e.id) = true := by
  have hmem : ∀ {w : Writeback}, w ∈ s.writebacks.filter (fun w => w.decisionId = decisionId) ↔
      w ∈ s.writebacks ∧ w.decisionId = decisionId := fun {w} => by rw [List.mem_filter, decide_eq_true_eq]
  unfold checkVoid at h
  dsimp only at h
  split at h
  · cases h
  · split at h
    · cases h
    · rename_i hposted
      split at h
      · cases h
      · rename_i entry hentry
        split at h
        · cases h
        · rename_i hfailed
          split at h
          · cases h
          · rename_i hsent
            obtain ⟨hrow, hdecision⟩ := hmem.1 (List.mem_of_find?_eq_some hentry)
            refine ⟨fun w hw hwd hsucceeded => hposted ?_, entry, hrow, hdecision, ?_, not_not.1 hfailed, ?_⟩
            · exact List.any_eq_true.2 ⟨w, hmem.2 ⟨hw, hwd⟩, decide_eq_true hsucceeded⟩
            · simpa using List.find?_some hentry
            · by_contra hno
              refine hsent (List.any_eq_true.2 ⟨entry, hmem.2 ⟨hrow, hdecision⟩, ?_⟩)
              rw [if_pos rfl, Bool.eq_false_iff.2 hno]
              rfl

/-- A void finds no request but of a run that was cut. -/
theorem Inv.void {decisionId : Text} {rows : List Writeback} (h : Inv T parses operations s)
    (hcheck : checkVoid s decisionId = .ok rows) : Guarantee T parses operations run s
      { s with voided := s.voided ++ [decisionId], log := s.log ++ [.voided decisionId] } := by
  obtain ⟨hnone, entry, hentry, hdecision, hmethod, hfailed, hnothing⟩ := checkVoid_ok hcheck
  have hallowed : Allowed T parses operations s.log (.voided decisionId) := by
    intro run' row posting hread hrow hsent
    obtain ⟨⟨w, hw, hid, hknown⟩, hhow⟩ := h.holds _ hsent
    obtain ⟨w', hw', hid', hdecision'⟩ := h.holds _ hread
    obtain rfl := List.inj_on_of_nodup_map h.keyed.ids hw' hw (hid'.trans hid.symm)
    have hwd : w'.decisionId = decisionId := hdecision'.trans hrow
    have hentryW : w' = entry := by
      rcases hknown with hje | ⟨e, he, hed, hposted⟩
      · exact h.keyed.methods w' hw' entry hentry (hwd.trans hdecision.symm) (hje.trans hmethod.symm)
      · exact absurd hposted (hnone e he (hed.trans hwd))
    subst hentryW
    rcases hhow with ⟨attempt, hmem, hof, hreason⟩ | hcut | hmidway
    · -- an attempt that may have sent something would have been seen
      have hattempt : attempt.reason ∈ reasonsOf s w'.id :=
        List.mem_map.2 ⟨_, List.mem_filter.2 ⟨(h.holds _ hmem).1, decide_eq_true (hof.trans hid.symm)⟩, rfl⟩
      unfold nothingWasSent at hnothing
      rw [Bool.and_eq_true, List.all_eq_true] at hnothing
      rw [hnothing.2 _ hattempt] at hreason
      cases hreason
    · exact hcut
    · obtain ⟨w, hw, hwid, hpending⟩ := hmidway.2.1
      obtain rfl := List.inj_on_of_nodup_map h.keyed.ids hw hw' (hwid.trans hid.symm)
      rw [hfailed] at hpending
      cases hpending
  have hinv : Inv T parses operations
      { s with voided := s.voided ++ [decisionId], log := s.log ++ [.voided decisionId] } := by
    refine ⟨h.keyed, fun e he => ?_, fun d hd => ?_, h.legal.append hallowed⟩
    · rcases List.mem_append.1 he with hold | hlast
      · exact (h.holds e hold).evolves hold (Evolves.refl _) (fun _ h => h)
          (fun _ hmem => List.mem_append_left _ hmem) (fun _ hmem => List.mem_append_left _ hmem)
          (fun run' hcut => hcut.append fun _ heq => by cases heq) fun run' id' _ _ hmidway =>
            .inr (.inr (hmidway.append (e := .voided decisionId) (fun _ heq => by cases heq) rfl hmidway.1 rfl))
      · rw [List.mem_singleton.1 hlast]
        exact List.mem_append_right _ (List.mem_singleton_self _)
    · exact (List.mem_append.1 hd).elim (fun hd => List.mem_append_left _ (h.voided d hd)) fun hd =>
        List.mem_append_right _ (List.mem_singleton.2 (congrArg _ (List.mem_singleton.1 hd)))
  refine ⟨hinv, fun other _ => ⟨hinv, fun e he => ?_, fun _ h => h, fun _ hw _ _ => hw,
    fun w hw hposted => ⟨w, hw, rfl, hposted⟩, fun d hd => (List.mem_append.1 hd).imp_right fun hd => ?_⟩⟩
  · rw [List.mem_append, List.mem_singleton]
    refine ⟨fun hmem => hmem.resolve_right fun heq => ?_, .inl⟩
    rw [heq] at he
    cases he
  · rw [List.mem_singleton.1 hd]
    exact ⟨⟨entry, hentry, hdecision, hmethod, hfailed⟩, hnone⟩

end

end Recouple.Qbo.PostingJob
