import Recouple.Pipeline.FailingCalls

/-!
# A redelivered remittance

What a failing call leaves depends on which call it is (`deliver_left`). Until the transaction that records the reading
has taken effect, the store says of the document and of the cases what it said before, so the next delivery reads the
document again. Once the last line over the floor has had its turn, every line is settled, and stays so. So deliveries
that fail early or late, and never between the two, are put right by one whose calls all answer (`retry_settles`).
-/

namespace Recouple.Pipeline
open Js FirstSeen Extraction Calls

section
variable {T : CaseTables} {tenant : Tenant} {ports : Ports} {input : ReadDocumentJobInput}
variable {document : StoredDocument} {reading : Reading} {faults : Faults}

/-! ## What the failing call leaves -/

/-- What a delivery leaves of the store it started from. -/
structure Left (T : CaseTables) (tenant : Tenant) (ports : Ports) (document : StoredDocument) (reading : Reading)
    (faults : Faults) (s₀ s : Store) : Prop where
  early : Early ports document reading s₀ faults → s₀.Untouched s
  late : Late ports document reading s₀ T tenant faults →
    AllSettled T tenant ports ⟨document.documentId, document.orgId⟩ reading.advice s

variable {s₀ t : Store} {c : Nat}

/-- A delivery that fails late has its reading recorded. -/
theorem Late.answered (h : Late ports document reading s₀ T tenant faults) :
    ∀ k ≤ recordingCall ports document reading s₀, faults k = none := by
  obtain ⟨count, -, hanswered⟩ := h
  exact fun k hk => hanswered k (Nat.lt_of_lt_of_le (Nat.lt_succ_of_le hk) ((lineLoop_local count).grows _ _ _))

/-- A call that fails before the one that records the reading leaves the store untouched. -/
theorem Left.before {s : Store} (hc : c < recordingCall ports document reading s₀) (hfault : faults c ≠ none)
    (hs : s₀.Untouched s) : Left T tenant ports document reading faults s₀ s :=
  ⟨fun _ => hs, fun hlate => absurd (hlate.answered c hc.le) hfault⟩

section
variable (T tenant ports reading)

theorem call_before {α : Type} {f : Store → Except Failure α × Store} {a : α}
    (hc : c < recordingCall ports document reading s₀) (ha : (f t).1 = .ok a) (ht : s₀.Untouched t)
    (hft : s₀.Untouched (f t).2) :
    Numbered faults (At faults c t) (Calls.call .unavailable f) (fun b n s => b = a ∧ At faults (c + 1) (f t).2 n s)
      fun _ s => Left T tenant ports document reading faults s₀ s :=
  Numbered.call ha (fun _ hl => .before hc (by rw [hl]; nofun) ht) fun _ hu => .before hc (by rw [hu]; nofun) hft

theorem ask_before {α : Type} (f : Store → α) (hc : c < recordingCall ports document reading s₀) (ht : s₀.Untouched t) :
    Numbered faults (At faults c t) (ask f) (fun b n s => b = f t ∧ At faults (c + 1) t n s)
      fun _ s => Left T tenant ports document reading faults s₀ s :=
  call_before T tenant ports reading hc rfl ht ht

theorem write_before (f : Store → Store) (hc : c < recordingCall ports document reading s₀) (ht : s₀.Untouched t)
    (hft : s₀.Untouched (f t)) :
    Numbered faults (At faults c t) (write f) (fun b n s => b = () ∧ At faults (c + 1) (f t) n s)
      fun _ s => Left T tenant ports document reading faults s₀ s :=
  call_before T tenant ports reading hc rfl ht hft

end

theorem recordedRead_before (h : AdviceDelivery T tenant ports input document reading)
    (hreads : s₀.ReadsAgain document.documentId)
    (hc : 3 + callsOnRecord document s₀ < recordingCall ports document reading s₀) :
    Numbered faults (At faults 3 s₀) (recordedRead document.documentId input.options)
      (fun answer n s => answer = none ∧ At faults (3 + callsOnRecord document s₀) s₀ n s)
      fun _ s => Left T tenant ports document reading faults s₀ s := by
  have hattach : input.options.attachToCase = none := h.unattached
  have hmay : input.options.allowCaseOpen.getD true = true := h.mayOpen
  refine Numbered.bind_eq (ask_before T tenant ports reading _ (by omega) (.refl s₀)) ?_
  unfold callsOnRecord at hc ⊢
  cases hrecorded : s₀.latestExtraction document.documentId with
  | none => exact Numbered.pure fun n s hs => ⟨rfl, hs⟩
  | some recorded =>
    obtain ⟨hcase, hhold, hnotice⟩ := hreads recorded hrecorded
    rw [hrecorded, Option.isSome_some, if_pos rfl] at hc
    dsimp only
    rw [hattach]
    dsimp only
    refine Numbered.bind_eq (ask_before T tenant ports reading _ (by omega) (.refl s₀)) ?_
    rw [hcase]
    dsimp only
    refine Numbered.bind_eq (ask_before T tenant ports reading _ (by omega) (.refl s₀)) ?_
    rw [hhold]
    dsimp only
    rw [if_pos ⟨hnotice, hmay⟩]
    exact Numbered.pure fun n s hs => ⟨rfl, hs⟩

theorem beforeTheRead_before (h : AdviceDelivery T tenant ports input document reading)
    (hc : c + 2 ≤ recordingCall ports document reading s₀) :
    Numbered faults (At faults c s₀) (beforeTheRead tenant document input.options)
      (fun before n s => before = ⟨none, none, some tenant.floor⟩ ∧ At faults (c + 2) s₀ n s)
      fun _ s => Left T tenant ports document reading faults s₀ s := by
  have hattach : input.options.attachToCase = none := h.unattached
  unfold beforeTheRead resolveAttachTarget
  rw [hattach]
  refine Numbered.bind_eq (a := none) (Numbered.pure fun n s hs => ⟨rfl, hs⟩) ?_
  dsimp only
  refine Numbered.bind_eq (ask_before T tenant ports reading _ (by omega) (.refl s₀)) ?_
  rw [if_pos (.inl h.mayOpen)]
  refine Numbered.bind_eq (ask_before T tenant ports reading _ (by omega) (.refl s₀)) ?_
  rw [h.documentId, h.uploaded]
  exact Numbered.pure fun n s hs => ⟨rfl, hs⟩

theorem readableOf_asks (ports : Ports) (document : StoredDocument) (s : Store) :
    (if document.pageText.isSome then 1 else 2) ≤ (readableOf ports document s).2.1 := by
  unfold readableOf
  dsimp only
  generalize (if document.pageText.isSome then 1 else 2) = asked
  split
  · exact Nat.le_refl _
  · split
    · exact Nat.le_refl _
    · split
      · exact Nat.le_succ asked
      · exact Nat.le_add_right asked 2

theorem readablePayload_before (h : AdviceDelivery T tenant ports input document reading)
    (hc : c + (readableOf ports document s₀).2.1 ≤ recordingCall ports document reading s₀) :
    Numbered faults (At faults c s₀) (readablePayload tenant ports document)
      (fun readable n s => readable = (readableOf ports document s₀).1 ∧
        At faults (c + (readableOf ports document s₀).2.1) (readableOf ports document s₀).2.2 n s)
      fun _ s => Left T tenant ports document reading faults s₀ s := by
  have hasks := readableOf_asks ports document s₀
  refine Numbered.bind_eq (ask_before T tenant ports reading _ (by split at hasks <;> omega) (.refl s₀)) ?_
  rw [if_neg (by rw [h.documentId, h.clean]; nofun)]
  -- the text that is stored, or was recorded since
  have htext : Numbered faults (At faults (c + 1) s₀) (storedPageText document)
      (fun text n s => text = document.pageText.or (s₀.pagesFor document.documentId) ∧
        At faults (c + if document.pageText.isSome then 1 else 2) s₀ n s)
      fun _ s => Left T tenant ports document reading faults s₀ s := by
    unfold storedPageText
    cases hpages : document.pageText with
    | some pages => exact Numbered.pure fun n s hs => ⟨rfl, hs⟩
    | none =>
      rw [hpages] at hasks
      exact ask_before T tenant ports reading _ (by simp at hasks; omega) (.refl s₀)
  refine Numbered.bind_eq htext ?_
  clear htext hasks
  unfold readableOf at hc ⊢
  dsimp only at hc ⊢
  generalize (if document.pageText.isSome then 1 else 2) = asked at hc ⊢
  cases hocr : ports.ocr with
  | none =>
    simp only
    exact Numbered.pure fun n s hs => ⟨rfl, hs⟩
  | some ocr =>
    simp only [hocr] at hc ⊢
    by_cases hneeds : needsOcr (document.pageText.or (s₀.pagesFor document.documentId)) = false
    · rw [if_pos hneeds, if_pos hneeds]
      exact Numbered.pure fun n s hs => ⟨rfl, hs⟩
    · rw [if_neg hneeds] at hc
      rw [if_neg hneeds, if_neg hneeds]
      cases hanswer : ocr ⟨document.documentId, document.pageText.or (s₀.pagesFor document.documentId), .embedded⟩ with
      | error call =>
        simp only [hanswer] at hc
        refine Numbered.bind_eq (ask_before T tenant ports reading _ (by omega) (.refl s₀)) ?_
        simp only [hanswer]
        exact Numbered.pure fun n s hs => ⟨rfl, hs⟩
      | ok answer =>
        obtain ⟨pages, call⟩ := answer
        simp only [hanswer] at hc
        refine Numbered.bind_eq (ask_before T tenant ports reading _ (by omega) (.refl s₀)) ?_
        simp only [hanswer]
        refine Numbered.bind_eq (write_before T tenant ports reading _ (by omega) (.refl s₀) ⟨_, _, _, rfl⟩) ?_
        exact Numbered.pure fun n s hs => ⟨rfl, hs⟩

theorem modelCalls_before (calls : List ModelCallRecord) :
    ∀ {c : Nat} {t : Store}, c + calls.length ≤ recordingCall ports document reading s₀ → s₀.Untouched t →
      Numbered faults (At faults c t)
        (calls.forM fun call => write fun s => { s with modelCalls := s.modelCalls ++ [(call, (none : Option CaseId))] })
        (fun b n s => b = () ∧ At faults (c + calls.length)
          { t with modelCalls := t.modelCalls ++ calls.map fun call => (call, none) } n s)
        fun _ s => Left T tenant ports document reading faults s₀ s := by
  induction calls with
  | nil =>
    intro c t _ _
    refine Numbered.pure fun n s hs => ⟨rfl, ?_⟩
    rw [List.map_nil, List.append_nil]
    exact hs
  | cons call calls ih =>
    intro c t hc ht
    rw [List.length_cons] at hc
    have hwrite : s₀.Untouched { t with modelCalls := t.modelCalls ++ [(call, none)] } := ht.trans ⟨_, _, _, rfl⟩
    refine Numbered.bind_eq (write_before T tenant ports reading _ (by omega) ht hwrite) ?_
    have hrest := ih (c := c + 1) (by omega) hwrite
    have hcalls : t.modelCalls ++ (call :: calls).map (fun call => (call, (none : Option CaseId))) =
        t.modelCalls ++ [(call, none)] ++ calls.map fun call => (call, none) := by simp
    rw [List.length_cons, Nat.add_comm calls.length, ← Nat.add_assoc, hcalls]
    exact hrest

/-- **The reading is recorded**, or the store is untouched. -/
theorem recordTheRead_left
    (hc : c + (modelCallsOf ports document reading s₀).length + 1 = recordingCall ports document reading s₀) :
    Numbered faults (At faults c (readableOf ports document s₀).2.2)
      (recordTheRead document (modelCallsOf ports document reading s₀) (classificationOf ports document s₀) reading none)
      (fun b n s => b = () ∧
        At faults (recordingCall ports document reading s₀ + 1) (recordedStore ports document reading s₀) n s)
      fun _ s => Left T tenant ports document reading faults s₀ s := by
  have hread := readableOf_untouched ports document s₀
  refine Numbered.bind_eq (modelCalls_before _ (by omega) hread) ?_
  refine Numbered.bind_eq (write_before T tenant ports reading _ (by omega) (hread.trans ⟨_, _, _, rfl⟩)
    (hread.trans ⟨_, _, _, rfl⟩)) ?_
  rw [hc]
  refine Numbered.bind_eq (a := ()) (Numbered.call rfl (fun _ hl => ?_) fun hanswered hu => ?_) ?_
  · exact ⟨fun _ => hread.trans ⟨_, _, _, rfl⟩, fun hlate => absurd (hl.symm.trans (hlate.answered _ (Nat.le_refl _))) nofun⟩
  · refine ⟨fun hearly => ?_, fun hlate => absurd (hu.symm.trans (hlate.answered _ (Nat.le_refl _))) nofun⟩
    rcases hearly with ⟨k, hk, hfault⟩ | hlost
    · exact absurd (hanswered k hk) hfault
    · cases hu.symm.trans hlost
  · exact Numbered.pure fun n s hs => ⟨rfl, hs⟩

/-- The lines over the floor that had their turn are settled. -/
theorem allSettled_of_lineLoop (h : AdviceDelivery T tenant ports input document reading) {count n m : Nat} {s u : Store}
    {acc : LineLoop}
    (hdrop : ∀ entry ∈ reading.advice.lines.zipIdx.drop count, ∀ shortPays,
      adviceShortPays T reading.advice = .ok shortPays →
        overFloorLine T (adviceOpening T tenant ports ⟨document.documentId, document.orgId⟩ reading.advice shortPays) entry =
          none)
    (hrun : lineLoop T tenant ports.tryParsePrintedDate ⟨document.documentId, document.orgId⟩
      ⟨reading.docType, reading.advice⟩ none count reliable n s = (.ok acc, m, u)) :
    AllSettled T tenant ports ⟨document.documentId, document.orgId⟩ reading.advice u := by
  have htriple : Triple reliable (fun _ => True)
      (lineLoop T tenant ports.tryParsePrintedDate ⟨document.documentId, document.orgId⟩ ⟨reading.docType, reading.advice⟩
        none count) _ fun _ _ => True :=
    lineLoop_triple count (Kept.const True) (fun _ _ _ => trivial) (fun _ _ _ _ _ => trivial) fun _ _ _ _ => trivial
  obtain ⟨-, shortPays, hpays, hall⟩ := htriple.ok trivial hrun
  have hopening : openingOf T tenant ports.tryParsePrintedDate ⟨document.documentId, document.orgId⟩
      ⟨reading.docType, reading.advice⟩ none shortPays =
        adviceOpening T tenant ports ⟨document.documentId, document.orgId⟩ reading.advice shortPays := by
    rw [h.docType]
    rfl
  rw [hopening] at hall
  intro shortPays' hpays' entry hentry line hline
  cases hpays.symm.trans hpays'
  rw [← List.take_append_drop count reading.advice.lines.zipIdx] at hentry
  rcases List.mem_append.1 hentry with hentry | hentry
  · obtain ⟨result, -, -, hholds⟩ := KeyedFold.exists_of_mem_left hall hentry
    rw [hline] at hholds
    obtain ⟨-, id, -, (⟨-, hopened⟩ | ⟨-, hmerged⟩)⟩ := hholds
    · exact .inl ⟨id, hopened⟩
    · exact .inr (.inl ⟨id, hmerged⟩)
  · cases hline.symm.trans (hdrop entry hentry shortPays hpays)

/-- **The lines.** Once the reading is recorded, a delivery that fails late has settled every line. -/
theorem openCases_left (h : AdviceDelivery T tenant ports input document reading) (hT : ∀ c, T.lower c ≠ [])
    (hsound : s₀.Sound)
    (hno : ReadUnambiguously T tenant ports.tryParsePrintedDate ⟨document.documentId, document.orgId⟩
      ⟨.remittance_advice, reading.advice⟩ none s₀) :
    Numbered faults (At faults (recordingCall ports document reading s₀ + 1) (recordedStore ports document reading s₀))
      (openCasesFromRemittance T tenant ports.tryParsePrintedDate ⟨document.documentId, document.orgId⟩
        ⟨reading.docType, reading.advice⟩ none)
      (fun _ _ s => Left T tenant ports document reading faults s₀ s)
      fun _ s => Left T tenant ports document reading faults s₀ s := by
  rintro n s ⟨rfl, rfl, hanswered⟩
  obtain ⟨shortPays, hpays⟩ := h.readable
  have hpays : adviceShortPays T (⟨reading.docType, reading.advice⟩ : CaseOpeningReading).advice = .ok shortPays := hpays
  -- the reading is recorded, so no call failed early
  have hearly : ¬ Early ports document reading s₀ faults := by
    rintro (⟨k, hk, hfault⟩ | hlost)
    · exact hfault (hanswered k (Nat.lt_succ_of_lt hk))
    · cases (hanswered _ (Nat.lt_succ_self _)).symm.trans hlost
  suffices hlate : Late ports document reading s₀ T tenant faults →
      AllSettled T tenant ports ⟨document.documentId, document.orgId⟩ reading.advice
        (openCasesFromRemittance T tenant ports.tryParsePrintedDate ⟨document.documentId, document.orgId⟩
          ⟨reading.docType, reading.advice⟩ none faults (recordingCall ports document reading s₀ + 1)
          (recordedStore ports document reading s₀)).2.2 by
    rcases hrun : openCasesFromRemittance T tenant ports.tryParsePrintedDate ⟨document.documentId, document.orgId⟩
      ⟨reading.docType, reading.advice⟩ none faults (recordingCall ports document reading s₀ + 1)
      (recordedStore ports document reading s₀) with ⟨r, m, u⟩
    rw [hrun] at hlate
    cases r with
    | ok read => exact ⟨fun he => absurd he hearly, hlate⟩
    | error e => exact ⟨fun he => absurd he hearly, hlate⟩
  rintro ⟨count, hdrop, hcalls⟩
  -- the first turns are those of the run whose calls all answer
  rcases hrun : lineLoop T tenant ports.tryParsePrintedDate ⟨document.documentId, document.orgId⟩
    ⟨reading.docType, reading.advice⟩ none count reliable (recordingCall ports document reading s₀ + 1)
    (recordedStore ports document reading s₀) with ⟨r, m, u⟩
  have hsame : lineLoop T tenant ports.tryParsePrintedDate ⟨document.documentId, document.orgId⟩
      ⟨reading.docType, reading.advice⟩ none count faults (recordingCall ports document reading s₀ + 1)
      (recordedStore ports document reading s₀) = (r, m, u) :=
    ((lineLoop_local count).agrees reliable faults _ _ fun k _ hk => hcalls k hk).trans hrun
  rw [openCases_split hpays count]
  cases r with
  | error e =>
    -- a reading whose calls all answer returns
    have hs : (recordedStore ports document reading s₀).Owned ∧
        Unambiguous T tenant (openingOf T tenant ports.tryParsePrintedDate ⟨document.documentId, document.orgId⟩
          ⟨reading.docType, reading.advice⟩ none shortPays) reading.advice (recordedStore ports document reading s₀) := by
      obtain ⟨pages, modelCalls, classifications, hread⟩ := readableOf_untouched ports document s₀
      unfold recordedStore
      rw [hread, h.docType]
      exact ⟨Store.owned_of_sound hsound, unambiguous_congr rfl rfl (hno shortPays hpays)⟩
    have hreturns : Triple reliable (fun s => s = recordedStore ports document reading s₀) _ _ _ :=
      openCases_returns hT h.store hs.1 hpays hs.2
    have hfails := hreturns (recordingCall ports document reading s₀ + 1) _ rfl
    rw [openCases_split hpays count, bind_of_error hrun] at hfails
    exact absurd rfl hfails
  | ok acc =>
    rw [bind_of_ok hsame]
    have hrest : Triple faults _ (restOfLines T tenant ports.tryParsePrintedDate ⟨document.documentId, document.orgId⟩
        ⟨reading.docType, reading.advice⟩ none shortPays count acc) _ _ :=
      restOfLines_keeps (Kept.allSettled T tenant ports ⟨document.documentId, document.orgId⟩ reading.advice) hpays count acc
    have hkeeps := hrest m u (allSettled_of_lineLoop h hdrop hrun)
    revert hkeeps
    rcases restOfLines T tenant ports.tryParsePrintedDate ⟨document.documentId, document.orgId⟩
      ⟨reading.docType, reading.advice⟩ none shortPays count acc faults m u with ⟨r, m', u'⟩
    cases r with
    | ok read => exact id
    | error e => exact id

theorem afterTheRead_left (h : AdviceDelivery T tenant ports input document reading) (hT : ∀ c, T.lower c ≠ [])
    (hsound : s₀.Sound)
    (hno : ReadUnambiguously T tenant ports.tryParsePrintedDate ⟨document.documentId, document.orgId⟩
      ⟨.remittance_advice, reading.advice⟩ none s₀)
    (hc : c + (modelCallsOf ports document reading s₀).length + 1 = recordingCall ports document reading s₀) :
    Numbered faults (At faults c (readableOf ports document s₀).2.2)
      (afterTheRead T tenant ports document input.options ⟨none, none, some tenant.floor⟩
        (modelCallsOf ports document reading s₀) (classificationOf ports document s₀) reading)
      (fun _ _ s => Left T tenant ports document reading faults s₀ s)
      fun _ s => Left T tenant ports document reading faults s₀ s := by
  have hopen : input.options.allowCaseOpen.getD true = true := h.mayOpen
  have hclass : (classificationOf ports document s₀).docType = .remittance_advice := h.classified _
  unfold afterTheRead
  dsimp only
  rw [show gateHold ⟨none, none, some tenant.floor⟩ (classificationOf ports document s₀) reading = none from
    gateHold_none h _, hopen]
  dsimp only
  rw [if_neg fun hn => by rw [hclass] at hn; cases hn.1]
  refine Numbered.bind_eq (a := none) (Numbered.pure fun n s hs => ⟨rfl, hs⟩) ?_
  refine Numbered.bind_eq (recordTheRead_left hc) ?_
  rw [if_pos ⟨hclass, rfl, rfl⟩]
  refine Numbered.bind (M := fun _ _ s => Left T tenant ports document reading faults s₀ s) ?_ fun _ => ?_
  · exact Numbered.bind (openCases_left h hT hsound hno) fun _ => Numbered.pure fun _ _ hs => hs
  · exact Numbered.pure fun _ _ hs => hs

/-- **A delivery that reads the document**, whatever calls of it fail. -/
theorem readDocumentJob_left (h : AdviceDelivery T tenant ports input document reading) (hT : ∀ c, T.lower c ≠ [])
    (hsound : s₀.Sound) (hreads : s₀.ReadsAgain document.documentId)
    (hno : ReadUnambiguously T tenant ports.tryParsePrintedDate ⟨document.documentId, document.orgId⟩
      ⟨.remittance_advice, reading.advice⟩ none s₀) :
    Numbered faults (At faults 0 s₀) (readDocumentJob T tenant ports input)
      (fun _ _ s => Left T tenant ports document reading faults s₀ s)
      fun _ s => Left T tenant ports document reading faults s₀ s := by
  have hnumber : recordingCall ports document reading s₀ = 3 + callsOnRecord document s₀ + 2 +
    (readableOf ports document s₀).2.1 + 2 + (modelCallsOf ports document reading s₀).length + 1 := rfl
  have hrelease : ∀ {α : Type} (f : Store → α),
      Numbered faults (fun _ s => Left T tenant ports document reading faults s₀ s) (ask f)
        (fun _ _ s => Left T tenant ports document reading faults s₀ s)
        fun _ s => Left T tenant ports document reading faults s₀ s := fun f =>
    Numbered.of_triple ((ask_keeps f).post fun _ _ hs => hs.1)
  refine Numbered.bind_eq (ask_before T tenant ports reading _ (by omega) (.refl s₀)) ?_
  rw [if_neg (by rw [h.mayWrite]; nofun)]
  refine Numbered.bind_eq (ask_before T tenant ports reading _ (by omega) (.refl s₀)) ?_
  rw [h.found]
  dsimp only
  rw [if_neg (not_not.2 h.orgId)]
  refine Numbered.bind_eq (ask_before T tenant ports reading _ (by omega) (.refl s₀)) ?_
  refine Numbered.bind (M := fun _ _ s => Left T tenant ports document reading faults s₀ s)
    (Numbered.handle (M := fun _ s => Left T tenant ports document reading faults s₀ s) ?_ fun e => ?_) fun result => ?_
  · refine Numbered.bind_eq (a := none) (M := At faults (3 + callsOnRecord document s₀) s₀) ?_ ?_
    · exact Numbered.bind_eq (recordedRead_before h hreads (by omega)) (Numbered.pure fun n s hs => ⟨rfl, hs⟩)
    · refine Numbered.bind (M := fun _ _ s => Left T tenant ports document reading faults s₀ s) ?_ fun read =>
        Numbered.pure fun _ _ hs => hs
      refine Numbered.bind_eq (beforeTheRead_before h (by omega)) ?_
      rw [if_neg (by rw [h.paged]; nofun)]
      refine Numbered.bind_eq (readablePayload_before h (by omega)) ?_
      refine Numbered.bind_eq (ask_before T tenant ports reading _ (by omega) (readableOf_untouched ports document s₀)) ?_
      refine Numbered.bind_eq (ask_before T tenant ports reading _ (by omega) (readableOf_untouched ports document s₀)) ?_
      rw [h.classified, h.extracted]
      exact afterTheRead_left h hT hsound hno (by omega)
  · exact Numbered.bind (hrelease _) fun _ n s hs => hs
  · exact Numbered.bind (hrelease _) fun _ => Numbered.pure fun _ _ hs => hs

/-! ## Runs of deliveries -/

theorem deliver_left (h : AdviceDelivery T tenant ports input document reading) (hT : ∀ c, T.lower c ≠ [])
    (hsound : s₀.Sound) (hreads : s₀.ReadsAgain document.documentId)
    (hno : ReadUnambiguously T tenant ports.tryParsePrintedDate ⟨document.documentId, document.orgId⟩
      ⟨.remittance_advice, reading.advice⟩ none s₀) (faults : Faults) :
    Left T tenant ports document reading faults s₀ (deliver T tenant ports input s₀ faults) := by
  have hjob : Numbered faults _ (readDocumentJob T tenant ports input) _ _ := readDocumentJob_left h hT hsound hreads hno
  have hrun := hjob 0 s₀ ⟨rfl, rfl, fun k hk => absurd hk k.not_lt_zero⟩
  unfold deliver Calls.after
  revert hrun
  rcases readDocumentJob T tenant ports input faults 0 s₀ with ⟨r, m, s⟩
  cases r with
  | ok result => exact id
  | error e => exact id

/-- A delivery whose calls all answer is late. -/
theorem late_reliable : Late ports document reading s₀ T tenant reliable := by
  refine ⟨reading.advice.lines.length, ?_, fun _ _ => rfl⟩
  rw [List.drop_of_length_le (by rw [List.length_zipIdx])]
  exact fun entry hentry => absurd hentry List.not_mem_nil

/-- **One delivery**: lines that are settled stay so, and a store untouched is left untouched or with every line
settled. -/
theorem deliver_spared (h : AdviceDelivery T tenant ports input document reading) (hT : ∀ c, T.lower c ≠ [])
    (hsound : s₀.Sound) (hreads : s₀.ReadsAgain document.documentId)
    (hno : ReadUnambiguously T tenant ports.tryParsePrintedDate ⟨document.documentId, document.orgId⟩
      ⟨.remittance_advice, reading.advice⟩ none s₀) {s : Store} (hspared : Spared ports document reading s T tenant faults)
    (hs : s₀.Untouched s ∨ AllSettled T tenant ports ⟨document.documentId, document.orgId⟩ reading.advice s) :
    s₀.Untouched (deliver T tenant ports input s faults) ∨
      AllSettled T tenant ports ⟨document.documentId, document.orgId⟩ reading.advice (deliver T tenant ports input s faults) := by
  rcases hs with hs | hs
  · have hleft := deliver_left h hT (hs.sound hsound) (hs.readsAgain hreads) (hs.unambiguous hno) faults
    rcases hspared (hs.readsAgain hreads) with hearly | hlate
    · exact .inl (hs.trans (hleft.early hearly))
    · exact .inr (hleft.late hlate)
  · exact .inr ((readDocumentJob_keeps h (Kept.allSettled T tenant ports _ _)).after hs)

theorem deliveries_keep (h : AdviceDelivery T tenant ports input document reading) {P : Store → Prop} (hP : Kept P)
    (later : List Faults) {s : Store} (hs : P s) : P (later.foldl (deliver T tenant ports input) s) := by
  induction later generalizing s with
  | nil => exact hs
  | cons faults later ih => exact ih ((readDocumentJob_keeps h hP).after hs)

/-- **Redelivery.** Of a document that has no reading on record, whose lines over the floor are not ambiguous in the
store: after deliveries that each failed, if they read it, before the reading was on record or once the last line over
the floor had had its turn, one or more whose calls all answer leave every line settled. -/
theorem retry_settles (h : AdviceDelivery T tenant ports input document reading) (hT : ∀ c, T.lower c ≠ [])
    (hsound : s₀.Sound) (hreads : s₀.ReadsAgain document.documentId)
    (hno : ReadUnambiguously T tenant ports.tryParsePrintedDate ⟨document.documentId, document.orgId⟩
      ⟨.remittance_advice, reading.advice⟩ none s₀) (failing : List Faults)
    (hspared : ∀ before faults after, failing = before ++ faults :: after →
      Spared ports document reading (before.foldl (deliver T tenant ports input) s₀) T tenant faults) (again : Nat) :
    AllSettled T tenant ports ⟨document.documentId, document.orgId⟩ reading.advice
      ((failing ++ List.replicate (again + 1) reliable).foldl (deliver T tenant ports input) s₀) := by
  -- after each of them the store is untouched, or every line is settled
  have hfailed : ∀ before after, failing = before ++ after →
      s₀.Untouched (before.foldl (deliver T tenant ports input) s₀) ∨
        AllSettled T tenant ports ⟨document.documentId, document.orgId⟩ reading.advice
          (before.foldl (deliver T tenant ports input) s₀) := by
    intro before
    induction before using List.reverseRecOn with
    | nil => exact fun _ _ => .inl (.refl s₀)
    | append_singleton before faults ih =>
      intro after heq
      rw [List.append_assoc, List.singleton_append] at heq
      rw [List.foldl_append, List.foldl_cons, List.foldl_nil]
      exact deliver_spared h hT hsound hreads hno (hspared before faults after heq) (ih _ heq)
  -- and the first whose calls all answer settles them
  rw [List.foldl_append, List.replicate_succ, List.foldl_cons]
  refine deliveries_keep h (Kept.allSettled T tenant ports _ _) _ ?_
  rcases hfailed failing [] (List.append_nil _).symm with hs | hs
  · exact (deliver_left h hT (hs.sound hsound) (hs.readsAgain hreads) (hs.unambiguous hno) reliable).late late_reliable
  · exact (readDocumentJob_keeps h (Kept.allSettled T tenant ports _ _)).after hs

end

/-! ## A crash once the reading is recorded -/

/-- An advice of one short-paid invoice. -/
def shortAdvice : RemittanceAdvice :=
  { payer_name := none, payment_reference := none, payment_date := none
    lines := [⟨some "INV", none, none, some "$50.00", none⟩] }

def noCall : ModelCallRecord := ⟨0, 0, 0, 0, .ok, []⟩

def shortReading : Reading := ⟨.remittance_advice, shortAdvice, "v1", true, [], [], noCall⟩

/-- Models that read every document as `shortAdvice`. -/
def surePorts : Ports where
  ocr := none
  classify := fun _ => ⟨.remittance_advice, 1, noCall⟩
  extract := fun _ _ => shortReading
  openCaseFromNotice := fun _ _ => throw .unavailable
  readSpreadsheet := fun _ _ => throw .unavailable
  tryParsePrintedDate := fun _ => .error "unread"

def oneDelivery : ReadDocumentJobInput := { documentId := 1, orgId := 1, userId := 1 }

theorem oneDelivery_opens : AdviceDelivery asciiCase oneTenant surePorts oneDelivery
    ⟨1, 1, "remittance.pdf", false, some ["page".toList]⟩ shortReading where
  mayWrite := rfl
  found := rfl
  documentId := rfl
  orgId := rfl
  paged := rfl
  clean := rfl
  uploaded := rfl
  unattached := rfl
  mayOpen := rfl
  classified _ := rfl
  sure _ := (by decide +kernel : classificationIsActionable 1 (1 / 2) = true)
  extracted _ := rfl
  docType := rfl
  fits := by decide
  readable := ⟨_, rfl⟩
  store := .inr rfl

/-- The call of this number is lost. -/
def losing (call : Nat) : Faults := fun n => if n = call then some .lost else none

/-- The transaction that records the reading is lost, then a call before it, and the next delivery reads the document
again. -/
theorem oneDelivery_settled : AllSettled asciiCase oneTenant surePorts ⟨1, 1⟩ shortAdvice
    (([losing 12, losing 7] ++ List.replicate 1 reliable).foldl (deliver asciiCase oneTenant surePorts oneDelivery) {}) := by
  refine retry_settles oneDelivery_opens (fun c => List.cons_ne_nil _ _) sound_empty ?_ readUnambiguously_empty
    [losing 12, losing 7] ?_ 0
  · intro recorded hrecorded
    cases hrecorded
  · intro before faults after heq hreads
    rcases before with _ | ⟨first, _ | ⟨second, before⟩⟩
    · cases heq
      exact .inl (.inr rfl)
    · cases heq
      refine .inl (.inl ⟨7, ?_, nofun⟩)
      unfold recordingCall modelCallsOf
      rw [List.length_append, List.length_cons, List.length_singleton]
      omega
    · cases before <;> cases heq

/-- The call after that transaction is lost: the line, which a delivery opens a case for, is left neither
opened, merged nor declined. -/
theorem crash_after_recording :
    (deliver asciiCase oneTenant surePorts oneDelivery {} reliable).cases.map (·.claimId) = [some "INV".toList] ∧
    ¬ AllSettled asciiCase oneTenant surePorts ⟨1, 1⟩ shortAdvice
      ([losing 13, reliable].foldl (deliver asciiCase oneTenant surePorts oneDelivery) {}) := by
  refine ⟨by decide +kernel, fun h => ?_⟩
  have hempty : ([losing 13, reliable].foldl (deliver asciiCase oneTenant surePorts oneDelivery) {}).links = [] ∧
      ([losing 13, reliable].foldl (deliver asciiCase oneTenant surePorts oneDelivery) {}).declinedLines = [] := by
    decide +kernel
  generalize [losing 13, reliable].foldl (deliver asciiCase oneTenant surePorts oneDelivery) {} = s at h hempty
  have hpays : adviceShortPays asciiCase shortAdvice = .ok [.cents ⟨5000, by decide, by decide⟩ .printed] := by
    decide +kernel
  have hsettled := h _ hpays (⟨some "INV", none, none, some "$50.00", none⟩, 0) List.mem_cons_self
    ⟨0, "INV", none, none, ⟨5000, by decide, by decide⟩, .printed⟩ (by rfl)
  rcases hsettled with ⟨id, -, hlink⟩ | ⟨id, hlink, -⟩ | ⟨row, hrow, -⟩
  · rw [hempty.1] at hlink
    cases hlink
  · rw [hempty.1] at hlink
    cases hlink
  · rw [hempty.2] at hrow
    cases hrow

end Recouple.Pipeline
