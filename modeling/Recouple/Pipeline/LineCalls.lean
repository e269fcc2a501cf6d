import Recouple.Lib.CallNumbers
import Recouple.Pipeline.LineTurns

/-!
# The calls of the line loop

A run of the line loop depends on no failing call but its own (`lineLoop_local`), and the reading is the first turns of
its loop followed by the rest (`openCases_split`). So a reading whose first turns are all answered is, so far, the one
whose calls all answer; what follows touches nothing that those turns have settled (`restOfLines_keeps`).
-/

namespace Recouple.Pipeline
open Js FirstSeen Extraction Calls

section
variable {T : CaseTables} {tenant : Tenant} {o : Opening}

theorem mergeIntoCase_local (deductionId : CaseId) (merged : MergedLine) : Local (mergeIntoCase o deductionId merged) :=
  (Local.call _ _).bind fun _ => Local.call _ _

theorem openCaseForLine_local (claimId : Text) (line : ShortLine) (duplicate : Option (List CaseId × List Text)) :
    Local (openCaseForLine tenant o claimId line duplicate) :=
  (Local.call _ _).bind fun _ => (Local.call _ _).bind fun _ => (Local.call _ _).bind fun _ =>
    (Local.call _ _).bind fun _ => (Local.forM (fun _ => Local.call _ _) _).bind fun _ => (Local.lift _).bind fun _ =>
      (Local.call _ _).bind fun _ => (Local.call _ _).bind fun _ => Local.pure _

theorem openLine_local (claimId : Text) (line : ShortLine) (probable : Option (List CaseId)) (basis : Option (List Text)) :
    Local (openLine tenant o claimId line probable basis) := by
  refine Local.handle ((openCaseForLine_local _ _ _).bind fun _ => Local.pure _) fun e => ?_
  cases e with
  | duplicateCase existing => exact (mergeIntoCase_local _ _).bind fun _ => Local.pure _
  | _ => exact Local.throw _

theorem settleLine_local (openedHere : List CaseId) (line : ShortLine) :
    Local (settleLine T tenant o openedHere line) := by
  refine (Local.call _ _).bind fun found => (Local.lift _).bind fun resolution => ?_
  have hmerge : ∀ {deductionId : CaseId} {merged : MergedLine}, Local (do
      mergeIntoCase o deductionId merged
      pure (line.mergedResult deductionId)) := (mergeIntoCase_local _ _).bind fun _ => Local.pure _
  dsimp only
  split
  · exact hmerge
  · generalize List.find? _ _ = found?
    cases found? with
    | some legacyId => exact hmerge
    | none => exact openLine_local _ _ _ _

theorem overFloor_local (acc : LineLoop) (line : ShortLine) : Local (overFloor T tenant o acc line) := by
  refine Local.bind ?_ fun outcome => ?_
  · exact (Local.call _ _).bind fun _ => (settleLine_local _ _).bind fun _ => (Local.call _ _).bind fun _ => Local.pure _
  · dsimp only
    split
    · exact Local.pure _
    · split
      · exact (Local.call _ _).bind fun _ => Local.pure _
      · exact Local.pure _

theorem declineLine_local (acc : LineLoop) (row : RemittanceLine) (line : ShortLine) :
    Local (declineLine tenant o acc row line) := by
  unfold declineLine
  dsimp only
  split
  · exact Local.pure _
  · refine Local.handle ((Local.call _ _).bind fun _ => Local.pure _) fun e => ?_
    cases e with
    | lineProvenanceUnknown documentId => exact Local.pure _
    | _ => exact Local.throw _

theorem processLine_local (acc : LineLoop) (entry : RemittanceLine × Nat) : Local (processLine T tenant o acc entry) := by
  unfold processLine
  dsimp only
  split
  · exact Local.throw _
  · exact Local.pure _
  · split
    · exact Local.pure _
    · split
      · exact Local.pure _
      · split
        · exact overFloor_local _ _
        · exact declineLine_local _ _ _

variable {parse : Text → Except Text Text} {document : CaseOpeningDocument} {reading : CaseOpeningReading}
variable {confirmation : Option HoldConfirmation} {shortPays : List ShortPay} {faults : Faults} {P : Store → Prop}

theorem lineLoop_local (count : Nat) : Local (lineLoop T tenant parse document reading confirmation count) :=
  (Local.call _ _).bind fun _ => (Local.lift _).bind fun _ => Local.foldlM (fun _ _ => processLine_local _ _) _ _

/-- The loop, once every line has its short-pay. -/
theorem lineLoop_eq (hpays : adviceShortPays T reading.advice = .ok shortPays) (count : Nat) :
    lineLoop T tenant parse document reading confirmation count = (do
      ask fun _ => ()
      (reading.advice.lines.zipIdx.take count).foldlM
        (processLine T tenant (openingOf T tenant parse document reading confirmation shortPays)) {}) := by
  unfold lineLoop
  rw [hpays]
  rfl

/-- What a reading does after the first turns of its loop. -/
def restOfLines (T : CaseTables) (tenant : Tenant) (parse : Text → Except Text Text) (document : CaseOpeningDocument)
    (reading : CaseOpeningReading) (confirmation : Option HoldConfirmation) (shortPays : List ShortPay) (count : Nat)
    (acc : LineLoop) : Program RemittanceRead := do
  let done ← (reading.advice.lines.zipIdx.drop count).foldlM
    (processLine T tenant (openingOf T tenant parse document reading confirmation shortPays)) acc
  let read : RemittanceRead := ⟨done.opened, done.mergedInto, done.lines⟩
  reportLinesProcessed document reading.docType read
  pure read

theorem openCases_split (hpays : adviceShortPays T reading.advice = .ok shortPays) (count : Nat) :
    openCasesFromRemittance T tenant parse document reading confirmation =
      lineLoop T tenant parse document reading confirmation count >>=
        restOfLines T tenant parse document reading confirmation shortPays count := by
  have hlength : reading.advice.lines.zipIdx.take reading.advice.lines.length =
      reading.advice.lines.zipIdx.take count ++ reading.advice.lines.zipIdx.drop count := by
    rw [List.take_append_drop]
    exact List.take_of_length_le (by rw [List.length_zipIdx])
  unfold openCasesFromRemittance restOfLines
  rw [lineLoop_eq hpays, lineLoop_eq hpays, hlength]
  simp only [List.foldlM_append, LawfulMonad.bind_assoc]

/-- The rest of a reading keeps what is kept, whatever calls fail. -/
theorem restOfLines_keeps (hP : Kept P) (hpays : adviceShortPays T reading.advice = .ok shortPays) (count : Nat)
    (acc : LineLoop) :
    Triple faults P (restOfLines T tenant parse document reading confirmation shortPays count acc) (fun _ => P)
      (fun _ => P) := by
  refine Triple.bind (M := fun _ => P) ?_ fun done => ?_
  · refine Triple.foldlM (I := fun _ _ => P) fun done entry rest hrows acc' => ?_
    refine ((processLine_triple hP (fun _ _ hs => hs) (fun _ _ _ hs _ => hs) ?_).post fun _ _ h => h.1)
    have hentry : entry ∈ reading.advice.lines.zipIdx := by
      refine List.mem_of_mem_drop (i := count) ?_
      rw [hrows]
      exact List.mem_append_right _ List.mem_cons_self
    obtain ⟨row, index⟩ := entry
    show index < shortPays.length
    rw [shortPays_length hpays]
    exact (List.mem_zipIdx' hentry).1
  · refine Triple.bind (M := fun _ => P) (Triple.forM fun id => ?_) fun _ => Triple.pure fun _ hs => hs
    exact event_keeps _ hP fun _ _ hs => hs

end

end Recouple.Pipeline
