import Mathlib
import Recouple.Extraction.PagedRead
import Recouple.Extraction.PagingMerge

/-!
# A paged read stops and covers the document

The ranges read and the ranges still to read are at every turn a partition of the document's pages
(`Partition`); the calls made and still promised to the wave never pass the cap. So the loops stop, and
what they join is the whole document, each page once (`readsInPages_covers_iff`).

The loops stop because a batch takes at least one range, and that is the one thing about a policy that
nothing checks: with no concurrency the `for` stays where it is (`not_readsInPages`).
-/

namespace Recouple.Extraction
open Js FirstSeen Loop

/-! ## Partitions of the pages -/

/-- Ranges of pages that cover pages `first` to `last`, each page once. -/
structure Partition (first last : Int) (ranges : List PageRange) : Prop where
  apart : ranges.Pairwise PageRange.Apart
  pages : ∀ r ∈ ranges, r.first ≤ r.last
  covers : ∀ p, (∃ r ∈ ranges, r.first ≤ p ∧ p ≤ r.last) ↔ first ≤ p ∧ p ≤ last

/-- The range is part of the other, and not all of it. -/
structure PageRange.Inside (a b : PageRange) : Prop where
  first : b.first ≤ a.first
  last : a.last ≤ b.last
  ne : a ≠ b

theorem Partition.perm {first last : Int} {l l' : List PageRange} (h : Partition first last l)
    (hp : l.Perm l') : Partition first last l' := by
  refine ⟨hp.pairwise h.apart fun hab => hab.symm, fun r hr => h.pages r (hp.mem_iff.2 hr), fun p => ?_⟩
  rw [← h.covers p]
  simp only [hp.mem_iff]

theorem halveRange_eq_some {r a b : PageRange} (h : halveRange r = some (a, b)) :
    a.first = r.first ∧ a.first ≤ a.last ∧ b.first = a.last + 1 ∧ b.first ≤ b.last ∧ b.last = r.last := by
  unfold halveRange at h
  split at h
  · cases h
  · cases h
    dsimp only
    omega

theorem halves_inside {r a b : PageRange} (h : halveRange r = some (a, b)) : a.Inside r ∧ b.Inside r := by
  obtain ⟨h1, h2, h3, h4, h5⟩ := halveRange_eq_some h
  refine ⟨⟨by omega, by omega, ?_⟩, ⟨by omega, by omega, ?_⟩⟩
  · rintro rfl; omega
  · rintro rfl; omega

theorem PageRange.Apart.inside {a b r : PageRange} (h : r.Apart b) (ha : a.Inside r) : a.Apart b := by
  have := ha.first
  have := ha.last
  rcases h with h | h
  · exact .inl (by omega)
  · exact .inr (by omega)

/-- A range replaced by its halves leaves a partition. -/
theorem Partition.halve {first last : Int} {r a b : PageRange} {l : List PageRange}
    (h : Partition first last (r :: l)) (hr : halveRange r = some (a, b)) :
    Partition first last (a :: b :: l) := by
  obtain ⟨h1, h2, h3, h4, h5⟩ := halveRange_eq_some hr
  obtain ⟨ha, hb⟩ := halves_inside hr
  obtain ⟨hrl, hl⟩ := List.pairwise_cons.1 h.apart
  refine ⟨?_, ?_, fun p => ?_⟩
  · rw [List.pairwise_cons, List.pairwise_cons]
    refine ⟨fun x hx => ?_, fun x hx => (hrl x hx).inside hb, hl⟩
    rcases List.mem_cons.1 hx with rfl | hx
    · exact .inl (by omega)
    · exact (hrl x hx).inside ha
  · intro x hx
    rcases List.mem_cons.1 hx with rfl | hx
    · exact h2
    rcases List.mem_cons.1 hx with rfl | hx
    · exact h4
    · exact h.pages x (by simp [hx])
  · rw [← h.covers p]
    constructor
    · rintro ⟨x, hx, hp⟩
      rcases List.mem_cons.1 hx with rfl | hx
      · exact ⟨r, by simp, by omega, by omega⟩
      rcases List.mem_cons.1 hx with rfl | hx
      · exact ⟨r, by simp, by omega, by omega⟩
      · exact ⟨x, by simp [hx], hp⟩
    · rintro ⟨x, hx, hp⟩
      rcases List.mem_cons.1 hx with rfl | hx
      · by_cases hpa : p ≤ a.last
        · exact ⟨a, by simp, by omega, hpa⟩
        · exact ⟨b, by simp, by omega, by omega⟩
      · exact ⟨x, by simp [hx], hp⟩

theorem Partition.nil {first last : Int} (h : last < first) : Partition first last [] :=
  ⟨.nil, by simp, fun p => ⟨by simp, fun hp => by omega⟩⟩

/-- A range in front of a partition of the pages after it. -/
theorem Partition.cons {first last : Int} {r : PageRange} {l : List PageRange} (hf : r.first = first)
    (hr : r.first ≤ r.last) (hl : r.last ≤ last) (h : Partition (r.last + 1) last l) :
    Partition first last (r :: l) := by
  have hafter : ∀ x ∈ l, r.last < x.first := by
    intro x hx
    have := ((h.covers x.first).1 ⟨x, hx, le_rfl, h.pages x hx⟩).1
    omega
  refine ⟨List.pairwise_cons.2 ⟨fun x hx => .inl (hafter x hx), h.apart⟩, ?_, fun p => ?_⟩
  · intro x hx
    rcases List.mem_cons.1 hx with rfl | hx
    · exact hr
    · exact h.pages x hx
  · have hc := h.covers p
    simp only [List.mem_cons, exists_eq_or_imp, hc]
    omega

/-! ## The plan -/

/-- How many parts a plan has: the pages over the pages a part, rounded up. -/
def partsOf (pageCount pagesPerChunk : Int) : Int := (pageCount + pagesPerChunk - 1) / pagesPerChunk

theorem planFrom_of_lt {pageCount first : Int} (k : Int) (h : pageCount < first) :
    ∀ fuel, planFrom pageCount k fuel first = []
  | 0 => rfl
  | fuel + 1 => by rw [planFrom, if_neg (by omega)]

theorem planFrom_partition {pageCount k : Int} (hk : 1 ≤ k) : ∀ (fuel : Nat) (first : Int),
    pageCount - first + 1 ≤ fuel → Partition first pageCount (planFrom pageCount k fuel first)
  | 0, first, hf => Partition.nil (by omega)
  | fuel + 1, first, hf => by
    rw [planFrom]
    split
    · have hrest : Partition (first + k) pageCount (planFrom pageCount k fuel (first + k)) :=
        planFrom_partition hk fuel (first + k) (by omega)
      by_cases hlast : pageCount ≤ first + k - 1
      · rw [min_eq_left hlast, planFrom_of_lt k (by omega)]
        refine Partition.cons rfl (by dsimp only; omega) le_rfl (Partition.nil ?_)
        dsimp only
        omega
      · rw [min_eq_right (by omega)]
        refine Partition.cons rfl (by dsimp only; omega) (by dsimp only; omega) ?_
        simpa using hrest
    · exact Partition.nil (by omega)

theorem planFrom_length {pageCount k : Int} (hk : 1 ≤ k) : ∀ (fuel : Nat) (first : Int),
    pageCount - first + 1 ≤ fuel → first ≤ pageCount + k →
      ((planFrom pageCount k fuel first).length : Int) = partsOf (pageCount - first + 1) k
  | 0, first, hf, hl => by
    rw [partsOf, Int.ediv_eq_zero_of_lt (by omega) (by omega)]; rfl
  | fuel + 1, first, hf, hl => by
    rw [planFrom]
    split
    · have hrest : ((planFrom pageCount k fuel (first + k)).length : Int) = _ :=
        planFrom_length hk fuel (first + k) (by omega) (by omega)
      rw [partsOf] at hrest ⊢
      rw [show pageCount - first + 1 + k - 1 = pageCount - (first + k) + 1 + k - 1 + 1 * k by omega,
        Int.add_mul_ediv_right _ _ (by omega), ← hrest, List.length_cons]
      omega
    · rw [partsOf, Int.ediv_eq_zero_of_lt (by omega) (by omega)]; rfl

/-- A plan covers pages 1 to `pageCount`, in so many parts. -/
theorem planPageChunks_ok {pageCount k : Int} {plan : List PageRange} (h : planPageChunks pageCount k = .ok plan) :
    1 ≤ pageCount ∧ 1 ≤ k ∧ Partition 1 pageCount plan ∧ (plan.length : Int) = partsOf pageCount k := by
  unfold planPageChunks at h
  split at h
  · cases h
  split at h
  · cases h
  cases h
  refine ⟨by omega, by omega, planFrom_partition (by omega) _ _ (by omega), ?_⟩
  rw [planFrom_length (by omega) _ _ (by omega) (by omega)]
  congr 1
  omega

/-! ## What a turn does -/

section
variable {q : PagedRequest}

/-- One settled call that fails nothing: its range is read, or halved into the next wave. -/
theorem takeReply_cases {range : PageRange} {reply : PartReply} {s : Settled}
    (h : (takeReply range reply s).failures = []) :
    s.failures = [] ∧ (takeReply range reply s).read.asked = s.read.asked ∧
      (takeReply range reply s).read.spent.calls = s.read.spent.calls ∧
      ((∃ fields, reply.answer = .output (some fields) ∧
          (takeReply range reply s).read.readings = s.read.readings ++ [⟨range, fields⟩] ∧
          (takeReply range reply s).next = s.next) ∨
        (∃ a b, reply.answer = .max_tokens ∧ halveRange range = some (a, b) ∧
          (takeReply range reply s).read.readings = s.read.readings ∧
          (takeReply range reply s).next = s.next ++ [a, b])) := by
  unfold takeReply at h ⊢
  cases hanswer : reply.answer with
  | rejected outcome detail => simp [hanswer, Settled.fail] at h
  | refusal => simp [hanswer, Settled.fail] at h
  | max_tokens =>
    cases hhalves : halveRange range with
    | none => simp [hanswer, hhalves, Settled.fail] at h
    | some halves =>
      simp only [hanswer, hhalves] at h ⊢
      exact ⟨h, rfl, rfl, .inr ⟨halves.1, halves.2, trivial, rfl, rfl, rfl⟩⟩
  | output fields =>
    cases fields with
    | none => simp [hanswer, Settled.fail] at h
    | some fields =>
      simp only [hanswer] at h ⊢
      exact ⟨h, rfl, rfl, .inl ⟨fields, rfl, rfl, rfl⟩⟩

/-- A turn that goes on: into a wave that fits under the cap, out of one, or over a batch. -/
theorem turn_inl {phase : Phase} {s : PagedRead} {t : Phase × PagedRead} (h : turn q (phase, s) = .inl t) :
    (∃ wave, phase = .wave wave ∧ wave ≠ [] ∧ (s.spent.calls + wave.length : Int) ≤ q.policy.maxCalls ∧
        t = (.batch wave 0 [], s)) ∨
      (∃ wave at_ next, phase = .batch wave at_ next ∧ wave.length ≤ at_ ∧ t = (.wave next, s)) ∨
      (∃ wave at_ next settled, phase = .batch wave at_ next ∧ at_ < wave.length ∧
        settled = settle q.reply s.spent.calls (slice wave at_ (at_ + q.policy.concurrency))
          ⟨s.send (slice wave at_ (at_ + q.policy.concurrency)), next, []⟩ ∧
        settled.failures = [] ∧
        t = (.batch wave (at_ + q.policy.concurrency) settled.next, settled.read)) := by
  cases phase with
  | wave wave =>
    simp only [turn] at h
    split at h
    · cases h
    split at h
    · cases h
    · cases h
      exact .inl ⟨wave, rfl, ‹_›, by omega, rfl⟩
  | batch wave at_ next =>
    simp only [turn] at h
    split at h
    · split at h
      · cases h
      · rename_i hcheck
        cases h
        refine .inr (.inr ⟨wave, at_, next, _, rfl, ‹_›, rfl, ?_, rfl⟩)
        unfold checkBatch at hcheck
        split at hcheck
        · cases hcheck
        · rename_i hnone; exact List.head?_eq_none_iff.1 hnone
    · cases h
      exact .inr (.inl ⟨wave, at_, next, rfl, by omega, rfl⟩)

/-- The turn that ends the read with a result. -/
theorem turn_inr {phase : Phase} {s : PagedRead} {result : PagedResult}
    (h : turn q (phase, s) = .inr (.ok result)) :
    phase = .wave [] ∧ result.read = s ∧ mergeChunkFields s.readings (describeFields q.schema) = .ok result.merge ∧
      ∀ r ∈ result.merge.rowCounts, r.2 ≤ MAX_ROWS_PER_GROUP := by
  cases phase with
  | wave wave =>
    simp only [turn] at h
    split at h
    · rename_i hw
      rw [Sum.inr.injEq, finish] at h
      split at h
      · cases h
      rename_i merge hm
      split at h
      · cases h
      · rename_i hcap
        cases h
        refine ⟨by rw [hw], rfl, hm, fun r hr => ?_⟩
        unfold refusePastRowCap at hcap
        split at hcap
        · rename_i hnone
          have := List.find?_eq_none.1 hnone r hr
          simpa using this
        · cases hcap
    · split at h <;> cases h
  | batch wave at_ next =>
    simp only [turn] at h
    split at h
    · split at h <;> cases h
    · cases h

/-! ## What the turns keep -/

/-- Of the calls so far `k` are settled: the ranges read and the ranges open are a partition of the
pages, no range that was cut off is among them, and what is read is what was answered. -/
structure Reads (q : PagedRequest) (k : Nat) (ranges : List PageRange) (s : PagedRead) : Prop where
  partition : Partition 1 q.pageCount (s.readings.map (·.range) ++ ranges)
  cut : ∀ i < k, ∀ r, s.asked[i]? = some r → (q.reply (i + 1)).answer = .max_tokens →
    ∀ x ∈ s.readings.map (·.range) ++ ranges, x.Apart r ∨ x.Inside r
  answered : ∀ c ∈ s.readings, ∃ i, s.asked[i]? = some c.range ∧
    (q.reply (i + 1)).answer = .output (some c.fields)

theorem PageRange.Inside.trans {a b c : PageRange} (h : a.Inside b) (h' : b.Inside c) : a.Inside c := by
  have := h.first
  have := h.last
  have := h'.first
  have := h'.last
  refine ⟨by omega, by omega, ?_⟩
  rintro rfl
  have hf : a.first = b.first := by omega
  have hl : a.last = b.last := by omega
  refine h.ne ?_
  cases a
  cases b
  simp_all

/-- Settling one call keeps it. -/
theorem Reads.takeReply {k : Nat} {range : PageRange} {batch rest : List PageRange} {s : Settled}
    (h : Reads q k (s.next ++ range :: batch ++ rest) s.read) (hasked : s.read.asked[k]? = some range)
    (hnone : (Extraction.takeReply range (q.reply (k + 1)) s).failures = []) :
    Reads q (k + 1) ((Extraction.takeReply range (q.reply (k + 1)) s).next ++ batch ++ rest)
      (Extraction.takeReply range (q.reply (k + 1)) s).read := by
  obtain ⟨-, hask, -, hcase⟩ := takeReply_cases hnone
  generalize Extraction.takeReply range (q.reply (k + 1)) s = t at hask hcase ⊢
  have hopen : (s.read.readings.map (·.range) ++ (s.next ++ range :: batch ++ rest)).Perm
      (range :: (s.read.readings.map (·.range) ++ (s.next ++ (batch ++ rest)))) := by
    simpa using @List.perm_middle _ range (s.read.readings.map (·.range) ++ s.next) (batch ++ rest)
  have hpart := h.partition.perm hopen
  rcases hcase with ⟨fields, hanswer, hread, hnext⟩ | ⟨a, b, hanswer, hhalves, hread, hnext⟩
  · have hperm : (range :: (s.read.readings.map (·.range) ++ (s.next ++ (batch ++ rest)))).Perm
        (t.read.readings.map (·.range) ++ (t.next ++ batch ++ rest)) := by
      rw [hread, hnext]
      simpa using (@List.perm_middle _ range (s.read.readings.map (·.range)) (s.next ++ (batch ++ rest))).symm
    refine ⟨hpart.perm hperm, fun i hi r hr hcut x hx => ?_, fun c hc => ?_⟩
    · rw [hask] at hr
      rcases Nat.lt_succ_iff_lt_or_eq.1 hi with hi | rfl
      · exact h.cut i hi r hr hcut x (hopen.mem_iff.2 (hperm.mem_iff.2 hx))
      · rw [hanswer] at hcut; cases hcut
    · rw [hread] at hc
      rw [hask]
      rcases List.mem_append.1 hc with hc | hc
      · exact h.answered c hc
      · rw [List.mem_singleton] at hc
        subst hc
        exact ⟨k, hasked, hanswer⟩
  · have hperm : (a :: b :: (s.read.readings.map (·.range) ++ (s.next ++ (batch ++ rest)))).Perm
        (t.read.readings.map (·.range) ++ (t.next ++ batch ++ rest)) := by
      rw [hread, hnext]
      have ha := @List.perm_middle _ a (s.read.readings.map (·.range) ++ s.next) (b :: (batch ++ rest))
      have hb := @List.perm_middle _ b (s.read.readings.map (·.range) ++ s.next) (batch ++ rest)
      simpa using (ha.trans (hb.cons a)).symm
    obtain ⟨hina, hinb⟩ := halves_inside hhalves
    refine ⟨(hpart.halve hhalves).perm hperm, fun i hi r hr hcut x hx => ?_, fun c hc => ?_⟩
    · rw [hask] at hr
      have hx := hperm.mem_iff.2 hx
      rcases Nat.lt_succ_iff_lt_or_eq.1 hi with hi | rfl
      · -- cut off before: the range halved now was apart from it or inside it
        have hold : ∀ y ∈ range :: (s.read.readings.map (·.range) ++ (s.next ++ (batch ++ rest))),
            y.Apart r ∨ y.Inside r := fun y hy => h.cut i hi r hr hcut y (hopen.mem_iff.2 hy)
        have hhalf : ∀ y : PageRange, y.Inside range → y.Apart r ∨ y.Inside r := by
          intro y hy
          rcases hold range (by simp) with hap | hin
          · exact .inl (hap.inside hy)
          · exact .inr (hy.trans hin)
        rcases List.mem_cons.1 hx with rfl | hx
        · exact hhalf _ hina
        rcases List.mem_cons.1 hx with rfl | hx
        · exact hhalf _ hinb
        · exact hold x (List.mem_cons_of_mem _ hx)
      · -- cut off now: its halves are inside it, every other range apart from it
        rw [hasked] at hr
        cases hr
        rcases List.mem_cons.1 hx with rfl | hx
        · exact .inr hina
        rcases List.mem_cons.1 hx with rfl | hx
        · exact .inr hinb
        · exact .inl ((List.pairwise_cons.1 hpart.apart).1 x hx).symm
    · rw [hread] at hc
      rw [hask]
      exact h.answered c hc

theorem settle_failures {reply : Nat → PartReply} : ∀ {batch : List PageRange} {call : Nat} {s : Settled},
    (settle reply call batch s).failures = [] → s.failures = []
  | [], _, _, h => h
  | _ :: _, _, _, h => (takeReply_cases (settle_failures h)).1

/-- Settling a batch that fails nowhere keeps it. -/
theorem Reads.settle {rest : List PageRange} : ∀ {batch : List PageRange} {k : Nat} {s : Settled},
    Reads q k (s.next ++ batch ++ rest) s.read →
    (∀ i r, batch[i]? = some r → s.read.asked[k + i]? = some r) →
    (Extraction.settle q.reply (k + 1) batch s).failures = [] →
    Reads q (k + batch.length) ((Extraction.settle q.reply (k + 1) batch s).next ++ rest)
        (Extraction.settle q.reply (k + 1) batch s).read ∧
      (Extraction.settle q.reply (k + 1) batch s).read.asked = s.read.asked ∧
      (Extraction.settle q.reply (k + 1) batch s).read.spent.calls = s.read.spent.calls
  | [], k, s, h, _, _ => by
    rw [List.append_nil] at h
    exact ⟨h, rfl, rfl⟩
  | range :: batch, k, s, h, hasked, hnone => by
    have hfirst := @settle_failures _ batch _ _ hnone
    obtain ⟨-, hask, hcalls, -⟩ := takeReply_cases hfirst
    have hstep := h.takeReply (hasked 0 range rfl) hfirst
    obtain ⟨hreads, hask', hcalls'⟩ := Reads.settle hstep
      (fun i r hi => by
        rw [hask, Nat.add_assoc, Nat.add_comm 1 i]
        exact hasked (i + 1) r hi)
      hnone
    refine ⟨?_, hask'.trans hask, hcalls'.trans hcalls⟩
    rw [List.length_cons, Nat.add_comm batch.length 1, ← Nat.add_assoc]
    exact hreads

/-- The ranges not read yet. -/
def openOf : Phase → List PageRange
  | .wave wave => wave
  | .batch wave at_ next => next ++ wave.drop at_.toNat

/-- The calls made, and the calls the wave will still make. -/
def promised : Phase × PagedRead → Nat
  | (.wave _, s) => s.spent.calls
  | (.batch wave at_ _, s) => s.spent.calls + (wave.drop at_.toNat).length

/-- The calls made and promised stay under the cap; the head of the first wave has not asked yet. -/
def InBudget (q : PagedRequest) : Phase × PagedRead → Prop
  | (.wave wave, s) => wave = [] → (s.spent.calls : Int) ≤ q.policy.maxCalls
  | (.batch wave at_ next, s) => 0 ≤ at_ ∧ (promised (.batch wave at_ next, s) : Int) ≤ q.policy.maxCalls

/-- What every turn of a read keeps. -/
structure Sound (q : PagedRequest) (t : Phase × PagedRead) : Prop where
  reads : Reads q t.2.asked.length (openOf t.1) t.2
  calls : t.2.spent.calls = t.2.asked.length + 1
  budget : InBudget q t

/-- What every turn makes smaller: the calls left, then the ranges of the wave left. -/
def left (q : PagedRequest) (t : Phase × PagedRead) : Nat ×ₗ Nat :=
  toLex ((q.policy.maxCalls - promised t).toNat,
    match t.1 with
    | .wave _ => 0
    | .batch wave at_ _ => (wave.drop at_.toNat).length + 1)

theorem slice_of_nonneg {α : Type*} {l : List α} {start stop : Int} (h : 0 ≤ start) (h' : 0 ≤ stop) :
    slice l start stop = (l.take stop.toNat).drop start.toNat := by
  simp only [slice]
  rw [if_neg (by omega), if_neg (by omega)]

/-- A batch and what the wave has after it are what the wave had before it. -/
theorem slice_append_drop {α : Type*} (l : List α) {start count : Int} (h : 0 ≤ start) (hc : 0 ≤ count) :
    slice l start (start + count) ++ l.drop (start + count).toNat = l.drop start.toNat := by
  have hstop : (start + count).toNat = start.toNat + count.toNat := by omega
  rw [slice_of_nonneg h (by omega), List.drop_take, hstop, Nat.add_sub_cancel_left, ← List.drop_drop,
    List.take_append_drop]

/-- Every turn of a read with some concurrency keeps it, and brings the read closer to its end. -/
theorem Sound.turn {t t' : Phase × PagedRead} (hc : 1 ≤ q.policy.concurrency) (h : Sound q t)
    (ht : Extraction.turn q t = .inl t') : Sound q t' ∧ left q t' < left q t := by
  obtain ⟨phase, s⟩ := t
  obtain ⟨hreads, hcalls, hbudget⟩ := h
  rcases turn_inl ht with ⟨wave, rfl, hne, hcap, rfl⟩ | ⟨wave, at_, next, rfl, hend, rfl⟩ |
    ⟨wave, at_, next, settled, rfl, hlt, hsettled, hnone, rfl⟩
  · have hpos : 0 < wave.length := List.length_pos_iff.2 hne
    refine ⟨⟨?_, hcalls, ?_⟩, ?_⟩
    · simpa [openOf] using hreads
    · refine ⟨le_rfl, ?_⟩
      simpa [promised] using hcap
    · refine Prod.Lex.toLex_lt_toLex.2 (.inl ?_)
      simp only [promised, Int.toNat_zero, List.drop_zero]
      omega
  · have hdrop : wave.drop at_.toNat = [] := List.drop_eq_nil_of_le (by omega)
    simp only [InBudget, promised, hdrop, List.length_nil] at hbudget
    refine ⟨⟨?_, hcalls, fun _ => by simpa using hbudget.2⟩, ?_⟩
    · simpa [openOf, hdrop] using hreads
    · refine Prod.Lex.toLex_lt_toLex.2 (.inr ⟨?_, ?_⟩)
      · simp [promised, hdrop]
      · simp
  · obtain ⟨hat, hcap⟩ := hbudget
    have hslice := slice_append_drop wave hat (show 0 ≤ q.policy.concurrency by omega)
    generalize hbatch : slice wave at_ (at_ + q.policy.concurrency) = batch at hslice hsettled
    have hlen : batch.length + (wave.drop (at_ + q.policy.concurrency).toNat).length =
        (wave.drop at_.toNat).length := by rw [← List.length_append, hslice]
    have hpos : 0 < batch.length := by
      rw [← hbatch, slice_of_nonneg hat (by omega), List.length_drop, List.length_take]
      omega
    have hsent : Reads q s.asked.length (next ++ batch ++ wave.drop (at_ + q.policy.concurrency).toNat)
        (s.send batch) := by
      rw [List.append_assoc, hslice]
      refine ⟨hreads.partition, fun i hi r hr => hreads.cut i hi r ?_, fun c hmem => ?_⟩
      · rwa [PagedRead.send, List.getElem?_append_left hi] at hr
      · obtain ⟨i, hi, hanswer⟩ := hreads.answered c hmem
        refine ⟨i, ?_, hanswer⟩
        rw [PagedRead.send, List.getElem?_append_left (List.getElem?_eq_some_iff.1 hi).1]
        exact hi
    have hcall : s.spent.calls = s.asked.length + 1 := hcalls
    rw [hcall] at hsettled
    have hset := Reads.settle (s := ⟨s.send batch, next, []⟩) hsent
      (fun i r hi => by
        rw [PagedRead.send, List.getElem?_append_right (Nat.le_add_right ..), Nat.add_sub_cancel_left]
        exact hi)
      (by rw [← hsettled]; exact hnone)
    rw [← hsettled] at hset
    obtain ⟨hreads', hasked', hcalls'⟩ := hset
    have hpromised : promised (.batch wave (at_ + q.policy.concurrency) settled.next, settled.read) =
        promised (.batch wave at_ next, s) := by
      simp only [promised, hcalls', PagedRead.send]
      omega
    refine ⟨⟨?_, ?_, ?_, ?_⟩, ?_⟩
    · dsimp only
      rw [hasked', PagedRead.send, List.length_append]
      exact hreads'
    · dsimp only
      rw [hcalls', hasked']
      simp only [PagedRead.send, List.length_append]
      omega
    · omega
    · rw [hpromised]; exact hcap
    · refine Prod.Lex.toLex_lt_toLex.2 (.inr ⟨by rw [hpromised], ?_⟩)
      dsimp only
      omega

theorem Partition.ne_nil {last : Int} {l : List PageRange} (h : Partition 1 last l) (hl : 1 ≤ last) : l ≠ [] := by
  rintro rfl
  simpa using (h.covers 1).2 ⟨le_rfl, hl⟩

theorem sound_start {plan : List PageRange} (h : planPageChunks q.pageCount q.policy.pagesPerChunk = .ok plan) :
    Sound q (.wave plan, .start q.first) := by
  obtain ⟨hpages, -, hplan, -⟩ := planPageChunks_ok h
  refine ⟨⟨by simpa [PagedRead.start, openOf] using hplan, ?_, ?_⟩, rfl, fun hnil => ?_⟩
  · intro i hi
    exact absurd hi (Nat.not_lt_zero i)
  · intro c hc
    exact absurd hc (by simp [PagedRead.start])
  · exact absurd hnil (hplan.ne_nil hpages)

/-- What a read that succeeds has read: the document, each page in one of the joined parts, under the
policy's cap on calls and the cap on rows; no part that was cut off is joined, nor one beside its halves. -/
structure ReadWhole (q : PagedRequest) (result : PagedResult) : Prop where
  apart : (result.read.readings.map (·.range)).Pairwise PageRange.Apart
  pages : ∀ p, (∃ c ∈ result.read.readings, c.range.first ≤ p ∧ p ≤ c.range.last) ↔ 1 ≤ p ∧ p ≤ q.pageCount
  merged : mergeChunkFields result.read.readings (describeFields q.schema) = .ok result.merge
  answered : ∀ c ∈ result.read.readings, ∃ i, result.read.asked[i]? = some c.range ∧
    (q.reply (i + 1)).answer = .output (some c.fields)
  calls : result.read.spent.calls = result.read.asked.length + 1
  callCap : (result.read.spent.calls : Int) ≤ q.policy.maxCalls
  rowCap : ∀ r ∈ result.merge.rowCounts, r.2 ≤ MAX_ROWS_PER_GROUP
  cutOff : ∀ i r, result.read.asked[i]? = some r → (q.reply (i + 1)).answer = .max_tokens →
    ∀ c ∈ result.read.readings, c.range ≠ r
  halves : ∀ c ∈ result.read.readings, ∀ a b, halveRange c.range = some (a, b) →
    ∀ d ∈ result.read.readings, d.range ≠ a ∧ d.range ≠ b

instance : Std.Symm PageRange.Apart := ⟨fun _ _ h => h.symm⟩

/-- Two ranges of a partition that share a page are one. -/
theorem Partition.eq_of_not_apart {first last : Int} {l : List PageRange} (h : Partition first last l)
    {a b : PageRange} (ha : a ∈ l) (hb : b ∈ l) (hab : ¬ a.Apart b) : a = b := by
  by_contra hne
  exact hab (h.apart.forall ha hb hne)

/-- Where the loops of a read with some concurrency end with a result, the document is read. -/
theorem Sound.whole {t : Phase × PagedRead} (h : Sound q t) {result : PagedResult}
    (ht : Extraction.turn q t = .inr (.ok result)) : ReadWhole q result := by
  obtain ⟨phase, s⟩ := t
  obtain ⟨rfl, rfl, hmerge, hrows⟩ := turn_inr ht
  obtain ⟨⟨hpart, hcut, hanswered⟩, hcalls, hbudget⟩ := h
  simp only [openOf, List.append_nil] at hpart hcut
  have hmem : ∀ {c : ChunkReading}, c ∈ result.read.readings → c.range ∈ result.read.readings.map (·.range) :=
    fun hc => List.mem_map.2 ⟨_, hc, rfl⟩
  refine ⟨hpart.apart, fun p => ?_, hmerge, hanswered, hcalls, hbudget rfl, hrows, ?_, ?_⟩
  · rw [← hpart.covers p]
    simp only [List.mem_map, exists_exists_and_eq_and]
  · rintro i r hr hanswer c hc rfl
    have hpages := hpart.pages _ (hmem hc)
    rcases hcut i (List.getElem?_eq_some_iff.1 hr).1 c.range hr hanswer _ (hmem hc) with hap | hin
    · rcases hap with hap | hap <;> omega
    · exact hin.ne rfl
  · intro c hc a b hhalves d hd
    obtain ⟨h1, h2, h3, h4, h5⟩ := halveRange_eq_some hhalves
    obtain ⟨hina, hinb⟩ := halves_inside hhalves
    constructor
    · rintro rfl
      refine hina.ne (hpart.eq_of_not_apart (hmem hd) (hmem hc) ?_)
      rintro (hap | hap) <;> omega
    · rintro rfl
      refine hinb.ne (hpart.eq_of_not_apart (hmem hd) (hmem hc) ?_)
      rintro (hap | hap) <;> omega

/-- A read with some concurrency stops, and covers the document where it succeeds. -/
theorem readsInPages_whole (hc : 1 ≤ q.policy.concurrency) :
    (∃ r, ReadsInPages q r) ∧ ∀ result, ReadsInPages q (.ok result) → ReadWhole q result := by
  unfold ReadsInPages
  cases hplan : planPageChunks q.pageCount q.policy.pagesPerChunk with
  | error e => exact ⟨⟨_, rfl⟩, fun result h => by cases h⟩
  | ok plan =>
    constructor
    · exact stops_of_measure (left q) (I := Sound q) (fun hs ht => hs.turn hc ht) (sound_start hplan)
    · intro result h
      obtain ⟨t, ht, hresult⟩ := h.inv (I := Sound q) (fun hs ht => (hs.turn hc ht).1) (sound_start hplan)
      exact ht.whole hresult

/-- A first wave past the call cap is refused, and that is the end of the read. -/
theorem readsInPages_refused {plan : List PageRange} {r : Except ReadError PagedResult}
    (hplan : planPageChunks q.pageCount q.policy.pagesPerChunk = .ok plan)
    (hcap : q.policy.maxCalls < 1 + partsOf q.pageCount q.policy.pagesPerChunk) :
    ReadsInPages q r ↔ r = .error (pastCallCap q (.start q.first) plan.length) := by
  obtain ⟨hpages, -, hpart, hlen⟩ := planPageChunks_ok hplan
  have hturn : turn q (.wave plan, .start q.first) =
      .inr (.error (pastCallCap q (.start q.first) plan.length)) := by
    rw [turn, if_neg (hpart.ne_nil hpages), if_pos]
    simp only [PagedRead.start]
    omega
  rw [ReadsInPages, hplan]
  constructor
  · intro h
    cases h with
    | last hr => rw [hturn] at hr; cases hr; rfl
    | turn hb _ => rw [hturn] at hb; cases hb
  · rintro rfl
    exact .last hturn

/-! ## No concurrency -/

/-- A call that reports no rows. -/
def noRows : PartReply := ⟨⟨0, 0, 0, 0⟩, .output (some [])⟩

theorem settle_noRows : ∀ (batch : List PageRange) (call : Nat) (s : Settled),
    (settle (fun _ => noRows) call batch s).failures = s.failures ∧
      (settle (fun _ => noRows) call batch s).next = s.next ∧
      (settle (fun _ => noRows) call batch s).read.readings = s.read.readings ++ batch.map (⟨·, []⟩)
  | [], _, s => ⟨rfl, rfl, by simp [settle]⟩
  | range :: batch, call, s => by
    obtain ⟨hf, hn, hr⟩ := settle_noRows batch (call + 1) (takeReply range noRows s)
    refine ⟨hf, hn, hr.trans ?_⟩
    simp [takeReply, noRows, Settled.spend]

/-- With no concurrency the first batch is some front of the wave and every later one is empty. -/
theorem slice_nonpos {α : Type*} (l : List α) {start count : Int} (hs : start ≤ 0) (hc : count ≤ 0) :
    ∃ k, slice l start (start + count) = l.take k ∧ (start < 0 ∨ count = 0 → k = 0) := by
  simp only [slice]
  rcases Int.lt_or_eq_of_le hs with hs | rfl
  · refine ⟨0, ?_, fun _ => rfl⟩
    rw [if_pos hs, if_pos (show start + count < 0 by omega), List.take_zero]
    refine List.drop_eq_nil_of_le ((List.length_take_le ..).trans ?_)
    omega
  · rcases Int.lt_or_eq_of_le hc with hc | rfl
    · refine ⟨(l.length + count).toNat, ?_, fun h => by omega⟩
      rw [Int.zero_add, if_pos hc]
      rfl
    · exact ⟨0, rfl, fun _ => rfl⟩

/-- Where the `for` stands while it makes no way: before its wave, with a front of it read at most. -/
def Stuck (plan : List PageRange) (t : Phase × PagedRead) : Prop :=
  ∃ at_ k s, t = (.batch plan at_ [], s) ∧ at_ ≤ 0 ∧ s.readings = (plan.take k).map (⟨·, []⟩) ∧ (at_ = 0 → k = 0)

theorem stuck_turn {plan : List PageRange} {last : Int} (hreply : q.reply = fun _ => noRows)
    (hc : q.policy.concurrency ≤ 0) (hpart : Partition 1 last plan) (hne : plan ≠ [])
    (t : Phase × PagedRead) (h : Stuck plan t) : ∃ t', turn q t = .inl t' ∧ Stuck plan t' := by
  obtain ⟨at_, k, s, rfl, hat, hread, hk⟩ := h
  have hpos : 0 < plan.length := List.length_pos_iff.2 hne
  obtain ⟨k', hslice, hk'⟩ := slice_nonpos plan hat hc
  obtain ⟨hf, hn, hr⟩ := settle_noRows (plan.take k') s.spent.calls ⟨s.send (plan.take k'), [], []⟩
  -- read so far: the front read before, or the one read now
  have hfront : ∃ k, (settle (fun _ => noRows) s.spent.calls (plan.take k')
      ⟨s.send (plan.take k'), [], []⟩).read.readings = (plan.take k).map (⟨·, []⟩) ∧
      (at_ + q.policy.concurrency = 0 → k = 0) := by
    rw [hr]
    rcases Int.lt_or_eq_of_le hat with hlt | rfl
    · rw [hk' (.inl hlt), List.take_zero, List.map_nil, List.append_nil]
      exact ⟨k, hread, fun h => by omega⟩
    · refine ⟨k', ?_, fun h => hk' (.inr (by omega))⟩
      rw [show (s.send (plan.take k')).readings = s.readings from rfl, hread, hk rfl]
      rfl
  obtain ⟨k₂, hreadings, hk₂⟩ := hfront
  have hover : NonOverlapping ((plan.take k₂).map fun r => (⟨r, []⟩ : ChunkReading)) := by
    refine ⟨fun c hmem => ?_, ?_⟩
    · obtain ⟨r, hr, rfl⟩ := List.mem_map.1 hmem
      exact hpart.pages r (List.mem_of_mem_take hr)
    · rw [List.pairwise_map]
      exact hpart.apart.sublist (List.take_sublist ..)
  obtain ⟨m, hm, hcounts⟩ := @mergeChunkFields_empty q.schema _ hover (fun c hmem => by
    obtain ⟨r, -, rfl⟩ := List.mem_map.1 hmem
    rfl)
  have hcap : refusePastRowCap q.first (settle (fun _ => noRows) s.spent.calls (plan.take k')
      ⟨s.send (plan.take k'), [], []⟩).read m = .ok () := by
    have hnone : ∀ {p : Text × Nat → Bool}, (∀ r ∈ m.rowCounts, p r = false) → m.rowCounts.find? p = none :=
      fun hp => List.find?_eq_none.2 fun r hr => by simp [hp r hr]
    rw [refusePastRowCap, hnone fun r hr => by simp [hcounts r hr]]
  have hcheck : checkBatch q (settle (fun _ => noRows) s.spent.calls (plan.take k')
      ⟨s.send (plan.take k'), [], []⟩) = .ok () := by
    simp only [checkBatch, hf, List.head?_nil, hreadings, hm, hcap]
  refine ⟨_, ?_, at_ + q.policy.concurrency, k₂, _, rfl, by omega, hreadings, hk₂⟩
  simp only [turn]
  rw [if_pos (by omega), hslice, hreply, hcheck, hn]

/-- Without concurrency the read of a plan that fits under the cap need not stop: parts that report no
rows leave the `for` where it is. -/
theorem not_readsInPages {plan : List PageRange} (hreply : q.reply = fun _ => noRows)
    (hc : q.policy.concurrency ≤ 0) (hplan : planPageChunks q.pageCount q.policy.pagesPerChunk = .ok plan)
    (hcap : 1 + partsOf q.pageCount q.policy.pagesPerChunk ≤ q.policy.maxCalls)
    (r : Except ReadError PagedResult) : ¬ ReadsInPages q r := by
  obtain ⟨hpages, -, hpart, hlen⟩ := planPageChunks_ok hplan
  have hne := hpart.ne_nil hpages
  have hturn : turn q (.wave plan, .start q.first) = .inl (.batch plan 0 [], .start q.first) := by
    rw [turn, if_neg hne, if_neg]
    simp only [PagedRead.start]
    omega
  rw [ReadsInPages, hplan]
  intro h
  cases h with
  | last hr => rw [hturn] at hr; cases hr
  | turn hb hrest =>
    rw [hturn] at hb
    cases hb
    exact not_stops (I := Stuck plan) (fun t ht => stuck_turn hreply hc hpart hne t ht)
      ⟨0, 0, _, rfl, le_rfl, rfl, fun _ => rfl⟩ hrest

end

/-- **A paged read stops and covers the document**, whatever the replies, exactly where the policy asks
for some concurrency, or where nothing is asked for at all: no pages, no part size, or a plan past the cap
on calls. -/
theorem readsInPages_covers_iff (pageCount : Nat) (schema : List SchemaProperty) (policy : PagingPolicy)
    (first : Usage) :
    (∀ reply, (∃ r, ReadsInPages ⟨pageCount, schema, policy, first, reply⟩ r) ∧
      ∀ result, ReadsInPages ⟨pageCount, schema, policy, first, reply⟩ (.ok result) →
        ReadWhole ⟨pageCount, schema, policy, first, reply⟩ result) ↔
    1 ≤ policy.concurrency ∨ pageCount < 1 ∨ policy.pagesPerChunk < 1 ∨
      policy.maxCalls < 1 + partsOf pageCount policy.pagesPerChunk := by
  constructor
  · intro h
    by_contra hnot
    simp only [not_or, not_le, not_lt] at hnot
    obtain ⟨hc, hpages, hsize, hcap⟩ := hnot
    obtain ⟨⟨r, hr⟩, -⟩ := h fun _ => noRows
    have hplan : planPageChunks pageCount policy.pagesPerChunk =
        .ok (planFrom pageCount policy.pagesPerChunk (pageCount : Int).toNat 1) := by
      rw [planPageChunks, if_neg (by omega), if_neg (by omega)]
    exact not_readsInPages (q := ⟨pageCount, schema, policy, first, fun _ => noRows⟩) rfl
      (Int.lt_add_one_iff.1 hc) hplan hcap r hr
  · intro h reply
    rcases h with hc | hplan
    · exact readsInPages_whole (q := ⟨pageCount, schema, policy, first, reply⟩) hc
    cases hp : planPageChunks pageCount policy.pagesPerChunk with
    | error e =>
      refine ⟨⟨.error (.range e), ?_⟩, fun result hr => ?_⟩
      · simp only [ReadsInPages, hp]
      · simp only [ReadsInPages, hp] at hr
        cases hr
    | ok plan =>
      obtain ⟨hpages, hsize, -, -⟩ := planPageChunks_ok hp
      have hcap : policy.maxCalls < 1 + partsOf pageCount policy.pagesPerChunk := by omega
      have hrefused := fun r => readsInPages_refused (q := ⟨pageCount, schema, policy, first, reply⟩) (r := r) hp hcap
      refine ⟨⟨_, (hrefused _).2 rfl⟩, fun result hr => ?_⟩
      have := (hrefused _).1 hr
      cases this

/-- Five pages at no concurrency: nothing refuses the policy, and the read of parts that report no rows
never stops. -/
theorem noConcurrency_never_stops :
    ¬ ∃ r, ReadsInPages ⟨5, payerAndLines, { PAGING_POLICY with concurrency := 0 }, ⟨0, 0, 0, 0⟩,
      fun _ => noRows⟩ r := by
  rintro ⟨r, hr⟩
  exact not_readsInPages (q := ⟨5, payerAndLines, { PAGING_POLICY with concurrency := 0 }, ⟨0, 0, 0, 0⟩,
    fun _ => noRows⟩) rfl le_rfl rfl (by decide) r hr

end Recouple.Extraction
