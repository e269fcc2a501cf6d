import Recouple.Lib.KeyedFold
import Recouple.Qbo.PaymentSplit

/-!
# What the lines of a payment say, whatever their order

A line reads alike wherever it stands: only its path differs (`readPaymentLine_moved`). So a row whose lines
come in another order reads as the same lines in another order (`readPaymentLines_reordered`).
-/

namespace Recouple.Qbo
open Js KeyedFold

/-- The line without the place it was read from. -/
def PaymentLine.placeless (line : PaymentLine) : PaymentLine := { line with path := [] }

theorem refuseTwo_ok {what : String} {ids : List Text} {path : Text} :
    refuseTwo what ids path = .ok () ↔ ids.length ≤ 1 := by
  unfold refuseTwo
  split_ifs with h
  · simp [malformed]
    omega
  · simp
    omega

theorem readLink_moved {p p' : Text} {raw : Value} {link : Option (TxnType × Text)} (h : readLink p raw = .ok link) :
    readLink p' raw = .ok link := by
  unfold readLink at h ⊢
  obtain ⟨o, ho, h⟩ := bind_ok.1 h
  obtain ⟨t, ht, h⟩ := bind_ok.1 h
  rw [readObject_ok] at ho
  rw [readString_ok] at ht
  rw [readObject_ok.2 ho]
  refine bind_ok.2 ⟨o, rfl, ?_⟩
  rw [readString_ok.2 ht]
  refine bind_ok.2 ⟨t, rfl, ?_⟩
  cases hk : txnTypeOf t with
  | none =>
    rw [hk] at h
    exact h
  | some kind =>
    rw [hk] at h
    obtain ⟨id, hid, h⟩ := bind_ok.1 h
    rw [readString_ok] at hid
    exact bind_ok.2 ⟨id, readString_ok.2 hid, h⟩

/-- Links read alike from any path. -/
theorem readLinks_moved {p p' : Nat → Text} : ∀ {rawLinks : List Value} {n : Nat} {links : List (Option (TxnType × Text))},
    ((rawLinks.zipIdx n).mapM fun (raw, i) => readLink (p i) raw) = .ok links →
      ((rawLinks.zipIdx n).mapM fun (raw, i) => readLink (p' i) raw) = .ok links
  | [], n, links, h => h
  | raw :: rawLinks, n, links, h => by
    rw [List.zipIdx_cons, List.mapM_cons] at h ⊢
    obtain ⟨link, hlink, h⟩ := bind_ok.1 h
    obtain ⟨rest, hrest, h⟩ := bind_ok.1 h
    exact bind_ok.2 ⟨link, readLink_moved hlink, bind_ok.2 ⟨rest, readLinks_moved hrest, h⟩⟩

variable {T : CaseTables}

/-- **A line reads alike from any place.** -/
theorem readPaymentLine_moved {p : Text} (p' : Text) {raw : Value} {line : PaymentLine}
    (h : readPaymentLine T p raw = .ok line) : readPaymentLine T p' raw = .ok { line with path := p' } := by
  unfold readPaymentLine at h ⊢
  obtain ⟨o, ho, h⟩ := bind_ok.1 h
  obtain ⟨amount, hamount, h⟩ := bind_ok.1 h
  obtain ⟨rawLinks, hraw, h⟩ := bind_ok.1 h
  obtain ⟨links, hlinks, h⟩ := bind_ok.1 h
  obtain ⟨u, hi, h⟩ := bind_ok.1 h
  obtain ⟨u', hm, h⟩ := bind_ok.1 h
  obtain ⟨u'', hc, h⟩ := bind_ok.1 h
  rw [refuseTwo_ok] at hi hm hc
  cases h
  refine bind_ok.2 ⟨o, readObject_ok.2 (readObject_ok.1 ho), bind_ok.2 ⟨amount,
    qboAmountToCents_ok.2 (qboAmountToCents_ok.1 hamount), bind_ok.2 ⟨rawLinks, readArray_ok.2 (readArray_ok.1 hraw),
    bind_ok.2 ⟨links, readLinks_moved hlinks, bind_ok.2 ⟨(), refuseTwo_ok.2 hi, bind_ok.2 ⟨(), refuseTwo_ok.2 hm,
      bind_ok.2 ⟨(), refuseTwo_ok.2 hc, rfl⟩⟩⟩⟩⟩⟩⟩

/-- A line links a credit memo or a journal entry, not both. -/
def PaymentLine.OneCredit (line : PaymentLine) : Prop := line.creditMemoId = none ∨ line.journalEntryId = none

theorem readPaymentLine_oneCredit {p : Text} {raw : Value} {line : PaymentLine}
    (h : readPaymentLine T p raw = .ok line) : line.OneCredit := by
  unfold readPaymentLine at h
  obtain ⟨o, -, h⟩ := bind_ok.1 h
  obtain ⟨amount, -, h⟩ := bind_ok.1 h
  obtain ⟨rawLinks, -, h⟩ := bind_ok.1 h
  obtain ⟨links, -, h⟩ := bind_ok.1 h
  obtain ⟨u, -, h⟩ := bind_ok.1 h
  obtain ⟨u', -, h⟩ := bind_ok.1 h
  obtain ⟨u'', hc, h⟩ := bind_ok.1 h
  rw [refuseTwo_ok, List.length_append] at hc
  cases h
  unfold PaymentLine.OneCredit
  simp only [List.head?_eq_none_iff, ← List.length_eq_zero_iff]
  omega

/-! ## The lines of a row -/

/-- What a raw line says, without its place. -/
def lineOf (T : CaseTables) (raw : Value) : Option PaymentLine := (readPaymentLine T [] raw).toOption

theorem readPaymentLine_ok {p : Text} {raw : Value} {line : PaymentLine} : readPaymentLine T p raw = .ok line ↔
    lineOf T raw = some line.placeless ∧ line.path = p := by
  unfold lineOf
  constructor
  · intro h
    refine ⟨by rw [readPaymentLine_moved [] h]; rfl, ?_⟩
    unfold readPaymentLine at h
    simp only [bind_ok] at h
    obtain ⟨_, -, _, -, _, -, _, -, _, -, _, -, _, -, h⟩ := h
    cases h
    rfl
  · rintro ⟨h, rfl⟩
    cases hr : readPaymentLine T [] raw with
    | error e =>
      rw [hr] at h
      cases h
    | ok l =>
      rw [hr] at h
      cases h
      have hmoved := readPaymentLine_moved line.path hr
      exact hmoved

theorem readLines_ok {p : Nat → Text} : ∀ {items : List Value} {n : Nat} {lines : List PaymentLine},
    ((items.zipIdx n).mapM fun (raw, i) => readPaymentLine T (p i) raw) = .ok lines →
      lines.map (some ·.placeless) = items.map (lineOf T)
  | [], n, lines, h => by
    cases h
    rfl
  | raw :: items, n, lines, h => by
    rw [List.zipIdx_cons, List.mapM_cons] at h
    obtain ⟨line, hline, h⟩ := bind_ok.1 h
    obtain ⟨rest, hrest, h⟩ := bind_ok.1 h
    cases h
    rw [List.map_cons, List.map_cons, readLines_ok hrest, (readPaymentLine_ok.1 hline).1]

theorem readLines_returns (p : Nat → Text) : ∀ {items : List Value} (n : Nat),
    (∀ raw ∈ items, (lineOf T raw).isSome) →
      ∃ lines, ((items.zipIdx n).mapM fun (raw, i) => readPaymentLine T (p i) raw) = .ok lines
  | [], _, _ => ⟨[], rfl⟩
  | raw :: items, n, h => by
    rw [List.forall_mem_cons] at h
    obtain ⟨line, hline⟩ := Option.isSome_iff_exists.1 h.1
    obtain ⟨rest, hrest⟩ := readLines_returns p (n + 1) h.2
    have hread : readPaymentLine T (p n) raw = .ok { line with path := p n } := by
      refine readPaymentLine_ok.2 ⟨?_, rfl⟩
      rw [hline]
      unfold lineOf at hline
      cases hr : readPaymentLine T [] raw with
      | error e =>
        rw [hr] at hline
        cases hline
      | ok l =>
        rw [hr] at hline
        cases hline
        rw [PaymentLine.placeless, ← (readPaymentLine_ok.1 hr).2]
    refine ⟨{ line with path := p n } :: rest, ?_⟩
    rw [List.zipIdx_cons, List.mapM_cons]
    exact bind_ok.2 ⟨_, hread, bind_ok.2 ⟨rest, hrest, rfl⟩⟩

/-- Two rows whose `Line` arrays hold the same lines, in whatever order. -/
def Reordered (row row' : JsonObject) : Prop :=
  field row' "TotalAmt" = field row "TotalAmt" ∧
    ∃ items items' : List Value, field row "Line" = some (.arr items) ∧ field row' "Line" = some (.arr items') ∧
      items.Perm items'

theorem Reordered.symm {row row' : JsonObject} (h : Reordered row row') : Reordered row' row := by
  obtain ⟨ht, items, items', hi, hi', hp⟩ := h
  exact ⟨ht.symm, items', items, hi', hi, hp.symm⟩

/-- **Reordered lines read as reordered lines.** -/
theorem readPaymentLines_reordered {row row' : JsonObject} {path : Text} (path' : Text) (h : Reordered row row')
    {lines : List PaymentLine} (hl : readPaymentLines T row path = .ok lines) :
    ∃ lines', readPaymentLines T row' path' = .ok lines' ∧
      (lines.map (·.placeless)).Perm (lines'.map (·.placeless)) := by
  obtain ⟨-, items, items', hi, hi', hp⟩ := h
  unfold readPaymentLines at hl ⊢
  obtain ⟨xs, hxs, hl⟩ := bind_ok.1 hl
  rw [readArray_ok, hi] at hxs
  obtain rfl : items = xs := by simpa using hxs
  have hlines := readLines_ok hl
  have hsome : ∀ raw ∈ items', (lineOf T raw).isSome := fun raw hraw => by
    have hmem : lineOf T raw ∈ items.map (lineOf T) := List.mem_map_of_mem (hp.mem_iff.2 hraw)
    rw [← hlines] at hmem
    obtain ⟨l, -, hl⟩ := List.mem_map.1 hmem
    rw [← hl]
    rfl
  obtain ⟨lines', hl'⟩ := readLines_returns (element (member path' "Line")) 0 hsome
  refine ⟨lines', bind_ok.2 ⟨items', readArray_ok.2 (.inr hi'), hl'⟩, ?_⟩
  have hsomes : (lines.map (some ·.placeless)).Perm (lines'.map (some ·.placeless)) := by
    rw [hlines, readLines_ok hl']
    exact hp.map _
  simpa [List.filterMap_map, Function.comp_def, List.filterMap_eq_map] using hsomes.filterMap id

/-- The lines of a row each name one credit at most. -/
theorem readPaymentLines_oneCredit {row : JsonObject} {path : Text} {lines : List PaymentLine}
    (h : readPaymentLines T row path = .ok lines) : ∀ line ∈ lines, line.OneCredit := by
  unfold readPaymentLines at h
  rw [bind_ok] at h
  obtain ⟨items, -, h⟩ := h
  have hall := mapM_forall₂ h
  clear h
  generalize items.zipIdx = placed at hall
  induction hall with
  | nil => exact fun line hline => absurd hline List.not_mem_nil
  | cons hline _ ih => exact List.forall_mem_cons.2 ⟨readPaymentLine_oneCredit hline, ih⟩

end Recouple.Qbo
