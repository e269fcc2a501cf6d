import Recouple.Database.Merges
import Recouple.Lib.DistinctOn
import Recouple.Lib.Double
import Recouple.Lib.Number

/-!
# The pairs a person has to answer: `workflow.ts` (1605-1840), 0032 (78-103, 209-227)

| here | there |
| --- | --- |
| `standing` | `duplicate_pair_verdicts` where `verdict is not null` |
| `namedRows`, `query` | the statement of `possibleDuplicates` |
| `candidate`, `olderFirst`, `basisOf` | 1660, 1733, 1691 |
| `possibleDuplicates` | 1747 |
| `IsOpen` | a pair that is to be answered, with its latest event |

* **`possible_duplicates_latest_iff`**: the pairs listed are the latest ones exactly where the pairs whose ids come first
  are the latest, and the texts of their events' ids compare as the ids do.

The rows are those the tenant sees. Ids and times are numbers, and an `of` that is no case's id names none. Amounts are
safe cents, as they are stored; a case's columns that nothing here reads are left out.
-/

namespace Recouple.Database.PossibleDuplicates
open Js DistinctOn
open Pipeline (CaseState)

/-! ## Tables -/

structure Deduction where
  id : Nat
  state : CaseState
  claim_id : Option Text
  deduction_amount_cents : Cents
  deduction_date : Option Text
  created_at : Nat
  debtor_name : Option Text
  retailer_name_as_printed : Option Text
  invoice_number : Option Text
deriving DecidableEq

inductive EventType
  | possible_duplicate
  | duplicate_confirmed
  | duplicate_dismissed
  | duplicate_verdict_withdrawn
  | other
deriving DecidableEq

/-- An event, with `payload->>'of'` and `payload->'basis'`. -/
structure Event where
  id : Nat
  deduction_id : Nat
  event_type : EventType
  of : Option Nat
  basis : Option Value
  event_time : Nat

/-- The three events a verdict is read from. -/
def EventType.isVerdict (t : EventType) : Bool :=
  t ∈ [duplicate_confirmed, duplicate_dismissed, duplicate_verdict_withdrawn]

/-- A verdict is on two cases: `recordDuplicateVerdict` refuses a case and itself, and so does a merge. -/
structure Db where
  deductions : List Deduction
  deduction_events : List Event
  deduction_merges : List Merges.Merge
  deduction_key : (deductions.map (·.id)).Nodup
  event_key : (deduction_events.map (·.id)).Nodup
  verdict_of_two : ∀ e ∈ deduction_events, e.event_type.isVerdict = true → e.of ≠ some e.deduction_id

/-! ## What the statement selects -/

/-- `(least(a, b), greatest(a, b))` -/
def pairOf (a b : Nat) : Nat ×ₗ Nat := toLex (min a b, max a b)

/-- An event that names a pair. -/
structure Named where
  event : Event
  side_a : Nat
  side_b : Nat

def Named.pair (n : Named) : Nat ×ₗ Nat := pairOf n.side_a n.side_b

/-- The events of some types that name another case. -/
def namedBy (p : EventType → Bool) (events : List Event) : List Named :=
  events.filterMap fun e => if p e.event_type then e.of.map fun other => ⟨e, e.deduction_id, other⟩ else none

section
variable (s : Db)

/-- `answered`: the latest verdict of each pair, where it is not withdrawn. -/
def standing : List Named :=
  (distinctOn Named.pair (·.event.id) (namedBy EventType.isVerdict s.deduction_events)).filter
    fun v => v.event.event_type ≠ .duplicate_verdict_withdrawn

/-- `merged_away` -/
def mergedAway : List Nat := (Merges.current s.deduction_merges).map (·.merged_deduction_id)

def find (id : Nat) : Option Deduction := Rows.lookup Deduction.id s.deductions id

/-- Whether a verdict's two ids are both among the two. -/
def covers (v : Named) (a b : Nat) : Bool :=
  (min v.side_a v.side_b = a || min v.side_a v.side_b = b) && (max v.side_a v.side_b = a || max v.side_a v.side_b = b)

/-- A row of the statement: the event and the summaries it is joined with. -/
structure PairRow where
  named : Named
  a : Deduction
  z : Deduction

def PairRow.pair (row : PairRow) : Nat ×ₗ Nat := row.named.pair

def PairRow.event_id (row : PairRow) : Nat := row.named.event.id

/-- The rows before `distinct on`. -/
def namedRows (only : Option Nat) : List PairRow :=
  (namedBy (· = .possible_duplicate) s.deduction_events).filterMap fun n => do
    let a ← find s n.side_a
    let z ← find s n.side_b
    if (standing s).any (fun v => covers v n.side_a n.side_b) then none
    else if n.side_a ∈ mergedAway s ∨ n.side_b ∈ mergedAway s then none
    else if only.all fun id => n.side_a = id || n.side_b = id then some ⟨n, a, z⟩
    else none

def query (only : Option Nat) (limit : Nat) : List PairRow :=
  (distinctOn PairRow.pair PairRow.event_id (namedRows s only)).take limit

end

/-! ## What is answered -/

structure DuplicateCandidateCase where
  deductionId : Nat
  state : CaseState
  claimId : Option Text
  invoiceNumber : Option Text
  retailer : Option Text
  retailerMatched : Bool
  deductionAmountCents : Cents
  deductionDate : Option Text
  openedAt : Nat
deriving DecidableEq

structure PossibleDuplicatePair where
  noticedAt : Nat
  basis : List Text
  older : DuplicateCandidateCase
  newer : DuplicateCandidateCase
deriving DecidableEq

def candidate (row : Deduction) : DuplicateCandidateCase where
  deductionId := row.id
  state := row.state
  claimId := row.claim_id
  invoiceNumber := row.invoice_number
  retailer := row.debtor_name.or row.retailer_name_as_printed
  retailerMatched := row.debtor_name.isSome
  deductionAmountCents := row.deduction_amount_cents
  deductionDate := row.deduction_date
  openedAt := row.created_at

def basisOf : Option Value → List Text
  | some (.arr items) => items.filterMap fun item =>
    match item with
    | .str t => some t
    | _ => none
  | _ => []

def olderFirst (left right : DuplicateCandidateCase) : DuplicateCandidateCase × DuplicateCandidateCase :=
  if left.openedAt ≠ right.openedAt then if left.openedAt < right.openedAt then (left, right) else (right, left)
  else if left.deductionId < right.deductionId then (left, right) else (right, left)

/-- The row as it is answered. -/
def describe (row : PairRow) : PossibleDuplicatePair :=
  let sides := olderFirst (candidate row.a) (candidate row.z)
  ⟨row.named.event.event_time, basisOf row.named.event.basis, sides.1, sides.2⟩

def POSSIBLE_DUPLICATES_MAX_LIMIT : Nat := 100

/-- The most recently noticed first, by the text of the event's id. -/
def newestFirst (rows : List PairRow) : List PairRow :=
  rows.insertionSort fun left right => ¬ textLt (decimal left.event_id) (decimal right.event_id)

/-- `none` is an error: the limit is no positive integer. -/
def possibleDuplicates (s : Db) (only : Option Nat) (limit : Option Int) : Option (List PossibleDuplicatePair) :=
  let limit := limit.getD POSSIBLE_DUPLICATES_MAX_LIMIT
  if limit < 1 then none
  else some ((newestFirst (query s only (min limit.toNat POSSIBLE_DUPLICATES_MAX_LIMIT))).map describe)

/-! ## What is to be answered -/

section
variable (s : Db)

/-- The latest verdict of the pair is one, and not that it is withdrawn. -/
def HasVerdict (a b : Nat) : Prop :=
  ∃ v ∈ namedBy EventType.isVerdict s.deduction_events, v.pair = pairOf a b ∧
    v.event.event_type ≠ .duplicate_verdict_withdrawn ∧
    ∀ w ∈ namedBy EventType.isVerdict s.deduction_events, w.pair = pairOf a b → w.event.id ≤ v.event.id

/-- A pair that is to be answered, with the most recent of the events that name it. -/
structure IsOpen (only : Option Nat) (row : PairRow) : Prop where
  named : row.named ∈ namedBy (· = .possible_duplicate) s.deduction_events
  latest : ∀ n ∈ namedBy (· = .possible_duplicate) s.deduction_events, n.pair = row.pair → n.event.id ≤ row.event_id
  visible_a : row.a ∈ s.deductions ∧ row.a.id = row.named.side_a
  visible_z : row.z ∈ s.deductions ∧ row.z.id = row.named.side_b
  unanswered : ¬ HasVerdict s row.named.side_a row.named.side_b
  unmerged : row.named.side_a ∉ mergedAway s ∧ row.named.side_b ∉ mergedAway s
  asked : ∀ id, only = some id → row.named.side_a = id ∨ row.named.side_b = id

/-- The rows of the pairs that were noticed last, the last one first. -/
structure IsLatest (only : Option Nat) (limit : Nat) (rows : List PairRow) : Prop where
  open_ : ∀ row ∈ rows, IsOpen s only row
  once : (rows.map PairRow.pair).Nodup
  length_le : rows.length ≤ limit
  all : rows.length < limit → ∀ row, IsOpen s only row → row ∈ rows
  greatest : ∀ row, IsOpen s only row → row ∉ rows → ∀ shown ∈ rows, row.event_id < shown.event_id
  order : rows.Pairwise fun row later => later.event_id < row.event_id

end

/-! ## The pairs to be answered -/

theorem pairOf_eq_iff {a b c d : Nat} : pairOf a b = pairOf c d ↔ a = c ∧ b = d ∨ a = d ∧ b = c := by
  unfold pairOf
  rw [toLex_inj, Prod.mk.injEq]
  omega

theorem mem_namedBy {p : EventType → Bool} {events : List Event} {n : Named} : n ∈ namedBy p events ↔
    n.event ∈ events ∧ p n.event.event_type = true ∧ n.event.of = some n.side_b ∧ n.event.deduction_id = n.side_a := by
  unfold namedBy
  rw [List.mem_filterMap]
  constructor
  · rintro ⟨e, he, h⟩
    split at h
    case isTrue hp =>
      obtain ⟨other, hof, rfl⟩ := Option.map_eq_some_iff.1 h
      exact ⟨he, hp, hof, rfl⟩
    case isFalse => cases h
  · obtain ⟨e, a, b⟩ := n
    rintro ⟨he, hp, hof, hside⟩
    dsimp only at he hp hof hside
    subst hside
    exact ⟨e, he, by rw [if_pos hp, hof]; rfl⟩

theorem nodup_namedBy {p : EventType → Bool} {events : List Event} (h : (events.map (·.id)).Nodup) :
    ((namedBy p events).map (·.event.id)).Nodup := by
  refine h.sublist (map_filterMap_sublist (fun e n hn => ?_) events)
  split at hn
  · obtain ⟨other, -, rfl⟩ := Option.map_eq_some_iff.1 hn
    rfl
  · cases hn

section
variable {s : Db} {only : Option Nat}

theorem find_iff {id : Nat} {row : Deduction} : find s id = some row ↔ row ∈ s.deductions ∧ row.id = id :=
  Rows.lookup_eq_some s.deduction_key

/-- A verdict that stands on a pair is found for that pair and no other. -/
theorem covers_standing {a b : Nat} : (standing s).any (fun v => covers v a b) = true ↔ HasVerdict s a b := by
  have hnodup := nodup_namedBy (p := EventType.isVerdict) s.event_key
  have hcovers : ∀ v ∈ namedBy EventType.isVerdict s.deduction_events, covers v a b = true ↔ v.pair = pairOf a b := by
    intro v hv
    obtain ⟨he, hverdict, hof, hside⟩ := mem_namedBy.1 hv
    have hne : v.side_a ≠ v.side_b := fun heq => s.verdict_of_two v.event he hverdict (by rw [hof, hside, heq])
    unfold covers Named.pair
    rw [pairOf_eq_iff]
    simp only [Bool.and_eq_true, Bool.or_eq_true, decide_eq_true_eq]
    omega
  unfold standing HasVerdict
  simp only [List.any_eq_true, List.mem_filter, mem_distinctOn hnodup, decide_eq_true_eq, and_assoc]
  refine exists_congr fun v => and_congr_right fun hv => ?_
  rw [hcovers v hv]
  constructor
  · rintro ⟨hlatest, hstands, hpair⟩
    exact ⟨hpair, hstands, fun w hw hwpair => hlatest w hw (hwpair.trans hpair.symm)⟩
  · rintro ⟨hpair, hstands, hlatest⟩
    exact ⟨fun w hw hwpair => hlatest w hw (hwpair.trans hpair), hstands, hpair⟩

/-- What a naming event needs to be listed, but for being the latest of its pair. -/
structure IsListed (s : Db) (only : Option Nat) (row : PairRow) : Prop where
  named : row.named ∈ namedBy (· = .possible_duplicate) s.deduction_events
  visible_a : row.a ∈ s.deductions ∧ row.a.id = row.named.side_a
  visible_z : row.z ∈ s.deductions ∧ row.z.id = row.named.side_b
  unanswered : ¬ HasVerdict s row.named.side_a row.named.side_b
  unmerged : row.named.side_a ∉ mergedAway s ∧ row.named.side_b ∉ mergedAway s
  asked : ∀ id, only = some id → row.named.side_a = id ∨ row.named.side_b = id

theorem mem_namedRows {row : PairRow} : row ∈ namedRows s only ↔ IsListed s only row := by
  have hasked : ∀ a b : Nat, (only.all fun id => a = id || b = id) = true ↔ ∀ id, only = some id → a = id ∨ b = id := by
    intro a b
    cases only with
    | none => simp
    | some id => simp
  unfold namedRows
  simp only [List.mem_filterMap, Option.bind_eq_bind, Option.bind_eq_some_iff, find_iff]
  constructor
  · rintro ⟨n, hn, a, ha, z, hz, h⟩
    split at h
    case isTrue => cases h
    case isFalse hanswered =>
      split at h
      case isTrue => cases h
      case isFalse hmerged =>
        split at h
        case isFalse => cases h
        case isTrue hall =>
          obtain rfl := Option.some.inj h
          exact ⟨hn, ha, hz, fun h => hanswered (covers_standing.2 h), not_or.1 hmerged, (hasked _ _).1 hall⟩
  · rintro ⟨hn, ha, hz, hanswered, hmerged, hall⟩
    refine ⟨row.named, hn, row.a, ha, row.z, hz, ?_⟩
    rw [if_neg (fun h => hanswered (covers_standing.1 h)), if_neg (not_or.2 hmerged), if_pos ((hasked _ _).2 hall)]

theorem HasVerdict.symm {a b : Nat} (h : HasVerdict s a b) : HasVerdict s b a := by
  have hpair : pairOf a b = pairOf b a := pairOf_eq_iff.2 (.inr ⟨rfl, rfl⟩)
  unfold HasVerdict at h ⊢
  rwa [hpair] at h

/-- Another naming event of a listed pair is listed too. -/
theorem IsListed.of_pair {row : PairRow} (h : IsListed s only row) {n : Named}
    (hn : n ∈ namedBy (· = .possible_duplicate) s.deduction_events) (hpair : n.pair = row.pair) :
    ∃ other, IsListed s only other ∧ other.named = n := by
  rcases pairOf_eq_iff.1 hpair with ⟨ha, hb⟩ | ⟨ha, hb⟩
  · refine ⟨⟨n, row.a, row.z⟩, ⟨hn, ?_, ?_, ?_, ?_, ?_⟩, rfl⟩
    · exact ⟨h.visible_a.1, h.visible_a.2.trans ha.symm⟩
    · exact ⟨h.visible_z.1, h.visible_z.2.trans hb.symm⟩
    · dsimp only
      rw [ha, hb]
      exact h.unanswered
    · dsimp only
      rw [ha, hb]
      exact h.unmerged
    · dsimp only
      rw [ha, hb]
      exact h.asked
  · refine ⟨⟨n, row.z, row.a⟩, ⟨hn, ?_, ?_, ?_, ?_, ?_⟩, rfl⟩
    · exact ⟨h.visible_z.1, h.visible_z.2.trans ha.symm⟩
    · exact ⟨h.visible_a.1, h.visible_a.2.trans hb.symm⟩
    · dsimp only
      rw [ha, hb]
      exact fun hverdict => h.unanswered hverdict.symm
    · dsimp only
      rw [ha, hb]
      exact h.unmerged.symm
    · dsimp only
      rw [ha, hb]
      exact fun id hid => (h.asked id hid).symm

theorem isOpen_iff {row : PairRow} : IsOpen s only row ↔ IsListed s only row ∧
    ∀ n ∈ namedBy (· = .possible_duplicate) s.deduction_events, n.pair = row.pair → n.event.id ≤ row.event_id :=
  ⟨fun h => ⟨⟨h.named, h.visible_a, h.visible_z, h.unanswered, h.unmerged, h.asked⟩, h.latest⟩,
    fun ⟨h, hlatest⟩ => ⟨h.named, hlatest, h.visible_a, h.visible_z, h.unanswered, h.unmerged, h.asked⟩⟩

/-- Rows of one event are one row. -/
theorem IsListed.eq_of_event_id {row other : PairRow} (h : IsListed s only row) (h' : IsListed s only other)
    (hid : row.event_id = other.event_id) : row = other := by
  have hnamed := List.inj_on_of_nodup_map (nodup_namedBy s.event_key) h.named h'.named hid
  obtain ⟨n, a, z⟩ := row
  obtain ⟨n', a', z'⟩ := other
  dsimp only at hnamed
  subst hnamed
  have ha := List.inj_on_of_nodup_map s.deduction_key h.visible_a.1 h'.visible_a.1 (h.visible_a.2.trans h'.visible_a.2.symm)
  have hz := List.inj_on_of_nodup_map s.deduction_key h.visible_z.1 h'.visible_z.1 (h.visible_z.2.trans h'.visible_z.2.symm)
  dsimp only at ha hz
  rw [ha, hz]

theorem nodup_namedRows : ((namedRows s only).map PairRow.event_id).Nodup := by
  refine (nodup_namedBy (p := (· = .possible_duplicate)) s.event_key).sublist (map_filterMap_sublist (fun n row hrow => ?_) _)
  simp only [Option.bind_eq_bind, Option.bind_eq_some_iff] at hrow
  obtain ⟨a, -, z, -, h⟩ := hrow
  split_ifs at h
  obtain rfl := Option.some.inj h
  rfl

variable (s only) in
/-- The pairs to be answered, in the order of their ids. -/
def openRows : List PairRow := distinctOn PairRow.pair PairRow.event_id (namedRows s only)

theorem mem_openRows {row : PairRow} : row ∈ openRows s only ↔ IsOpen s only row := by
  unfold openRows
  rw [mem_distinctOn nodup_namedRows, isOpen_iff, mem_namedRows]
  refine and_congr_right fun hlisted => ⟨fun h n hn hpair => ?_, fun h other hother hpair => ?_⟩
  · obtain ⟨other, hother, rfl⟩ := hlisted.of_pair hn hpair
    exact h other (mem_namedRows.2 hother) hpair
  · exact h other.named (mem_namedRows.1 hother).named hpair

theorem pairwise_openRows : (openRows s only).Pairwise fun row later => row.pair < later.pair := pairwise_distinctOn _

/-- Open rows of one pair are one row. -/
theorem IsOpen.eq_of_pair {row other : PairRow} (h : IsOpen s only row) (h' : IsOpen s only other)
    (hpair : row.pair = other.pair) : row = other := by
  have hid : row.event_id = other.event_id := le_antisymm (h'.latest _ h.named hpair) (h.latest _ h'.named hpair.symm)
  exact (isOpen_iff.1 h).1.eq_of_event_id (isOpen_iff.1 h').1 hid

theorem pair_describe {row : PairRow} (h : IsOpen s only row) :
    pairOf (describe row).older.deductionId (describe row).newer.deductionId = row.pair := by
  have hpair : row.pair = pairOf row.a.id row.z.id := by
    rw [h.visible_a.2, h.visible_z.2]
    rfl
  rw [hpair, pairOf_eq_iff]
  unfold describe olderFirst candidate
  dsimp only
  split_ifs
  · exact .inl ⟨rfl, rfl⟩
  · exact .inr ⟨rfl, rfl⟩
  · exact .inl ⟨rfl, rfl⟩
  · exact .inr ⟨rfl, rfl⟩

/-- What is answered of an open pair says which pair it is. -/
theorem describe_inj {row other : PairRow} (h : IsOpen s only row) (h' : IsOpen s only other)
    (heq : describe row = describe other) : row = other :=
  h.eq_of_pair h' (by rw [← pair_describe h, ← pair_describe h', heq])

/-! ## Which pairs are shown -/

variable (s only) in
/-- Fewer open pairs than the limit have ids before its ids. -/
def Shown (limit : Nat) (row : PairRow) : Prop :=
  IsOpen s only row ∧ {other | IsOpen s only other ∧ other.pair < row.pair}.ncard < limit

variable (s only) in
/-- The pairs whose ids come first are the latest, and the texts of their events' ids compare as the ids do. -/
structure FirstAreLatest (limit : Nat) : Prop where
  latest : ∀ row, Shown s only limit row → ∀ other, IsOpen s only other → ¬ Shown s only limit other →
    other.event_id < row.event_id
  texts : ∀ row other, Shown s only limit row → Shown s only limit other → row.event_id < other.event_id →
    textLt (decimal row.event_id) (decimal other.event_id)

theorem perm_newestFirst (rows : List PairRow) : (newestFirst rows).Perm rows := List.perm_insertionSort _ rows

theorem mem_shown {limit : Nat} {row : PairRow} :
    row ∈ newestFirst (query s only limit) ↔ Shown s only limit row := by
  rw [(perm_newestFirst _).mem_iff]
  unfold query Shown
  rw [mem_take_iff (pairwise_distinctOn _)]
  change row ∈ openRows s only ∧ {other | other ∈ openRows s only ∧ other.pair < row.pair}.ncard < limit ↔ _
  simp only [mem_openRows]

theorem pairwise_newestFirst (rows : List PairRow) :
    (newestFirst rows).Pairwise fun row later => ¬ textLt (decimal row.event_id) (decimal later.event_id) := by
  have hkeys : ∀ a b : PairRow, (¬ textLt (decimal a.event_id) (decimal b.event_id)) ↔
      OrderDual.toDual (codeUnits (decimal a.event_id)) ≤ OrderDual.toDual (codeUnits (decimal b.event_id)) :=
    fun a b => not_lt
  exact (SortByKey.pairwise_le_insertionSort hkeys rows).imp fun h => (hkeys _ _).2 h

theorem once_newestFirst (limit : Nat) : ((newestFirst (query s only limit)).map PairRow.pair).Nodup := by
  have hopen : ((openRows s only).map PairRow.pair).Nodup := List.pairwise_map.2 (pairwise_openRows.imp fun h => ne_of_lt h)
  refine (((perm_newestFirst _).map _).nodup_iff).2 (hopen.sublist ?_)
  exact (List.take_sublist limit (openRows s only)).map PairRow.pair

variable (s only) in
/-- The pairs that were noticed last are listed, the last one first, each with its latest event. -/
def ListsLatest (limit : Option Int) : Prop :=
  ∃ rows, IsLatest s only (min (limit.getD POSSIBLE_DUPLICATES_MAX_LIMIT).toNat POSSIBLE_DUPLICATES_MAX_LIMIT) rows ∧
    possibleDuplicates s only limit = some (rows.map describe)

theorem possibleDuplicates_eq {limit : Option Int} (h : 1 ≤ limit.getD POSSIBLE_DUPLICATES_MAX_LIMIT) :
    possibleDuplicates s only limit = some ((newestFirst (query s only
      (min (limit.getD POSSIBLE_DUPLICATES_MAX_LIMIT).toNat POSSIBLE_DUPLICATES_MAX_LIMIT))).map describe) := by
  unfold possibleDuplicates
  dsimp only
  rw [if_neg (not_lt.2 h)]

/-- Where the listed rows are the latest, the pairs whose ids come first are. -/
theorem firstAreLatest_of_isLatest {limit : Nat} (h : IsLatest s only limit (newestFirst (query s only limit))) :
    FirstAreLatest s only limit := by
  constructor
  · intro row hrow other hopen hother
    exact h.greatest other hopen (fun hmem => hother (mem_shown.1 hmem)) row (mem_shown.2 hrow)
  · intro row other hrow hother hlt
    have hboth := h.order.and (pairwise_newestFirst (query s only limit))
    have hne : row ≠ other := fun heq => lt_irrefl _ (heq ▸ hlt)
    have hbefore := (pairwise_or hboth (mem_shown.2 hrow) (mem_shown.2 hother) hne).resolve_left fun h =>
      absurd h.1 (Nat.lt_asymm hlt)
    rcases textLt_trichotomy (decimal row.event_id) (decimal other.event_id) with hless | hsame | hmore
    · exact hless
    · exact absurd (decimal_injective hsame) (Nat.ne_of_lt hlt)
    · exact absurd hmore hbefore.2

theorem isLatest_newestFirst {limit : Nat} (h : FirstAreLatest s only limit) :
    IsLatest s only limit (newestFirst (query s only limit)) where
  open_ := fun row hrow => (mem_shown.1 hrow).1
  once := once_newestFirst limit
  length_le := by
    rw [(perm_newestFirst _).length_eq]
    exact List.length_take_le _ _
  all := by
    intro hlength row hopen
    rw [(perm_newestFirst _).length_eq] at hlength
    have hquery : query s only limit = (openRows s only).take limit := rfl
    rw [hquery, List.length_take] at hlength
    rw [(perm_newestFirst _).mem_iff, hquery, List.take_of_length_le (by omega)]
    exact mem_openRows.2 hopen
  greatest := by
    intro row hopen hrow shown hshown
    exact h.latest shown (mem_shown.1 hshown) row hopen fun hmem => hrow (mem_shown.2 hmem)
  order := by
    have hdistinct : (newestFirst (query s only limit)).Pairwise fun row later => row.pair ≠ later.pair :=
      List.pairwise_map.1 (once_newestFirst limit)
    refine ((pairwise_newestFirst _).and hdistinct).imp_of_mem fun {row later} hrow hlater hboth => ?_
    have hrow := mem_shown.1 hrow
    have hlater := mem_shown.1 hlater
    rcases Nat.lt_trichotomy row.event_id later.event_id with hless | hsame | hmore
    · exact absurd (h.texts row later hrow hlater hless) hboth.1
    · have heq := (isOpen_iff.1 hrow.1).1.eq_of_event_id (isOpen_iff.1 hlater.1).1 hsame
      exact absurd (congrArg PairRow.pair heq) hboth.2
    · exact hmore

/-- **The pairs listed are the latest** exactly where the pairs whose ids come first are, and the texts of their events'
ids compare as the ids do. -/
theorem possible_duplicates_latest_iff {limit : Option Int} (hlimit : 1 ≤ limit.getD POSSIBLE_DUPLICATES_MAX_LIMIT) :
    ListsLatest s only limit ↔
      FirstAreLatest s only (min (limit.getD POSSIBLE_DUPLICATES_MAX_LIMIT).toNat POSSIBLE_DUPLICATES_MAX_LIMIT) := by
  unfold ListsLatest
  rw [possibleDuplicates_eq hlimit]
  generalize min (limit.getD POSSIBLE_DUPLICATES_MAX_LIMIT).toNat POSSIBLE_DUPLICATES_MAX_LIMIT = n
  constructor
  · rintro ⟨rows, hlatest, hrows⟩
    have hsame : rows = newestFirst (query s only n) := by
      refine eq_of_map_eq (fun a ha b hb hdescribe => ?_) (Option.some.inj hrows).symm
      exact describe_inj (hlatest.open_ a ha) (mem_shown.1 hb).1 hdescribe
    exact firstAreLatest_of_isLatest (hsame ▸ hlatest)
  · exact fun h => ⟨_, isLatest_newestFirst h, rfl⟩

end

def someCase (id : Nat) : Deduction :=
  { id, state := .discovered, claim_id := none, deduction_amount_cents := ZERO, deduction_date := none, created_at := id,
    debtor_name := none, retailer_name_as_printed := none, invoice_number := none }

/-- The case 1 is named with another, by an event whose time is its id. -/
def naming (id other : Nat) : Event := ⟨id, 1, .possible_duplicate, some other, none, id⟩

/-- Three cases of which the first is named with the others. -/
def twoPairs (first second : Nat) (h : first ≠ second) : Db where
  deductions := [someCase 1, someCase 2, someCase 3]
  deduction_events := [naming first 2, naming second 3]
  deduction_merges := []
  deduction_key := by decide
  event_key := by simpa [naming] using h
  verdict_of_two := by
    intro e he hverdict
    rcases List.mem_pair.1 he with rfl | rfl
    · cases hverdict
    · cases hverdict

/-- What an open pair of the three cases is: one of the two. -/
theorem twoPairs_open {first second : Nat} {h : first ≠ second} {only : Option Nat} {row : PairRow}
    (hopen : IsOpen (twoPairs first second h) only row) :
    row.named.event = naming first 2 ∨ row.named.event = naming second 3 :=
  List.mem_pair.1 (mem_namedBy.1 hopen.named).1

/-- Both pairs are listed where the second was noticed last, and where the first was, it alone under a limit of one. -/
theorem latest_pairs_listed : ListsLatest (twoPairs 8 9 (by decide)) none none ∧
    ListsLatest (twoPairs 9 8 (by decide)) none (some 1) := by
  have hboth : FirstAreLatest (twoPairs 8 9 (by decide)) none 100 := by
    constructor
    · intro row _ other hother hnot
      have hfew : (openRows (twoPairs 8 9 (by decide)) none).length ≤ 100 := by decide +kernel
      have hall : query (twoPairs 8 9 (by decide)) none 100 = openRows (twoPairs 8 9 (by decide)) none :=
        List.take_of_length_le hfew
      have hmem := mem_openRows.2 hother
      rw [← hall] at hmem
      exact absurd (mem_shown.1 ((perm_newestFirst _).mem_iff.2 hmem)) hnot
    · intro row other hrow hother hlt
      have hids : ∀ r : PairRow, IsOpen (twoPairs 8 9 (by decide)) none r → r.event_id = 8 ∨ r.event_id = 9 :=
        fun r hr => (twoPairs_open hr).imp (congrArg Event.id) (congrArg Event.id)
      rcases hids row hrow.1 with h | h <;> rcases hids other hother.1 with h' | h' <;> rw [h, h'] at hlt ⊢
      · exact absurd hlt (by decide)
      · decide
      · exact absurd hlt (by decide)
      · exact absurd hlt (by decide)
  have hfirst : FirstAreLatest (twoPairs 9 8 (by decide)) none 1 := by
    have hshown : ∀ row, Shown (twoPairs 9 8 (by decide)) none 1 row → row.event_id = 9 := by
      intro row hrow
      have hone : (query (twoPairs 9 8 (by decide)) none 1).map PairRow.event_id = [9] := by decide +kernel
      have hmem := List.mem_map_of_mem (f := PairRow.event_id) ((perm_newestFirst _).mem_iff.1 (mem_shown.2 hrow))
      rwa [hone, List.mem_singleton] at hmem
    constructor
    · intro row hrow other hother hnot
      rw [hshown row hrow]
      rcases twoPairs_open hother with h | h
      · have hsame := (isOpen_iff.1 hrow.1).1.eq_of_event_id (isOpen_iff.1 hother).1
          ((hshown row hrow).trans (congrArg Event.id h).symm)
        exact absurd (hsame ▸ hrow) hnot
      · rw [show other.event_id = 8 from congrArg Event.id h]
        decide
    · intro row other hrow hother hlt
      rw [hshown row hrow, hshown other hother] at hlt
      exact absurd hlt (lt_irrefl _)
  exact ⟨(possible_duplicates_latest_iff (by decide)).2 hboth, (possible_duplicates_latest_iff (by decide)).2 hfirst⟩

/-- Of two pairs the one noticed by event 9 is listed before the one noticed by event 10. -/
theorem ninth_before_tenth : ¬ ∀ (s : Db) (only : Option Nat) (limit : Option Int),
    1 ≤ limit.getD POSSIBLE_DUPLICATES_MAX_LIMIT → ListsLatest s only limit := by
  intro hall
  obtain ⟨rows, hlatest, hrows⟩ := hall (twoPairs 9 10 (by decide)) none none (by decide)
  have hanswer : (possibleDuplicates (twoPairs 9 10 (by decide)) none none).map (·.map (·.noticedAt)) =
      some [9, 10] := by decide +kernel
  rw [hrows, Option.map_some, List.map_map, Option.some.injEq] at hanswer
  have hids : rows.map PairRow.event_id = [9, 10] := by
    rw [← hanswer]
    refine List.map_congr_left fun row hrow => ?_
    rcases twoPairs_open (hlatest.open_ row hrow) with heq | heq
    · exact (congrArg Event.id heq).trans (congrArg Event.event_time heq).symm
    · exact (congrArg Event.id heq).trans (congrArg Event.event_time heq).symm
  have horder : (rows.map PairRow.event_id).Pairwise fun a b => b < a := List.pairwise_map.2 hlatest.order
  rw [hids] at horder
  exact absurd horder (by decide)

end Recouple.Database.PossibleDuplicates
