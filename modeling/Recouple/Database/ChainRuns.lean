import Mathlib
import Recouple.Database.EventHashes

/-!
# Concurrent inserts into a chained table

Transactions inserting rows into a table a chaining trigger guards (0004_append_only.sql:102-143), in
every interleaving: the identity value is drawn when the insert reaches the row, then the trigger takes
the advisory lock of the row's chain and keeps it to the end of the transaction, reads the last row of
the chain among what it can see (what is committed and what the transaction itself inserted: each
statement of the function reads anew), computes the hashes, and the row is inserted.

* **`draw_before_lock_forks`**: drawing comes before locking, so a row can be chained behind one with a
  larger id. Rows 2, 1 and 3 of one case, inserted in that order, give rows 1 and 3 one predecessor.
* **`in_order_never_forks`**: in every run whose triggers find no larger id in their chain when they
  read, no reachable state has a fork.
-/

namespace Recouple.Database

open Js HashChain

variable {J New Key : Type}

/-! ## Tables and transactions -/

/-- A row of a chained table. -/
structure Row (New : Type) where
  id : Nat
  columns : New
  prevHash : Option Bytes
  rowHash : Bytes
  deriving DecidableEq

/-- How far the trigger of a row being inserted has come. -/
inductive Stage
  | drawn
  | locked
  | read (prev : Option Bytes)

/-- A row being inserted: its identity value is drawn. -/
structure Insertion (New : Type) where
  id : Nat
  new : New
  stage : Stage

/-- An open transaction: the row it is inserting, and the rows it has inserted. -/
structure Transaction (New : Type) where
  inserting : Option (Insertion New)
  own : List (Row New)

def idle : Transaction New := ⟨none, []⟩

/-- The table, the identity sequence, the advisory locks with their holders, and the transactions. -/
structure State (New : Type) where
  next : Nat
  committed : List (Row New)
  locks : List (Int × Nat)
  tx : Nat → Transaction New

def start : State New := ⟨1, [], [], fun _ => idle⟩

/-- What a transaction sees: what is committed, and its own rows. -/
def State.visible (s : State New) (t : Nat) : List (Row New) := s.committed ++ (s.tx t).own

/-- No other transaction holds the lock. -/
def State.Free (s : State New) (lock : Int) (t : Nat) : Prop := ∀ e ∈ s.locks, e.1 = lock → e.2 = t

instance (s : State New) (lock : Int) (t : Nat) : Decidable (s.Free lock t) :=
  inferInstanceAs (Decidable (∀ e ∈ s.locks, e.1 = lock → e.2 = t))

/-- The end of a transaction gives back its locks. -/
def released (locks : List (Int × Nat)) (t : Nat) : List (Int × Nat) := locks.filter fun e => e.2 ≠ t

inductive Action (New : Type)
  | draw (t : Nat) (new : New)
  | lock (t : Nat)
  | read (t : Nat)
  | write (t : Nat)
  | commit (t : Nat)
  | abort (t : Nat)

variable (pg : Postgres J) (T : ChainTrigger J New Key) [DecidableEq Key]

/-- The rows of one chain. -/
def rowsOf (k : Key) (rows : List (Row New)) : List (Row New) := rows.filter fun r => T.key r.columns = k

/-- `select row_hash … where <chain> order by id desc limit 1` -/
def lastRowHash (k : Key) (rows : List (Row New)) : Option Bytes :=
  ((rowsOf T k rows).argmax Row.id).map Row.rowHash

/-- The row the trigger returns. -/
def chainedRow (id : Nat) (new : New) (prev : Option Bytes) : Row New :=
  { id := id, columns := new, prevHash := prev, rowHash := rowHash pg prev (T.document new) }

/-- One step of one transaction; `none` where it has to wait or has nothing of the kind to do. -/
def step (s : State New) : Action New → Option (State New)
  | .draw t new =>
    match (s.tx t).inserting with
    | none => some { s with
        next := s.next + 1
        tx := Function.update s.tx t { s.tx t with inserting := some ⟨s.next, new, .drawn⟩ } }
    | some _ => none
  | .lock t =>
    match (s.tx t).inserting with
    | some ⟨id, new, .drawn⟩ =>
      if s.Free (T.lock (T.key new)) t then
        some { s with
          locks := (T.lock (T.key new), t) :: s.locks
          tx := Function.update s.tx t { s.tx t with inserting := some ⟨id, new, .locked⟩ } }
      else none
    | _ => none
  | .read t =>
    match (s.tx t).inserting with
    | some ⟨id, new, .locked⟩ =>
      let prev := lastRowHash T (T.key new) (s.visible t)
      some { s with tx := Function.update s.tx t { s.tx t with inserting := some ⟨id, new, .read prev⟩ } }
    | _ => none
  | .write t =>
    match (s.tx t).inserting with
    | some ⟨id, new, .read prev⟩ =>
      some { s with tx := Function.update s.tx t ⟨none, (s.tx t).own ++ [chainedRow pg T id new prev]⟩ }
    | _ => none
  | .commit t =>
    match (s.tx t).inserting with
    | none => some { s with
        committed := s.committed ++ (s.tx t).own
        locks := released s.locks t
        tx := Function.update s.tx t idle }
    | some _ => none
  | .abort t => some { s with locks := released s.locks t, tx := Function.update s.tx t idle }

/-- The states runs lead to whose every step is `ok` where it is taken. -/
inductive Reached (ok : State New → Action New → Prop) : State New → Prop
  | start : Reached ok start
  | step {s s' : State New} {a : Action New} :
      Reached ok s → ok s a → step pg T s a = some s' → Reached ok s'

/-! ## The chain of a table -/

/-- The row of the same chain with the next smaller id. -/
def predecessor (rows : List (Row New)) (r : Row New) : Option (Row New) :=
  ((rowsOf T (T.key r.columns) rows).filter fun q => q.id < r.id).argmax Row.id

/-- Every row is chained behind the row with the next smaller id, and no two rows of a chain behind one
hash. -/
def Unforked (rows : List (Row New)) : Prop :=
  (∀ r ∈ rows, r.prevHash = (predecessor T rows r).map Row.rowHash) ∧
    ∀ r ∈ rows, ∀ r' ∈ rows, T.key r.columns = T.key r'.columns → r.prevHash = r'.prevHash → r = r'

/-- The bytes hashed for a row. -/
def hashedBytes (r : Row New) : Bytes := input r.prevHash (block pg (T.document r.columns))

/-- The trigger that reads now finds no larger id in its chain, and the bytes it is about to hash are not
the payload of the chain's first row. -/
def InOrder (s : State New) : Action New → Prop
  | .read t => ∀ i ∈ (s.tx t).inserting,
      (∀ r ∈ rowsOf T (T.key i.new) (s.visible t), r.id < i.id) ∧
      ∀ r ∈ rowsOf T (T.key i.new) (s.visible t), r.prevHash = none → hashedBytes pg T r ≠
        input (lastRowHash T (T.key i.new) (s.visible t)) (block pg (T.document i.new))
  | _ => True

instance [DecidableEq New] (s : State New) : ∀ a, Decidable (InOrder pg T s a)
  | .read t => inferInstanceAs (Decidable (∀ i ∈ (s.tx t).inserting, _ ∧ _))
  | .draw _ _ | .lock _ | .write _ | .commit _ | .abort _ => isTrue trivial

instance [DecidableEq New] (rows : List (Row New)) : Decidable (Unforked T rows) :=
  inferInstanceAs (Decidable (_ ∧ _))

/-- The steps one after the other, as long as each is `ok` and can be taken. -/
def run (ok : State New → Action New → Prop) [∀ s a, Decidable (ok s a)] :
    List (Action New) → State New → Option (State New)
  | [], s => some s
  | a :: as, s => if ok s a then (step pg T s a).bind (run ok as) else none

theorem Reached.run {ok : State New → Action New → Prop} [∀ s a, Decidable (ok s a)] :
    ∀ {as : List (Action New)} {s s' : State New}, Reached pg T ok s → s' ∈ run pg T ok as s →
      Reached pg T ok s'
  | [], _, _, hs, h => Option.some.inj h ▸ hs
  | a :: as, s, s', hs, h => by
    simp only [Database.run] at h
    split at h
    · rename_i hok
      obtain ⟨s1, hstep, hrest⟩ := Option.bind_eq_some_iff.1 h
      exact Reached.run (hs.step hok hstep) hrest
    · simp at h

/-! ## Chains inserted in order -/

/-- The row is right behind the rows before it. -/
structure Behind (before : List (Row New)) (r : Row New) : Prop where
  above : ∀ q ∈ before, q.id < r.id
  prev : r.prevHash = chainEnd pg.digest (before.map fun q => block pg (T.document q.columns))
  hash : r.rowHash = pg.digest (hashedBytes pg T r)
  apart : ∀ q ∈ before, q.prevHash = none → hashedBytes pg T q ≠ hashedBytes pg T r

/-- Every row is right behind the ones before it. -/
def Linked (rows : List (Row New)) : Prop :=
  ∀ before r after, rows = before ++ r :: after → Behind pg T before r

section
variable {pg T}
omit [DecidableEq Key]

theorem Linked.nil : Linked pg T ([] : List (Row New)) := fun before r after h => by simp at h

theorem Linked.front {rows more : List (Row New)} (h : Linked pg T (rows ++ more)) : Linked pg T rows :=
  fun before r after he => h before r (after ++ more) (by simp [he])

theorem Linked.concat {rows : List (Row New)} {r : Row New} (h : Linked pg T rows) (hr : Behind pg T rows r) :
    Linked pg T (rows ++ [r]) := by
  intro before q after he
  obtain rfl | ⟨after, p, rfl⟩ := List.eq_nil_or_concat' after
  · obtain ⟨rfl, hq⟩ := List.append_inj' he rfl
    obtain rfl : r = q := by simpa using hq
    exact hr
  · rw [← List.cons_append, ← List.append_assoc] at he
    obtain ⟨rfl, -⟩ := List.append_inj' he rfl
    exact h before q after rfl

theorem Linked.last {rows : List (Row New)} {r : Row New} (h : Linked pg T (rows ++ [r])) :
    Behind pg T rows r := h rows r [] rfl

/-- The last row by id is the last row. -/
theorem Linked.argmax_id {rows : List (Row New)} {r : Row New} (h : Linked pg T (rows ++ [r])) :
    (rows ++ [r]).argmax Row.id = some r := by
  rw [List.argmax_concat]
  cases hm : rows.argmax Row.id with
  | none => rfl
  | some q => exact if_pos (h.last.above q (List.argmax_mem hm))

/-- The hash of the last row by id is where the chain of the documents ends. -/
theorem Linked.chainEnd_eq {rows : List (Row New)} (h : Linked pg T rows) :
    (rows.argmax Row.id).map Row.rowHash =
      chainEnd pg.digest (rows.map fun q => block pg (T.document q.columns)) := by
  obtain rfl | ⟨rows, r, rfl⟩ := List.eq_nil_or_concat' rows
  · rfl
  · rw [h.argmax_id, List.map_append, List.map_singleton, chainEnd_concat, ← h.last.prev]
    exact congrArg some h.last.hash

/-- What is hashed along the chain is what is hashed for its rows. -/
theorem Linked.inputs_eq {rows : List (Row New)} (h : Linked pg T rows) :
    inputs pg.digest (rows.map fun q => block pg (T.document q.columns)) = rows.map (hashedBytes pg T) := by
  induction rows using List.reverseRecOn with
  | nil => rfl
  | append_singleton rows r ih =>
    rw [List.map_append, List.map_append, List.map_singleton, inputs_concat, ih h.front, ← h.last.prev]
    rfl

end

/-! ## What every state of an orderly run satisfies -/

/-- The row a trigger returns is right behind the chain its transaction sees. -/
def Ready (s : State New) (t : Nat) (i : Insertion New) (prev : Option Bytes) : Prop :=
  Behind pg T (rowsOf T (T.key i.new) (s.visible t)) (chainedRow pg T i.id i.new prev)

/-- A lock has one holder, who chains under it; every transaction sees every chain linked; and what a
trigger has read is still the end of its chain. -/
structure Serial (s : State New) : Prop where
  holder : ∀ l t t', (l, t) ∈ s.locks → (l, t') ∈ s.locks → t = t'
  ownLocked : ∀ t, ∀ r ∈ (s.tx t).own, (T.lock (T.key r.columns), t) ∈ s.locks
  triggerLocked : ∀ t i, (s.tx t).inserting = some i → i.stage ≠ .drawn →
    (T.lock (T.key i.new), t) ∈ s.locks
  linked : ∀ t k, Linked pg T (rowsOf T k (s.visible t))
  ready : ∀ t i prev, (s.tx t).inserting = some i → i.stage = .read prev → Ready pg T s t i prev

section
variable {pg T} {s s' : State New}

@[simp] theorem rowsOf_append (k : Key) (rows more : List (Row New)) :
    rowsOf T k (rows ++ more) = rowsOf T k rows ++ rowsOf T k more := List.filter_append ..

theorem rowsOf_visible (k : Key) (s : State New) (t : Nat) :
    rowsOf T k (s.visible t) = rowsOf T k s.committed ++ rowsOf T k (s.tx t).own := rowsOf_append k _ _

/-- Only the holder of a chain's lock has rows of it that are not committed. -/
theorem Serial.own_nil (hs : Serial pg T s) {k : Key} {t t' : Nat} (hl : (T.lock k, t) ∈ s.locks)
    (hne : t' ≠ t) : rowsOf T k (s.tx t').own = [] := by
  rw [rowsOf, List.filter_eq_nil_iff]
  rintro r hr hk
  obtain rfl : T.key r.columns = k := by simpa using hk
  exact hne (hs.holder _ _ _ (hs.ownLocked t' r hr) hl)

theorem serial_start : Serial pg T (start : State New) where
  holder _ _ _ h := by simp [start] at h
  ownLocked _ _ h := by simp [start, idle] at h
  triggerLocked _ _ h := by simp [start, idle] at h
  linked _ _ := by simpa [State.visible, start, idle, rowsOf] using Linked.nil
  ready _ _ _ h := by simp [start, idle] at h

/-- A step of one transaction's trigger that leaves the rows as they are. -/
theorem Serial.trigger (hs : Serial pg T s) {t : Nat} {i : Insertion New} {next : Nat}
    {locks : List (Int × Nat)} (hkeep : ∀ e ∈ s.locks, e ∈ locks)
    (hholder : ∀ l t t', (l, t) ∈ locks → (l, t') ∈ locks → t = t')
    (hlocked : i.stage ≠ .drawn → (T.lock (T.key i.new), t) ∈ locks)
    (hready : ∀ prev, i.stage = .read prev → Ready pg T s t i prev) :
    Serial pg T { s with
      next := next, locks := locks
      tx := Function.update s.tx t { s.tx t with inserting := some i } } := by
  have hown : ∀ t', (Function.update s.tx t { s.tx t with inserting := some i } t').own = (s.tx t').own :=
    fun t' => by
      obtain rfl | hne := eq_or_ne t' t
      · simp
      · simp [hne]
  have hvisible : ∀ t', (State.visible { s with
      next := next, locks := locks
      tx := Function.update s.tx t { s.tx t with inserting := some i } } t') = s.visible t' := fun t' => by
    simp only [State.visible, hown]
  refine ⟨hholder, fun t' r hr => ?_, fun t' i' hi hst => ?_, fun t' k => ?_, fun t' i' prev hi hst => ?_⟩
  · exact hkeep _ (hs.ownLocked t' r (by simpa only [hown] using hr))
  · obtain rfl | hne := eq_or_ne t' t
    · simp only [Function.update_self, Option.some.injEq] at hi
      subst hi
      exact hlocked hst
    · simp only [Function.update_of_ne hne] at hi
      exact hkeep _ (hs.triggerLocked t' i' hi hst)
  · rw [hvisible]
    exact hs.linked t' k
  · unfold Ready
    rw [hvisible]
    obtain rfl | hne := eq_or_ne t' t
    · simp only [Function.update_self, Option.some.injEq] at hi
      subst hi
      exact hready prev hst
    · simp only [Function.update_of_ne hne] at hi
      exact hs.ready t' i' prev hi hst

theorem mem_released {e : Int × Nat} {locks : List (Int × Nat)} {t : Nat} :
    e ∈ released locks t ↔ e ∈ locks ∧ e.2 ≠ t := by simp [released]

/-- The row the trigger returned is inserted. -/
theorem Serial.write (hs : Serial pg T s) {t id : Nat} {new : New} {prev : Option Bytes}
    (hi : (s.tx t).inserting = some ⟨id, new, .read prev⟩) :
    Serial pg T { s with
      tx := Function.update s.tx t ⟨none, (s.tx t).own ++ [chainedRow pg T id new prev]⟩ } := by
  have hl := hs.triggerLocked t _ hi (by simp)
  refine ⟨hs.holder, fun t' r hr => ?_, fun t' i' hi' hst => ?_, fun t' k => ?_, fun t' i' p hi' hst => ?_⟩
  · obtain rfl | hne := eq_or_ne t' t
    · simp only [Function.update_self, List.mem_append, List.mem_singleton] at hr
      rcases hr with hr | rfl
      · exact hs.ownLocked t' r hr
      · exact hl
    · simp only [Function.update_of_ne hne] at hr
      exact hs.ownLocked t' r hr
  · obtain rfl | hne := eq_or_ne t' t
    · simp at hi'
    · simp only [Function.update_of_ne hne] at hi'
      exact hs.triggerLocked t' i' hi' hst
  · rw [rowsOf_visible]
    obtain rfl | hne := eq_or_ne t' t
    · simp only [Function.update_self, rowsOf_append, ← List.append_assoc, ← rowsOf_visible]
      by_cases hk : T.key new = k
      · -- the chain grows by the row that was read for it
        subst hk
        have hrow : rowsOf T (T.key new) [chainedRow pg T id new prev] = [chainedRow pg T id new prev] := by
          simp [rowsOf, chainedRow]
        rw [hrow]
        exact (hs.linked t' _).concat (hs.ready t' _ prev hi rfl)
      · have hrow : rowsOf T k [chainedRow pg T id new prev] = [] := by simp [rowsOf, chainedRow, hk]
        rw [hrow, List.append_nil]
        exact hs.linked t' k
    · simp only [Function.update_of_ne hne, ← rowsOf_visible]
      exact hs.linked t' k
  · obtain rfl | hne := eq_or_ne t' t
    · simp at hi'
    · simp only [Function.update_of_ne hne] at hi'
      simpa only [Ready, State.visible, Function.update_of_ne hne] using hs.ready t' i' p hi' hst

/-- A transaction ends, with some of its rows committed: all of them, or none. -/
theorem Serial.finish (hs : Serial pg T s) {t : Nat} {rows : List (Row New)}
    (hrows : rows = (s.tx t).own ∨ rows = []) :
    Serial pg T { s with
      committed := s.committed ++ rows, locks := released s.locks t
      tx := Function.update s.tx t idle } := by
  have hnil : ∀ k, rowsOf T k (s.tx t).own = [] → rowsOf T k rows = [] := fun k hk => by
    rcases hrows with rfl | rfl
    · exact hk
    · rfl
  refine ⟨fun l t1 t2 h1 h2 => ?_, fun t' r hr => ?_, fun t' i' hi' hst => ?_, fun t' k => ?_,
    fun t' i' p hi' hst => ?_⟩
  · exact hs.holder l t1 t2 (mem_released.1 h1).1 (mem_released.1 h2).1
  · obtain rfl | hne := eq_or_ne t' t
    · simp [idle] at hr
    · simp only [Function.update_of_ne hne] at hr
      exact mem_released.2 ⟨hs.ownLocked t' r hr, hne⟩
  · obtain rfl | hne := eq_or_ne t' t
    · simp [idle] at hi'
    · simp only [Function.update_of_ne hne] at hi'
      exact mem_released.2 ⟨hs.triggerLocked t' i' hi' hst, hne⟩
  · have hcommitted : Linked pg T (rowsOf T k s.committed ++ rowsOf T k rows) := by
      have hv := hs.linked t k
      rw [rowsOf_visible] at hv
      rcases hrows with rfl | rfl
      · exact hv
      · simpa [rowsOf] using hv.front
    rw [rowsOf_visible, rowsOf_append]
    obtain rfl | hne := eq_or_ne t' t
    · simpa [idle, rowsOf] using hcommitted
    · simp only [Function.update_of_ne hne]
      -- of two transactions only one can have rows of this chain that were not committed
      by_cases hown : rowsOf T k (s.tx t').own = []
      · rwa [hown, List.append_nil]
      · obtain ⟨r, hr⟩ := List.exists_mem_of_ne_nil _ hown
        obtain ⟨hr, hk⟩ : r ∈ (s.tx t').own ∧ T.key r.columns = k := by simpa [rowsOf] using hr
        have hl := hs.ownLocked t' r hr
        rw [hk] at hl
        rw [hnil k (hs.own_nil hl hne.symm), List.append_nil, ← rowsOf_visible]
        exact hs.linked t' k
  · obtain rfl | hne := eq_or_ne t' t
    · simp [idle] at hi'
    · simp only [Function.update_of_ne hne] at hi'
      have hl := hs.triggerLocked t' i' hi' (by simp [hst])
      have hr := hs.ready t' i' p hi' hst
      unfold Ready at hr ⊢
      rw [rowsOf_visible] at hr ⊢
      simpa only [rowsOf_append, hnil _ (hs.own_nil hl hne.symm), List.append_nil,
        Function.update_of_ne hne] using hr

/-- Reading in order finds the end of the chain. -/
theorem Serial.ready_of_inOrder (hs : Serial pg T s) {t : Nat} {i : Insertion New}
    (hi : (s.tx t).inserting = some i) (hok : InOrder pg T s (.read t)) :
    Ready pg T s t i (lastRowHash T (T.key i.new) (s.visible t)) where
  above := (hok i hi).1
  prev := (hs.linked t (T.key i.new)).chainEnd_eq
  hash := rfl
  apart := (hok i hi).2

/-- **A step taken in order keeps the table serial.** -/
theorem Serial.step (hs : Serial pg T s) {a : Action New} (hok : InOrder pg T s a)
    (h : step pg T s a = some s') : Serial pg T s' := by
  cases a with
  | draw t new =>
    simp only [Database.step] at h
    split at h <;> cases h
    exact hs.trigger (fun _ h => h) hs.holder (fun h => absurd rfl h) (by simp)
  | lock t =>
    simp only [Database.step] at h
    split at h
    · rename_i id new hi
      split at h <;> cases h
      rename_i hfree
      refine hs.trigger (fun _ h => List.mem_cons_of_mem _ h) (fun l t1 t2 h1 h2 => ?_)
        (fun _ => List.mem_cons_self) (by simp)
      -- the lock was free, or its holder takes it once more
      rcases List.mem_cons.1 h1 with h1 | h1 <;> rcases List.mem_cons.1 h2 with h2 | h2
      · rw [(Prod.mk.inj h1).2, (Prod.mk.inj h2).2]
      · rw [(Prod.mk.inj h1).2, ← hfree _ h2 (Prod.mk.inj h1).1]
      · rw [(Prod.mk.inj h2).2, ← hfree _ h1 (Prod.mk.inj h2).1]
      · exact hs.holder l t1 t2 h1 h2
    · cases h
  | read t =>
    simp only [Database.step] at h
    split at h <;> cases h
    rename_i id new hi
    have hl := hs.triggerLocked t _ hi (by simp)
    refine hs.trigger (fun _ h => h) hs.holder (fun _ => hl) fun prev hp => ?_
    obtain rfl := Stage.read.inj hp
    exact hs.ready_of_inOrder (i := ⟨id, new, .locked⟩) hi hok
  | write t =>
    simp only [Database.step] at h
    split at h <;> cases h
    rename_i id new prev hi
    exact hs.write hi
  | commit t =>
    simp only [Database.step] at h
    split at h <;> cases h
    exact hs.finish (.inl rfl)
  | abort t =>
    cases h
    simpa using hs.finish (t := t) (.inr rfl)

theorem Serial.of_reached (h : Reached pg T (InOrder pg T) s) : Serial pg T s := by
  induction h with
  | start => exact serial_start
  | step _ hok hstep ih => exact ih.step hok hstep

theorem Serial.committed_linked (hs : Serial pg T s) (k : Key) : Linked pg T (rowsOf T k s.committed) := by
  have hv := hs.linked 0 k
  rw [rowsOf_visible] at hv
  exact hv.front

/-! ## No fork -/

theorem mem_rowsOf {k : Key} {rows : List (Row New)} {r : Row New} :
    r ∈ rowsOf T k rows ↔ r ∈ rows ∧ T.key r.columns = k := by simp [rowsOf]

omit [DecidableEq Key] in
theorem Linked.after {before after : List (Row New)} {r : Row New} (h : Linked pg T (before ++ r :: after)) :
    ∀ q ∈ after, r.id < q.id := by
  intro q hq
  obtain ⟨x, y, rfl⟩ := List.append_of_mem hq
  exact (h (before ++ r :: x) q y (by simp)).above r (by simp)

omit [DecidableEq Key] in
/-- In a linked chain the rows of smaller id are the rows before. -/
theorem Linked.filter_lt {before after : List (Row New)} {r : Row New}
    (h : Linked pg T (before ++ r :: after)) :
    (before ++ r :: after).filter (fun q => q.id < r.id) = before := by
  have hb : before.filter (fun q => q.id < r.id) = before :=
    List.filter_eq_self.2 fun q hq => by simpa using (h _ _ _ rfl).above q hq
  have ha : after.filter (fun q => q.id < r.id) = [] :=
    List.filter_eq_nil_iff.2 fun q hq => by simpa using (h.after q hq).le
  rw [List.filter_append, List.filter_cons, hb, ha]
  simp

theorem Linked.predecessor_eq {rows : List (Row New)} {r : Row New} (hr : r ∈ rows)
    (h : Linked pg T (rowsOf T (T.key r.columns) rows)) :
    r.prevHash = (predecessor T rows r).map Row.rowHash := by
  obtain ⟨before, after, he⟩ := List.append_of_mem (mem_rowsOf.2 ⟨hr, rfl⟩ : r ∈ rowsOf T _ rows)
  rw [he] at h
  rw [predecessor, he, h.filter_lt, h.front.chainEnd_eq]
  exact (h _ _ _ rfl).prev

omit [DecidableEq Key] in
/-- The beginning of a linked chain does not recombine into the whole: a later row is apart from the
first. -/
theorem Linked.not_recombines {before more : List (Row New)} (h : Linked pg T (before ++ more)) :
    ¬ Recombines pg.digest (before.map fun q => block pg (T.document q.columns))
      ((before ++ more).map fun q => block pg (T.document q.columns)) := by
  rintro ⟨first, rest, x, later, hfirst, hx, hne, hread⟩
  obtain ⟨xs, ys, hsplit, rfl, hys⟩ := List.map_eq_append_iff.1 hx
  obtain ⟨q, ys, rfl, rfl, -⟩ := List.map_eq_cons_iff.1 hys
  obtain ⟨p, ps, rfl, rfl, -⟩ := List.map_eq_cons_iff.1 hfirst
  have hq := h xs q ys hsplit
  have hp := h [] p (ps ++ more) rfl
  obtain ⟨x, xs, rfl⟩ := List.exists_cons_of_ne_nil (show xs ≠ [] from fun h0 => hne (by rw [h0]; rfl))
  obtain ⟨rfl, -⟩ := List.cons.inj hsplit
  refine hq.apart p List.mem_cons_self hp.prev ?_
  rw [hashedBytes, hashedBytes, hq.prev, hp.prev]
  exact hread

omit [DecidableEq Key] in
/-- A row and a later one of its chain are not behind one hash. -/
theorem Linked.prevHash_ne (hlen : FixedLength pg.digest) {before between after : List (Row New)}
    {r r' : Row New} (h : Linked pg T (before ++ r :: (between ++ r' :: after)))
    (hfree : CollisionFree pg.digest ((before ++ r :: (between ++ r' :: after)).map (hashedBytes pg T))) :
    r.prevHash ≠ r'.prevHash := by
  have hr := h before r _ rfl
  have hr' := h (before ++ r :: between) r' after (by simp)
  have hall : Linked pg T ((before ++ r :: between) ++ r' :: after) := by simpa using h
  have hbetween : Linked pg T (before ++ r :: between) := hall.front
  have hbefore : Linked pg T before := h.front
  have hsub : CollisionFree pg.digest
      (inputs pg.digest (before.map fun q => block pg (T.document q.columns)) ++
        inputs pg.digest ((before ++ r :: between).map fun q => block pg (T.document q.columns))) := by
    rw [hbefore.inputs_eq, hbetween.inputs_eq]
    refine hfree.subset _ fun x hx => ?_
    simp only [List.map_append, List.map_cons, List.mem_append, List.mem_cons] at hx ⊢
    tauto
  intro he
  rw [hr.prev, hr'.prev, chainEnd_eq_iff pg.digest hlen hsub] at he
  rcases he with he | he | he
  · have := congrArg List.length he
    simp at this
  · exact hbetween.not_recombines he
  · have := he.length_lt
    simp only [List.length_map, List.length_append, List.length_cons] at this
    omega

theorem unforked_of_linked (hlen : FixedLength pg.digest) {rows : List (Row New)}
    (h : ∀ k, Linked pg T (rowsOf T k rows))
    (hfree : CollisionFree pg.digest (rows.map (hashedBytes pg T))) : Unforked T rows := by
  refine ⟨fun r hr => (h _).predecessor_eq hr, fun r hr r' hr' hk hp => ?_⟩
  by_contra hne
  have hmem : r ∈ rowsOf T (T.key r.columns) rows := mem_rowsOf.2 ⟨hr, rfl⟩
  have hmem' : r' ∈ rowsOf T (T.key r.columns) rows := mem_rowsOf.2 ⟨hr', hk.symm⟩
  have hlinked := h (T.key r.columns)
  have hsub : CollisionFree pg.digest ((rowsOf T (T.key r.columns) rows).map (hashedBytes pg T)) :=
    hfree.subset _ (List.map_subset _ (List.filter_sublist.subset))
  obtain ⟨before, after, he⟩ := List.append_of_mem hmem
  rw [he] at hmem' hlinked hsub
  rcases List.mem_append.1 hmem' with hb | hb
  · obtain ⟨x, y, rfl⟩ := List.append_of_mem hb
    rw [List.append_assoc, List.cons_append] at hlinked hsub
    exact hlinked.prevHash_ne hlen hsub hp.symm
  · rcases List.mem_cons.1 hb with rfl | hb
    · exact hne rfl
    · obtain ⟨x, y, rfl⟩ := List.append_of_mem hb
      exact hlinked.prevHash_ne hlen hsub hp

end

/-- A run whose triggers all read in order leaves no fork, whatever has been committed. -/
theorem unforked_of_reached (hlen : FixedLength pg.digest) {s : State New}
    (hreach : Reached pg T (InOrder pg T) s)
    (hfree : CollisionFree pg.digest (s.committed.map (hashedBytes pg T))) : Unforked T s.committed :=
  unforked_of_linked hlen (Serial.of_reached hreach).committed_linked hfree

/-- **In every run whose triggers find no larger id in their chain when they read, neither the chain of
a case nor the audit chain of an organisation forks**, where the digest has no collision among the rows
committed. -/
theorem in_order_never_forks (hlen : FixedLength pg.digest) :
    (∀ s, Reached pg (chainDeductionEvent pg) (InOrder pg (chainDeductionEvent pg)) s →
      CollisionFree pg.digest (s.committed.map (hashedBytes pg (chainDeductionEvent pg))) →
      Unforked (chainDeductionEvent pg) s.committed) ∧
    (∀ s, Reached pg (chainAuditLog pg) (InOrder pg (chainAuditLog pg)) s →
      CollisionFree pg.digest (s.committed.map (hashedBytes pg (chainAuditLog pg))) →
      Unforked (chainAuditLog pg) s.committed) :=
  ⟨fun _ => unforked_of_reached pg _ hlen, fun _ => unforked_of_reached pg _ hlen⟩

/-! ## Two runs -/

/-- An event of one case. -/
def caseEvent (e : Event Text) : DeductionEvent Text :=
  { toEvent := e, orgId := "o".toList, deductionId := "d".toList }

/-- The second transaction draws its id while the first holds the lock, and locks when it is free. -/
def waiting : List (Action (DeductionEvent Text)) :=
  [.draw 0 (caseEvent discovered), .lock 0, .draw 1 (caseEvent classified), .read 0, .write 0, .commit 0,
    .lock 1, .read 1, .write 1, .commit 1]

/-- The second transaction draws the larger id and takes the lock first; a third one comes later. -/
def overtaking : List (Action (DeductionEvent Text)) :=
  [.draw 0 (caseEvent discovered), .draw 1 (caseEvent classified), .lock 1, .read 1, .write 1, .commit 1,
    .lock 0, .read 0, .write 0, .commit 0,
    .draw 2 (caseEvent writtenOff), .lock 2, .read 2, .write 2, .commit 2]

/-- The lock orders the inserts, not their ids: the first row is chained behind the second, and the third
row behind it too. -/
theorem draw_before_lock_forks :
    ¬ ∀ s, Reached textDatabase (chainDeductionEvent textDatabase) (fun _ _ => True) s →
      CollisionFree textDatabase.digest
        (s.committed.map (hashedBytes textDatabase (chainDeductionEvent textDatabase))) →
      Unforked (chainDeductionEvent textDatabase) s.committed := by
  intro h
  have hrun : ∃ s ∈ run textDatabase (chainDeductionEvent textDatabase) (fun _ _ => True) overtaking start,
      CollisionFree textDatabase.digest
        (s.committed.map (hashedBytes textDatabase (chainDeductionEvent textDatabase))) ∧
      ¬ Unforked (chainDeductionEvent textDatabase) s.committed := by decide +kernel
  obtain ⟨s, hs, hfree, hfork⟩ := hrun
  exact hfork (h s (Reached.start.run _ _ hs) hfree)

theorem waiting_unforked : ∃ s ∈ run textDatabase (chainDeductionEvent textDatabase)
    (InOrder textDatabase (chainDeductionEvent textDatabase)) waiting start,
      s.committed.length = 2 ∧ Unforked (chainDeductionEvent textDatabase) s.committed := by
  have hrun : ∃ s ∈ run textDatabase (chainDeductionEvent textDatabase)
      (InOrder textDatabase (chainDeductionEvent textDatabase)) waiting start,
      s.committed.length = 2 ∧ CollisionFree textDatabase.digest
        (s.committed.map (hashedBytes textDatabase (chainDeductionEvent textDatabase))) := by decide +kernel
  obtain ⟨s, hs, hlen, hfree⟩ := hrun
  exact ⟨s, hs, hlen, (in_order_never_forks textDatabase textDatabase_fixedLength).1 s
    (Reached.start.run _ _ hs) hfree⟩

end Recouple.Database
