import Recouple.Core.PayerCodeMap
import Recouple.Lib.KeyedFold

/-!
# Every entry of a draft's code table is accounted for

The loop is followed by `Accounts`: the entries it has read are, in some order, those it has proposed, those it has
skipped and those whose `printed` is no text; and what it has seen is the first reason of each code.
`draft_accounted_iff` reads the table off it: nothing is lost but an entry whose `printed` is no text, and nothing
stops the loop but a `canonical` that has no `String`.
-/

namespace Recouple.PayerCodes
open Js Packet KeyedFold

variable {T : CaseTables} {root : Fields}

/-! ## What an entry says -/

/-- The entry pairs one printed code with one canonical reason. -/
def Maps (T : CaseTables) (entry : Fields) (printed code canonical : Text) : Prop :=
  property entry "printed" = .str printed ∧ property entry "canonical" = .str canonical ∧
    isCanonicalReasonCode canonical = true ∧ hasShape printed = false ∧ code = normalisePayerCode T printed ∧
    isStorablePayerCode T code = true

/-- Why an entry that pairs nothing is skipped. -/
inductive Unpaired (T : CaseTables) (entry : Fields) (printed : Text) : DraftSkipReason → Prop
  | unmapped (h : property entry "canonical" = .undefined ∨ property entry "canonical" = .null) :
    Unpaired T entry printed .unmapped_in_draft
  | uncanonical (h : property entry "canonical" ≠ .undefined ∧ property entry "canonical" ≠ .null)
    (h' : ∀ canonical, property entry "canonical" = .str canonical → isCanonicalReasonCode canonical = false) :
    Unpaired T entry printed .not_canonical
  | shape (h : hasShape printed = true) : Unpaired T entry printed .shape_not_code
  | unstorable (h : isStorablePayerCode T (normalisePayerCode T printed) = false) :
    Unpaired T entry printed .not_storable

/-- The entry has a text that is printed, and its canonical value has a `String`. -/
def Legible (entry : Fields) : Prop :=
  (∃ printed, property entry "printed" = .str printed) ∧ (stringOf (property entry "canonical")).isSome

/-- What the checks say of an entry. -/
def Means (T : CaseTables) (entry : Fields) : Reading → Prop
  | .ignored => ∀ printed, property entry "printed" ≠ .str printed
  | .skip skipped => property entry "printed" = .str skipped.printed ∧ Unpaired T entry skipped.printed skipped.reason
  | .code printed code canonical => Maps T entry printed code canonical

theorem reading_means {entry : Fields} {r : Reading} (h : reading T entry = .ok r) : Means T entry r := by
  unfold reading at h
  split at h
  · rename_i printed hprinted
    split at h
    · rename_i hcanonical
      cases h
      exact ⟨hprinted, .unmapped (.inl hcanonical)⟩
    · rename_i hcanonical
      cases h
      exact ⟨hprinted, .unmapped (.inr hcanonical)⟩
    · rename_i canonical hcanonical
      split at h
      · rename_i hnot
        rw [Bool.not_eq_true'] at hnot
        cases h
        refine ⟨hprinted, .uncanonical ⟨by rw [hcanonical]; simp, by rw [hcanonical]; simp⟩ fun c hc => ?_⟩
        cases hcanonical.symm.trans hc
        exact hnot
      rename_i hcode
      rw [Bool.not_eq_true', Bool.not_eq_false] at hcode
      split at h
      · rename_i hshape
        cases h
        exact ⟨hprinted, .shape hshape⟩
      rename_i hshape
      split at h
      · rename_i hstorable
        rw [Bool.not_eq_true'] at hstorable
        cases h
        exact ⟨hprinted, .unstorable hstorable⟩
      rename_i hstorable
      rw [Bool.not_eq_true', Bool.not_eq_false] at hstorable
      cases h
      exact ⟨hprinted, hcanonical, hcode, Bool.not_eq_true _ ▸ hshape, rfl, hstorable⟩
    · rename_i hundefined hnull hstr
      split at h
      · cases h
        exact ⟨hprinted, .uncanonical ⟨hundefined, hnull⟩ fun c hc => absurd hc (hstr c)⟩
      · cases h
  · rename_i hprinted
    cases h
    exact hprinted

/-- An entry that pairs a code with a reason is read so. -/
theorem reading_maps {entry : Fields} {printed code canonical : Text} (h : Maps T entry printed code canonical) :
    reading T entry = .ok (.code printed code canonical) := by
  obtain ⟨hprinted, hcanonical, hcode, hshape, rfl, hstorable⟩ := h
  unfold reading
  rw [hprinted, hcanonical]
  dsimp only
  rw [hcode, hshape, hstorable]
  rfl

theorem Maps.unique {entry : Fields} {p p' c c' k k' : Text} (h : Maps T entry p c k) (h' : Maps T entry p' c' k') :
    c = c' ∧ k = k' := by
  have hsame := (reading_maps h).symm.trans (reading_maps h')
  cases hsame
  exact ⟨rfl, rfl⟩

/-- The checks stop at a `canonical` without a `String` alone. -/
theorem reading_returns {entry : Fields} :
    (∃ r, reading T entry = .ok r) ↔
      ((∃ printed, property entry "printed" = .str printed) → (stringOf (property entry "canonical")).isSome) := by
  unfold reading
  split
  · rename_i printed hprinted
    rw [hprinted]
    have hex : ∃ printed', Untyped.str printed = .str printed' := ⟨printed, rfl⟩
    rw [forall_prop_of_true hex]
    split
    · rename_i hcanonical
      rw [hcanonical]
      exact iff_of_true ⟨_, rfl⟩ rfl
    · rename_i hcanonical
      rw [hcanonical]
      exact iff_of_true ⟨_, rfl⟩ rfl
    · rename_i canonical hcanonical
      rw [hcanonical]
      refine iff_of_true ?_ rfl
      split
      · exact ⟨_, rfl⟩
      split
      · exact ⟨_, rfl⟩
      split
      · exact ⟨_, rfl⟩
      · exact ⟨_, rfl⟩
    · split
      · rename_i text htext
        rw [htext]
        exact iff_of_true ⟨_, rfl⟩ rfl
      · rename_i hnone
        rw [hnone]
        refine iff_of_false ?_ (by simp)
        rintro ⟨r, hr⟩
        cases hr
  · rename_i hprinted
    refine iff_of_true ⟨_, rfl⟩ ?_
    rintro ⟨printed, h⟩
    exact absurd h (hprinted printed)

/-! ## The loop -/

/-- The row is proposed for the item. -/
def Proposes (T : CaseTables) (root : Fields) (item : DraftItem) (row : ProposedPayerCodeMap) : Prop :=
  Maps T item.entry row.printed row.payerCode row.canonicalCode ∧ row.sourceNote = sourceNote root item

/-- The item is skipped for the reason given, which holds of it among the items. -/
def Skips (T : CaseTables) (items : List DraftItem) (item : DraftItem) (skipped : SkippedDraftEntry) : Prop :=
  property item.entry "printed" = .str skipped.printed ∧
  (Unpaired T item.entry skipped.printed skipped.reason ∨
    ∃ code canonical, Maps T item.entry skipped.printed code canonical ∧
      (skipped.reason = .repeated_in_draft ∧ (∃ before after, items = before ++ item :: after ∧
          ∃ other ∈ before, ∃ printed, Maps T other.entry printed code canonical) ∨
        skipped.reason = .conflicting_in_draft ∧
          ∃ other ∈ items, ∃ printed reason, Maps T other.entry printed code reason ∧ reason ≠ canonical))

theorem Skips.concat {items : List DraftItem} {item new : DraftItem} {skipped : SkippedDraftEntry}
    (h : Skips T items item skipped) : Skips T (items ++ [new]) item skipped := by
  refine ⟨h.1, h.2.imp_right ?_⟩
  rintro ⟨code, canonical, hmaps, ⟨hreason, before, after, rfl, hother⟩ | ⟨hreason, other, hmem, hother⟩⟩
  · exact ⟨code, canonical, hmaps, .inl ⟨hreason, before, after ++ [new], by simp, hother⟩⟩
  · exact ⟨code, canonical, hmaps, .inr ⟨hreason, other, List.mem_append_left _ hmem, hother⟩⟩

structure Accounts (T : CaseTables) (root : Fields) (done : List DraftItem) (s : DraftState) : Prop where
  once : ∃ P S N, done.Perm (P ++ S ++ N) ∧ List.Forall₂ (Proposes T root) P s.proposed ∧
    List.Forall₂ (Skips T done) S s.skipped ∧ ∀ item ∈ N, ∀ printed, property item.entry "printed" ≠ .str printed
  seen : s.seen = s.proposed.map fun row => (row.payerCode, row.canonicalCode)
  distinct : (s.seen.map Prod.fst).Nodup
  first : ∀ item ∈ done, ∀ printed code canonical, Maps T item.entry printed code canonical →
    ∃ earlier, (code, earlier) ∈ s.seen ∧ (earlier ≠ canonical → code ∈ s.conflicted)
  conflicted : ∀ code ∈ s.conflicted, ∃ a ∈ done, ∃ b ∈ done, ∃ p q k k',
    Maps T a.entry p code k ∧ Maps T b.entry q code k' ∧ k ≠ k'

theorem accounts_nil : Accounts T root [] ⟨[], [], [], []⟩ where
  once := ⟨[], [], [], List.Perm.refl _, .nil, .nil, by simp⟩
  seen := rfl
  distinct := List.nodup_nil
  first := by simp
  conflicted := by simp

/-- A code seen with a reason is one an entry has paired with it. -/
theorem Accounts.of_seen {done : List DraftItem} {s : DraftState} (h : Accounts T root done s) {code canonical : Text}
    (hmem : (code, canonical) ∈ s.seen) : ∃ item ∈ done, ∃ printed, Maps T item.entry printed code canonical := by
  obtain ⟨P, S, N, hperm, hP, -, -⟩ := h.once
  rw [h.seen] at hmem
  obtain ⟨row, hrow, hpair⟩ := List.mem_map.1 hmem
  cases hpair
  obtain ⟨item, hitem, hproposes⟩ := exists_of_mem_right hP hrow
  exact ⟨item, hperm.mem_iff.2 (by simp [hitem]), row.printed, hproposes.1⟩

theorem forall₂_concat {α β : Type} {R : α → β → Prop} {l : List α} {l' : List β} {a : α} {b : β}
    (h : List.Forall₂ R l l') (hab : R a b) : List.Forall₂ R (l ++ [a]) (l' ++ [b]) :=
  List.rel_append h (.cons hab .nil)

theorem accounts_skip {done : List DraftItem} {s : DraftState} {item : DraftItem} {skipped : SkippedDraftEntry}
    {conflicted : List Text} (h : Accounts T root done s) (hskips : Skips T (done ++ [item]) item skipped)
    (hfirst : ∀ printed code canonical, Maps T item.entry printed code canonical →
      ∃ earlier, (code, earlier) ∈ s.seen ∧ (earlier ≠ canonical → code ∈ conflicted))
    (hconflicted : ∀ code ∈ conflicted, code ∈ s.conflicted ∨ ∃ a ∈ done, ∃ p q k k',
      Maps T a.entry p code k ∧ Maps T item.entry q code k' ∧ k ≠ k')
    (hkept : ∀ code ∈ s.conflicted, code ∈ conflicted) :
    Accounts T root (done ++ [item]) { s with skipped := s.skipped ++ [skipped], conflicted := conflicted } where
  once := by
    obtain ⟨P, S, N, hperm, hP, hS, hN⟩ := h.once
    refine ⟨P, S ++ [item], N, ?_, hP, forall₂_concat (hS.imp fun _ _ => Skips.concat) hskips, hN⟩
    have hmiddle : ((P ++ S ++ N) ++ [item]).Perm (P ++ (S ++ [item]) ++ N) := by
      simpa using (@List.perm_append_comm _ N [item]).append_left (P ++ S)
    exact (hperm.append_right _).trans hmiddle
  seen := h.seen
  distinct := h.distinct
  first := fun other hmem printed code canonical hmaps => by
    rcases List.mem_append.1 hmem with hmem | hmem
    · obtain ⟨earlier, hseen, hne⟩ := h.first other hmem printed code canonical hmaps
      exact ⟨earlier, hseen, fun hdiff => hkept _ (hne hdiff)⟩
    · cases List.mem_singleton.1 hmem
      exact hfirst printed code canonical hmaps
  conflicted := fun code hmem => by
    rcases hconflicted code hmem with hold | ⟨a, ha, p, q, k, k', hk, hk', hne⟩
    · obtain ⟨a, ha, b, hb, hrest⟩ := h.conflicted code hold
      exact ⟨a, List.mem_append_left _ ha, b, List.mem_append_left _ hb, hrest⟩
    · exact ⟨a, List.mem_append_left _ ha, item, by simp, p, q, k, k', hk, hk', hne⟩

theorem place_seen {s : DraftState} {item : DraftItem} {printed code canonical earlier : Text}
    (h : s.seen.lookup code = some earlier) : place root s item (.code printed code canonical) =
      if earlier = canonical then { s with skipped := s.skipped ++ [⟨printed, .repeated_in_draft, none⟩] }
      else { s with
        conflicted := code :: s.conflicted
        skipped := s.skipped ++ [⟨printed, .conflicting_in_draft, some (earlier ++ " and ".toList ++ canonical)⟩] } := by
  simp only [place, h]

theorem place_new {s : DraftState} {item : DraftItem} {printed code canonical : Text} (h : s.seen.lookup code = none) :
    place root s item (.code printed code canonical) = { s with
      seen := s.seen ++ [(code, canonical)]
      proposed := s.proposed ++ [⟨printed, code, canonical, sourceNote root item⟩] } := by
  simp only [place, h]

theorem accounts_step {done : List DraftItem} {s s' : DraftState} {item : DraftItem} (h : Accounts T root done s)
    (hstep : draftStep T root s item = .ok s') : Accounts T root (done ++ [item]) s' := by
  unfold draftStep at hstep
  obtain ⟨r, hr, rfl⟩ := map_ok.1 hstep
  have hread := reading_means hr
  cases r with
  | ignored =>
    obtain ⟨P, S, N, hperm, hP, hS, hN⟩ := h.once
    have hnone : ∀ printed code canonical, ¬ Maps T item.entry printed code canonical := fun printed _ _ hmaps =>
      hread printed hmaps.1
    refine ⟨⟨P, S, N ++ [item], ?_, hP, hS.imp fun _ _ => Skips.concat, ?_⟩, h.seen, h.distinct, ?_, ?_⟩
    · rw [← List.append_assoc]
      exact hperm.append_right _
    · intro other hother
      rcases List.mem_append.1 hother with hother | hother
      · exact hN other hother
      · cases List.mem_singleton.1 hother
        exact hread
    · intro other hother printed code canonical hmaps
      rcases List.mem_append.1 hother with hother | hother
      · exact h.first other hother printed code canonical hmaps
      · cases List.mem_singleton.1 hother
        exact absurd hmaps (hnone _ _ _)
    · intro code hcode
      obtain ⟨a, ha, b, hb, hrest⟩ := h.conflicted code hcode
      exact ⟨a, List.mem_append_left _ ha, b, List.mem_append_left _ hb, hrest⟩
  | skip skipped =>
    refine accounts_skip h ⟨hread.1, .inl hread.2⟩ (fun printed code canonical hmaps => ?_) (fun _ => .inl) fun _ => id
    cases hr.symm.trans (reading_maps hmaps)
  | code printed code canonical =>
    have hitem : Maps T item.entry printed code canonical := hread
    have hown : ∀ p c k, Maps T item.entry p c k → c = code ∧ k = canonical := fun p c k hmaps => hmaps.unique hitem
    cases hlookup : s.seen.lookup code with
    | some earlier =>
      have hseen : (code, earlier) ∈ s.seen := by
        obtain ⟨l₁, l₂, hsplit, -⟩ := List.lookup_eq_some_iff.1 hlookup
        rw [hsplit]
        simp
      obtain ⟨other, hother, p, hmaps⟩ := h.of_seen hseen
      rw [place_seen hlookup]
      split
      · rename_i hsame
        subst hsame
        have hskips : Skips T (done ++ [item]) item ⟨printed, .repeated_in_draft, none⟩ :=
          ⟨hitem.1, .inr ⟨code, earlier, hitem, .inl ⟨rfl, done, [], rfl, other, hother, p, hmaps⟩⟩⟩
        refine accounts_skip h hskips (fun _ c k hck => ?_) (fun _ => .inl) fun _ => id
        obtain ⟨rfl, rfl⟩ := hown _ c k hck
        exact ⟨_, hseen, fun hne => absurd rfl hne⟩
      · rename_i hdiff
        have hskips : Skips T (done ++ [item]) item
            ⟨printed, .conflicting_in_draft, some (earlier ++ " and ".toList ++ canonical)⟩ :=
          ⟨hitem.1, .inr ⟨code, canonical, hitem,
            .inr ⟨rfl, other, List.mem_append_left _ hother, p, earlier, hmaps, hdiff⟩⟩⟩
        refine accounts_skip h hskips (fun _ c k hck => ?_) (fun c hc => ?_) fun c hc => List.mem_cons_of_mem _ hc
        · obtain ⟨rfl, rfl⟩ := hown _ c k hck
          exact ⟨_, hseen, fun _ => List.mem_cons_self⟩
        · rcases List.mem_cons.1 hc with rfl | hc
          · exact .inr ⟨other, hother, p, printed, earlier, canonical, hmaps, hitem, hdiff⟩
          · exact .inl hc
    | none =>
      obtain ⟨P, S, N, hperm, hP, hS, hN⟩ := h.once
      have hnew : code ∉ s.seen.map Prod.fst := by
        intro hmem
        obtain ⟨pair, hpair, rfl⟩ := List.mem_map.1 hmem
        have hne := List.lookup_eq_none_iff.1 hlookup pair hpair
        simp at hne
      rw [place_new hlookup]
      refine ⟨⟨P ++ [item], S, N, ?_, forall₂_concat hP ⟨hitem, rfl⟩,
        hS.imp fun _ _ => Skips.concat, hN⟩, ?_, ?_, ?_, ?_⟩
      · have hfront : ((P ++ S ++ N) ++ [item]).Perm (P ++ [item] ++ S ++ N) := by
          simpa using (@List.perm_append_comm _ (S ++ N) [item]).append_left P
        exact (hperm.append_right _).trans hfront
      · dsimp only
        rw [h.seen, List.map_append, List.map_singleton]
      · dsimp only
        rw [List.map_append]
        exact List.nodup_append.2 ⟨h.distinct, by simp, fun a ha b hb hab => by
          cases List.mem_singleton.1 hb
          exact hnew ((show a = code from hab) ▸ ha)⟩
      · intro other hmem p c k hmaps
        rcases List.mem_append.1 hmem with hmem | hmem
        · obtain ⟨earlier, hseen, hne⟩ := h.first other hmem p c k hmaps
          exact ⟨earlier, List.mem_append_left _ hseen, hne⟩
        · cases List.mem_singleton.1 hmem
          obtain ⟨rfl, rfl⟩ := hown p c k hmaps
          exact ⟨k, by simp, fun hne => absurd rfl hne⟩
      · intro c hc
        obtain ⟨a, ha, b, hb, hrest⟩ := h.conflicted c hc
        exact ⟨a, List.mem_append_left _ ha, b, List.mem_append_left _ hb, hrest⟩

/-! ## The table -/

section
variable {items : List DraftItem} {s : DraftState} {table : DraftCodeTable}

theorem loop_returns : (∃ s, items.foldlM (draftStep T root) ⟨[], [], [], []⟩ = .ok s) ↔
    ∀ item ∈ items, ∃ r, reading T item.entry = .ok r := by
  constructor
  · rintro ⟨s, h⟩
    refine foldlM_inv (I := fun done _ => ∀ item ∈ done, ∃ r, reading T item.entry = .ok r) ?_ (by simp) h
    intro done s item s' hdone hstep other hother
    rcases List.mem_append.1 hother with hother | hother
    · exact hdone other hother
    · cases List.mem_singleton.1 hother
      obtain ⟨r, hr, -⟩ := map_ok.1 hstep
      exact ⟨r, hr⟩
  · intro h
    generalize (⟨[], [], [], []⟩ : DraftState) = s
    induction items generalizing s with
    | nil => exact ⟨s, rfl⟩
    | cons item items ih =>
      rw [List.forall_mem_cons] at h
      obtain ⟨r, hr⟩ := h.1
      rw [List.foldlM_cons, draftStep, hr]
      exact ih h.2 _

theorem loop_accounts (h : items.foldlM (draftStep T root) ⟨[], [], [], []⟩ = .ok s) : Accounts T root items s :=
  foldlM_inv accounts_step accounts_nil h

/-- Rows that pass and rows that do not are two parts of the rows. -/
theorem forall₂_parts {α β : Type} {R : α → β → Prop} {l : List α} {l' : List β} (h : List.Forall₂ R l l')
    (p : β → Bool) :
    ∃ a b, l.Perm (a ++ b) ∧ List.Forall₂ R a (l'.filter p) ∧ List.Forall₂ R b (l'.filter fun x => !p x) := by
  induction h with
  | nil => exact ⟨[], [], List.Perm.refl _, .nil, .nil⟩
  | @cons x y l l' hxy _ ih =>
    obtain ⟨a, b, hperm, ha, hb⟩ := ih
    cases hp : p y with
    | true =>
      refine ⟨x :: a, b, hperm.cons x, ?_, ?_⟩
      · rw [List.filter_cons_of_pos hp]
        exact .cons hxy ha
      · rwa [List.filter_cons_of_neg (by simp [hp])]
    | false =>
      refine ⟨a, x :: b, (hperm.cons x).trans List.perm_middle.symm, ?_, ?_⟩
      · rwa [List.filter_cons_of_neg (by simp [hp])]
      · rw [List.filter_cons_of_pos (by simp [hp])]
        exact .cons hxy hb

/-- The pairs a table proposes. -/
def pairs (table : DraftCodeTable) : List (Text × Text) :=
  table.proposed.map fun row => (row.payerCode, row.canonicalCode)

/-- **What is proposed**: the reason of a code for which the draft has that reason and no other. -/
theorem Accounts.mem_pairs (h : Accounts T root items s) {code canonical : Text} :
    (code, canonical) ∈ pairs (tableOf root s) ↔
      (∃ item ∈ items, ∃ printed, Maps T item.entry printed code canonical) ∧
      ∀ item ∈ items, ∀ printed reason, Maps T item.entry printed code reason → reason = canonical := by
  have hmem : (code, canonical) ∈ pairs (tableOf root s) ↔ (code, canonical) ∈ s.seen ∧ code ∉ s.conflicted := by
    rw [h.seen, pairs, tableOf, List.mem_map, List.mem_map]
    constructor
    · rintro ⟨row, hrow, hpair⟩
      obtain ⟨hrow, hkept⟩ := List.mem_filter.1 hrow
      cases hpair
      exact ⟨⟨row, hrow, rfl⟩, by simpa using hkept⟩
    · rintro ⟨⟨row, hrow, hpair⟩, hkept⟩
      cases hpair
      exact ⟨row, List.mem_filter.2 ⟨hrow, by simpa using hkept⟩, rfl⟩
  have hone : ∀ {k k'}, (code, k) ∈ s.seen → (code, k') ∈ s.seen → k = k' := fun hk hk' =>
    congrArg Prod.snd (List.inj_on_of_nodup_map h.distinct hk hk' rfl)
  rw [hmem]
  constructor
  · rintro ⟨hseen, hkept⟩
    refine ⟨h.of_seen hseen, fun item hitem printed reason hmaps => ?_⟩
    obtain ⟨earlier, hearlier, hne⟩ := h.first item hitem printed code reason hmaps
    obtain rfl := hone hearlier hseen
    by_contra hdiff
    exact hkept (hne fun e => hdiff e.symm)
  · rintro ⟨⟨item, hitem, printed, hmaps⟩, honly⟩
    obtain ⟨earlier, hearlier, -⟩ := h.first item hitem printed code canonical hmaps
    obtain ⟨other, hother, p, hothermaps⟩ := h.of_seen hearlier
    obtain rfl := honly other hother p earlier hothermaps
    refine ⟨hearlier, fun hconflicted => ?_⟩
    obtain ⟨a, ha, b, hb, p, q, k, k', hk, hk', hne⟩ := h.conflicted code hconflicted
    exact hne ((honly a ha p k hk).trans (honly b hb q k' hk').symm)

/-- The table accounts for the items: each is proposed or skipped, once; the codes proposed are storable and distinct,
and canonical reasons are proposed for them; a code with two reasons is proposed for neither. -/
structure AccountsFor (T : CaseTables) (root : Fields) (items : List DraftItem) (table : DraftCodeTable) : Prop where
  once : ∃ P S, items.Perm (P ++ S) ∧ List.Forall₂ (Proposes T root) P table.proposed ∧
    List.Forall₂ (Skips T items) S table.skipped
  storable : ∀ row ∈ table.proposed, isStorablePayerCode T row.payerCode = true ∧
    isCanonicalReasonCode row.canonicalCode = true
  distinct : (table.proposed.map (·.payerCode)).Nodup
  neither : ∀ a ∈ items, ∀ b ∈ items, ∀ p q code k k', Maps T a.entry p code k → Maps T b.entry q code k' → k ≠ k' →
    code ∉ table.proposed.map (·.payerCode)

theorem Accounts.accountsFor (h : Accounts T root items s) (hlegible : ∀ item ∈ items, Legible item.entry) :
    AccountsFor T root items (tableOf root s) := by
  obtain ⟨P, S, N, hperm, hP, hS, hN⟩ := h.once
  have hnone : N = [] := List.eq_nil_iff_forall_not_mem.2 fun item hitem => by
    obtain ⟨⟨printed, hprinted⟩, -⟩ := hlegible item (hperm.mem_iff.2 (by simp [hitem]))
    exact hN item hitem printed hprinted
  subst hnone
  rw [List.append_nil] at hperm
  have hproposes : ∀ row ∈ s.proposed, ∃ item ∈ items, Proposes T root item row := fun row hrow => by
    obtain ⟨item, hitem, hitemrow⟩ := exists_of_mem_right hP hrow
    exact ⟨item, hperm.mem_iff.2 (by simp [hitem]), hitemrow⟩
  refine ⟨?_, fun row hrow => ?_, ?_, fun a ha b hb p q code k k' hk hk' hne hmem => ?_⟩
  · obtain ⟨kept, dropped, hparts, hkept, hdropped⟩ := forall₂_parts hP fun row => row.payerCode ∉ s.conflicted
    have hsame : (s.proposed.filter fun row => !decide (row.payerCode ∉ s.conflicted)) =
        s.proposed.filter fun row => row.payerCode ∈ s.conflicted := by
      congr 1
      funext row
      simp
    rw [hsame] at hdropped
    refine ⟨kept, S ++ dropped, ?_, hkept, List.rel_append hS (List.forall₂_map_right_iff.2 ?_)⟩
    · have hmove : ((kept ++ dropped) ++ S).Perm (kept ++ (S ++ dropped)) := by
        rw [List.append_assoc]
        exact List.perm_append_comm.append_left kept
      exact hperm.trans ((hparts.append_right S).trans hmove)
    · have hrows : List.Forall₂ (fun item row => Proposes T root item row ∧ row.payerCode ∈ s.conflicted) dropped
          (s.proposed.filter fun row => row.payerCode ∈ s.conflicted) := by
        refine List.forall₂_iff_get.2 ⟨hdropped.length_eq, fun i hi hi' => ⟨?_, ?_⟩⟩
        · exact hdropped.get hi hi'
        · simpa using (List.mem_filter.1 (List.get_mem _ ⟨i, hi'⟩)).2
      refine hrows.imp fun item row hrow => ⟨hrow.1.1.1, .inr ⟨_, _, hrow.1.1, .inr ⟨rfl, ?_⟩⟩⟩
      obtain ⟨a, ha, b, hb, p, q, k, k', hk, hk', hne⟩ := h.conflicted _ hrow.2
      by_cases hcanonical : k = row.canonicalCode
      · exact ⟨b, hb, q, k', hk', fun e => hne (hcanonical.trans e.symm)⟩
      · exact ⟨a, ha, p, k, hk, hcanonical⟩
  · obtain ⟨item, -, hmaps, -⟩ := hproposes row (List.mem_filter.1 hrow).1
    exact ⟨hmaps.2.2.2.2.2, hmaps.2.2.1⟩
  · have hdistinct := h.distinct
    rw [h.seen, List.map_map] at hdistinct
    exact hdistinct.sublist (List.filter_sublist.map _)
  · obtain ⟨row, hrow, rfl⟩ := List.mem_map.1 hmem
    have honly := (h.mem_pairs.1 (List.mem_map_of_mem hrow)).2
    exact hne ((honly a ha p k hk).trans (honly b hb q k' hk').symm)

end

/-! ## Every draft -/

/-- The draft's entries are all accounted for, and what is proposed of them does not depend on their order. -/
def DraftAccounted (T : CaseTables) (root : Fields) : Prop :=
  ∃ table, proposedPayerCodeMapsFromDraft T (.obj root) = .ok table ∧ AccountsFor T root (draftItems root) table ∧
    ∀ root' table', proposedPayerCodeMapsFromDraft T (.obj root') = .ok table' →
      ((draftItems root).map (·.entry)).Perm ((draftItems root').map (·.entry)) →
      ∀ pair, pair ∈ pairs table ↔ pair ∈ pairs table'

theorem fromDraft_ok {table : DraftCodeTable} : proposedPayerCodeMapsFromDraft T (.obj root) = .ok table ↔
    ∃ s, (draftItems root).foldlM (draftStep T root) ⟨[], [], [], []⟩ = .ok s ∧ tableOf root s = table :=
  map_ok

theorem entry_mem {items items' : List DraftItem} (hperm : (items.map (·.entry)).Perm (items'.map (·.entry)))
    {item : DraftItem} (h : item ∈ items) : ∃ other ∈ items', other.entry = item.entry :=
  List.mem_map.1 (hperm.mem_iff.1 (List.mem_map_of_mem h))

theorem accounted_of_legible (h : ∀ item ∈ draftItems root, Legible item.entry) : DraftAccounted T root := by
  obtain ⟨s, hs⟩ : ∃ s, (draftItems root).foldlM (draftStep T root) ⟨[], [], [], []⟩ = .ok s :=
    loop_returns.2 fun item hitem => reading_returns.2 fun _ => (h item hitem).2
  have haccounts := loop_accounts hs
  refine ⟨tableOf root s, fromDraft_ok.2 ⟨s, hs, rfl⟩, haccounts.accountsFor h,
    fun root' table' htable' hperm pair => ?_⟩
  obtain ⟨s', hs', rfl⟩ := fromDraft_ok.1 htable'
  have haccounts' := loop_accounts hs'
  obtain ⟨code, canonical⟩ := pair
  rw [haccounts.mem_pairs, haccounts'.mem_pairs]
  constructor
  · rintro ⟨⟨item, hitem, printed, hmaps⟩, honly⟩
    obtain ⟨item', hitem', heq⟩ := entry_mem hperm hitem
    refine ⟨⟨item', hitem', printed, heq ▸ hmaps⟩, fun other' hother' p reason hp => ?_⟩
    obtain ⟨other, hother, heq'⟩ := entry_mem hperm.symm hother'
    exact honly other hother p reason (heq' ▸ hp)
  · rintro ⟨⟨item', hitem', printed, hmaps⟩, honly⟩
    obtain ⟨item, hitem, heq⟩ := entry_mem hperm.symm hitem'
    refine ⟨⟨item, hitem, printed, heq ▸ hmaps⟩, fun other hother p reason hp => ?_⟩
    obtain ⟨other', hother', heq'⟩ := entry_mem hperm hother
    exact honly other' hother' p reason (heq' ▸ hp)

theorem legible_of_accounted (h : DraftAccounted T root) : ∀ item ∈ draftItems root, Legible item.entry := by
  obtain ⟨table, htable, haccounts, -⟩ := h
  obtain ⟨s, hs, -⟩ := fromDraft_ok.1 htable
  obtain ⟨P, S, hperm, hP, hS⟩ := haccounts.once
  intro item hitem
  have hprinted : ∃ printed, property item.entry "printed" = .str printed := by
    rcases List.mem_append.1 (hperm.mem_iff.1 hitem) with hmem | hmem
    · obtain ⟨row, -, hrow⟩ := exists_of_mem_left hP hmem
      exact ⟨_, hrow.1.1⟩
    · obtain ⟨skipped, -, hskipped⟩ := exists_of_mem_left hS hmem
      exact ⟨_, hskipped.1⟩
  exact ⟨hprinted, reading_returns.1 (loop_returns.1 ⟨s, hs⟩ item hitem) hprinted⟩

/-- **A draft is accounted for** exactly where each of its entries prints a text and has a canonical value that `String`
can write. -/
theorem draft_accounted_iff (T : CaseTables) (root : Fields) :
    DraftAccounted T root ↔ ∀ item ∈ draftItems root, Legible item.entry :=
  ⟨legible_of_accounted, accounted_of_legible⟩

/-- A code that the draft prints as a number. -/
def numberedDraft : Fields :=
  [("code_map".toList, .obj [("entries".toList,
    .arr [.obj [("printed".toList, .scalar "203".toList), ("canonical".toList, .str "price_discrepancy".toList)]])])]

/-- It is neither proposed nor skipped. -/
theorem numbered_lost : proposedPayerCodeMapsFromDraft asciiCase (.obj numberedDraft) = .ok ⟨none, [], []⟩ ∧
    ¬ ∀ root, DraftAccounted asciiCase root := by
  refine ⟨by decide +kernel, fun hall => ?_⟩
  obtain ⟨⟨printed, hprinted⟩, -⟩ := legible_of_accounted (hall numberedDraft) _ List.mem_cons_self
  cases hprinted

end Recouple.PayerCodes
