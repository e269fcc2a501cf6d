import Recouple.Qbo.TokenRefresh

/-!
# What the refresh lock guarantees

A caller that holds the lock alone changes the rows and exchanges tokens (`Rely`, `Guarantee`). While nobody holds
it every exchanged token belongs to a row that is not the last (`Settled`), and no two rows have one refresh token,
so the token that is sent was never exchanged.

* **`refresh_spends_once`**: over every interleaving each refresh token is exchanged at most once, the token sent is
  the one stored last, and a returned access token is of a stored set, which was not near its expiry when its
  caller judged it, or which the caller rotated itself.
* **`spent_token_sent_again`**: an exchange whose answer is lost leaves the spent token in the store.
-/

namespace Recouple.Qbo.TokenRefresh
open Js Thread

section
variable {ι : Type}

/-! ## The log -/

/-- The sets saved, oldest first. -/
def savedOf (log : List (Event ι)) : List QboTokens :=
  log.filterMap fun
    | .saved _ tokens => some tokens
    | _ => none

/-- The refresh tokens of the exchanges that were answered. -/
def exchangedOf (log : List (Event ι)) : List Text :=
  log.filterMap fun
    | .exchanged _ refreshToken _ => some refreshToken
    | _ => none

/-- The refresh tokens of the exchanges that were carried out. -/
def spentOf (log : List (Event ι)) : List Text :=
  log.filterMap fun
    | .exchanged _ refreshToken _ => some refreshToken
    | .lost _ refreshToken => some refreshToken
    | _ => none

/-- The set stored last. -/
def latest (stored : Option QboTokens) (log : List (Event ι)) : Option QboTokens :=
  (stored.toList ++ savedOf log).getLast?

/-- What may happen after what has happened. -/
def Allowed (stored : Option QboTokens) (before : List (Event ι)) : Event ι → Prop
  | .sent _ refreshToken =>
    (latest stored before).map (·.refreshToken) = some refreshToken ∧ refreshToken ∉ exchangedOf before
  | .exchanged _ refreshToken _ => refreshToken ∉ exchangedOf before
  | _ => True

/-- Every event was allowed after those before it. -/
def Legal (stored : Option QboTokens) (log : List (Event ι)) : Prop :=
  ∀ before e after, log = before ++ e :: after → Allowed stored before e

theorem Legal.append {stored : Option QboTokens} {log : List (Event ι)} {e : Event ι} (h : Legal stored log)
    (he : Allowed stored log e) : Legal stored (log ++ [e]) := by
  intro before e' after heq
  rcases List.eq_nil_or_concat after with rfl | ⟨after, last, rfl⟩
  · obtain ⟨rfl, hlast⟩ := List.append_inj' heq rfl
    obtain rfl := List.singleton_inj.1 hlast
    exact he
  · rw [List.concat_eq_append, ← List.cons_append, ← List.append_assoc] at heq
    exact h before e' after (List.append_inj' heq rfl).1

theorem exchangedOf_append (log log' : List (Event ι)) : exchangedOf (log ++ log') = exchangedOf log ++ exchangedOf log' :=
  List.filterMap_append

/-- Of a legal log, no token is exchanged twice. -/
theorem Legal.nodup {stored : Option QboTokens} {log : List (Event ι)} (h : Legal stored log) : (exchangedOf log).Nodup := by
  induction log using List.reverseRecOn with
  | nil => exact List.nodup_nil
  | append_singleton log e ih =>
    have hlog : Legal stored log := fun before e' after heq =>
      h before e' (after ++ [e]) (by rw [heq, List.append_assoc, List.cons_append])
    have he := h log e [] rfl
    rw [exchangedOf_append]
    cases e with
    | exchanged caller refreshToken rotated => exact List.Nodup.append (ih hlog) (List.nodup_singleton _) (by
        intro t ht hsame
        rw [List.mem_singleton.1 hsame] at ht
        exact he ht)
    | _ => simpa [exchangedOf] using ih hlog

/-! ## The invariant -/

/-- Every exchanged token belongs to a row that is not the last. -/
def Settled (s : Realm ι) : Prop := ∀ t ∈ exchangedOf s.log, t ∈ s.rows.dropLast.map (·.refreshToken)

structure Inv (stored : Option QboTokens) (s : Realm ι) : Prop where
  rows : s.rows = stored.toList ++ savedOf s.log
  distinct : (s.rows.map (·.refreshToken)).Nodup
  legal : Legal stored s.log
  free : s.holder = none → Settled s

/-- An event that neither saves nor exchanges keeps the invariant where it is allowed. -/
theorem Inv.note {stored : Option QboTokens} {s : Realm ι} {e : Event ι} (h : Inv stored s) (he : Allowed stored s.log e)
    (hsaved : savedOf [e] = []) (hexchanged : exchangedOf [e] = []) : Inv stored (s.note e) where
  rows := by
    have happend : savedOf (s.log ++ [e]) = savedOf s.log ++ savedOf [e] := List.filterMap_append
    rw [Realm.note, happend, hsaved, List.append_nil]
    exact h.rows
  distinct := h.distinct
  legal := h.legal.append he
  free hfree t ht := by
    rw [Realm.note, exchangedOf_append, hexchanged, List.append_nil] at ht
    exact h.free hfree t ht

/-- What a caller may rely on of the others. -/
structure Rely (stored : Option QboTokens) (caller : ι) (s s' : Realm ι) : Prop where
  inv : Inv stored s'
  log : ∀ e ∈ s.log, e ∈ s'.log
  rows : ∀ tokens ∈ s.rows, tokens ∈ s'.rows
  held : s.holder = some caller →
    s'.holder = some caller ∧ s'.rows = s.rows ∧ exchangedOf s'.log = exchangedOf s.log

/-- What a caller guarantees. -/
structure Guarantee (stored : Option QboTokens) (caller : ι) (s s' : Realm ι) : Prop where
  inv : Inv stored s'
  others : ∀ other, caller ≠ other → Rely stored other s s'

section
variable {stored : Option QboTokens} {caller : ι} {s : Realm ι}

theorem stable_inv : Stable (Rely stored caller) (Inv stored) := fun _ _ _ h => h.inv

theorem stable_row (tokens : QboTokens) : Stable (Rely stored caller) fun s => tokens ∈ s.rows :=
  fun _ _ hs h => h.rows _ hs

theorem stable_event (e : Event ι) : Stable (Rely stored caller) fun s => e ∈ s.log := fun _ _ hs h => h.log _ hs

/-- What the holder knows of the rows and the exchanges stays. -/
theorem stable_held (P : List QboTokens → List Text → Prop) :
    Stable (Rely stored caller) fun s => s.holder = some caller ∧ P s.rows (exchangedOf s.log) := by
  rintro s s' ⟨hholder, hP⟩ h
  obtain ⟨hholder', hrows, hexchanged⟩ := h.held hholder
  exact ⟨hholder', by rwa [hrows, hexchanged]⟩

theorem Rely.refl (h : Inv stored s) : Rely stored caller s s := ⟨h, fun _ => id, fun _ => id, fun hs => ⟨hs, rfl, rfl⟩⟩

/-- An event that neither saves nor exchanges disturbs nobody. -/
theorem Rely.note {e : Event ι} (h : Inv stored s) (he : Allowed stored s.log e) (hsaved : savedOf [e] = [])
    (hexchanged : exchangedOf [e] = []) : Rely stored caller s (s.note e) where
  inv := h.note he hsaved hexchanged
  log _ := List.mem_append_left _
  rows _ := id
  held hs := ⟨hs, rfl, by rw [Realm.note, exchangedOf_append, hexchanged, List.append_nil]⟩

theorem Guarantee.refl (h : Inv stored s) : Guarantee stored caller s s := ⟨h, fun _ _ => Rely.refl h⟩

theorem Guarantee.note {e : Event ι} (h : Inv stored s) (he : Allowed stored s.log e) (hsaved : savedOf [e] = [])
    (hexchanged : exchangedOf [e] = []) : Guarantee stored caller s (s.note e) :=
  ⟨h.note he hsaved hexchanged, fun _ _ => Rely.note h he hsaved hexchanged⟩

/-- What the holder does, the others rely on nothing of. -/
theorem Guarantee.of_holder {s' : Realm ι} (hheld : s.holder = some caller) (hinv : Inv stored s')
    (hlog : ∀ e ∈ s.log, e ∈ s'.log) (hrows : ∀ tokens ∈ s.rows, tokens ∈ s'.rows) : Guarantee stored caller s s' :=
  ⟨hinv, fun _ hne => ⟨hinv, hlog, hrows, fun hother => absurd (Option.some_inj.1 (hheld.symm.trans hother)) hne⟩⟩

/-- The holder, with the invariant, and no exchange of its own under way. -/
def Holding (stored : Option QboTokens) (caller : ι) (s : Realm ι) : Prop :=
  Inv stored s ∧ s.holder = some caller ∧ Settled s

theorem stable_holding : Stable (Rely stored caller) (Holding stored caller) :=
  stable_inv.and (stable_held fun rows exchanged => ∀ t ∈ exchanged, t ∈ rows.dropLast.map (·.refreshToken))

/-- The caller's steps from `A`, ending with `P` or thrown with `E`. -/
abbrev Safe {α : Type} (stored : Option QboTokens) (caller : ι) (E A : Realm ι → Prop) (t : Client ι α)
    (P : α → Realm ι → Prop) : Prop :=
  t.Meets (Rely stored caller) (Guarantee stored caller) (Ends P E) A

section
variable {α β : Type} {E A : Realm ι → Prop}

theorem Safe.bind {p : Client ι α} {f : α → Client ι β} {M : α → Realm ι → Prop} {P : β → Realm ι → Prop}
    (hp : Safe stored caller E A p M) (hf : ∀ a, Safe stored caller E (M a) (f a) P) : Safe stored caller E A (p >>= f) P :=
  Meets.bind hp hf fun _ _ => id

/-! ## The operations -/

theorem load_safe (hA : Stable (Rely stored caller) A) (hE : Stable (Rely stored caller) E) (hinv : ∀ s, A s → Inv stored s)
    (hthrow : ∀ s, A s → E s) {P : Option QboTokens → Realm ι → Prop} (hP : ∀ o, Stable (Rely stored caller) (P o))
    (hload : ∀ s, A s → P s.rows.getLast? s) :
    Safe stored caller E A load fun o s => A s ∧ P o s := by
  refine Meets.attempt ?_ (Stable.ends (fun o => hA.and (hP o)) hE) ?_
  · rintro s r s' hs ⟨rfl, -⟩
    exact Guarantee.refl (hinv s' hs)
  · rintro s r s' hs ⟨rfl, rfl | rfl⟩
    · exact ⟨hs, hload s' hs⟩
    · exact hthrow s' hs

theorem loadTokens_safe {realmId : Text} (hA : Stable (Rely stored caller) A) (hE : Stable (Rely stored caller) E)
    (hinv : ∀ s, A s → Inv stored s) (hthrow : ∀ s, A s → E s) {P : QboTokens → Realm ι → Prop}
    (hP : ∀ tokens, Stable (Rely stored caller) (P tokens))
    (hload : ∀ s tokens, A s → s.rows.getLast? = some tokens → P tokens s) :
    Safe stored caller E A (loadTokens realmId) fun tokens s => A s ∧ P tokens s := by
  refine Safe.bind (load_safe hA hE hinv hthrow (P := fun o s => ∀ tokens, o = some tokens → P tokens s) ?_ ?_) fun o => ?_
  · exact fun o s s' hs hR tokens ho => hP tokens s s' (hs tokens ho) hR
  · exact fun s hs tokens => hload s tokens hs
  · cases o with
    | none => exact Meets.throw fun s hs => hthrow s hs.1
    | some tokens => exact Meets.pure fun s hs => ⟨hs.1, hs.2 tokens rfl⟩

/-- The caller judged the set, and found it not near its expiry. -/
def Judged (dateParse : Text → Option Int) (caller : ι) (tokens : QboTokens) (s : Realm ι) : Prop :=
  ∃ now expiresAt, dateParse tokens.accessExpiresAt = some expiresAt ∧ tooNear expiresAt now = false ∧
    .judged caller tokens now ∈ s.log

theorem stable_judged {dateParse : Text → Option Int} {tokens : QboTokens} :
    Stable (Rely stored caller) (Judged dateParse caller tokens) := by
  rintro s s' ⟨now, expiresAt, hparse, hnear, hmem⟩ hR
  exact ⟨now, expiresAt, hparse, hnear, hR.log _ hmem⟩

theorem needsRefresh_safe {dateParse : Text → Option Int} {tokens : QboTokens} (hA : Stable (Rely stored caller) A)
    (hinv : ∀ s, A s → Inv stored s) :
    Safe stored caller E A (needsRefresh dateParse caller tokens) fun needs s =>
      A s ∧ (needs = false → Judged dateParse caller tokens s) := by
  unfold needsRefresh
  cases hparse : dateParse tokens.accessExpiresAt with
  | none => exact Meets.pure fun s hs => ⟨hs, fun h => absurd h Bool.noConfusion⟩
  | some expiresAt =>
    refine Safe.bind (M := fun now s => A s ∧ .judged caller tokens now ∈ s.log) ?_ fun now => ?_
    · refine Meets.atomic ?_ (fun now => hA.and (stable_event _)) ?_
      · rintro s now s' hs rfl
        exact Guarantee.note (hinv s hs) trivial rfl rfl
      · rintro s now s' hs rfl
        exact ⟨hA s _ hs (Rely.note (hinv s hs) trivial rfl rfl), List.mem_append_right _ List.mem_cons_self⟩
    · exact Meets.pure fun s hs => ⟨hs.1, fun hnear => ⟨now, expiresAt, hparse, hnear, hs.2⟩⟩

theorem assertUnexpired_safe {dateParse : Text → Option Int} {realmId : Text} {tokens : QboTokens}
    (hA : Stable (Rely stored caller) A) (hinv : ∀ s, A s → Inv stored s) (hthrow : ∀ s, A s → E s) :
    Safe stored caller E A (assertUnexpired dateParse realmId tokens) fun _ => A := by
  unfold assertUnexpired
  cases dateParse tokens.refreshExpiresAt with
  | none => exact Meets.pure fun s hs => hs
  | some expiresAt =>
    refine Safe.bind (M := fun _ => A) ?_ fun now => ?_
    · refine Meets.atomic ?_ (fun _ => hA) ?_
      · rintro s now s' hs rfl
        exact Guarantee.refl (hinv s' hs)
      · rintro s now s' hs rfl
        exact hs
    · split
      · exact Meets.throw hthrow
      · exact Meets.pure fun s hs => hs

end

/-! ## Under the lock -/

/-- The holder, about to exchange the token of the last row. -/
def Refreshing (stored : Option QboTokens) (caller : ι) (current : QboTokens) (s : Realm ι) : Prop :=
  Holding stored caller s ∧ s.holder = some caller ∧ s.rows.getLast? = some current

/-- The holder, whose exchange was answered with a set it has not saved. -/
def Rotated (stored : Option QboTokens) (caller : ι) (current rotated : QboTokens) (s : Realm ι) : Prop :=
  Inv stored s ∧
  (s.holder = some caller ∧ s.rows.getLast? = some current ∧ (∀ tokens ∈ s.rows, tokens.refreshToken ≠ rotated.refreshToken) ∧
    ∀ t ∈ exchangedOf s.log, t ∈ s.rows.dropLast.map (·.refreshToken) ∨ t = current.refreshToken) ∧
  .exchanged caller current.refreshToken rotated ∈ s.log

/-- The holder, having saved the set. -/
def Saved (stored : Option QboTokens) (caller : ι) (current rotated : QboTokens) (s : Realm ι) : Prop :=
  Holding stored caller s ∧ rotated ∈ s.rows ∧ .exchanged caller current.refreshToken rotated ∈ s.log

theorem stable_refreshing {current : QboTokens} : Stable (Rely stored caller) (Refreshing stored caller current) :=
  stable_holding.and (stable_held fun rows _ => rows.getLast? = some current)

theorem stable_rotated {current rotated : QboTokens} : Stable (Rely stored caller) (Rotated stored caller current rotated) :=
  stable_inv.and ((stable_held fun rows exchanged => rows.getLast? = some current ∧
    (∀ tokens ∈ rows, tokens.refreshToken ≠ rotated.refreshToken) ∧
    ∀ t ∈ exchanged, t ∈ rows.dropLast.map (·.refreshToken) ∨ t = current.refreshToken).and (stable_event _))

theorem stable_saved {current rotated : QboTokens} : Stable (Rely stored caller) (Saved stored caller current rotated) :=
  stable_holding.and ((stable_row _).and (stable_event _))

/-- The token of the last row was never exchanged. -/
theorem Refreshing.unspent {current : QboTokens} (h : Refreshing stored caller current s) :
    current.refreshToken ∉ exchangedOf s.log := by
  obtain ⟨⟨hinv, -, hsettled⟩, -, hlast⟩ := h
  intro hmem
  have hdistinct := hinv.distinct
  rw [← List.dropLast_append_getLast? _ hlast, List.map_append, List.nodup_append] at hdistinct
  exact hdistinct.2.2 _ (hsettled _ hmem) _ List.mem_cons_self rfl

/-- The latest set of the log is the last row. -/
theorem Refreshing.latest {current : QboTokens} (h : Refreshing stored caller current s) :
    latest stored s.log = some current := by
  obtain ⟨⟨hinv, -, -⟩, -, hlast⟩ := h
  rw [TokenRefresh.latest, ← hinv.rows, hlast]

/-- An answered exchange keeps the invariant. -/
theorem Refreshing.exchanged {current : QboTokens} (h : Refreshing stored caller current s) (rotated : QboTokens) :
    Inv stored (s.note (.exchanged caller current.refreshToken rotated)) where
  rows := by
    have happend : savedOf (s.log ++ [.exchanged caller current.refreshToken rotated]) = savedOf s.log :=
      List.filterMap_append.trans (List.append_nil _)
    rw [Realm.note, happend]
    exact h.1.1.rows
  distinct := h.1.1.distinct
  legal := h.1.1.legal.append h.unspent
  free hfree := absurd (h.2.1.symm.trans hfree) (Option.some_ne_none _)

theorem answer_safe {current : QboTokens} : Safe stored caller (Holding stored caller) (Refreshing stored caller current)
    (answer caller current.refreshToken) (Rotated stored caller current) := by
  have hnote : ∀ {s : Realm ι} {e : Event ι}, Refreshing stored caller current s → Allowed stored s.log e →
      savedOf [e] = [] → exchangedOf [e] = [] → Holding stored caller (s.note e) :=
    fun hs he h1 h2 => stable_holding _ _ hs.1 (Rely.note hs.1.1 he h1 h2)
  refine Meets.attempt ?_ (Stable.ends (fun _ => stable_rotated) stable_holding) ?_
  · rintro s r s' hs (⟨rotated, rfl, hfresh, rfl⟩ | ⟨rfl, rfl | rfl⟩)
    · exact Guarantee.of_holder hs.2.1 (hs.exchanged rotated) (fun _ => List.mem_append_left _) fun _ => id
    · exact Guarantee.note hs.1.1 trivial rfl rfl
    · exact Guarantee.note hs.1.1 trivial rfl rfl
  · rintro s r s' hs (⟨rotated, rfl, hfresh, rfl⟩ | ⟨rfl, rfl | rfl⟩)
    · refine ⟨hs.exchanged rotated, ⟨hs.2.1, hs.2.2, hfresh, fun t ht => ?_⟩, List.mem_append_right _ List.mem_cons_self⟩
      rw [Realm.note, exchangedOf_append] at ht
      rcases List.mem_append.1 ht with ht | ht
      · exact .inl (hs.1.2.2 t ht)
      · exact .inr (List.mem_singleton.1 ht)
    · exact hnote hs trivial rfl rfl
    · exact hnote hs trivial rfl rfl

theorem exchangeIntuitToken_safe {current : QboTokens} :
    Safe stored caller (Holding stored caller) (Refreshing stored caller current)
      (exchangeIntuitToken caller current.refreshToken) (Rotated stored caller current) := by
  have hsent : ∀ {s : Realm ι}, Refreshing stored caller current s →
      Allowed stored s.log (.sent caller current.refreshToken) :=
    fun hs => ⟨by rw [hs.latest]; rfl, hs.unspent⟩
  refine Safe.bind (M := fun _ => Refreshing stored caller current) (Meets.atomic ?_ (fun _ => stable_refreshing) ?_)
    fun _ => answer_safe
  · rintro s _ s' hs rfl
    exact Guarantee.note hs.1.1 (hsent hs) rfl rfl
  · rintro s _ s' hs rfl
    exact stable_refreshing _ _ hs (Rely.note hs.1.1 (hsent hs) rfl rfl)

/-- Saving the set makes it the last row, and settles the exchange. -/
theorem save_safe {current rotated : QboTokens} : Safe stored caller (Holding stored caller)
    (Rotated stored caller current rotated) (save caller rotated) fun _ => Saved stored caller current rotated := by
  have hinv : ∀ {s : Realm ι}, Rotated stored caller current rotated s →
      Inv stored ⟨s.rows ++ [rotated], s.holder, s.log ++ [.saved caller rotated]⟩ := by
    rintro s ⟨hinv, ⟨hholder, -, hfresh, -⟩, -⟩
    refine ⟨?_, ?_, hinv.legal.append trivial, fun hfree => absurd (hholder.symm.trans hfree) (Option.some_ne_none _)⟩
    · have happend : savedOf (s.log ++ [.saved caller rotated]) = savedOf s.log ++ [rotated] := List.filterMap_append
      rw [happend, ← List.append_assoc, ← hinv.rows]
    · rw [List.map_append]
      refine List.Nodup.append hinv.distinct (List.nodup_singleton _) fun t ht hsame => ?_
      obtain ⟨tokens, hmem, rfl⟩ := List.mem_map.1 ht
      exact hfresh tokens hmem (List.mem_singleton.1 hsame)
  refine Meets.atomic ?_ (fun _ => stable_saved) ?_
  · rintro s _ s' hs rfl
    exact Guarantee.of_holder hs.2.1.1 (hinv hs) (fun _ => List.mem_append_left _) fun _ => List.mem_append_left _
  · rintro s _ s' hs rfl
    have hkept := hinv hs
    obtain ⟨hold, ⟨hholder, hlast, hfresh, hexchanged⟩, hevent⟩ := hs
    refine ⟨⟨hkept, hholder, fun t ht => ?_⟩, List.mem_append_right _ List.mem_cons_self, List.mem_append_left _ hevent⟩
    have hlog : exchangedOf (s.log ++ [.saved caller rotated]) = exchangedOf s.log :=
      List.filterMap_append.trans (List.append_nil _)
    rw [hlog] at ht
    rw [List.dropLast_concat]
    rcases hexchanged t ht with hmem | rfl
    · obtain ⟨tokens, htokens, rfl⟩ := List.mem_map.1 hmem
      exact List.mem_map_of_mem (List.mem_of_mem_dropLast htokens)
    · exact List.mem_map_of_mem (List.mem_of_mem_getLast? hlast)

section
variable {dateParse : Text → Option Int} {realmId : Text}

theorem refresh_safe {current : QboTokens} : Safe stored caller (Holding stored caller) (Refreshing stored caller current)
    (refresh dateParse realmId caller current) (Saved stored caller current) := by
  refine Safe.bind (assertUnexpired_safe stable_refreshing (fun s hs => hs.1.1) fun s hs => hs.1) fun _ => ?_
  refine Safe.bind exchangeIntuitToken_safe fun rotated => ?_
  exact Safe.bind save_safe fun _ => Meets.pure fun s hs => hs

/-- What is known of a set whose access token is returned. -/
def Usable (dateParse : Text → Option Int) (caller : ι) (token : Text) (s : Realm ι) : Prop :=
  ∃ tokens, token = tokens.accessToken ∧ tokens ∈ s.rows ∧
    (Judged dateParse caller tokens s ∨ ∃ refreshToken, .exchanged caller refreshToken tokens ∈ s.log)

theorem stable_usable {token : Text} : Stable (Rely stored caller) (Usable dateParse caller token) := by
  rintro s s' ⟨tokens, htoken, hrow, hhow⟩ hR
  refine ⟨tokens, htoken, hR.rows _ hrow, hhow.imp (fun h => stable_judged _ _ h hR) ?_⟩
  rintro ⟨refreshToken, hmem⟩
  exact ⟨refreshToken, hR.log _ hmem⟩

theorem refreshUnlessRotated_safe : Safe stored caller (Holding stored caller) (Holding stored caller)
    (refreshUnlessRotated dateParse realmId caller)
    fun token s => Holding stored caller s ∧ Usable dateParse caller token s := by
  have hkept : ∀ tokens, Stable (Rely stored caller) fun s =>
      Holding stored caller s ∧ s.holder = some caller ∧ s.rows.getLast? = some tokens :=
    fun _ => stable_refreshing
  refine Safe.bind (loadTokens_safe (P := fun tokens s => s.holder = some caller ∧ s.rows.getLast? = some tokens)
    stable_holding stable_holding (fun s hs => hs.1) (fun s hs => hs) (fun tokens => stable_held fun rows _ =>
      rows.getLast? = some tokens) fun s tokens hs hlast => ⟨hs.2.1, hlast⟩) fun current => ?_
  refine Safe.bind (needsRefresh_safe (hkept current) fun s hs => hs.1.1) fun needs => ?_
  cases needs with
  | true =>
    refine Safe.bind (refresh_safe.mono fun s hs => hs.1) fun rotated => Meets.pure fun s hs => ?_
    exact ⟨hs.1, rotated, rfl, hs.2.1, .inr ⟨_, hs.2.2⟩⟩
  | false =>
    refine Meets.pure fun s hs => ⟨hs.1.1, current, rfl, List.mem_of_mem_getLast? hs.1.2.2, .inl (hs.2 rfl)⟩

/-- Taking the lock: nothing is under way, and nobody else holds it. -/
theorem acquire_safe : Safe stored caller (Inv stored) (Inv stored) (acquire caller) fun _ => Holding stored caller := by
  have hinv : ∀ {s : Realm ι}, Inv stored s → Inv stored { s with holder := some caller } :=
    fun h => ⟨h.rows, h.distinct, h.legal, fun hfree => absurd hfree (Option.some_ne_none _)⟩
  refine Meets.attempt ?_ (Stable.ends (fun _ => stable_holding) stable_inv) ?_
  · rintro s r s' hs (⟨rfl, hfree, rfl⟩ | ⟨rfl, rfl⟩)
    · refine ⟨hinv hs, fun other _ => ⟨hinv hs, fun _ => id, fun _ => id, fun hother => ?_⟩⟩
      exact absurd (hfree.symm.trans hother) (Option.some_ne_none _).symm
    · exact Guarantee.refl hs
  · rintro s r s' hs (⟨rfl, hfree, rfl⟩ | ⟨rfl, rfl⟩)
    · exact ⟨hinv hs, rfl, hs.free hfree⟩
    · exact hs

/-- Letting the lock go, with what is known of the result. -/
theorem release_safe {P : Realm ι → Prop} (hP : Stable (Rely stored caller) P)
    (hheld : ∀ s, P s → P { s with holder := none }) :
    (release caller).Meets (Rely stored caller) (Guarantee stored caller) (fun r s => r = .ok () ∧ Inv stored s ∧ P s)
      fun s => Holding stored caller s ∧ P s := by
  have hinv : ∀ {s : Realm ι}, Holding stored caller s → Inv stored { s with holder := none } :=
    fun h => ⟨h.1.rows, h.1.distinct, h.1.legal, fun _ => h.2.2⟩
  refine Meets.atomic ?_ (fun _ => Stable.const.and (stable_inv.and hP)) ?_
  · rintro s _ s' hs ⟨-, rfl⟩
    exact Guarantee.of_holder hs.1.2.1 (hinv hs.1) (fun _ => id) fun _ => id
  · rintro s _ s' hs ⟨-, rfl⟩
    exact ⟨rfl, hinv hs.1, hheld s hs.2⟩

theorem accessToken_safe : Safe stored caller (Inv stored) (Inv stored) (accessToken dateParse realmId caller)
    fun token s => Inv stored s ∧ Usable dateParse caller token s := by
  refine Safe.bind (loadTokens_safe (P := fun tokens s => tokens ∈ s.rows) stable_inv stable_inv (fun s hs => hs)
    (fun s hs => hs) stable_row fun s tokens _ hlast => List.mem_of_mem_getLast? hlast) fun current => ?_
  refine Safe.bind (needsRefresh_safe (stable_inv.and (stable_row current)) fun s hs => hs.1) fun needs => ?_
  cases needs with
  | true =>
    refine Safe.bind (acquire_safe.mono fun s hs => hs.1.1) fun _ => Meets.ending refreshUnlessRotated_safe fun r => ?_
    cases r with
    | ok token => exact release_safe stable_usable fun s hs => hs
    | error e =>
      refine ((release_safe (P := fun _ => True) Stable.const fun s hs => hs).mono ?_).post ?_
      · exact fun s hs => ⟨hs, trivial⟩
      · exact fun r s hs => ⟨hs.1, hs.2.1⟩
  | false =>
    exact Meets.pure fun s hs => ⟨hs.1.1, current, rfl, hs.1.2, .inl (hs.2 rfl)⟩

end

end

/-! ## Every interleaving -/

/-- A company's rows with nothing under way. -/
theorem inv_start (stored : Option QboTokens) : Inv stored (⟨stored.toList, none, []⟩ : Realm ι) where
  rows := (List.append_nil _).symm
  distinct := by cases stored <;> simp
  legal before e after h := absurd h.symm (List.append_ne_nil_of_right_ne_nil _ (List.cons_ne_nil _ _))
  free _ t ht := absurd ht List.not_mem_nil

variable [DecidableEq ι] {dateParse : Text → Option Int} {realmId : Text} {stored : Option QboTokens}
  {c : Config ι (Realm ι) Failure Text}

/-- Wherever the callers get, the invariant holds, and each that has ended has a token it may use. -/
theorem safe_of_reaches (h : (start dateParse realmId stored).Reaches c) :
    Inv stored c.shared ∧ ∀ caller token, c.threads caller = .done (.ok token) → Usable dateParse caller token c.shared := by
  have hstart : (start dateParse realmId stored : Config ι (Realm ι) Failure Text).Sound (Rely stored) (Guarantee stored)
      fun caller => Ends (fun token s => Inv stored s ∧ Usable dateParse caller token s) (Inv stored) :=
    fun _ => ⟨Inv stored, stable_inv, inv_start stored, accessToken_safe⟩
  obtain ⟨hsound, hinv⟩ := Config.sound_of_reaches (fun _ _ hne _ _ hG => hG.others _ hne) (fun _ _ _ hG _ => hG.inv)
    hstart (inv_start stored) h
  exact ⟨hinv, fun caller token hdone => (hsound.done hdone).2⟩

omit [DecidableEq ι] in
theorem spentOf_eq {log : List (Event ι)} (h : ∀ caller refreshToken, .lost caller refreshToken ∉ log) :
    spentOf log = exchangedOf log := by
  refine List.filterMap_congr fun e he => ?_
  cases e with
  | lost caller refreshToken => exact absurd he (h caller refreshToken)
  | _ => rfl

/-- **No refresh token is exchanged twice.** For any number of callers, however they are interleaved and whatever
their clocks read: each refresh token has at most one answered exchange, and the one that is sent is that of the
set stored last, with no answered exchange before; an access token that is returned is of a stored set, and its
caller judged that set not near its expiry or rotated it. Unless the answer of an exchange that was carried out is
lost, no refresh token is spent twice, or sent once it is spent. -/
theorem refresh_spends_once (h : (start dateParse realmId stored).Reaches c) :
    (exchangedOf c.shared.log).Nodup ∧
    (∀ before caller refreshToken after, c.shared.log = before ++ .sent caller refreshToken :: after →
      (latest stored before).map (·.refreshToken) = some refreshToken ∧ refreshToken ∉ exchangedOf before) ∧
    (∀ caller token, c.threads caller = .done (.ok token) → ∃ tokens, token = tokens.accessToken ∧
      (stored = some tokens ∨ ∃ saver, .saved saver tokens ∈ c.shared.log) ∧
      (Judged dateParse caller tokens c.shared ∨ ∃ refreshToken, .exchanged caller refreshToken tokens ∈ c.shared.log)) ∧
    ((∀ caller refreshToken, .lost caller refreshToken ∉ c.shared.log) → (spentOf c.shared.log).Nodup ∧
      ∀ before caller refreshToken after, c.shared.log = before ++ .sent caller refreshToken :: after →
        refreshToken ∉ spentOf before) := by
  obtain ⟨hinv, husable⟩ := safe_of_reaches h
  have hsent : ∀ before caller refreshToken after, c.shared.log = before ++ .sent caller refreshToken :: after →
      (latest stored before).map (·.refreshToken) = some refreshToken ∧ refreshToken ∉ exchangedOf before :=
    fun before caller refreshToken after heq => hinv.legal before _ after heq
  refine ⟨hinv.legal.nodup, hsent, fun caller token hdone => ?_, fun hlost => ⟨?_, fun before caller t after heq => ?_⟩⟩
  · obtain ⟨tokens, htoken, hrow, hhow⟩ := husable caller token hdone
    refine ⟨tokens, htoken, ?_, hhow⟩
    rw [hinv.rows, List.mem_append, Option.mem_toList] at hrow
    refine hrow.imp id fun hsaved => ?_
    obtain ⟨e, he, hsaves⟩ := List.mem_filterMap.1 hsaved
    cases e with
    | saved saver set =>
      obtain rfl := Option.some_inj.1 hsaves
      exact ⟨saver, he⟩
    | _ => cases hsaves
  · rw [spentOf_eq hlost]
    exact hinv.legal.nodup
  · rw [spentOf_eq fun other t hmem => hlost other t (heq ▸ List.mem_append_left _ hmem)]
    exact (hsent before caller t after heq).2

end

/-! ## Two runs -/

/-- The stored set, which every clock below finds near its expiry. -/
def nearlyExpired : QboTokens := ⟨"access-1".toList, "refresh-1".toList, "0".toList, "0".toList⟩

def rotatedSet : QboTokens := ⟨"access-2".toList, "refresh-2".toList, "0".toList, "0".toList⟩

theorem run_step {β : Type} {act : Realm Bool → β → Realm Bool → Prop} {k : β → Client Bool Text}
    {s s' s'' : Realm Bool} {t : Client Bool Text} (b : β) (h : act s b s') (rest : (k b).Runs s' t s'') :
    Runs (.step act k) s t s'' :=
  .step (.intro h) rest

/-- What a caller logs up to its request. -/
def requests (caller : Bool) : List (Event Bool) :=
  [.judged caller nearlyExpired (-1), .judged caller nearlyExpired (-1), .sent caller "refresh-1".toList]

/-- A caller that finds the set near its expiry rotates it, and returns the new access token. -/
theorem rotated_token_returned : ∃ c : Config Bool (Realm Bool) Failure Text,
    (start (fun _ => some 0) [] (some nearlyExpired)).Reaches c ∧ c.threads true = .done (.ok "access-2".toList) ∧
      (exchangedOf c.shared.log).Nodup := by
  have hrun : Runs (accessToken (fun _ => some 0) [] true) ⟨[nearlyExpired], none, []⟩ (.done (.ok "access-2".toList))
      ⟨[nearlyExpired, rotatedSet], none, requests true ++
        [.exchanged true "refresh-1".toList rotatedSet, .saved true rotatedSet]⟩ := by
    refine run_step (.ok (some nearlyExpired)) ⟨rfl, .inl rfl⟩ ?_
    refine run_step (-1) rfl ?_
    refine run_step (.ok ()) (.inl ⟨rfl, rfl, rfl⟩) ?_
    refine run_step (.ok (some nearlyExpired)) ⟨rfl, .inl rfl⟩ ?_
    refine run_step (-1) rfl ?_
    refine run_step (-1) rfl ?_
    refine run_step () rfl ?_
    refine run_step (.ok rotatedSet) (.inl ⟨rotatedSet, rfl, by decide, rfl⟩) ?_
    refine run_step () rfl ?_
    exact run_step () ⟨rfl, rfl⟩ .refl
  have hreach := @Config.reaches_of_runs Bool (Realm Bool) Failure Text _
    (start (fun _ => some 0) [] (some nearlyExpired)) true _ _ hrun
  refine ⟨_, hreach, ?_, (refresh_spends_once hreach).1⟩
  exact Function.update_self true _ (accessToken (fun _ => some 0) [])

/-- The answer of an exchange that was carried out is lost, and the next caller sends the token it spent, which
is refused. -/
theorem spent_token_sent_again : ∃ c : Config Bool (Realm Bool) Failure Text,
    (start (fun _ => some 0) [] (some nearlyExpired)).Reaches c ∧
      ∃ before after, c.shared.log = before ++ .sent false "refresh-1".toList :: after ∧
        "refresh-1".toList ∈ spentOf before := by
  have hfirst : Runs (accessToken (fun _ => some 0) [] true) ⟨[nearlyExpired], none, []⟩ (.done (.error .exchange))
      ⟨[nearlyExpired], none, requests true ++ [.lost true "refresh-1".toList]⟩ := by
    refine run_step (.ok (some nearlyExpired)) ⟨rfl, .inl rfl⟩ ?_
    refine run_step (-1) rfl ?_
    refine run_step (.ok ()) (.inl ⟨rfl, rfl, rfl⟩) ?_
    refine run_step (.ok (some nearlyExpired)) ⟨rfl, .inl rfl⟩ ?_
    refine run_step (-1) rfl ?_
    refine run_step (-1) rfl ?_
    refine run_step () rfl ?_
    refine run_step (.error .exchange) (.inr ⟨rfl, .inl rfl⟩) ?_
    exact run_step () ⟨rfl, rfl⟩ .refl
  have hsecond : Runs (accessToken (fun _ => some 0) [] false)
      ⟨[nearlyExpired], none, requests true ++ [.lost true "refresh-1".toList]⟩ (.done (.error .exchange))
      ⟨[nearlyExpired], none, requests true ++ .lost true "refresh-1".toList :: requests false ++
        [.refused false "refresh-1".toList]⟩ := by
    refine run_step (.ok (some nearlyExpired)) ⟨rfl, .inl rfl⟩ ?_
    refine run_step (-1) rfl ?_
    refine run_step (.ok ()) (.inl ⟨rfl, rfl, rfl⟩) ?_
    refine run_step (.ok (some nearlyExpired)) ⟨rfl, .inl rfl⟩ ?_
    refine run_step (-1) rfl ?_
    refine run_step (-1) rfl ?_
    refine run_step () rfl ?_
    refine run_step (.error .exchange) (.inr ⟨rfl, .inr rfl⟩) ?_
    exact run_step () ⟨rfl, rfl⟩ .refl
  have hreach := @Config.reaches_of_runs Bool (Realm Bool) Failure Text _
    (start (fun _ => some 0) [] (some nearlyExpired)) true _ _ hfirst
  have hreach' := @Config.reaches_of_runs Bool (Realm Bool) Failure Text _
    ⟨_, Function.update (accessToken (fun _ => some 0) []) true (.done (.error .exchange))⟩ false _ _ hsecond
  exact ⟨_, hreach.trans hreach', requests true ++ [.lost true "refresh-1".toList] ++
    [.judged false nearlyExpired (-1), .judged false nearlyExpired (-1)], _, rfl, by decide⟩

end Recouple.Qbo.TokenRefresh
