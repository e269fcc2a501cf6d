import Recouple.Portal.Binding

/-!
# What a recipe version adds: `packages/store-postgres/src/portal.ts` (421-499)

| here | there |
| --- | --- |
| `recipeAdditions` | `recipeAdditions`, `postKey`, `floorDismisses`, `dismissKey` |
| `allSteps` | `everyStep` |
| `activeOf` | `packages/portal/src/runner/runner.ts` (753) |

An agent's draft is promoted only where it adds nothing. What is counted are hosts, POST-as-read entries and dismissals
on the never-click floor; what the guard lets a step send is also decided by the steps themselves, and these are not
counted.

* **`additions_grant_nothing_iff`**: a version that adds nothing, with the binding of the promoted one, lets the browser
  send no more exactly where no uncounted step of it does (`NoUncounted`).
* `uncounted_search`: a draft with one more search step, whose form is sent as a `POST`.
-/

namespace Recouple.Portal
open Js FirstSeen

/-- `PortalRecipeAddition`. -/
inductive PortalRecipeAddition
  | host (host : Text)
  | post_as_read (step path : Text) (bodyDiscriminator : Option BodyDiscriminator)
  | dismiss (step label : Text)
deriving DecidableEq

/-- The label of a dismissal on the never-click floor. -/
def floorLabel (T : CaseTables) : RecipeStep → Option Text
  | .dismiss _ _ label _ => if matchesNeverClick T label NEVER_CLICK_FLOOR then some label else none
  | _ => none

/-- What tells one dismissal from another. -/
def dismissKey : RecipeStep → List Text
  | .dismiss name selector label containerText => [name, selector, label, containerText]
  | _ => []

/-- The dismissals on the never-click floor. -/
def floorDismisses (T : CaseTables) (steps : List RecipeStep) : List RecipeStep :=
  (allSteps steps).filter fun s => (floorLabel T s).isSome

/-- What `version` adds beyond `comparedWith`; beyond nothing, everything counts. -/
def recipeAdditions (T : CaseTables) (version : RecipeVersion) (comparedWith : Option RecipeVersion) :
    List PortalRecipeAddition :=
  let knownHosts := (comparedWith.elim [] (·.hostAllowlist)).map lowerHost
  let knownPosts := comparedWith.elim [] (·.postAsRead)
  let knownDismisses := (floorDismisses T (comparedWith.elim [] (·.steps))).map dismissKey
  (firstByFrom lowerHost knownHosts version.hostAllowlist).map (fun host => .host (lowerHost host)) ++
    (firstByFrom id knownPosts version.postAsRead).map
      (fun entry => .post_as_read entry.step entry.path entry.bodyDiscriminator) ++
    (firstByFrom dismissKey knownDismisses (floorDismisses T version.steps)).map
      fun s => .dismiss s.stepName ((floorLabel T s).getD [])

/-! ## What a version lets the browser send -/

def RecipeStep.recordedAction : RecipeStep → Option Text
  | .search _ _ _ _ recordedAction => some recordedAction
  | _ => none

/-- What the guard is told of a step that is active. -/
def activeOf (s : RecipeStep) : ActiveStep := ⟨s.kind, s.stepName, s.recordedAction⟩

section
variable (T : CaseTables) (P : UrlParser) (r : RecipeVersion)

/-- The guard allows the request during some step of the version. -/
def AllowedDuring (req : RequestContext) : Prop :=
  ∃ s ∈ allSteps r.steps, decideRequest T P r { req with activeStep := some (activeOf s) } = .allow

/-- The version lets the browser send nothing that the other does not, and reach no other host. -/
structure GrantsNothing (v p : RecipeVersion) : Prop where
  writes : ∀ req, Writes T req → AllowedDuring T P v req → AllowedDuring T P p req
  hosts : ∀ req, HostRefused T P p req → HostRefused T P v req

/-- A web address on the version's allowlist. -/
def Reached (url : Url) : Prop := ∃ text, P.parse text = some url ∧ url.Web ∧ url.host ∈ r.hostAllowlist

def SignsIn : Prop := ∃ s ∈ allSteps r.steps, s.kind = .sign_in ∨ s.kind = .answer_mfa

/-- The entry is of one of the version's steps. -/
def NamesStep (entry : PostAsRead) : Prop := ∃ s ∈ allSteps r.steps, s.stepName = entry.step

/-- Any body may be posted to the address during some step. -/
inductive OpenTo (url : Url) : Prop
  | signIn (signs : SignsIn r) (on : onSignIn P r url = true)
  | search (s : RecipeStep) (mem : s ∈ allSteps r.steps) (action : Text) (recorded : s.recordedAction = some action)
      (same : isRecorded P action url = true)
  | entry (e : PostAsRead) (mem : e ∈ r.postAsRead) (names : NamesStep r e) (path : e.path = url.pathname)
      (any : e.bodyDiscriminator = none)

/-- Nothing that is not counted as an addition lets the version send more: a host in another case, a sign-in step, a
search step, or a step that an entry names. -/
structure NoUncounted (v p : RecipeVersion) : Prop where
  hosts : ∀ host ∈ v.hostAllowlist, Printed P host → host ∈ p.hostAllowlist
  signIn : SignsIn v → SignsIn p ∨ ∀ url, Reached P v url → onSignIn P v url = true → OpenTo P p url
  search : ∀ s ∈ allSteps v.steps, ∀ action, s.recordedAction = some action → ∀ url, Reached P v url →
    isRecorded P action url = true → OpenTo P p url
  entries : ∀ e ∈ v.postAsRead, NamesStep v e → NamesStep p e ∨ ∀ url, Reached P v url → e.path = url.pathname →
    OpenTo P p url ∨ ∃ e' ∈ p.postAsRead, NamesStep p e' ∧ e'.path = e.path ∧ e'.bodyDiscriminator = e.bodyDiscriminator

end

section
variable {T : CaseTables} {P : UrlParser} {sha256 : Text → Text} {r v p : RecipeVersion} {b b' : PortalBinding}
variable {req : RequestContext} {url : Url} {body : Option Text}

/-! ## What is counted -/

/-- A version that adds nothing has the other's POST-as-read entries. -/
theorem postAsRead_of_none (h : recipeAdditions T v (some p) = []) : v.postAsRead ⊆ p.postAsRead := by
  intro e he
  by_contra hnot
  have hmem := (mem_map_firstByFrom id p.postAsRead v.postAsRead e).2 ⟨by simpa using he, hnot⟩
  rw [List.map_id] at hmem
  unfold recipeAdditions at h
  simp only [Option.elim_some, List.append_eq_nil_iff, List.map_eq_nil_iff] at h
  rw [h.1.2] at hmem
  cases hmem

/-- The schema accepts no dismissal on the floor, so a version never adds one. -/
theorem floorDismisses_accepted (hv : Accepted T P v) : floorDismisses T v.steps = [] := by
  refine List.filter_eq_nil_iff.2 fun s hs => ?_
  have hdismissal := List.all_eq_true.1 hv.dismissals s hs
  cases s with
  | dismiss name selector label containerText =>
    have hno : ¬ matchesNeverClick T label NEVER_CLICK_FLOOR = true := by
      intro hmatch
      obtain ⟨w, hw, hin⟩ := List.any_eq_true.1 hmatch
      have hall : matchesNeverClick T label (effectiveNeverClick T v) = true :=
        List.any_eq_true.2 ⟨w, List.mem_append_left _ hw, hin⟩
      rw [clicksNeverClick, hall] at hdismissal
      cases hdismissal
    rw [floorLabel, if_neg hno]
    exact Bool.false_ne_true
  | _ => exact Bool.false_ne_true

/-! ## What is sent -/

/-- The value a discriminator requires is the one read from the body. -/
def Reads (body : Option Text) (d : BodyDiscriminator) : Prop := bodyField body d.field = some (codeUnits d.equals)

/-- An entry lets the body be posted to the address during some step. -/
def PostsAsRead (r : RecipeVersion) (body : Option Text) (url : Url) : Prop :=
  ∃ e ∈ r.postAsRead, NamesStep r e ∧ e.path = url.pathname ∧ ∃ d, e.bodyDiscriminator = some d ∧ Reads body d

/-- The body may be posted to the address during some step. -/
def Sends (P : UrlParser) (r : RecipeVersion) (body : Option Text) (url : Url) : Prop :=
  OpenTo P r url ∨ PostsAsRead r body url

theorem kind_of_recorded {s : RecipeStep} {action : Text} (h : s.recordedAction = some action) : s.kind = .search := by
  cases s with
  | search => rfl
  | _ => cases h

theorem decidePost_sends : (∃ s ∈ allSteps r.steps, decidePost P r body (activeOf s) url = .allow) ↔
    Sends P r body url := by
  constructor
  · rintro ⟨s, hs, hallow⟩
    rcases decidePost_allow.1 hallow with hsign | hsearch | ⟨e, he, htakes⟩
    · simp only [signInRule, Bool.and_eq_true, Bool.or_eq_true, decide_eq_true_eq] at hsign
      exact .inl (.signIn ⟨s, hs, hsign.1⟩ hsign.2)
    · simp only [searchRule, Bool.and_eq_true, decide_eq_true_eq, Option.any_eq_true] at hsearch
      obtain ⟨-, action, haction, hsame⟩ := hsearch
      exact .inl (.search s hs action haction hsame)
    · simp only [entriesFor, List.mem_filter, Bool.and_eq_true, decide_eq_true_eq] at he
      obtain ⟨hmem, hstep, hpath⟩ := he
      have hnames : NamesStep r e := ⟨s, hs, hstep.symm⟩
      cases hd : e.bodyDiscriminator with
      | none => exact .inl (.entry e hmem hnames hpath hd)
      | some d => exact .inr ⟨e, hmem, hnames, hpath, d, hd, takes_iff.1 htakes d hd⟩
  · have hentry : ∀ e ∈ r.postAsRead, NamesStep r e → e.path = url.pathname → takes body e = true →
        ∃ s ∈ allSteps r.steps, decidePost P r body (activeOf s) url = .allow := by
      rintro e he ⟨s, hs, hname⟩ hpath htakes
      refine ⟨s, hs, decidePost_allow.2 (.inr (.inr ⟨e, List.mem_filter.2 ⟨he, ?_⟩, htakes⟩))⟩
      rw [Bool.and_eq_true, decide_eq_true_eq, decide_eq_true_eq]
      exact ⟨hname.symm, hpath⟩
    rintro (hopen | ⟨e, he, hnames, hpath, d, hd, hreads⟩)
    · cases hopen with
      | signIn hsigns hon =>
        obtain ⟨s, hs, hkind⟩ := hsigns
        refine ⟨s, hs, decidePost_allow.2 (.inl ?_)⟩
        simp only [signInRule, Bool.and_eq_true, Bool.or_eq_true, decide_eq_true_eq]
        exact ⟨hkind, hon⟩
      | search s hs action hrecorded hsame =>
        refine ⟨s, hs, decidePost_allow.2 (.inr (.inl ?_))⟩
        simp only [searchRule, Bool.and_eq_true, decide_eq_true_eq, Option.any_eq_true]
        exact ⟨kind_of_recorded hrecorded, action, hrecorded, hsame⟩
      | entry e he hnames hpath hany =>
        refine hentry e he hnames hpath (takes_iff.2 fun d hd => ?_)
        cases hany.symm.trans hd
    · refine hentry e he hnames hpath (takes_iff.2 fun d' hd' => ?_)
      cases hd.symm.trans hd'
      exact hreads

/-- A write is allowed where it is a `POST` to an admitted address that some step sends. -/
theorem allowedDuring_iff (hwrites : Writes T req) : AllowedDuring T P r req ↔
    ∃ url, P.parse req.url = some url ∧ url.Web ∧ url.host ∈ r.hostAllowlist ∧
      T.toUpperCase req.method = "POST".toList ∧ Sends P r req.body url := by
  constructor
  · rintro ⟨s, hs, hallow⟩
    have hwrites' : Writes T { req with activeStep := some (activeOf s) } := hwrites
    obtain ⟨step, url, hposted, hpost⟩ := (decideRequest_allow hwrites').1 hallow
    cases hposted.active
    exact ⟨url, hposted.parsed, hposted.web, hposted.host, hposted.method, decidePost_sends.1 ⟨s, hs, hpost⟩⟩
  · rintro ⟨url, hparsed, hweb, hhost, hmethod, hsends⟩
    obtain ⟨s, hs, hpost⟩ := decidePost_sends.2 hsends
    have hposted : Posted T P r { req with activeStep := some (activeOf s) } (activeOf s) url :=
      ⟨hparsed, hweb, hhost, hmethod, rfl⟩
    exact ⟨s, hs, (decideRequest_allow hposted.writes).2 ⟨_, url, hposted, hpost⟩⟩

/-- No body is read for a discriminator where there is none. -/
theorem sends_none (h : Sends P r none url) : OpenTo P r url := by
  rcases h with h | ⟨e, -, -, -, d, -, hreads⟩
  · exact h
  · cases hreads

/-- The body that one discriminator alone reads. -/
theorem reads_oneField {d d' : BodyDiscriminator} :
    Reads (some (Written.oneField d.field d.equals)) d' ↔ d' = d := by
  unfold Reads bodyField
  dsimp only
  rw [Written.parse_oneField]
  unfold jsonFields
  rw [Written.parse_oneField]
  by_cases hfield : d.field = d'.field
  · obtain ⟨field, equals⟩ := d
    obtain ⟨field', equals'⟩ := d'
    cases hfield
    simp [textOf, codeUnits_injective.eq_iff, eq_comm]
  · have hunits : codeUnits d.field ≠ codeUnits d'.field := fun h => hfield (codeUnits_injective h)
    simp only [hunits, decide_false, List.filter_cons_of_neg, Bool.false_eq_true, not_false_eq_true, List.filter_nil,
      List.map_nil, List.getLast?_nil, Option.bind_none, reduceCtorEq, false_iff]
    rintro rfl
    exact hfield rfl

/-- With one binding, the sign-in addresses are the same. -/
theorem onSignIn_transfers (hT : T.toUpperCase "POST".toList = "POST".toList) (hv : Accepted T P v) (hp : Accepted T P p)
    (h : bindingOf P sha256 v = some b) (h' : bindingOf P sha256 p = some b') (hsame : sameBinding b b' = true)
    (hreached : Reached P v url) (hon : onSignIn P v url = true) : onSignIn P p url = true := by
  obtain ⟨text, hparsed, hweb, hhost⟩ := hreached
  let step : ActiveStep := ⟨.sign_in, [], none⟩
  have hposted : Posted T P v ⟨"POST".toList, text, none, some step⟩ step url := ⟨hparsed, hweb, hhost, hT, rfl⟩
  have hrule : signInRule P v step url = true := hon
  exact (signIn_transfers hv hp h h' hsame hposted hrule).2

/-- **A draft that adds nothing grants nothing exactly where it has no uncounted step.** -/
theorem additions_grant_nothing_iff (T : CaseTables) (P : UrlParser) (sha256 : Text → Text) (v p : RecipeVersion)
    (b b' : PortalBinding) (hT : T.toUpperCase "POST".toList = "POST".toList) (hv : Accepted T P v) (hp : Accepted T P p)
    (h : bindingOf P sha256 v = some b) (h' : bindingOf P sha256 p = some b') (hsame : sameBinding b b' = true)
    (hnone : recipeAdditions T v (some p) = []) : GrantsNothing T P v p ↔ NoUncounted P v p := by
  constructor
  · intro hgrants
    have hsends : ∀ {url body}, Reached P v url → Sends P v body url → Sends P p body url := by
      rintro url body ⟨text, hparsed, hweb, hhost⟩ hsent
      let req : RequestContext := ⟨"POST".toList, text, body, none⟩
      have hwrites : Writes T req := by
        unfold Writes
        rw [show T.toUpperCase req.method = _ from hT]
        decide
      obtain ⟨url', hparsed', -, -, -, hsent'⟩ := (allowedDuring_iff hwrites).1
        (hgrants.writes req hwrites ((allowedDuring_iff hwrites).2 ⟨url, hparsed, hweb, hhost, hT, hsent⟩))
      cases hparsed.symm.trans hparsed'
      exact hsent'
    refine ⟨fun host hhost hprinted => ?_, fun hsigns => .inr fun url hreached hon => ?_,
      fun s hs action haction url hreached hrecorded => ?_, fun e he hnames => .inr fun url hreached hpath => ?_⟩
    · obtain ⟨text, url, hparsed, hweb, rfl⟩ := hprinted
      by_contra hnot
      have hrefused := hgrants.hosts ⟨"GET".toList, text, none, none⟩ (hostRefused_iff.2 ⟨url, hparsed, hweb, hnot⟩)
      obtain ⟨url', hparsed', -, hnot'⟩ := hostRefused_iff.1 hrefused
      cases hparsed.symm.trans hparsed'
      exact hnot' hhost
    · exact sends_none (hsends hreached (.inl (.signIn hsigns hon)))
    · exact sends_none (hsends hreached (.inl (.search s hs action haction hrecorded)))
    · cases hd : e.bodyDiscriminator with
      | none => exact .inl (sends_none (hsends hreached (.inl (.entry e he hnames hpath hd))))
      | some d =>
        have hreads : Reads (some (Written.oneField d.field d.equals)) d := reads_oneField.2 rfl
        rcases hsends hreached (.inr ⟨e, he, hnames, hpath, d, hd, hreads⟩) with hopen | ⟨e', he', hnames', hpath', d', hd', hreads'⟩
        · exact .inl hopen
        · cases reads_oneField.1 hreads'
          exact .inr ⟨e', he', hnames', hpath'.trans hpath.symm, hd'⟩
  · intro huncounted
    have hentries := postAsRead_of_none hnone
    have hopen : ∀ {url}, Reached P v url → OpenTo P v url → OpenTo P p url := by
      intro url hreached hopen
      cases hopen with
      | signIn hsigns hon =>
        rcases huncounted.signIn hsigns with hsigns' | hopen
        · exact .signIn hsigns' (onSignIn_transfers hT hv hp h h' hsame hreached hon)
        · exact hopen url hreached hon
      | search s hs action haction hrecorded => exact huncounted.search s hs action haction url hreached hrecorded
      | entry e he hnames hpath hany =>
        rcases huncounted.entries e he hnames with hnames' | hopen
        · exact .entry e (hentries he) hnames' hpath hany
        · rcases hopen url hreached hpath with hopen | ⟨e', he', hnames', hpath', hd'⟩
          · exact hopen
          · exact .entry e' he' hnames' (hpath'.trans hpath) (hd'.trans hany)
    refine ⟨fun req hwrites hallowed => ?_, fun req hrefused => ?_⟩
    · obtain ⟨url, hparsed, hweb, hhost, hmethod, hsends⟩ := (allowedDuring_iff hwrites).1 hallowed
      have hreached : Reached P v url := ⟨_, hparsed, hweb, hhost⟩
      refine (allowedDuring_iff hwrites).2 ⟨url, hparsed, hweb, huncounted.hosts _ hhost ⟨_, url, hparsed, hweb, rfl⟩,
        hmethod, ?_⟩
      rcases hsends with hopen' | ⟨e, he, hnames, hpath, d, hd, hreads⟩
      · exact .inl (hopen hreached hopen')
      · rcases huncounted.entries e he hnames with hnames' | hother
        · exact .inr ⟨e, hentries he, hnames', hpath, d, hd, hreads⟩
        · rcases hother url hreached hpath with hopen' | ⟨e', he', hnames', hpath', hd'⟩
          · exact .inl hopen'
          · exact .inr ⟨e', he', hnames', hpath'.trans hpath, d, hd'.trans hd, hreads⟩
    · obtain ⟨url, hparsed, hweb, hnot⟩ := hostRefused_iff.1 hrefused
      exact hostRefused_iff.2 ⟨url, hparsed, hweb, fun hhost =>
        hnot (huncounted.hosts _ hhost ⟨_, url, hparsed, hweb, rfl⟩)⟩

end

/-! ## Two drafts -/

/-- `readingRecipe` with one more step. -/
def withStep (s : RecipeStep) : RecipeVersion := { readingRecipe with steps := readingRecipe.steps ++ [s] }

/-- A search whose form is sent as a `POST`. -/
def purge : RecipeStep := .search "purge".toList "#purge".toList [] "post".toList "https://portal.example/purge".toList

/-- A capture of the page. -/
def capture : RecipeStep := .capture_page "page".toList

theorem withStep_accepted {s : RecipeStep} (h : s = purge ∨ s = capture) :
    Accepted asciiCase plainUrls (withStep s) where
  hosts := readingRecipe_accepted.hosts
  signInPaths := readingRecipe_accepted.signInPaths
  neverClick := readingRecipe_accepted.neverClick
  postAsRead := readingRecipe_accepted.postAsRead
  steps := by
    refine ⟨List.cons_ne_nil _ _, ?_⟩
    rcases h with rfl | rfl
    · decide
    · decide
  signInHost := readingRecipe_accepted.signInHost
  names := by
    rcases h with rfl | rfl
    · decide
    · decide
  dismissals := by
    rcases h with rfl | rfl
    · decide
    · decide

/-- The SHA-256 of the one host of these recipes. -/
def oneHostDigest (_ : Text) : Text := "416ef6dbb1e9b929dc9748197f4c3c8ffb3c7869c02b5303ab413cd1ac92fa26".toList

def readingBinding : PortalBinding := ⟨"https://portal.example".toList, ["/login".toList], oneHostDigest []⟩

theorem bindingOf_reading : bindingOf plainUrls oneHostDigest readingRecipe = some readingBinding := by decide

theorem bindingOf_withStep (s : RecipeStep) : bindingOf plainUrls oneHostDigest (withStep s) = some readingBinding :=
  bindingOf_reading

theorem capture_grants_nothing : GrantsNothing asciiCase plainUrls (withStep capture) readingRecipe := by
  have hsteps : allSteps (withStep capture).steps = [.sign_in, .follow "list".toList "Deductions".toList, capture] := rfl
  have hold : allSteps readingRecipe.steps = [.sign_in, .follow "list".toList "Deductions".toList] := rfl
  refine (additions_grant_nothing_iff asciiCase plainUrls oneHostDigest _ _ readingBinding readingBinding
    (by decide) (withStep_accepted (.inr rfl)) readingRecipe_accepted (bindingOf_withStep capture)
    bindingOf_reading (by decide) (by decide)).2 ⟨fun host hhost _ => hhost, fun _ => .inl ?_, ?_, ?_⟩
  · exact ⟨.sign_in, by rw [hold]; exact List.mem_cons_self, .inl rfl⟩
  · intro s hs action haction
    rw [hsteps] at hs
    simp only [List.mem_cons, List.not_mem_nil, or_false] at hs
    rcases hs with rfl | rfl | rfl
    · cases haction
    · cases haction
    · cases haction
  · intro e he _
    cases List.mem_singleton.1 he
    exact .inl ⟨.follow "list".toList "Deductions".toList, by
      rw [hold]
      exact List.mem_cons_of_mem _ List.mem_cons_self, rfl⟩

/-- The draft adds nothing that is counted, and its `POST` to the search's address is allowed under it alone. -/
theorem uncounted_search : Accepted asciiCase plainUrls (withStep purge) ∧ Accepted asciiCase plainUrls readingRecipe ∧
    bindingOf plainUrls oneHostDigest (withStep purge) = bindingOf plainUrls oneHostDigest readingRecipe ∧
    recipeAdditions asciiCase (withStep purge) (some readingRecipe) = [] ∧
    ¬ GrantsNothing asciiCase plainUrls (withStep purge) readingRecipe := by
  refine ⟨withStep_accepted (.inl rfl), readingRecipe_accepted, (bindingOf_withStep purge).trans bindingOf_reading.symm,
    by decide, fun h => ?_⟩
  let req : RequestContext := ⟨"POST".toList, "https://portal.example/purge".toList, none, none⟩
  have hwrites : Writes asciiCase req := ⟨by decide, by decide⟩
  have hdraft : AllowedDuring asciiCase plainUrls (withStep purge) req := by
    unfold AllowedDuring
    decide
  have hpromoted : ¬ AllowedDuring asciiCase plainUrls readingRecipe req := by
    unfold AllowedDuring
    decide
  exact hpromoted (h.writes req hwrites hdraft)

end Recouple.Portal
