import Recouple.Portal.Recipe

/-!
# The write guard: `packages/portal/src/guard.ts`

`decideRequest` is put every request that the runner's browser makes.

* **`guard_writes_declared`**: what it allows beside `GET` and `HEAD` is a `POST` that the recipe declares, to a host
  on its allowlist, during a step; and where only a body discriminator lets it through, the field holds the required
  value alone, exactly where the body is not one that can be read two ways (`TwoWays`): `JSON.parse` keeps the last of
  two fields of one name, and a JSON text can be read as form-encoded too: `repeated_field_allowed`.
* `form_one_way`: a body that is no JSON text can not.
-/

namespace Recouple.Portal
open Js

structure ActiveStep where
  kind : StepKind
  name : Text
  recordedAction : Option Text

structure RequestContext where
  method : Text
  url : Text
  body : Option Text
  activeStep : Option ActiveStep

inductive GuardRefusal | host_not_allowed | non_get_not_allowed | body_discriminator_mismatch | scheme_not_allowed
deriving DecidableEq

inductive GuardDecision
  | allow
  | refuse (reason : GuardRefusal)
deriving DecidableEq

/-- The text a JSON value is, if it is one. -/
def textOf : Written → Option (List Nat)
  | .str units => some units
  | _ => none

/-- The fields of a JSON object of one name, in the order they are written. -/
def jsonFields (body field : Text) : List Written :=
  match Written.parse body with
  | some (.obj fields) => (fields.filter fun f => f.1 = codeUnits field).map (·.2)
  | _ => []

/-- The values of one name in form-encoded text, in order. -/
def formValues (body field : Text) : List Text := ((formPairs body).filter fun p => p.1 = field).map (·.2)

/-- `JSON.parse` keeps the last field of a name; a name that is in form-encoded text twice has no value. -/
def bodyField (body : Option Text) (field : Text) : Option (List Nat) :=
  match body with
  | none => none
  | some body =>
    match Written.parse body with
    | some _ => (jsonFields body field).getLast?.bind textOf
    | none =>
      match formValues body field with
      | [value] => some (codeUnits value)
      | _ => none

section
variable (T : CaseTables) (P : UrlParser) (recipe : RecipeVersion)

/-- The URL is on the sign-in origin, at one of the sign-in's paths. -/
def onSignIn (url : Url) : Bool :=
  (P.parse recipe.signIn.origin).any fun signIn => url.origin = signIn.origin && recipe.signIn.paths.contains url.pathname

/-- The URL is the recorded one, but for its fragment. -/
def isRecorded (recordedAction : Text) (url : Url) : Bool :=
  (P.parse recordedAction).any fun recorded =>
    recorded.origin = url.origin && recorded.pathname = url.pathname && recorded.search = url.search

/-- The sign-in rule. A recipe whose sign-in origin is no URL is not accepted. -/
def signInRule (step : ActiveStep) (url : Url) : Bool :=
  (step.kind = .sign_in || step.kind = .answer_mfa) && onSignIn P recipe url

def searchRule (step : ActiveStep) (url : Url) : Bool :=
  step.kind = .search && step.recordedAction.any fun action => isRecorded P action url

/-- The POST-as-read entries of a step and a path. -/
def entriesFor (step : ActiveStep) (url : Url) : List PostAsRead :=
  recipe.postAsRead.filter fun p => p.step = step.name && p.path = url.pathname

def takes (body : Option Text) (p : PostAsRead) : Bool :=
  p.bodyDiscriminator.all fun d => decide (bodyField body d.field = some (codeUnits d.equals))

/-- A `POST` during a step. -/
def decidePost (body : Option Text) (step : ActiveStep) (url : Url) : GuardDecision :=
  if signInRule P recipe step url then .allow
  else if searchRule P step url then .allow
  else if entriesFor recipe step url = [] then .refuse .non_get_not_allowed
  else if (entriesFor recipe step url).any (takes body) then .allow
  else .refuse .body_discriminator_mismatch

def decideRequest (req : RequestContext) : GuardDecision :=
  match P.parse req.url with
  | none => .refuse .scheme_not_allowed
  | some url =>
    if ¬ url.Web then .refuse .scheme_not_allowed
    else if url.host ∉ recipe.hostAllowlist then .refuse .host_not_allowed
    else if T.toUpperCase req.method = "GET".toList ∨ T.toUpperCase req.method = "HEAD".toList then .allow
    else if T.toUpperCase req.method ≠ "POST".toList then .refuse .non_get_not_allowed
    else
      match req.activeStep with
      | none => .refuse .non_get_not_allowed
      | some step => decidePost P recipe req.body step url

/-! ## What the guard lets through -/

/-- The request is neither a `GET` nor a `HEAD`. -/
def Writes (req : RequestContext) : Prop :=
  T.toUpperCase req.method ≠ "GET".toList ∧ T.toUpperCase req.method ≠ "HEAD".toList

/-- A `POST` over the web to a host on the allowlist, while a step is active. -/
structure Posted (req : RequestContext) (step : ActiveStep) (url : Url) : Prop where
  parsed : P.parse req.url = some url
  web : url.Web
  host : url.host ∈ recipe.hostAllowlist
  method : T.toUpperCase req.method = "POST".toList
  active : req.activeStep = some step

end

variable {T : CaseTables} {P : UrlParser} {recipe : RecipeVersion} {req : RequestContext}

theorem decidePost_allow {body : Option Text} {step : ActiveStep} {url : Url} :
    decidePost P recipe body step url = .allow ↔ signInRule P recipe step url = true ∨ searchRule P step url = true ∨
      ∃ p ∈ entriesFor recipe step url, takes body p = true := by
  unfold decidePost
  split
  · rename_i h
    exact ⟨fun _ => .inl h, fun _ => rfl⟩
  · rename_i hsign
    split
    · rename_i h
      exact ⟨fun _ => .inr (.inl h), fun _ => rfl⟩
    · rename_i hsearch
      split
      · rename_i hnone
        rw [hnone]
        simp [hsign, hsearch]
      · split
        · rename_i hany
          exact ⟨fun _ => .inr (.inr (List.any_eq_true.1 hany)), fun _ => rfl⟩
        · rename_i hno
          constructor
          · rintro ⟨⟩
          · rintro (h | h | h)
            · exact absurd h hsign
            · exact absurd h hsearch
            · exact absurd (List.any_eq_true.2 h) hno

/-- A write is allowed where it is posted during a step and one of the three rules takes it. -/
theorem decideRequest_allow (hwrites : Writes T req) :
    decideRequest T P recipe req = .allow ↔
      ∃ step url, Posted T P recipe req step url ∧ decidePost P recipe req.body step url = .allow := by
  unfold decideRequest
  constructor
  · intro h
    cases hparsed : P.parse req.url with
    | none =>
      rw [hparsed] at h
      cases h
    | some url =>
      rw [hparsed] at h
      dsimp only at h
      split at h
      · cases h
      · rename_i hweb
        split at h
        · cases h
        · rename_i hhost
          rw [if_neg (not_or.2 hwrites)] at h
          split at h
          · cases h
          · rename_i hpost
            cases hactive : req.activeStep with
            | none =>
              rw [hactive] at h
              cases h
            | some step =>
              rw [hactive] at h
              exact ⟨step, url, ⟨hparsed, not_not.1 hweb, not_not.1 hhost, not_not.1 hpost, hactive⟩, h⟩
  · rintro ⟨step, url, hposted, h⟩
    rw [hposted.parsed]
    dsimp only
    rw [if_neg (not_not.2 hposted.web), if_neg (not_not.2 hposted.host), if_neg (not_or.2 hwrites),
      if_neg (not_not.2 hposted.method), hposted.active]
    exact h

/-! ## Bodies two parsers read differently -/

/-- Every value that the body holds under a name, as JSON and as form-encoded text; `none` is a value that is no text. -/
def occurrences (body : Option Text) (field : Text) : List (Option (List Nat)) :=
  body.elim [] fun body =>
    (jsonFields body field).map textOf ++ (formValues body field).map fun value => some (codeUnits value)

/-- The body holds the required value under the discriminator's name, and no other. -/
def HoldsOnly (body : Option Text) (d : BodyDiscriminator) : Prop :=
  occurrences body d.field ≠ [] ∧ ∀ value ∈ occurrences body d.field, value = some (codeUnits d.equals)

instance (body : Option Text) (d : BodyDiscriminator) : Decidable (HoldsOnly body d) :=
  inferInstanceAs (Decidable (_ ∧ ∀ value ∈ occurrences body d.field, value = some (codeUnits d.equals)))

/-- The write is one the recipe declares. -/
inductive Declared (T : CaseTables) (P : UrlParser) (recipe : RecipeVersion) (req : RequestContext) : Prop
  | signIn (step : ActiveStep) (url : Url) (posted : Posted T P recipe req step url)
      (kind : step.kind = .sign_in ∨ step.kind = .answer_mfa) (on : onSignIn P recipe url = true)
  | search (step : ActiveStep) (url : Url) (posted : Posted T P recipe req step url) (kind : step.kind = .search)
      (action : Text) (recorded : step.recordedAction = some action) (same : isRecorded P action url = true)
  | postAsRead (step : ActiveStep) (url : Url) (posted : Posted T P recipe req step url)
      (declared : entriesFor recipe step url ≠ [])
      (discriminated : (∀ p ∈ entriesFor recipe step url, p.bodyDiscriminator.isSome) →
        ∃ p ∈ entriesFor recipe step url, ∃ d, p.bodyDiscriminator = some d ∧ HoldsOnly req.body d)

/-- The text is a JSON object whose last field of that name is the required text. -/
def LastIs (body : Text) (d : BodyDiscriminator) : Prop :=
  ∃ before, jsonFields body d.field = before ++ [.str (codeUnits d.equals)]

/-- The text has another value under the name: in a field of the JSON object, or as form-encoded text. -/
def HasOther (body : Text) (d : BodyDiscriminator) : Prop :=
  (∃ value ∈ jsonFields body d.field, value ≠ .str (codeUnits d.equals)) ∨ ∃ value ∈ formValues body d.field, value ≠ d.equals

/-- The text has nothing under the name. -/
def HasNone (body : Text) (d : BodyDiscriminator) : Prop := jsonFields body d.field = [] ∧ formValues body d.field = []

/-- A body that can be read two ways by the discriminators of some entries: the last JSON field is what one of them
requires, and what the body has under the name of each is nothing, or not that alone. -/
def TwoWays (entries : List PostAsRead) (body : Text) : Prop :=
  (∃ p ∈ entries, ∃ d, p.bodyDiscriminator = some d ∧ LastIs body d) ∧
    ∀ p ∈ entries, ∀ d, p.bodyDiscriminator = some d → HasNone body d ∨ HasOther body d

/-- The request is left to body discriminators, and its body can be read two ways by them. -/
def Ambiguous (T : CaseTables) (P : UrlParser) (recipe : RecipeVersion) (req : RequestContext) : Prop :=
  ∃ step url, Posted T P recipe req step url ∧ signInRule P recipe step url = false ∧ searchRule P step url = false ∧
    (∀ p ∈ entriesFor recipe step url, p.bodyDiscriminator.isSome) ∧
    ∃ body, req.body = some body ∧ TwoWays (entriesFor recipe step url) body

/-- What only JSON can be: a body that is no JSON text is read one way. -/
theorem form_one_way {body : Text} (h : Written.parse body = none) (entries : List PostAsRead) : ¬ TwoWays entries body := by
  rintro ⟨⟨p, -, d, -, before, hlast⟩, -⟩
  unfold jsonFields at hlast
  rw [h] at hlast
  exact absurd hlast.symm (by simp)

theorem textOf_eq_some {value : Written} {units : List Nat} : textOf value = some units ↔ value = .str units := by
  cases value <;> simp [textOf]

/-- What is read of a JSON object is the last field of the name. -/
theorem bodyField_of_last {body : Text} {d : BodyDiscriminator} (h : LastIs body d) :
    bodyField (some body) d.field = some (codeUnits d.equals) := by
  obtain ⟨before, hlast⟩ := h
  unfold bodyField
  dsimp only
  rw [hlast, List.getLast?_append, List.getLast?_singleton]
  cases hparse : Written.parse body with
  | none =>
    unfold jsonFields at hlast
    rw [hparse] at hlast
    exact absurd hlast.symm (by simp)
  | some value => rfl

/-- The required value is read off a JSON object by its last field, or off form-encoded text that has it alone. -/
theorem last_or_form {body : Option Text} {d : BodyDiscriminator}
    (h : bodyField body d.field = some (codeUnits d.equals)) :
    ∃ text, body = some text ∧ (LastIs text d ∨ HoldsOnly body d) := by
  cases body with
  | none => cases h
  | some text =>
    refine ⟨text, rfl, ?_⟩
    unfold bodyField at h
    dsimp only at h
    cases hparse : Written.parse text with
    | some value =>
      rw [hparse] at h
      obtain ⟨last, hlast, htext⟩ := Option.bind_eq_some_iff.1 h
      rw [textOf_eq_some.1 htext] at hlast
      exact .inl (List.getLast?_eq_some_iff.1 hlast)
    | none =>
      rw [hparse] at h
      dsimp only at h
      have hjson : jsonFields text d.field = [] := by
        unfold jsonFields
        rw [hparse]
      split at h
      · rename_i value hvalues
        right
        unfold HoldsOnly occurrences
        rw [Option.elim_some, hjson, List.map_nil, List.nil_append, hvalues]
        exact ⟨List.cons_ne_nil _ _, by simpa using h⟩
      · cases h

/-- A name whose value is not there alone: there is none, or another. -/
theorem not_holdsOnly {body : Text} {d : BodyDiscriminator} :
    ¬ HoldsOnly (some body) d ↔ HasNone body d ∨ HasOther body d := by
  have hjson : ∀ value : Written, textOf value = some (codeUnits d.equals) ↔ value = .str (codeUnits d.equals) :=
    fun value => textOf_eq_some
  have hform : ∀ value : Text, some (codeUnits value) = some (codeUnits d.equals) ↔ value = d.equals :=
    fun value => Option.some_inj.trans codeUnits_injective.eq_iff
  unfold HoldsOnly HasNone HasOther occurrences
  rw [Option.elim_some, not_and_or, not_not, List.append_eq_nil_iff, List.map_eq_nil_iff, List.map_eq_nil_iff]
  refine or_congr Iff.rfl ?_
  simp only [not_forall, List.mem_append, List.mem_map, exists_prop, or_and_right, exists_or, exists_exists_and_eq_and,
    hjson, hform, ne_eq]

theorem takes_iff {body : Option Text} {p : PostAsRead} :
    takes body p = true ↔ ∀ d, p.bodyDiscriminator = some d → bodyField body d.field = some (codeUnits d.equals) := by
  unfold takes
  cases p.bodyDiscriminator with
  | none => simp
  | some d => simp

/-- A request is posted during one step, to one address. -/
theorem Posted.unique {step step' : ActiveStep} {url url' : Url} (h : Posted T P recipe req step url)
    (h' : Posted T P recipe req step' url') : step' = step ∧ url' = url := by
  have hstep := h.active.symm.trans h'.active
  have hurl := h.parsed.symm.trans h'.parsed
  cases hstep
  cases hurl
  exact ⟨rfl, rfl⟩

/-- **The guard allows declared writes only**, but where the body can be read two ways by its discriminators. -/
theorem guard_writes_declared (T : CaseTables) (P : UrlParser) (recipe : RecipeVersion) (req : RequestContext) :
    (decideRequest T P recipe req = .allow → Writes T req → Declared T P recipe req) ↔
      ¬ (Writes T req ∧ Ambiguous T P recipe req) := by
  constructor
  · rintro h ⟨hwrites, step, url, hposted, hsign, hsearch, hall, body, hbody, ⟨p, hp, d, hd, hlast⟩, hnot⟩
    have htakes : takes req.body p = true := takes_iff.2 fun d' hd' => by
      cases hd.symm.trans hd'
      rw [hbody]
      exact bodyField_of_last hlast
    have hallow : decideRequest T P recipe req = .allow :=
      (decideRequest_allow hwrites).2 ⟨step, url, hposted, decidePost_allow.2 (.inr (.inr ⟨p, hp, htakes⟩))⟩
    cases h hallow hwrites with
    | signIn step' url' hposted' hkind hon =>
      obtain ⟨rfl, rfl⟩ := hposted.unique hposted'
      have hrule : signInRule P recipe step' url' = true := by simp [signInRule, hkind, hon]
      cases hsign.symm.trans hrule
    | search step' url' hposted' hkind action hrecorded hsame =>
      obtain ⟨rfl, rfl⟩ := hposted.unique hposted'
      have hrule : searchRule P step' url' = true := by simp [searchRule, hkind, hrecorded, hsame]
      cases hsearch.symm.trans hrule
    | postAsRead step' url' hposted' hdeclared hdiscriminated =>
      obtain ⟨rfl, rfl⟩ := hposted.unique hposted'
      obtain ⟨p', hp', d', hd', honly⟩ := hdiscriminated hall
      rw [hbody] at honly
      exact not_holdsOnly.2 (hnot p' hp' d' hd') honly
  · intro h hallow hwrites
    obtain ⟨step, url, hposted, hpost⟩ := (decideRequest_allow hwrites).1 hallow
    by_cases hsign : signInRule P recipe step url = true
    · simp only [signInRule, Bool.and_eq_true, Bool.or_eq_true, decide_eq_true_eq] at hsign
      exact .signIn step url hposted hsign.1 hsign.2
    by_cases hsearch : searchRule P step url = true
    · simp only [searchRule, Bool.and_eq_true, decide_eq_true_eq, Option.any_eq_true] at hsearch
      obtain ⟨hkind, action, haction, hsame⟩ := hsearch
      exact .search step url hposted hkind action haction hsame
    obtain ⟨p, hp, htakes⟩ := ((decidePost_allow.1 hpost).resolve_left hsign).resolve_left hsearch
    refine .postAsRead step url hposted (List.ne_nil_of_mem hp) fun hall => ?_
    obtain ⟨d, hd⟩ := Option.isSome_iff_exists.1 (hall p hp)
    obtain ⟨body, hbody, hlast | honly⟩ := last_or_form (takes_iff.1 htakes d hd)
    · -- no other entry's value stands alone either, or the body can be read two ways
      by_contra hnone
      refine h ⟨hwrites, step, url, hposted, by simpa using hsign, by simpa using hsearch, hall, body, hbody,
        ⟨p, hp, d, hd, hlast⟩, fun p' hp' d' hd' => not_holdsOnly.1 fun honly => hnone ⟨p', hp', d', hd', ?_⟩⟩
      rwa [hbody]
    · exact ⟨p, hp, d, hd, honly⟩

/-! ## A body with two values -/

/-- Plain web addresses, read as they are written. -/
def plainParse (text : Text) : Option Url :=
  let protocol := text.takeWhile (· ≠ '/')
  let rest := (text.dropWhile (· ≠ '/')).drop 2
  let host := rest.takeWhile fun c => c ≠ '/' && c ≠ '?' && c ≠ '#'
  let afterHost := rest.dropWhile fun c => c ≠ '/' && c ≠ '?' && c ≠ '#'
  let path := afterHost.takeWhile fun c => c ≠ '?' && c ≠ '#'
  let search := (afterHost.dropWhile fun c => c ≠ '?' && c ≠ '#').takeWhile (· ≠ '#')
  if (protocol = "http:".toList ∨ protocol = "https:".toList) ∧ host ≠ [] ∧ asciiCase.toLowerCase host = host then
    some ⟨protocol, host, protocol ++ "//".toList ++ host, if path = [] then ['/'] else path,
      if search = ['?'] then [] else search⟩
  else none

def plainUrls : UrlParser where
  parse := plainParse
  host_lower := by
    intro s u h _
    unfold plainParse at h
    dsimp only at h
    split at h
    · rename_i hhost
      cases h
      exact hhost.2.2
    · cases h
  origin_web := by
    intro s u h _
    unfold plainParse at h
    dsimp only at h
    split at h
    · cases h
      rfl
    · cases h
  web_of_origin := by
    intro s u s' u' h _ _ _ _
    unfold plainParse at h
    dsimp only at h
    split at h
    · rename_i hhost
      cases h
      exact hhost.1
    · cases h

/-- A recipe that may send one search as a `POST`. -/
def readingRecipe : RecipeVersion :=
  { hostAllowlist := ["portal.example".toList], neverClick := []
    signIn := ⟨"https://portal.example".toList, ["/login".toList], [], []⟩
    postAsRead := [⟨"list".toList, "/api".toList, some ⟨"op".toList, "read".toList⟩⟩]
    steps := [.sign_in, .follow "list".toList "Deductions".toList] }

def twoOps : RequestContext :=
  { method := "POST".toList, url := "https://portal.example/api".toList
    body := some "\x7b\"op\":\"write\",\"op\":\"read\"\x7d".toList
    activeStep := some ⟨.follow, "list".toList, none⟩ }

theorem readingRecipe_accepted : Accepted asciiCase plainUrls readingRecipe where
  hosts := by decide +kernel
  signInPaths := by decide +kernel
  neverClick := by decide +kernel
  postAsRead := by decide +kernel
  steps := ⟨List.cons_ne_nil _ _, by decide +kernel⟩
  signInHost := ⟨"portal.example".toList, by decide +kernel, by decide +kernel⟩
  names := by decide +kernel
  dismissals := by decide +kernel

def apiUrl : Url :=
  ⟨"https:".toList, "portal.example".toList, "https://portal.example".toList, "/api".toList, []⟩

theorem twoOps_posted : Posted asciiCase plainUrls readingRecipe twoOps ⟨.follow, "list".toList, none⟩ apiUrl :=
  ⟨by rfl, by decide, by decide, by decide, rfl⟩

/-- A `POST` whose JSON names the operation twice is allowed by the second. -/
theorem repeated_field_allowed : Accepted asciiCase plainUrls readingRecipe ∧
    decideRequest asciiCase plainUrls readingRecipe twoOps = .allow ∧ Writes asciiCase twoOps ∧
    ¬ Declared asciiCase plainUrls readingRecipe twoOps := by
  have hallow : decideRequest asciiCase plainUrls readingRecipe twoOps = .allow := by decide +kernel
  have hwrites : Writes asciiCase twoOps := ⟨by decide +kernel, by decide +kernel⟩
  refine ⟨readingRecipe_accepted, hallow, hwrites, fun h => ?_⟩
  cases h with
  | signIn step url hposted hkind =>
    obtain ⟨rfl, rfl⟩ := twoOps_posted.unique hposted
    rcases hkind with hkind | hkind
    · cases hkind
    · cases hkind
  | search step url hposted hkind =>
    obtain ⟨rfl, rfl⟩ := twoOps_posted.unique hposted
    cases hkind
  | postAsRead step url hposted hdeclared hdiscriminated =>
    obtain ⟨rfl, rfl⟩ := twoOps_posted.unique hposted
    have hentries : entriesFor readingRecipe ⟨.follow, "list".toList, none⟩ apiUrl = readingRecipe.postAsRead := by
      decide
    obtain ⟨p, hp, d, hd, honly⟩ := hdiscriminated (by rw [hentries]; decide)
    rw [hentries] at hp
    cases List.mem_singleton.1 hp
    cases hd
    revert honly
    decide +kernel

end Recouple.Portal
