import Recouple.Lib.FirstSeen
import Recouple.Lib.SortByKey
import Recouple.Portal.Guard

/-!
# Where a portal credential may be typed: `packages/portal/src/binding.ts` (38-129)

| here | there |
| --- | --- |
| `hostsHash`, `hostsText` | 53-64 |
| `isCanonicalOrigin`, `bindingAccepted` | `contracts.ts` (107-120, 194-204), `PortalBindingSchema` |
| `bindingOf` | 80-92 |
| `sameBinding` | 100-107 |

* **`binding_fixes_destination`**: two versions with one binding let the same sign-in posts through, and the guard
  treats their hosts alike exactly where no host that an address prints is listed in lower case by one of them only.
  The order of an allowlist, its repetitions and the case of its hosts leave the binding as it is.
* `listed_in_capitals`: the guard never finds a host that is listed in capitals, though its binding is the same.
-/

namespace Recouple.Portal
open Js FirstSeen

structure PortalBinding where
  signInOrigin : Text
  signInPaths : List Text
  hostsHash : Text
deriving DecidableEq

def PATH_MAX : Nat := 2048

def SIGN_IN_PATHS_MAX : Nat := 64

/-- `[...new Set(xs)].sort()` -/
def sortedSet (xs : List Text) : List Text := (firstSeen xs).insertionSort textLe

/-- A host is ASCII text, so `asciiCase` gives its lower case. -/
def lowerHost (host : Text) : Text := asciiCase.toLowerCase host

/-- What the hosts' hash is taken of. -/
def hostsText (allowlist : List Text) : Text := ['\n'].intercalate (sortedSet (allowlist.map lowerHost))

/-- Lower-case hex SHA-256. -/
def isSha256Hex (hash : Text) : Bool :=
  hash.length = 64 && hash.all fun c => c.isDigit || ('a' ≤ c && c ≤ 'f')

section
variable (P : UrlParser) (sha256 : Text → Text)

/-- `none` is a `PortalBindingError`. -/
def hostsHash (allowlist : List Text) : Option Text :=
  if allowlist ≠ [] ∧ allowlist.all isHost then some (sha256 (hostsText allowlist)) else none

def isCanonicalOrigin (text : Text) : Bool := (P.parse text).any fun u => u.Web && u.origin = text

def isStrictlySorted (xs : List Text) : Bool := xs.Pairwise textLt

def bindingAccepted (binding : PortalBinding) : Bool :=
  utf16Length binding.signInOrigin ≤ PATH_MAX && isCanonicalOrigin P binding.signInOrigin &&
    (binding.signInPaths.all fun path => path ≠ [] && utf16Length path ≤ PATH_MAX && isPath path) &&
    binding.signInPaths ≠ [] && binding.signInPaths.length ≤ SIGN_IN_PATHS_MAX &&
    isStrictlySorted binding.signInPaths && isSha256Hex binding.hostsHash

def bindingOf (recipe : RecipeVersion) : Option PortalBinding := do
  let signIn ← P.parse recipe.signIn.origin
  let hash ← hostsHash sha256 recipe.hostAllowlist
  let binding : PortalBinding := ⟨signIn.origin, sortedSet recipe.signIn.paths, hash⟩
  if bindingAccepted P binding then some binding else none

end

/-- Field for field, the paths in their order. -/
def sameBinding (a b : PortalBinding) : Bool :=
  a.signInOrigin = b.signInOrigin && a.hostsHash = b.hostsHash && a.signInPaths = b.signInPaths

/-! ## A binding is of sets -/

theorem mem_sortedSet {xs : List Text} {x : Text} : x ∈ sortedSet xs ↔ x ∈ xs := by
  unfold sortedSet
  rw [(List.perm_insertionSort textLe _).mem_iff, mem_firstSeen]

theorem sortedSet_eq_iff {xs ys : List Text} : sortedSet xs = sortedSet ys ↔ ∀ x, x ∈ xs ↔ x ∈ ys := by
  constructor
  · intro h x
    rw [← @mem_sortedSet xs, h, mem_sortedSet]
  · intro h
    have hperm : (firstSeen xs).Perm (firstSeen ys) :=
      (List.perm_ext_iff_of_nodup (nodup_firstSeen xs) (nodup_firstSeen ys)).2 fun x => by
        rw [mem_firstSeen, mem_firstSeen]
        exact h x
    exact SortByKey.insertionSort_congr (r := textLe) (fun _ _ => Iff.rfl) hperm
      ((nodup_firstSeen xs).map codeUnits_injective)

theorem isHost_chars {host : Text} (h : isHost host = true) {c : Char} (hc : c ∈ host) :
    c.isAlphanum = true ∨ c = '.' ∨ c = '-' ∨ c = ':' := by
  unfold isHost at h
  simp only [Bool.and_eq_true, Bool.or_eq_true, decide_eq_true_eq, List.all_eq_true] at h
  rw [← List.takeWhile_append_dropWhile (p := fun c : Char => c.isAlphanum || c = '.' || c = '-') (l := host),
    List.mem_append] at hc
  rcases hc with hname | hport
  · have hp := List.mem_takeWhile_imp hname
    simp only [Bool.or_eq_true, decide_eq_true_eq] at hp
    tauto
  · rcases h.2 with hnil | ⟨⟨hcolon, -⟩, hdigits⟩
    · rw [hnil] at hport
      cases hport
    · obtain ⟨port, hport'⟩ : ∃ port, host.dropWhile (fun c : Char => c.isAlphanum || c = '.' || c = '-') = ':' :: port :=
        List.head?_eq_some_iff.1 hcolon
      rw [hport', List.tail_cons] at hdigits
      rw [hport', List.mem_cons] at hport
      rcases hport with rfl | hport
      · exact .inr (.inr (.inr rfl))
      · exact .inl (by simp [Char.isAlphanum, hdigits c hport])

theorem mem_lowerWithin {x : Char} : ∀ {t before after : Text}, x ∈ asciiCase.lowerWithin before t after →
    ∃ c ∈ t, c = 'Σ' ∨ x = c.toLower
  | [], _, _, h => absurd h List.not_mem_nil
  | c :: cs, before, after, h => by
    rw [CaseTables.lowerWithin, List.mem_append] at h
    rcases h with h | h
    · refine ⟨c, List.mem_cons_self .., ?_⟩
      unfold CaseTables.lowerAt at h
      split at h
      · rename_i hsigma
        exact .inl hsigma
      · exact .inr (List.mem_singleton.1 h)
    · obtain ⟨d, hd, hx⟩ := mem_lowerWithin h
      exact ⟨d, List.mem_cons_of_mem _ hd, hx⟩

theorem eq_newline_of_toLower {c : Char} (h : '\n' = c.toLower) : c = '\n' := by
  unfold Char.toLower at h
  split at h
  · rename_i hcapital
    have hval : (10 : UInt32) = c.val + 32 := congrArg Char.val h
    have hlow : (65 : UInt32) ≤ c.val := hcapital.1
    have hhigh : c.val ≤ (90 : UInt32) := hcapital.2
    have hnat := congrArg UInt32.toNat hval
    rw [UInt32.le_iff_toNat_le] at hlow hhigh
    rw [UInt32.toNat_add] at hnat
    simp only [UInt32.reduceToNat] at hlow hhigh hnat
    omega
  · exact h.symm

theorem newline_not_mem_lowerHost {host : Text} (h : isHost host = true) : '\n' ∉ lowerHost host := by
  intro hmem
  obtain ⟨c, hc, hlower⟩ := mem_lowerWithin hmem
  have hnew : c = 'Σ' ∨ c = '\n' := hlower.imp_right eq_newline_of_toLower
  have hchar := isHost_chars h hc
  rcases hnew with rfl | rfl
  · revert hchar
    decide
  · revert hchar
    decide

/-- The hosts of an allowlist can be read off the text that is hashed. -/
theorem hostsText_inj {l l' : List Text} (hl : l ≠ []) (hl' : l' ≠ []) (hhosts : l.all isHost = true)
    (hhosts' : l'.all isHost = true) (h : hostsText l = hostsText l') (host : Text) :
    host ∈ l.map lowerHost ↔ host ∈ l'.map lowerHost := by
  have hsplit : ∀ l : List Text, l ≠ [] → l.all isHost = true →
      (hostsText l).splitOn '\n' = sortedSet (l.map lowerHost) := by
    intro l hne hall
    refine List.splitOn_intercalate '\n' (fun host hhost => ?_) fun hnil => hne ?_
    · rw [mem_sortedSet] at hhost
      obtain ⟨listed, hlisted, rfl⟩ := List.mem_map.1 hhost
      exact newline_not_mem_lowerHost (List.all_eq_true.1 hall listed hlisted)
    · cases l with
      | nil => rfl
      | cons host rest =>
        have hmem : lowerHost host ∈ sortedSet ((host :: rest).map lowerHost) :=
          mem_sortedSet.2 (List.mem_cons_self ..)
        rw [hnil] at hmem
        cases hmem
  have hsets := (hsplit l hl hhosts).symm.trans ((congrArg (·.splitOn '\n') h).trans (hsplit l' hl' hhosts'))
  exact sortedSet_eq_iff.1 hsets host

/-! ## What a binding fixes -/

section
variable {T : CaseTables} {P : UrlParser} {sha256 : Text → Text} {v p : RecipeVersion} {b b' : PortalBinding}

theorem bindingOf_some (h : bindingOf P sha256 v = some b) :
    (∃ signIn, P.parse v.signIn.origin = some signIn ∧ b.signInOrigin = signIn.origin) ∧
      hostsHash sha256 v.hostAllowlist = some b.hostsHash ∧ b.signInPaths = sortedSet v.signIn.paths ∧
      bindingAccepted P b = true := by
  unfold bindingOf at h
  obtain ⟨signIn, hsignIn, h⟩ := Option.bind_eq_some_iff.1 h
  obtain ⟨hash, hhash, h⟩ := Option.bind_eq_some_iff.1 h
  dsimp only at h
  split at h
  · rename_i haccepted
    cases h
    exact ⟨⟨signIn, hsignIn, rfl⟩, hhash, rfl, haccepted⟩
  · cases h

/-- The sign-in origin of a version with a binding is a web address, on its allowlist. -/
theorem signIn_web (hv : Accepted T P v) (h : bindingOf P sha256 v = some b) : ∃ signIn,
    P.parse v.signIn.origin = some signIn ∧ signIn.Web ∧ b.signInOrigin = signIn.origin ∧
      signIn.host ∈ v.hostAllowlist := by
  obtain ⟨⟨signIn, hsignIn, horigin⟩, -, -, haccepted⟩ := bindingOf_some h
  obtain ⟨host, hhost, hlisted⟩ := hv.signInHost
  have hhost' : host = signIn.host := by
    unfold hostOf at hhost
    rw [hsignIn] at hhost
    exact (Option.some.inj hhost).symm
  subst hhost'
  refine ⟨signIn, hsignIn, ?_, horigin, hlisted⟩
  have hcanonical : isCanonicalOrigin P b.signInOrigin = true := by
    simp only [bindingAccepted, Bool.and_eq_true] at haccepted
    tauto
  unfold isCanonicalOrigin at hcanonical
  rw [Option.any_eq_true] at hcanonical
  obtain ⟨origin, horigin', hweb⟩ := hcanonical
  rw [Bool.and_eq_true, decide_eq_true_eq, decide_eq_true_eq] at hweb
  refine P.web_of_origin _ _ _ origin hsignIn horigin' hweb.1 (horigin.symm.trans hweb.2.symm) ?_
  rintro hnil
  have hshape := List.all_eq_true.1 hv.hosts.2 _ hlisted
  rw [hnil] at hshape
  revert hshape
  decide

/-- Web addresses of one origin have one host. -/
theorem host_of_origin {s s' : Text} {u u' : Url} (h : P.parse s = some u) (h' : P.parse s' = some u') (hweb : u.Web)
    (hweb' : u'.Web) (horigin : u.origin = u'.origin) : u.host = u'.host := by
  rw [P.origin_web s u h hweb, P.origin_web s' u' h' hweb'] at horigin
  rcases hweb with hp | hp
  · rcases hweb' with hp' | hp'
    · rw [hp, hp'] at horigin
      exact List.append_cancel_left horigin
    · rw [hp, hp'] at horigin
      simp at horigin
  · rcases hweb' with hp' | hp'
    · rw [hp, hp'] at horigin
      simp at horigin
    · rw [hp, hp'] at horigin
      exact List.append_cancel_left horigin

theorem sameBinding_iff : sameBinding b b' = true ↔
    b.signInOrigin = b'.signInOrigin ∧ b.hostsHash = b'.hostsHash ∧ b.signInPaths = b'.signInPaths := by
  simp [sameBinding, and_assoc]

/-- The hash is collision free on the two allowlists. -/
def CollisionFree (sha256 : Text → Text) (v p : RecipeVersion) : Prop :=
  sha256 (hostsText v.hostAllowlist) = sha256 (hostsText p.hostAllowlist) →
    hostsText v.hostAllowlist = hostsText p.hostAllowlist

theorem same_lowerHosts (hsha : CollisionFree sha256 v p) (h : bindingOf P sha256 v = some b)
    (h' : bindingOf P sha256 p = some b') (hsame : sameBinding b b' = true) (host : Text) :
    host ∈ v.hostAllowlist.map lowerHost ↔ host ∈ p.hostAllowlist.map lowerHost := by
  have hhash := (bindingOf_some h).2.1
  have hhash' := (bindingOf_some h').2.1
  unfold hostsHash at hhash hhash'
  split at hhash
  · rename_i hlist
    split at hhash'
    · rename_i hlist'
      have heq := (Option.some.inj hhash).trans ((sameBinding_iff.1 hsame).2.1.trans (Option.some.inj hhash').symm)
      exact hostsText_inj hlist.1 hlist'.1 hlist.2 hlist'.2 (hsha heq) host
    · cases hhash'
  · cases hhash

/-- A sign-in post that one version lets through, the other does. -/
theorem signIn_transfers (hv : Accepted T P v) (hp : Accepted T P p) (h : bindingOf P sha256 v = some b)
    (h' : bindingOf P sha256 p = some b') (hsame : sameBinding b b' = true) {req : RequestContext} {step : ActiveStep}
    {url : Url} (hposted : Posted T P v req step url) (hrule : signInRule P v step url = true) :
    Posted T P p req step url ∧ signInRule P p step url = true := by
  obtain ⟨signIn, hsignIn, hweb, horigin, -⟩ := signIn_web hv h
  obtain ⟨signIn', hsignIn', hweb', horigin', hlisted'⟩ := signIn_web hp h'
  obtain ⟨hsameOrigin, -, hsamePaths⟩ := sameBinding_iff.1 hsame
  have hpaths : ∀ x, x ∈ v.signIn.paths ↔ x ∈ p.signIn.paths := sortedSet_eq_iff.1
    ((bindingOf_some h).2.2.1.symm.trans (hsamePaths.trans (bindingOf_some h').2.2.1))
  unfold signInRule onSignIn at hrule ⊢
  rw [hsignIn] at hrule
  rw [hsignIn']
  simp only [Option.any_some, Bool.and_eq_true, decide_eq_true_eq, List.contains_iff_mem] at hrule ⊢
  have hurl : url.origin = signIn'.origin := by
    rw [hrule.2.1, ← horigin, ← horigin', hsameOrigin]
  refine ⟨⟨hposted.parsed, hposted.web, ?_, hposted.method, hposted.active⟩, hrule.1, hurl, (hpaths _).1 hrule.2.2⟩
  rw [host_of_origin hposted.parsed hsignIn' hposted.web hweb' hurl]
  exact hlisted'

/-- The guard refuses the request for its host. -/
def HostRefused (T : CaseTables) (P : UrlParser) (recipe : RecipeVersion) (req : RequestContext) : Prop :=
  decideRequest T P recipe req = .refuse .host_not_allowed

theorem decidePost_ne_host {body : Option Text} {step : ActiveStep} {url : Url} :
    decidePost P v body step url ≠ .refuse .host_not_allowed := by
  unfold decidePost
  split
  · rintro ⟨⟩
  · split
    · rintro ⟨⟩
    · split
      · rintro ⟨⟩
      · split
        · rintro ⟨⟩
        · rintro ⟨⟩

theorem hostRefused_iff {req : RequestContext} :
    HostRefused T P v req ↔ ∃ url, P.parse req.url = some url ∧ url.Web ∧ url.host ∉ v.hostAllowlist := by
  unfold HostRefused decideRequest
  constructor
  · intro h
    cases hparsed : P.parse req.url with
    | none =>
      rw [hparsed] at h
      cases h
    | some url =>
      rw [hparsed] at h
      dsimp only at h
      split at h
      · cases h
      · rename_i hweb
        split at h
        · rename_i hhost
          exact ⟨url, rfl, not_not.1 hweb, hhost⟩
        · split at h
          · cases h
          · split at h
            · cases h
            · cases hactive : req.activeStep with
              | none =>
                rw [hactive] at h
                cases h
              | some step =>
                rw [hactive] at h
                exact absurd h decidePost_ne_host
  · rintro ⟨url, hparsed, hweb, hhost⟩
    rw [hparsed]
    dsimp only
    rw [if_neg (not_not.2 hweb), if_pos hhost]

/-- A request made while the browser signs in. -/
def SigningIn (req : RequestContext) : Prop :=
  ∃ step, req.activeStep = some step ∧ (step.kind = .sign_in ∨ step.kind = .answer_mfa)

/-- Where one version lets a credential go, the other does. -/
structure DestinationsAlike (T : CaseTables) (P : UrlParser) (v p : RecipeVersion) : Prop where
  hosts : ∀ req, SigningIn req → (HostRefused T P v req ↔ HostRefused T P p req)
  signIn : ∀ req step url, Posted T P v req step url → signInRule P v step url = true →
    decideRequest T P p req = .allow
  signIn' : ∀ req step url, Posted T P p req step url → signInRule P p step url = true →
    decideRequest T P v req = .allow

/-- Some web address prints this host. -/
def Printed (P : UrlParser) (host : Text) : Prop := ∃ s u, P.parse s = some u ∧ u.Web ∧ u.host = host

/-- Each host of the one that addresses print is listed in lower case by both or by neither. -/
def FoldedAlike (P : UrlParser) (v p : RecipeVersion) : Prop :=
  ∀ host ∈ v.hostAllowlist, Printed P (lowerHost host) →
    (lowerHost host ∈ v.hostAllowlist ↔ lowerHost host ∈ p.hostAllowlist)

theorem posted_allow {req : RequestContext} {step : ActiveStep} {url : Url} (hposted : Posted T P v req step url)
    (hrule : signInRule P v step url = true) (hwrites : Writes T req) : decideRequest T P v req = .allow :=
  (decideRequest_allow hwrites).2 ⟨step, url, hposted, decidePost_allow.2 (.inl hrule)⟩

theorem Posted.writes {req : RequestContext} {step : ActiveStep} {url : Url} (hposted : Posted T P v req step url) :
    Writes T req := by
  unfold Writes
  rw [hposted.method]
  decide

/-- The order of an allowlist, its repetitions and the case of its hosts leave the binding. -/
theorem bindingOf_same_hosts {l : List Text} (hne : v.hostAllowlist ≠ []) (hhosts : v.hostAllowlist.all isHost = true)
    (hl : l.all isHost = true) (hsame : ∀ host, host ∈ l.map lowerHost ↔ host ∈ v.hostAllowlist.map lowerHost) :
    bindingOf P sha256 { v with hostAllowlist := l } = bindingOf P sha256 v := by
  have hnil : l ≠ [] := by
    rintro rfl
    obtain ⟨host, hhost⟩ := List.exists_mem_of_ne_nil _ hne
    exact absurd ((hsame (lowerHost host)).2 (List.mem_map_of_mem hhost)) List.not_mem_nil
  have htext : hostsText l = hostsText v.hostAllowlist := by
    unfold hostsText
    rw [sortedSet_eq_iff.2 hsame]
  have hhash : hostsHash sha256 l = hostsHash sha256 v.hostAllowlist := by
    unfold hostsHash
    rw [if_pos ⟨hnil, hl⟩, if_pos ⟨hne, hhosts⟩, htext]
  unfold bindingOf
  dsimp only
  rw [hhash]

/-- The order of an allowlist and its repetitions leave every decision. -/
theorem decideRequest_same_hosts {l : List Text} (hsame : ∀ host, host ∈ l ↔ host ∈ v.hostAllowlist)
    (req : RequestContext) : decideRequest T P { v with hostAllowlist := l } req = decideRequest T P v req := by
  unfold decideRequest
  simp only [hsame]
  rfl

/-- **What a binding fixes**: where a credential can go, but for hosts listed in capitals. -/
theorem binding_fixes_destination (T : CaseTables) (P : UrlParser) (sha256 : Text → Text) (v p : RecipeVersion)
    (b b' : PortalBinding) (hv : Accepted T P v) (hp : Accepted T P p) (hsha : CollisionFree sha256 v p)
    (h : bindingOf P sha256 v = some b) (h' : bindingOf P sha256 p = some b') (hsame : sameBinding b b' = true) :
    (DestinationsAlike T P v p ↔ FoldedAlike P v p) ∧
    (∀ l : List Text, l.all isHost = true → (∀ host, host ∈ l.map lowerHost ↔ host ∈ v.hostAllowlist.map lowerHost) →
      bindingOf P sha256 { v with hostAllowlist := l } = some b) ∧
    ∀ l : List Text, (∀ host, host ∈ l ↔ host ∈ v.hostAllowlist) →
      ∀ req, decideRequest T P { v with hostAllowlist := l } req = decideRequest T P v req := by
  refine ⟨?_, fun l hl hfold => (bindingOf_same_hosts hv.hosts.1 hv.hosts.2 hl hfold).trans h,
    fun l hset req => decideRequest_same_hosts hset req⟩
  have hlower := same_lowerHosts hsha h h' hsame
  have hsame' : sameBinding b' b = true := by
    obtain ⟨h1, h2, h3⟩ := sameBinding_iff.1 hsame
    exact sameBinding_iff.2 ⟨h1.symm, h2.symm, h3.symm⟩
  constructor
  · rintro hdest host hhost ⟨s, u, hparsed, hweb, hprinted⟩
    have hverdict := hdest.hosts ⟨"GET".toList, s, none, some ⟨.sign_in, [], none⟩⟩ ⟨_, rfl, .inl rfl⟩
    rw [hostRefused_iff, hostRefused_iff] at hverdict
    have hone : ∀ r : RecipeVersion, (∃ url, P.parse s = some url ∧ url.Web ∧ url.host ∉ r.hostAllowlist) ↔
        lowerHost host ∉ r.hostAllowlist := by
      intro r
      constructor
      · rintro ⟨url, hurl, -, hnot⟩
        cases hparsed.symm.trans hurl
        exact hprinted ▸ hnot
      · exact fun hnot => ⟨u, hparsed, hweb, hprinted ▸ hnot⟩
    rw [hone v, hone p] at hverdict
    exact not_iff_not.1 hverdict
  · intro hfolded
    have hhosts : ∀ s u, P.parse s = some u → u.Web → (u.host ∈ v.hostAllowlist ↔ u.host ∈ p.hostAllowlist) := by
      intro s u hparsed hweb
      have hself : lowerHost u.host = u.host := P.host_lower s u hparsed hweb
      have hof : ∀ host ∈ v.hostAllowlist, lowerHost host = u.host →
          (u.host ∈ v.hostAllowlist ↔ u.host ∈ p.hostAllowlist) := by
        rintro host hhost hlow
        have := hfolded host hhost ⟨s, u, hparsed, hweb, hlow.symm⟩
        rwa [hlow] at this
      constructor
      · exact fun hin => (hof u.host hin hself).1 hin
      · intro hin
        obtain ⟨host, hhost, hlow⟩ := List.mem_map.1 ((hlower u.host).2 (List.mem_map.2 ⟨u.host, hin, hself⟩))
        exact (hof host hhost hlow).2 hin
    refine ⟨fun req _ => ?_, fun req step url hposted hrule => ?_, fun req step url hposted hrule => ?_⟩
    · rw [hostRefused_iff, hostRefused_iff]
      refine exists_congr fun url => and_congr_right fun hparsed => and_congr_right fun hweb => ?_
      exact not_congr (hhosts _ url hparsed hweb)
    · obtain ⟨hposted', hrule'⟩ := signIn_transfers hv hp h h' hsame hposted hrule
      exact posted_allow hposted' hrule' hposted.writes
    · obtain ⟨hposted', hrule'⟩ := signIn_transfers hp hv h' h hsame' hposted hrule
      exact posted_allow hposted' hrule' hposted.writes

end

/-! ## A host in capitals -/

/-- The SHA-256 of the two hosts of the recipes below. -/
def hostsDigest (_ : Text) : Text := "dc6e0f1ba8e92ee284653bcd4ec4d0d8804cc20ceb5df9dcf5de243ac615d2a6".toList

def inSmallLetters : RecipeVersion :=
  { hostAllowlist := ["portal.example".toList, "cdn.example".toList], neverClick := [], postAsRead := []
    signIn := ⟨"https://portal.example".toList, ["/login".toList], [], []⟩, steps := [.sign_in] }

def inCapitals : RecipeVersion :=
  { inSmallLetters with hostAllowlist := ["portal.example".toList, "CDN.example".toList] }

def exampleBinding : PortalBinding := ⟨"https://portal.example".toList, ["/login".toList], hostsDigest []⟩

theorem inSmallLetters_accepted : Accepted asciiCase plainUrls inSmallLetters where
  hosts := by decide
  signInPaths := by decide
  neverClick := by decide
  postAsRead := by decide
  steps := ⟨List.cons_ne_nil _ _, by decide⟩
  signInHost := ⟨"portal.example".toList, by decide, by decide⟩
  names := by decide
  dismissals := by decide

theorem inCapitals_accepted : Accepted asciiCase plainUrls inCapitals where
  hosts := by decide
  signInPaths := by decide
  neverClick := by decide
  postAsRead := by decide
  steps := ⟨List.cons_ne_nil _ _, by decide⟩
  signInHost := ⟨"portal.example".toList, by decide, by decide⟩
  names := by decide
  dismissals := by decide

theorem capitals_same_binding : DestinationsAlike asciiCase plainUrls inSmallLetters inCapitals ↔
    FoldedAlike plainUrls inSmallLetters inCapitals :=
  (binding_fixes_destination asciiCase plainUrls hostsDigest inSmallLetters inCapitals exampleBinding exampleBinding
    inSmallLetters_accepted inCapitals_accepted (fun _ => by decide) (by decide) (by decide)
    (by decide)).1

/-- Two versions with one binding, and a host that the guard admits under one of them only. -/
theorem listed_in_capitals : Accepted asciiCase plainUrls inSmallLetters ∧ Accepted asciiCase plainUrls inCapitals ∧
    bindingOf plainUrls hostsDigest inSmallLetters = some exampleBinding ∧
    bindingOf plainUrls hostsDigest inCapitals = some exampleBinding ∧
    ¬ DestinationsAlike asciiCase plainUrls inSmallLetters inCapitals := by
  refine ⟨inSmallLetters_accepted, inCapitals_accepted, by decide, by decide, fun h => ?_⟩
  have hverdict := h.hosts ⟨"GET".toList, "https://cdn.example/".toList, none, some ⟨.sign_in, "sign_in".toList, none⟩⟩
    ⟨_, rfl, .inl rfl⟩
  revert hverdict
  unfold HostRefused
  decide

end Recouple.Portal
