import Recouple.Lib.Utf16

/-!
# What a sealed credential is bound to: `packages/crypto/src/cipher.ts` (207-373)

| here | there |
| --- | --- |
| `kmsEncryptionContext` | 222-237 |
| `part`, `encryptionContextAad` | 250-274 |
| `pathsValue` | 281-283 |
| `assertContext`, `assertQboContext` | 285-305 |
| `assertPortalContext`, `checkPaths` | 322-361 |
| `isCanonicalOrigin` | 364-374 |

* **`contexts_never_collide`**: two accepted contexts have different encodings, but for two QuickBooks contexts whose
  ids become equal once each unpaired surrogate is read as U+FFFD, as UTF-8 does. The portal's checks refuse an id
  with an unpaired surrogate for that reason; `assertQboContext` lets it through.
* `lone_surrogates_one_aad`: two companies of one tenant share their AAD.

`new URL` is a parameter: what it reads is well formed, and so is the origin it prints. A context of another purpose is
no `TokenEncryptionContext`.
-/

namespace Recouple.Crypto
open Js Units

@[ext]
structure QboTokenEncryptionContext where
  orgId : Units
  realmId : Units
deriving DecidableEq

@[ext]
structure PortalCredentialEncryptionContext where
  orgId : Units
  connectionId : Units
  signInOrigin : Units
  signInPaths : List Units
  hostsHash : Units
deriving DecidableEq

inductive TokenEncryptionContext
  | qbo (context : QboTokenEncryptionContext)
  | portal (context : PortalCredentialEncryptionContext)
deriving DecidableEq

/-- The parts of a parsed `URL` that are read. -/
structure ParsedUrl where
  protocol : Text
  origin : Text

def PORTAL_PURPOSE : Text := "portal_credential".toList

def QBO_AAD_TAG : Text := "recouple-token-v1".toList

def PORTAL_AAD_TAG : Text := "recouple-portal-credential-v1".toList

/-! ## The checks -/

def assertQboContext (context : QboTokenEncryptionContext) : Except Text Unit :=
  if isBlank context.orgId then .error "a token encryption context needs an orgId".toList
  else if isBlank context.realmId then .error "a token encryption context needs a realmId".toList
  else .ok ()

/-- Lower-case hex SHA-256. -/
def isSha256Hex (s : Units) : Bool :=
  s.length = 64 && s.all fun u => (48 ≤ u.toNat && u.toNat ≤ 57) || (97 ≤ u.toNat && u.toNat ≤ 102)

/-- The loop over the sign-in paths, with the one it read last. -/
def checkPaths : Option Units → List Units → Except Text Unit
  | _, [] => .ok ()
  | previous, path :: paths =>
    if path.head? ≠ some 47 then
      .error "every sign-in path in a portal credential context starts with /".toList
    else if previous.any fun p => !decide (p < path) then
      .error "the sign-in paths in a portal credential context are sorted, with no duplicates".toList
    else checkPaths (some path) paths

section
variable (parseUrl : Text → Option ParsedUrl)

def isCanonicalOrigin (value : Units) : Bool :=
  (parseUrl (toWellFormed value)).any fun url =>
    (url.protocol = "https:".toList || url.protocol = "http:".toList) && ofText url.origin = value

def assertPortalContext (context : PortalCredentialEncryptionContext) : Except Text Unit :=
  if isBlank context.orgId || hasLone context.orgId then
    .error "a portal credential context needs an orgId".toList
  else if isBlank context.connectionId || hasLone context.connectionId then
    .error "a portal credential context needs a connectionId".toList
  else if !isCanonicalOrigin parseUrl context.signInOrigin then
    .error "a portal credential context needs its sign-in origin as URL.origin prints an http(s) origin".toList
  else if context.signInPaths = [] then
    .error "a portal credential context needs at least one sign-in path".toList
  else match checkPaths none context.signInPaths with
    | .error message => .error message
    | .ok () =>
      if !isSha256Hex context.hostsHash then
        .error "a portal credential context needs its hosts hash as lower-case hex SHA-256".toList
      else .ok ()

def assertContext : TokenEncryptionContext → Except Text Unit
  | .qbo context => assertQboContext context
  | .portal context => assertPortalContext parseUrl context

/-! ## The encodings -/

def pathsValue (paths : List Units) : Units := ofText (stringify paths)

/-- The context as KMS wants it, name by name. -/
def kmsEncryptionContext (context : TokenEncryptionContext) : Except Text (List (Text × Units)) := do
  assertContext parseUrl context
  match context with
  | .portal context => return [
      ("purpose".toList, ofText PORTAL_PURPOSE),
      ("org_id".toList, context.orgId),
      ("connection_id".toList, context.connectionId),
      ("sign_in_origin".toList, context.signInOrigin),
      ("sign_in_paths".toList, pathsValue context.signInPaths),
      ("hosts_hash".toList, context.hostsHash)]
  | .qbo context => return [("org_id".toList, context.orgId), ("realm_id".toList, context.realmId)]

/-- The two name the same strings. -/
def SameMap (m m' : List (Text × Units)) : Prop := ∀ name, m.lookup name = m'.lookup name

/-- A value behind its name and its length in bytes. -/
def part (name : Text) (value : Units) : Units :=
  ofText (name ++ ':' :: (decimal (byteLength value) ++ [':'])) ++ value

def bar : Units := ofText "|".toList

/-- The context as AES-GCM additional authenticated data. -/
def encryptionContextAad (context : TokenEncryptionContext) : Except Text ByteArray := do
  assertContext parseUrl context
  match context with
  | .portal context => return toUtf8 (bar.intercalate [
      ofText PORTAL_AAD_TAG,
      part "purpose".toList (ofText PORTAL_PURPOSE),
      part "org_id".toList context.orgId,
      part "connection_id".toList context.connectionId,
      part "sign_in_origin".toList context.signInOrigin,
      part "sign_in_paths".toList (pathsValue context.signInPaths),
      part "hosts_hash".toList context.hostsHash])
  | .qbo context => return toUtf8 (ofText QBO_AAD_TAG ++ bar ++ part "org_id".toList context.orgId ++ bar ++
      part "realm_id".toList context.realmId)

end

/-! ## Reading an encoding back -/

theorem toWellFormed_bar (s t : Units) : toWellFormed (s ++ (bar ++ t)) = toWellFormed s ++ '|' :: toWellFormed t :=
  toWellFormed_append_cons (u := 124) (by decide) t

theorem toWellFormed_part (name : Text) (value : Units) : toWellFormed (part name value) =
    name ++ ':' :: (decimal (utf8 (toWellFormed value)).size ++ ':' :: toWellFormed value) := by
  rw [part, toWellFormed_ofText_append, byteLength, toUtf8]
  simp

/-- A part can be told off the front of any text, its value as UTF-8 holds it. -/
theorem part_inj {name : Text} {a b : Units} {r s : Text}
    (h : toWellFormed (part name a) ++ r = toWellFormed (part name b) ++ s) :
    toWellFormed a = toWellFormed b ∧ r = s := by
  rw [toWellFormed_part, toWellFormed_part] at h
  simp only [List.append_assoc, List.cons_append, List.append_cancel_left_eq, List.cons.injEq, true_and] at h
  exact sized_inj h

/-- The parts behind their tag, as both encodings join them. -/
def joined (tag : Text) (parts : List (Text × Units)) : Units :=
  bar.intercalate (ofText tag :: parts.map fun p => part p.1 p.2)

def partsText (parts : List (Text × Units)) : Text := parts.flatMap fun p => '|' :: toWellFormed (part p.1 p.2)

theorem toWellFormed_joined (tag : Text) (parts : List (Text × Units)) :
    toWellFormed (joined tag parts) = tag ++ partsText parts := by
  have key : ∀ u : Units, toWellFormed (bar.intercalate (u :: parts.map fun p => part p.1 p.2)) =
      toWellFormed u ++ partsText parts := by
    induction parts with
    | nil => simp [partsText]
    | cons p parts ih =>
      intro u
      rw [List.map_cons, List.intercalate_cons_cons, List.append_assoc, toWellFormed_bar, ih]
      simp [partsText]
  rw [joined, key, toWellFormed_ofText]

theorem partsText_inj {ps qs : List (Text × Units)} (hnames : ps.map Prod.fst = qs.map Prod.fst)
    (h : partsText ps = partsText qs) : ps.map (toWellFormed ∘ Prod.snd) = qs.map (toWellFormed ∘ Prod.snd) := by
  induction ps generalizing qs with
  | nil =>
    rw [List.map_nil, eq_comm, List.map_eq_nil_iff] at hnames
    rw [hnames]
  | cons p ps ih =>
    obtain ⟨q, qs, rfl⟩ : ∃ q rest, qs = q :: rest := by
      cases qs with
      | nil => simp at hnames
      | cons q rest => exact ⟨q, rest, rfl⟩
    rw [List.map_cons, List.map_cons, List.cons.injEq] at hnames
    rw [partsText, partsText, List.flatMap_cons, List.flatMap_cons, List.cons_append, List.cons_append,
      List.cons.injEq, hnames.1] at h
    obtain ⟨hvalue, hrest⟩ := part_inj h.2
    rw [List.map_cons, List.map_cons, Function.comp_apply, Function.comp_apply, hvalue, ih hnames.2 hrest]

section
variable {parseUrl : Text → Option ParsedUrl}

/-- The parts of a context's AAD, in their order. -/
def QboTokenEncryptionContext.parts (c : QboTokenEncryptionContext) : List (Text × Units) :=
  [("org_id".toList, c.orgId), ("realm_id".toList, c.realmId)]

def PortalCredentialEncryptionContext.parts (c : PortalCredentialEncryptionContext) : List (Text × Units) :=
  [("purpose".toList, ofText PORTAL_PURPOSE), ("org_id".toList, c.orgId), ("connection_id".toList, c.connectionId),
   ("sign_in_origin".toList, c.signInOrigin), ("sign_in_paths".toList, pathsValue c.signInPaths),
   ("hosts_hash".toList, c.hostsHash)]

/-- The code points the AAD is the UTF-8 of. -/
def aadText : TokenEncryptionContext → Text
  | .qbo c => QBO_AAD_TAG ++ partsText c.parts
  | .portal c => PORTAL_AAD_TAG ++ partsText c.parts

def Accepted (parseUrl : Text → Option ParsedUrl) (c : TokenEncryptionContext) : Prop :=
  (assertContext parseUrl c).isOk

instance (c : TokenEncryptionContext) : Decidable (Accepted parseUrl c) :=
  inferInstanceAs (Decidable ((assertContext parseUrl c).isOk = true))

theorem Accepted.ok {c : TokenEncryptionContext} (hc : Accepted parseUrl c) : assertContext parseUrl c = .ok () := by
  unfold Accepted at hc
  cases h : assertContext parseUrl c with
  | error message => rw [h] at hc; cases hc
  | ok => rfl

theorem aad_eq {c : TokenEncryptionContext} (hc : Accepted parseUrl c) :
    encryptionContextAad parseUrl c = .ok (utf8 (aadText c)) := by
  have hassert : assertContext parseUrl c = .ok () := hc.ok
  unfold encryptionContextAad
  rw [hassert]
  cases c with
  | qbo q =>
    have h : ofText QBO_AAD_TAG ++ bar ++ part "org_id".toList q.orgId ++ bar ++ part "realm_id".toList q.realmId =
        joined QBO_AAD_TAG q.parts := by simp [joined, QboTokenEncryptionContext.parts, List.intercalate_cons_cons]
    show Except.ok (toUtf8 _) = _
    rw [h, toUtf8, toWellFormed_joined]
    rfl
  | portal p =>
    show Except.ok (toUtf8 (joined PORTAL_AAD_TAG p.parts)) = _
    rw [toUtf8, toWellFormed_joined]
    rfl

theorem aadText_qbo {q q' : QboTokenEncryptionContext} : aadText (.qbo q) = aadText (.qbo q') ↔
    toWellFormed q.orgId = toWellFormed q'.orgId ∧ toWellFormed q.realmId = toWellFormed q'.realmId := by
  constructor
  · intro h
    have hparts : QBO_AAD_TAG ++ partsText q.parts = QBO_AAD_TAG ++ partsText q'.parts := h
    have hnames : q.parts.map Prod.fst = q'.parts.map Prod.fst := rfl
    have hvalues := partsText_inj hnames (List.append_cancel_left hparts)
    simpa only [QboTokenEncryptionContext.parts, List.map_cons, List.map_nil, Function.comp_apply, List.cons.injEq,
      and_true] using hvalues
  · rintro ⟨horg, hrealm⟩
    simp [aadText, QboTokenEncryptionContext.parts, partsText, toWellFormed_part, horg, hrealm]

theorem aadText_apart (q : QboTokenEncryptionContext) (p : PortalCredentialEncryptionContext) :
    aadText (.qbo q) ≠ aadText (.portal p) := by
  intro h
  have hq : (aadText (.qbo q))[9]? = some 't' := rfl
  have hp : (aadText (.portal p))[9]? = some 'p' := rfl
  rw [h, hp] at hq
  exact absurd hq (by decide)

/-! ## A portal context -/

/-- What `assertPortalContext` checks of the strings. -/
structure PortalChecked (parseUrl : Text → Option ParsedUrl) (p : PortalCredentialEncryptionContext) : Prop where
  orgId : hasLone p.orgId = false
  connectionId : hasLone p.connectionId = false
  signInOrigin : ∃ origin, p.signInOrigin = ofText origin
  hostsHash : isSha256Hex p.hostsHash = true

theorem ofText_of_isCanonicalOrigin {value : Units} (h : isCanonicalOrigin parseUrl value = true) :
    ∃ origin, value = ofText origin := by
  unfold isCanonicalOrigin at h
  cases hurl : parseUrl (toWellFormed value) with
  | none => simp [hurl] at h
  | some url =>
    rw [hurl, Option.any_some, Bool.and_eq_true, decide_eq_true_eq] at h
    exact ⟨url.origin, h.2.symm⟩

theorem portalChecked {p : PortalCredentialEncryptionContext} (hp : Accepted parseUrl (.portal p)) :
    PortalChecked parseUrl p := by
  have h : assertPortalContext parseUrl p = .ok () := hp.ok
  unfold assertPortalContext at h
  split at h
  · cases h
  split at h
  · cases h
  split at h
  · cases h
  split at h
  · cases h
  split at h
  · cases h
  split at h
  · cases h
  next horg hconnection horigin _ _ _ hhash =>
    rw [Bool.or_eq_true, not_or, Bool.not_eq_true, Bool.not_eq_true] at horg hconnection
    rw [Bool.not_eq_true', Bool.not_eq_false] at horigin hhash
    exact ⟨horg.2, hconnection.2, ofText_of_isCanonicalOrigin horigin, hhash⟩

theorem hasLone_of_isSha256Hex {s : Units} (h : isSha256Hex s = true) : hasLone s = false := by
  apply hasLone_of_forall
  intro u hu
  have hhex := List.all_eq_true.1 (Bool.and_eq_true_iff.1 h).2 u hu
  simp at hhex
  simp [isSurrogate]
  omega

theorem aadText_portal {p p' : PortalCredentialEncryptionContext} (hp : PortalChecked parseUrl p)
    (hp' : PortalChecked parseUrl p') (h : aadText (.portal p) = aadText (.portal p')) : p = p' := by
  have hparts : PORTAL_AAD_TAG ++ partsText p.parts = PORTAL_AAD_TAG ++ partsText p'.parts := h
  have hnames : p.parts.map Prod.fst = p'.parts.map Prod.fst := rfl
  have hvalues := partsText_inj hnames (List.append_cancel_left hparts)
  simp only [PortalCredentialEncryptionContext.parts, List.map_cons, List.map_nil, Function.comp_apply,
    List.cons.injEq, and_true, true_and, pathsValue, toWellFormed_ofText] at hvalues
  obtain ⟨horg, hconnection, horigin, hpaths, hhash⟩ := hvalues
  obtain ⟨o, ho⟩ := hp.signInOrigin
  obtain ⟨o', ho'⟩ := hp'.signInOrigin
  rw [ho, ho', toWellFormed_ofText, toWellFormed_ofText] at horigin
  ext1
  · exact toWellFormed_inj hp.orgId hp'.orgId horg
  · exact toWellFormed_inj hp.connectionId hp'.connectionId hconnection
  · rw [ho, ho', horigin]
  · exact stringify_injective hpaths
  · exact toWellFormed_inj (hasLone_of_isSha256Hex hp.hostsHash) (hasLone_of_isSha256Hex hp'.hostsHash) hhash

/-! ## The KMS map -/

def kmsMap : TokenEncryptionContext → List (Text × Units)
  | .qbo q => q.parts
  | .portal p => p.parts

theorem kms_eq {c : TokenEncryptionContext} {m : List (Text × Units)}
    (hm : kmsEncryptionContext parseUrl c = .ok m) : m = kmsMap c := by
  unfold kmsEncryptionContext at hm
  cases hassert : assertContext parseUrl c with
  | error message => rw [hassert] at hm; cases hm
  | ok =>
    rw [hassert] at hm
    cases c <;> exact (Except.ok.inj hm).symm

theorem kmsMap_injective {c c' : TokenEncryptionContext} (h : SameMap (kmsMap c) (kmsMap c')) : c = c' := by
  cases c with
  | qbo q =>
    cases c' with
    | qbo q' =>
      congr 1
      ext1
      · exact Option.some.inj (h "org_id".toList)
      · exact Option.some.inj (h "realm_id".toList)
    | portal p =>
      have hnone : none = some (ofText PORTAL_PURPOSE) := h "purpose".toList
      cases hnone
  | portal p =>
    cases c' with
    | qbo q =>
      have hnone : some (ofText PORTAL_PURPOSE) = none := h "purpose".toList
      cases hnone
    | portal p' =>
      have hpaths : ofText (stringify p.signInPaths) = ofText (stringify p'.signInPaths) :=
        Option.some.inj (h "sign_in_paths".toList)
      congr 1
      ext1
      · exact Option.some.inj (h "org_id".toList)
      · exact Option.some.inj (h "connection_id".toList)
      · exact Option.some.inj (h "sign_in_origin".toList)
      · exact stringify_injective (ofText_injective hpaths)
      · exact Option.some.inj (h "hosts_hash".toList)

/-! ## Contexts apart -/

/-- Two contexts with one encoding are one context. -/
structure NeverCollide (parseUrl : Text → Option ParsedUrl) (c c' : TokenEncryptionContext) : Prop where
  aad : encryptionContextAad parseUrl c = encryptionContextAad parseUrl c' → c = c'
  kms : ∀ m m', kmsEncryptionContext parseUrl c = .ok m → kmsEncryptionContext parseUrl c' = .ok m' → SameMap m m' →
    c = c'
  purposes : ∀ q p, c = .qbo q ∧ c' = .portal p ∨ c = .portal p ∧ c' = .qbo q →
    encryptionContextAad parseUrl c ≠ encryptionContextAad parseUrl c'

/-- Two QuickBooks contexts that UTF-8 makes one of, for their unpaired surrogates. -/
def LoneTwins : TokenEncryptionContext → TokenEncryptionContext → Prop
  | .qbo q, .qbo q' => q ≠ q' ∧ toWellFormed q.orgId = toWellFormed q'.orgId ∧
      toWellFormed q.realmId = toWellFormed q'.realmId
  | _, _ => False

theorem aad_eq_iff {c c' : TokenEncryptionContext} (hc : Accepted parseUrl c) (hc' : Accepted parseUrl c') :
    encryptionContextAad parseUrl c = encryptionContextAad parseUrl c' ↔ c = c' ∨ LoneTwins c c' := by
  rw [aad_eq hc, aad_eq hc', Except.ok.injEq, utf8_injective.eq_iff]
  constructor
  · intro h
    cases c with
    | qbo q =>
      cases c' with
      | qbo q' =>
        by_cases hq : q = q'
        · exact .inl (by rw [hq])
        · exact .inr ⟨hq, aadText_qbo.1 h⟩
      | portal p => exact absurd h (aadText_apart q p)
    | portal p =>
      cases c' with
      | qbo q => exact absurd h.symm (aadText_apart q p)
      | portal p' => exact .inl (by rw [aadText_portal (portalChecked hc) (portalChecked hc') h])
  · rintro (rfl | h)
    · rfl
    · cases c with
      | qbo q =>
        cases c' with
        | qbo q' => exact aadText_qbo.2 h.2
        | portal p => exact h.elim
      | portal p => exact h.elim

/-- Two accepted contexts have different encodings, but for QuickBooks twins. -/
theorem contexts_never_collide {c c' : TokenEncryptionContext} (hc : Accepted parseUrl c)
    (hc' : Accepted parseUrl c') : NeverCollide parseUrl c c' ↔ ¬ LoneTwins c c' := by
  constructor
  · intro h htwins
    obtain rfl : c = c' := h.aad ((aad_eq_iff hc hc').2 (.inr htwins))
    cases c with
    | qbo q => exact htwins.1 rfl
    | portal p => exact htwins
  · intro hnot
    have haad : encryptionContextAad parseUrl c = encryptionContextAad parseUrl c' → c = c' := fun h =>
      ((aad_eq_iff hc hc').1 h).resolve_right hnot
    refine ⟨haad, fun m m' hm hm' h => kmsMap_injective (kms_eq hm ▸ kms_eq hm' ▸ h), ?_⟩
    rintro q p (⟨rfl, rfl⟩ | ⟨rfl, rfl⟩) h
    · cases haad h
    · cases haad h

end

/-! ## Two companies with one AAD -/

def company (realmId : Units) : TokenEncryptionContext := .qbo ⟨ofText "org-1".toList, realmId⟩

/-- A tenant's portal credential. -/
def carrierLogin : TokenEncryptionContext := .portal
  { orgId := ofText "org-1".toList, connectionId := ofText "conn-1".toList,
    signInOrigin := ofText "https://portal.example".toList, signInPaths := [ofText "/login".toList],
    hostsHash := List.replicate 64 97 }

def printed (text : Text) : Option ParsedUrl :=
  if text = "https://portal.example".toList then some ⟨"https:".toList, text⟩ else none

theorem carrier_apart_from_company : NeverCollide printed carrierLogin (company (ofText "9130".toList)) :=
  (contexts_never_collide (by decide) (by decide)).2 id

/-- Two realm ids that differ in an unpaired surrogate are accepted, and a token set sealed for the one has the AAD of
the other. -/
theorem lone_surrogates_one_aad : ¬ ∀ parseUrl c c', Accepted parseUrl c → Accepted parseUrl c' →
    NeverCollide parseUrl c c' := by
  intro h
  have hc : Accepted printed (company [57, 0xD800]) := by decide
  have hc' : Accepted printed (company [57, 0xD801]) := by decide
  have htwins : LoneTwins (company [57, 0xD800]) (company [57, 0xD801]) :=
    ⟨by decide, by decide, by decide⟩
  exact absurd ((h printed _ _ hc hc').aad ((aad_eq_iff hc hc').2 (.inr htwins))) (by decide)

end Recouple.Crypto
