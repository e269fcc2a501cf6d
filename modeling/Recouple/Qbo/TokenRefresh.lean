import Recouple.Lib.Text
import Recouple.Lib.Threads

/-!
# The access token of a company: `packages/qbo/src/client.ts` (541-611), `tokens.ts`, `oauth.ts` (113-196)

| here | there |
| --- | --- |
| `Realm.rows`, `load`, `save` | `QboTokenStore`: a save is a row, and the latest row is loaded |
| `withRefreshLock` | the port's contract (`tokens.ts`, 33): one holder for each company, let go however its work ends |
| `accessToken`, `loadTokens`, `needsRefresh`, `refresh` | the methods of `QboClient` |
| `exchangeIntuitToken` | the request, and the answer Intuit gives or the caller loses |

Any number of callers run `accessToken` beside each other (`Lib/Threads`). Loads, locks and exchanges may fail; a
save does not. Intuit replaces the refresh token on every refresh, so the token of a rotated set is none that is
stored. `Date.parse` is a parameter, and every reading of the clock is the environment's.
-/

namespace Recouple.Qbo.TokenRefresh
open Js Thread

structure QboTokens where
  accessToken : Text
  refreshToken : Text
  accessExpiresAt : Text
  refreshExpiresAt : Text
deriving DecidableEq

def ACCESS_TOKEN_REFRESH_SKEW_MS : Int := 5 * 60000

inductive Failure
  /-- `QboAuthError`, and what it says of a dead grant. -/
  | auth (message : Text) (dead : Option Text)
  /-- The token store does not answer, or does not grant the lock. -/
  | store
  /-- What `exchangeIntuitToken` throws. -/
  | exchange
deriving DecidableEq

section
variable {ι : Type}

/-- What has happened at a company. -/
inductive Event (ι : Type)
  /-- The clock, as a caller read it to judge a token set's expiry. -/
  | judged (caller : ι) (tokens : QboTokens) (now : Int)
  | sent (caller : ι) (refreshToken : Text)
  /-- The exchange was carried out and answered. -/
  | exchanged (caller : ι) (refreshToken : Text) (rotated : QboTokens)
  /-- The exchange was carried out, and no usable answer reached the caller. -/
  | lost (caller : ι) (refreshToken : Text)
  /-- The exchange was not carried out. -/
  | refused (caller : ι) (refreshToken : Text)
  | saved (caller : ι) (tokens : QboTokens)

structure Realm (ι : Type) where
  /-- `accounting_credentials`, oldest first. -/
  rows : List QboTokens
  holder : Option ι
  log : List (Event ι)

abbrev Client (ι : Type) (α : Type) := Thread (Realm ι) Failure α

def Realm.note (s : Realm ι) (e : Event ι) : Realm ι := { s with log := s.log ++ [e] }

/-! ## The store, the lock, the clock and Intuit -/

def load : Client ι (Option QboTokens) :=
  attempt fun s r s' => s' = s ∧ (r = .ok s.rows.getLast? ∨ r = .error .store)

def save (caller : ι) (tokens : QboTokens) : Client ι Unit :=
  atomic fun s _ s' => s' = { s with rows := s.rows ++ [tokens], log := s.log ++ [.saved caller tokens] }

def acquire (caller : ι) : Client ι Unit :=
  attempt fun s r s' => r = .ok () ∧ s.holder = none ∧ s' = { s with holder := some caller } ∨
    r = .error .store ∧ s' = s

def release (caller : ι) : Client ι Unit :=
  atomic fun s _ s' => s.holder = some caller ∧ s' = { s with holder := none }

def withRefreshLock {α : Type} (caller : ι) (work : Client ι α) : Client ι α := do
  acquire caller
  ending work (release caller)

def now : Client ι Int := atomic fun s _ s' => s' = s

/-- `now`, with what it was read for. -/
def nowJudging (caller : ι) (tokens : QboTokens) : Client ι Int :=
  atomic fun s now s' => s' = s.note (.judged caller tokens now)

/-- Intuit's answer, and whether the exchange was carried out. -/
def answer (caller : ι) (refreshToken : Text) : Client ι QboTokens :=
  attempt fun s r s' =>
    (∃ rotated, r = .ok rotated ∧ (∀ tokens ∈ s.rows, tokens.refreshToken ≠ rotated.refreshToken) ∧
      s' = s.note (.exchanged caller refreshToken rotated)) ∨
    r = .error .exchange ∧ (s' = s.note (.lost caller refreshToken) ∨ s' = s.note (.refused caller refreshToken))

def exchangeIntuitToken (caller : ι) (refreshToken : Text) : Client ι QboTokens := do
  atomic fun s (_ : Unit) s' => s' = s.note (.sent caller refreshToken)
  answer caller refreshToken

/-! ## The client -/

section
variable (dateParse : Text → Option Int) (realmId : Text)

def loadTokens : Client ι QboTokens := do
  match ← load with
  | none =>
    throw (.auth ("no QuickBooks tokens are stored for realm ".toList ++ realmId ++
      ": the connection has not been authorised".toList) none)
  | some stored => pure stored

/-- Whether a set that expires then is too near it. -/
def tooNear (expiresAt now : Int) : Bool := expiresAt - now ≤ ACCESS_TOKEN_REFRESH_SKEW_MS

def needsRefresh (caller : ι) (tokens : QboTokens) : Client ι Bool :=
  match dateParse tokens.accessExpiresAt with
  | none => pure true
  | some expiresAt => do
    let now ← nowJudging caller tokens
    pure (tooNear expiresAt now)

/-- The expiry check of `refresh`. -/
def assertUnexpired (stored : QboTokens) : Client ι Unit :=
  match dateParse stored.refreshExpiresAt with
  | none => pure ()
  | some expiresAt => do
    if expiresAt ≤ (← now) then
      throw (.auth ("the QuickBooks refresh token for realm ".toList ++ realmId ++ " expired at ".toList ++
        stored.refreshExpiresAt ++ ": the customer has to reconnect".toList) (some "refresh_expired".toList))
    else pure ()

def refresh (caller : ι) (stored : QboTokens) : Client ι QboTokens := do
  assertUnexpired dateParse realmId stored
  let rotated ← exchangeIntuitToken caller stored.refreshToken
  save caller rotated
  pure rotated

/-- The work under the lock. -/
def refreshUnlessRotated (caller : ι) : Client ι Text := do
  let current ← loadTokens realmId
  if ← needsRefresh dateParse caller current then do
    let rotated ← refresh dateParse realmId caller current
    pure rotated.accessToken
  else pure current.accessToken

def accessToken (caller : ι) : Client ι Text := do
  let stored ← loadTokens realmId
  if ← needsRefresh dateParse caller stored then
    withRefreshLock caller (refreshUnlessRotated dateParse realmId caller)
  else pure stored.accessToken

/-- Callers of a company whose stored set is `stored`, before any of them does anything. -/
def start (stored : Option QboTokens) : Config ι (Realm ι) Failure Text where
  shared := ⟨stored.toList, none, []⟩
  threads := accessToken dateParse realmId

end

end

end Recouple.Qbo.TokenRefresh
