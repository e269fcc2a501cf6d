import Recouple.Lib.JsonText

/-!
# A portal recipe: `packages/portal/src/recipe.ts`

| here | there |
| --- | --- |
| `NEVER_CLICK_FLOOR`, `StepKind`, `RecipeStep` | 7-32 |
| `stepAccepted`, `RecipeStep.stepName` | 34-57 |
| `PostAsRead`, `postAsReadAccepted` | 59 |
| `allSteps`, `hostOf`, `RecipeVersion.issues`, `Accepted` | 61-90 |
| `effectiveNeverClick`, `matchesNeverClick` | 107-124 |

The fields that neither the guard, the binding nor the additions of a version read are left out (the portal's key, the
version, its dates, caps and provenance), so that what holds of every version accepted here holds of every version the
schema accepts. `UrlParser` is the platform's `URL`, with what the URL standard says of the web addresses it prints.
-/

namespace Recouple.Portal
open Js

/-! ## Addresses -/

/-- The parts of a parsed `URL` that are read. -/
structure Url where
  protocol : Text
  host : Text
  origin : Text
  pathname : Text
  search : Text

def Url.Web (u : Url) : Prop := u.protocol = "http:".toList ∨ u.protocol = "https:".toList

instance (u : Url) : Decidable u.Web :=
  inferInstanceAs (Decidable (u.protocol = "http:".toList ∨ u.protocol = "https:".toList))

/-- `new URL(text)`. -/
structure UrlParser where
  parse : Text → Option Url
  /-- A web address prints its host in lower case. -/
  host_lower : ∀ s u, parse s = some u → u.Web → asciiCase.toLowerCase u.host = u.host
  /-- The origin of a web address is its scheme and its host. -/
  origin_web : ∀ s u, parse s = some u → u.Web → u.origin = u.protocol ++ "//".toList ++ u.host
  /-- No other address has a host and the origin of a web address. -/
  web_of_origin : ∀ s u s' u', parse s = some u → parse s' = some u' → u'.Web → u.origin = u'.origin → u.host ≠ [] →
    u.Web

/-! ## The recipe -/

def NEVER_CLICK_FLOOR : List Text :=
  ["dispute", "appeal", "submit", "upload", "attach", "approve", "accept", "agree", "delete", "remove", "save",
   "create", "request", "send", "pay", "confirm", "continue", "yes", "ok", "finish", "complete", "withdraw", "cancel",
   "enroll", "opt in", "subscribe", "register", "update", "edit", "reset", "resend", "authorize"].map String.toList

inductive StepKind
  | «open» | sign_in | answer_mfa | dismiss | follow | search | wait_for | expect | capture_page | download | for_each
  | next_page | sign_out
deriving DecidableEq

inductive RecipeStep
  | «open» (name url : Text)
  | sign_in
  | answer_mfa
  | sign_out
  | dismiss (name selector label containerText : Text)
  | follow (name label : Text)
  | search (name formSelector : Text) (fields : List (Text × Text)) (recordedMethod recordedAction : Text)
  | wait_for (name selector : Text)
  | expect (name : Text) (selector text : Option Text)
  | capture_page (name : Text)
  | download (name label : Text)
  | for_each (name rowSelector : Text) (maxRows : Nat) (steps : List RecipeStep)
  | next_page (name label : Text) (maxPages : Nat)

namespace RecipeStep

def kind : RecipeStep → StepKind
  | «open» _ _ => .open
  | sign_in => .sign_in
  | answer_mfa => .answer_mfa
  | sign_out => .sign_out
  | dismiss _ _ _ _ => .dismiss
  | follow _ _ => .follow
  | search _ _ _ _ _ => .search
  | wait_for _ _ => .wait_for
  | expect _ _ _ => .expect
  | capture_page _ => .capture_page
  | download _ _ => .download
  | for_each _ _ _ _ => .for_each
  | next_page _ _ _ => .next_page

/-- A step's name; the three argument-free steps are named by their kind. -/
def stepName : RecipeStep → Text
  | sign_in => "sign_in".toList
  | answer_mfa => "answer_mfa".toList
  | sign_out => "sign_out".toList
  | «open» name _ | dismiss name _ _ _ | follow name _ | search name _ _ _ _ | wait_for name _ | expect name _ _
  | capture_page name | download name _ | for_each name _ _ _ | next_page name _ _ => name

end RecipeStep

structure BodyDiscriminator where
  field : Text
  equals : Text
deriving DecidableEq

structure PostAsRead where
  step : Text
  path : Text
  bodyDiscriminator : Option BodyDiscriminator
deriving DecidableEq

structure SignIn where
  origin : Text
  formPaths : List Text
  mfaPaths : List Text
  acsPaths : List Text

/-- The paths of the sign-in, of every kind. -/
def SignIn.paths (signIn : SignIn) : List Text := signIn.formPaths ++ signIn.mfaPaths ++ signIn.acsPaths

structure RecipeVersion where
  hostAllowlist : List Text
  signIn : SignIn
  neverClick : List Text
  postAsRead : List PostAsRead
  steps : List RecipeStep

mutual
/-- The steps of a list, those inside `for_each` included. -/
def allSteps : List RecipeStep → List RecipeStep
  | [] => []
  | s :: rest => stepAndInner s ++ allSteps rest

def stepAndInner : RecipeStep → List RecipeStep
  | .for_each name rowSelector maxRows steps => .for_each name rowSelector maxRows steps :: allSteps steps
  | s => [s]
end

/-! ## Never clicked -/

def isAlphaNumeric (c : Char) : Bool := ('a' ≤ c && c ≤ 'z') || ('0' ≤ c && c ≤ '9')

/-- Whether `word` stands in the text with neither a letter nor a digit beside it, `before` to its left. -/
def standsIn (word : Text) : Option Char → Text → Bool
  | before, [] => word = [] && !before.any isAlphaNumeric
  | before, c :: rest =>
    (!before.any isAlphaNumeric && word.isPrefixOf (c :: rest) && !((c :: rest).drop word.length).head?.any isAlphaNumeric) ||
      standsIn word (some c) rest

section
variable (T : CaseTables)

/-- Word-boundary, case-insensitive: "Submit dispute" → true, "Deductions" → false. -/
def matchesNeverClick (label : Text) (list : List Text) : Bool :=
  let text := collapse (T.toLowerCase label)
  list.any fun w => standsIn (collapse (trim (T.toLowerCase w))) none text

/-- The floor plus the recipe's additions, lower-cased. -/
def effectiveNeverClick (r : RecipeVersion) : List Text :=
  NEVER_CLICK_FLOOR ++ r.neverClick.map fun w => T.toLowerCase (trim w)

/-! ## What the schema accepts -/

variable (P : UrlParser)

def isUrl (text : Text) : Bool := (P.parse text).isSome

/-- `/^[a-z0-9.-]+(:\d+)?$/i` -/
def isHost (host : Text) : Bool :=
  let name := host.takeWhile fun c => c.isAlphanum || c = '.' || c = '-'
  let port := host.dropWhile fun c => c.isAlphanum || c = '.' || c = '-'
  name ≠ [] && (port = [] || (port.head? = some ':' && port.tail ≠ [] && port.tail.all Char.isDigit))

mutual
def stepAccepted : RecipeStep → Bool
  | .open name url => name ≠ [] && isUrl P url
  | .sign_in | .answer_mfa | .sign_out => true
  | .dismiss name selector label containerText => name ≠ [] && selector ≠ [] && label ≠ [] && containerText ≠ []
  | .follow name label => name ≠ [] && label ≠ []
  | .search name formSelector _ recordedMethod recordedAction =>
    name ≠ [] && formSelector ≠ [] && recordedMethod ≠ [] && isUrl P recordedAction
  | .wait_for name selector => name ≠ [] && selector ≠ []
  | .expect name selector text => name ≠ [] && (selector.isSome || text.isSome) && selector ≠ some [] && text ≠ some []
  | .capture_page name => name ≠ []
  | .download name label => name ≠ [] && label ≠ []
  | .for_each name rowSelector maxRows steps =>
    name ≠ [] && rowSelector ≠ [] && 0 < maxRows && steps.length ≠ 0 && stepsAccepted steps
  | .next_page name label maxPages => name ≠ [] && label ≠ [] && 0 < maxPages

def stepsAccepted : List RecipeStep → Bool
  | [] => true
  | s :: rest => stepAccepted s && stepsAccepted rest
end

def isPath (path : Text) : Bool := path.head? = some '/'

def postAsReadAccepted (p : PostAsRead) : Bool := isPath p.path

def hostOf (url : Text) : Option Text := (P.parse url).map (·.host)

/-- The step clicks a control that is never clicked. -/
def clicksNeverClick (r : RecipeVersion) : RecipeStep → Bool
  | .dismiss _ _ label _ => matchesNeverClick T label (effectiveNeverClick T r)
  | _ => false

/-- `RecipeVersionSchema` finds nothing to refuse. -/
structure Accepted (r : RecipeVersion) : Prop where
  hosts : r.hostAllowlist ≠ [] ∧ r.hostAllowlist.all isHost
  signInPaths : r.signIn.formPaths ≠ [] ∧ r.signIn.paths.all isPath
  neverClick : r.neverClick.all (· ≠ [])
  postAsRead : r.postAsRead.all postAsReadAccepted
  steps : r.steps ≠ [] ∧ stepsAccepted P r.steps
  signInHost : ∃ host, hostOf P r.signIn.origin = some host ∧ host ∈ r.hostAllowlist
  names : ((allSteps r.steps).map (·.stepName)).Nodup
  dismissals : (allSteps r.steps).all fun s => !clicksNeverClick T r s

end

end Recouple.Portal
