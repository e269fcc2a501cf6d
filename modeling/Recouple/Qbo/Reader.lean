import Recouple.Core.PrintedMoney
import Recouple.Lib.Double
import Recouple.Lib.Tree

/-!
# Reading QuickBooks JSON: `packages/qbo/src/reader.ts`, `ids.ts`, `money.ts` (22-71), `errors.ts` (83-97)

Every accessor names the path it was reading when it gave up. A reader here throws `QboMalformedResponse`,
or lets the `MoneyError` of a sum through.
-/

namespace Recouple.Qbo
open Js

abbrev JsonObject := List (Text × Value)

/-- `QboMalformedResponse`. -/
structure QboMalformedResponse where
  message : Text
  fieldPath : Text
deriving DecidableEq

/-- What a reader of rows throws. -/
inductive Thrown
  | malformed (e : QboMalformedResponse)
  | money (e : MoneyError)
deriving DecidableEq

/-- `describe`: a value that is not there is `undefined`. -/
def describe : Option Value → Text
  | none => "undefined".toList
  | some v =>
    let text := compact v
    if utf16Length text > 80 then sliceTo 77 text ++ "...".toList else text

/-! ## Ids -/

/-- `^\d{1,20}$` -/
def isQboId (value : Text) : Bool := value.all Char.isDigit && decide (1 ≤ value.length ∧ value.length ≤ 20)

/-- `assertQboId`: its `QboInvalidId` is one of the errors its caller throws. -/
def assertQboId {ε : Type} (invalidId : Text → ε) (value : Text) : Except ε Text :=
  if isQboId value then .ok value
  else .error (invalidId ("a QuickBooks id must be decimal digits, got ".toList ++ describe (some (.str value))))

@[simp] theorem assertQboId_ok {ε : Type} {invalidId : Text → ε} {value id : Text} :
    assertQboId invalidId value = .ok id ↔ isQboId value = true ∧ id = value := by
  unfold assertQboId
  by_cases h : isQboId value = true
  · rw [if_pos h]
    exact ⟨fun he => ⟨h, (Except.ok.inj he).symm⟩, fun he => congrArg _ he.2.symm⟩
  · rw [if_neg h]
    refine ⟨fun he => ?_, fun he => absurd he.1 h⟩
    cases he

/-! ## Accessors -/

/-- `new QboMalformedResponse(message, fieldPath)`, thrown. -/
def malformed {α : Type} (message fieldPath : Text) : Except Thrown α := .error (.malformed ⟨message, fieldPath⟩)

/-- `expected … at …, got …`. -/
def unexpected {α : Type} (expected : Text) (path : Text) (got : Option Value) : Except Thrown α :=
  malformed ("expected ".toList ++ expected ++ " at ".toList ++ path ++ ", got ".toList ++ describe got) path

/-- `${path}.${key}` -/
def member (path : Text) (key : String) : Text := path ++ '.' :: key.toList

/-- `${path}[${index}]` -/
def element (path : Text) (index : Nat) : Text := path ++ '[' :: decimal index ++ [']']

/-- `row[key]` -/
def field (row : JsonObject) (key : String) : Option Value := JsonTree.get row key.toList

/-- `readObject`. -/
def readObject (value : Option Value) (path : Text) : Except Thrown JsonObject :=
  match value with
  | some (.obj fields) => .ok fields
  | _ => unexpected "an object".toList path value

/-- `readArray`: an absent key reads as an empty list. -/
def readArray (value : Option Value) (path : Text) : Except Thrown (List Value) :=
  match value with
  | none => .ok []
  | some (.arr items) => .ok items
  | _ => unexpected "an array".toList path value

/-- `readString`. -/
def readString (source : JsonObject) (key : String) (path : Text) : Except Thrown Text :=
  match field source key with
  | some (.str t) =>
    if trim t = [] then unexpected "a non-empty string".toList (member path key) (some (.str t)) else .ok t
  | value => unexpected "a non-empty string".toList (member path key) value

section
variable (T : CaseTables)

/-- `qboAmountToCents`. -/
def qboAmountToCents (value : Option Value) (fieldPath : Text) : Except Thrown Cents :=
  match value with
  | some (.num x) =>
    let asText := toFixed2 x
    if numberFrom asText ≠ some x then
      malformed ("amount at ".toList ++ fieldPath ++ " does not round-trip at two decimal places: ".toList ++
        numberToString x ++ " formats as ".toList ++ quote asText ++ ", which is a different number".toList) fieldPath
    else
      match parseMoneyToCents T asText with
      | .ok amount => .ok amount
      | .error e =>
        malformed ("amount at ".toList ++ fieldPath ++ " is not an amount we can hold exactly: ".toList ++ e.message)
          fieldPath
  | _ => unexpected "a finite JSON number".toList fieldPath value

variable {T}

theorem qboAmountToCents_ok {value : Option Value} {path : Text} {amount : Cents} :
    qboAmountToCents T value path = .ok amount ↔ ∃ x, value = some (.num x) ∧ numberFrom (toFixed2 x) = some x ∧
      parseMoneyToCents T (toFixed2 x) = .ok amount := by
  unfold qboAmountToCents
  split
  · rename_i x
    dsimp only
    split_ifs with h
    · simp [malformed, h]
    · rw [not_not] at h
      cases hp : parseMoneyToCents T (toFixed2 x) with
      | ok a => simp [h, hp]
      | error e => simp [malformed, hp]
  · rename_i hnum
    constructor
    · intro h
      cases h
    · rintro ⟨x, rfl, -⟩
      exact absurd rfl (hnum x)

end

theorem readObject_ok {value : Option Value} {path : Text} {o : JsonObject} :
    readObject value path = .ok o ↔ value = some (.obj o) := by
  unfold readObject
  split
  · simp
  · rename_i hobj
    constructor
    · intro h
      cases h
    · rintro rfl
      exact absurd rfl (hobj o)

theorem readArray_ok {value : Option Value} {path : Text} {items : List Value} :
    readArray value path = .ok items ↔ value = none ∧ items = [] ∨ value = some (.arr items) := by
  unfold readArray
  split
  · simp [eq_comm]
  · simp
  · rename_i hnone harr
    constructor
    · intro h
      cases h
    · rintro (⟨rfl, -⟩ | rfl)
      · exact absurd rfl hnone
      · exact absurd rfl (harr items)

theorem readString_ok {source : JsonObject} {key : String} {path t : Text} :
    readString source key path = .ok t ↔ field source key = some (.str t) ∧ trim t ≠ [] := by
  unfold readString
  split
  · rename_i u hu
    rw [hu]
    split_ifs with h
    · constructor
      · intro h
        cases h
      · rintro ⟨hut, ht⟩
        cases hut
        exact absurd h ht
    · constructor
      · intro h'
        cases h'
        exact ⟨rfl, h⟩
      · rintro ⟨hut, -⟩
        cases hut
        rfl
  · rename_i hstr
    constructor
    · intro h
      cases h
    · rintro ⟨ht, -⟩
      exact absurd ht (hstr t)

example : (roundDouble (-4999 / 100)).map (fun x => (qboAmountToCents asciiCase (some (.num x)) []).toOption.map
    (·.val)) = some (some (-4999)) := by decide +kernel

end Recouple.Qbo
