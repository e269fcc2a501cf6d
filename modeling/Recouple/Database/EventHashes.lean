import Recouple.Lib.HashChain
import Recouple.Lib.Text

/-!
# What a row hash covers

`app.canonical` and `app.row_hash` (0001_roles_extensions_helpers.sql:40), and the two triggers of
0004_append_only.sql that chain rows with them: `app.chain_deduction_event` (:102), one chain for each
case, and `app.chain_audit_log` (:118), one for each organisation.

The hash of an event covers its payload and the hash before it. `same_end_iff` says for any two
histories of a case what an equal last hash leaves open: they have the same payloads in the same order,
whatever the event types, times and authors say, or the first payload of one reads as a digest of the
other followed by a later payload.
-/

namespace Recouple.Database

open Js HashChain

abbrev Bytes := List UInt8

/-- A uuid, as its text. -/
abbrev Uuid := Text

/-- An argument of `jsonb_build_object`. -/
inductive SqlArg (J : Type)
  | null
  | text (t : Text)
  | jsonb (j : J)

/-- What the triggers call and the database supplies. `J` is the type `jsonb`. -/
structure Postgres (J : Type) where
  /-- `payload::text` -/
  jsonbText : J → Text
  /-- `jsonb_build_object` -/
  jsonbBuildObject : List (Text × SqlArg J) → J
  /-- pgcrypto's `digest(_, 'sha256')` -/
  digest : Bytes → Bytes
  /-- `hashtextextended(_, 0)` -/
  hashtextextended : Text → Int

/-- `convert_to(text, 'UTF8')` -/
def convertTo (t : Text) : Bytes := (utf8 t).data.toList

theorem convertTo_injective : Function.Injective convertTo := fun s t h => by
  apply utf8_injective
  have : (utf8 s).data = (utf8 t).data := Array.toList_inj.1 h
  cases hs : utf8 s
  cases ht : utf8 t
  simp_all

variable {J : Type} (pg : Postgres J)

/-- `app.canonical` -/
def canonical (payload : J) : Text := pg.jsonbText payload

/-- `app.row_hash` -/
def rowHash (prev : Option Bytes) (payload : J) : Bytes :=
  pg.digest (prev.getD [] ++ convertTo (canonical pg payload))

/-! ## The triggers -/

/-- What a reader of a case's history reads of a row of `deduction_events`. -/
structure Event (J : Type) where
  eventType : Text
  payload : J
  eventTime : Int
  createdBy : Option Uuid
  deriving DecidableEq

/-- A row of `deduction_events` as it is inserted. -/
structure DeductionEvent (J : Type) extends Event J where
  orgId : Uuid
  deductionId : Uuid
  deriving DecidableEq

/-- A row of `audit_log` as it is inserted. -/
structure AuditEntry (J : Type) where
  orgId : Uuid
  actorId : Option Uuid
  action : Text
  subjectTable : Text
  subjectId : Option Text
  payload : J
  deriving DecidableEq

/-- What one chaining trigger has of its own: which rows it chains together, the advisory lock it takes
for them, and the document it hashes for a row. -/
structure ChainTrigger (J New Key : Type) where
  key : New → Key
  lock : Key → Int
  document : New → J

/-- `app.chain_deduction_event` -/
def chainDeductionEvent : ChainTrigger J (DeductionEvent J) (Uuid × Uuid) where
  key new := (new.orgId, new.deductionId)
  lock k := pg.hashtextextended (k.1 ++ ':' :: k.2)
  document new := new.payload

def orNull (t : Option Text) : SqlArg J := t.elim .null .text

/-- `app.chain_audit_log` -/
def chainAuditLog : ChainTrigger J (AuditEntry J) Uuid where
  key new := new.orgId
  lock k := pg.hashtextextended ("audit:".toList ++ k)
  document new := pg.jsonbBuildObject
    [("action".toList, .text new.action), ("actor_id".toList, orNull new.actorId),
      ("subject_table".toList, .text new.subjectTable), ("subject_id".toList, orNull new.subjectId),
      ("payload".toList, .jsonb new.payload)]

/-! ## The end of a history -/

/-- The bytes of a payload that are hashed. -/
def block (payload : J) : Bytes := convertTo (canonical pg payload)

/-- The payloads of a history, as they are hashed. -/
def blocks (history : List (Event J)) : List Bytes := history.map fun e => block pg e.payload

/-- The `row_hash` of the last event of a history. -/
def lastHash (history : List (Event J)) : Option Bytes :=
  history.foldl (fun prev e => some (rowHash pg prev e.payload)) none

theorem rowHash_eq (prev : Option Bytes) (payload : J) :
    rowHash pg prev payload = pg.digest (input prev (block pg payload)) := rfl

theorem lastHash_eq (history : List (Event J)) : lastHash pg history = chainEnd pg.digest (blocks pg history) := by
  simp only [lastHash, chainEnd, blocks, List.foldl_map, rowHash_eq]

theorem block_injective (htext : Function.Injective pg.jsonbText) : Function.Injective (block pg) :=
  convertTo_injective.comp htext

theorem blocks_eq_iff (htext : Function.Injective pg.jsonbText) {h h' : List (Event J)} :
    blocks pg h = blocks pg h' ↔ h.map Event.payload = h'.map Event.payload := by
  have hb : ∀ l : List (Event J), blocks pg l = (l.map Event.payload).map (block pg) := fun l => by
    simp [blocks]
  rw [hb, hb]
  exact (List.map_injective_iff.2 (block_injective pg htext)).eq_iff

/-- Nothing two histories hash collides. -/
def NoCollision (h h' : List (Event J)) : Prop :=
  CollisionFree pg.digest (inputs pg.digest (blocks pg h) ++ inputs pg.digest (blocks pg h'))

instance (h h' : List (Event J)) : Decidable (NoCollision pg h h') :=
  inferInstanceAs (Decidable (CollisionFree pg.digest _))

/-- The first payload of `h` reads as the digest before a later payload of `h'`, followed by it, and the
payloads after the two are the same. -/
def Reframes (h h' : List (Event J)) : Prop := Recombines pg.digest (blocks pg h) (blocks pg h')

/-- **Two histories end in one hash exactly when they have the same payloads in the same order, or the
first payload of one reads as part of the other.** -/
theorem same_end_iff (hlen : FixedLength pg.digest) (htext : Function.Injective pg.jsonbText)
    {h h' : List (Event J)} (hfree : NoCollision pg h h') :
    lastHash pg h = lastHash pg h' ↔
      h.map Event.payload = h'.map Event.payload ∨ Reframes pg h h' ∨ Reframes pg h' h := by
  rw [lastHash_eq, lastHash_eq, chainEnd_eq_iff pg.digest hlen hfree, blocks_eq_iff pg htext]
  rfl

/-- An equal last hash means equal histories. -/
def TamperEvident (h h' : List (Event J)) : Prop := lastHash pg h = lastHash pg h' → h = h'

theorem not_reframes {h h' : List (Event J)} (hle : h'.length ≤ h.length) : ¬ Reframes pg h h' := fun hr => by
  have := hr.length_lt
  simp only [blocks, List.length_map] at this
  omega

/-- **The last hash tells two histories apart exactly when their payloads already do.** -/
theorem tamper_evident_iff (hlen : FixedLength pg.digest) (htext : Function.Injective pg.jsonbText)
    (h h' : List (Event J)) (hfree : NoCollision pg h h') :
    TamperEvident pg h h' ↔
      (h.map Event.payload = h'.map Event.payload → h = h') ∧ ¬ Reframes pg h h' ∧ ¬ Reframes pg h' h := by
  have hend := same_end_iff pg hlen htext hfree
  constructor
  · intro ht
    refine ⟨fun hp => ht (hend.2 (.inl hp)), fun hr => ?_, fun hr => ?_⟩
    · obtain rfl := ht (hend.2 (.inr (.inl hr)))
      exact not_reframes pg le_rfl hr
    · obtain rfl := ht (hend.2 (.inr (.inr hr)))
      exact not_reframes pg le_rfl hr
  · rintro ⟨hp, hr, hr'⟩ he
    rcases hend.1 he with h1 | h1 | h1
    · exact hp h1
    · exact absurd h1 hr
    · exact absurd h1 hr'

/-! ## A database to run -/

/-- Payloads as their text, and the last 32 bytes of an input for its digest. -/
def textDatabase : Postgres Text where
  jsonbText := fun t => t
  jsonbBuildObject args := args.flatMap fun (name, arg) =>
    name ++ match arg with
      | .null => "null".toList
      | .text t => t
      | .jsonb t => t
  digest bytes := (List.replicate 32 0 ++ bytes).drop bytes.length
  hashtextextended t := t.length

theorem textDatabase_fixedLength : FixedLength textDatabase.digest := fun x y => by
  simp only [textDatabase, List.length_drop, List.length_append, List.length_replicate]
  omega

theorem textDatabase_injective : Function.Injective textDatabase.jsonbText := fun _ _ h => h

def discovered : Event Text :=
  { eventType := "case.discovered".toList, payload := "\x7b\x7d".toList, eventTime := 1,
    createdBy := some "u1".toList }

def writtenOff : Event Text :=
  { eventType := "case.written_off".toList, payload := "\x7b\x7d".toList, eventTime := 2, createdBy := none }

def classified : Event Text :=
  { eventType := "case.classified".toList, payload := "\x7b\"n\": 1\x7d".toList, eventTime := 3,
    createdBy := none }

/-- An event's type, its time and its author are outside its hash. -/
theorem event_type_not_hashed : NoCollision textDatabase [discovered] [writtenOff] ∧
    ¬ TamperEvident textDatabase [discovered] [writtenOff] :=
  ⟨by decide +kernel, fun h => absurd (h (by decide +kernel)) (by decide +kernel)⟩

theorem reordering_evident : TamperEvident textDatabase [discovered, classified] [classified, discovered] :=
  (tamper_evident_iff textDatabase textDatabase_fixedLength textDatabase_injective _ _
      (by decide +kernel)).2
    ⟨fun h => absurd h (by decide +kernel), not_reframes textDatabase (by simp),
      not_reframes textDatabase (by simp)⟩

end Recouple.Database
