import Recouple.Pipeline.PortalJob

/-!
# The parts of an email: `packages/ingest/src/email.ts` (222-334)

| here | there |
| --- | --- |
| `InboundFilePart`, `InboundRefusedPart`, `InboundPartPlan` | 229-247 |
| `strictBase64` | 253-260 |
| `referencedInline` | 262-266 |
| `planAttachment`, `planAttachments`, `planParts` | 277-334 |
| `InboundPartKind`, `InboundPartOutcome` | `packages/pipeline/src/inbound-ports.ts` (17-46) |

A part is planned once and keeps its place: the ordinals of a plan count its parts (`planParts_ordinals`), and the
body, where there is one, is the last of them (`planParts_body`).
-/

namespace Recouple.InboundEmail
open Js
open PortalJob (RejectionCode)

inductive InboundPartKind | attachment | inline | body
deriving DecidableEq

/-- `rejected` is the refusal of the front door, with its code. -/
inductive InboundPartOutcome
  | stored | already_held | over_daily_budget | not_clean
  | inline_image | too_many_parts | not_base64
  | rejected (code : RejectionCode)
deriving DecidableEq

/-! ## What Postmark sends -/

/-- A field of the payload is read where it is a string, and stands here as `none` elsewhere. -/
structure PostmarkAttachment where
  Name : Option Text
  Content : Option Text
  ContentType : Option Text
  ContentID : Option Text

inductive PostmarkAttachments
  | absent
  | notAList
  | list (attachments : List PostmarkAttachment)

structure PostmarkInboundPayload where
  TextBody : Option Text
  HtmlBody : Option Text
  StrippedTextReply : Option Text
  Attachments : PostmarkAttachments

/-! ## Base64 -/

/-- `content.replace(/\r?\n/g, '')`. -/
def unwrapLines : Text → Text
  | '\r' :: '\n' :: rest => unwrapLines rest
  | '\n' :: rest => unwrapLines rest
  | c :: rest => c :: unwrapLines rest
  | [] => []

def sextet (c : Char) : Option Nat :=
  if 'A' ≤ c ∧ c ≤ 'Z' then some (c.toNat - 65)
  else if 'a' ≤ c ∧ c ≤ 'z' then some (c.toNat - 71)
  else if '0' ≤ c ∧ c ≤ '9' then some (c.toNat + 4)
  else if c = '+' then some 62
  else if c = '/' then some 63
  else none

/-- `STRICT_BASE64`, and the bytes `Buffer.from` reads where it matches. -/
def decodeBase64 : Text → Option (List UInt8)
  | [] => some []
  | [a, b, '=', '='] => do
    let a ← sextet a
    let b ← sextet b
    return [UInt8.ofNat (a * 4 + b / 16)]
  | [a, b, c, '='] => do
    let a ← sextet a
    let b ← sextet b
    let c ← sextet c
    return [UInt8.ofNat (a * 4 + b / 16), UInt8.ofNat (b % 16 * 16 + c / 4)]
  | a :: b :: c :: d :: rest => do
    let a ← sextet a
    let b ← sextet b
    let c ← sextet c
    let d ← sextet d
    return UInt8.ofNat (a * 4 + b / 16) :: UInt8.ofNat (b % 16 * 16 + c / 4) :: UInt8.ofNat (c % 4 * 64 + d) ::
      (← decodeBase64 rest)
  | _ => none

def strictBase64 (content : Text) : Option (List UInt8) := decodeBase64 (unwrapLines content)

/-! ## The plan -/

def MAX_STORED_PARTS_PER_EMAIL : Nat := 10

def INLINE_IMAGE_MAX_BYTES : Nat := 50 * 1024

structure InboundFilePart where
  ordinal : Nat
  kind : InboundPartKind
  filename : Text
  declaredMimeType : Option Text
  bytes : List UInt8

structure InboundRefusedPart where
  ordinal : Nat
  kind : InboundPartKind
  filename : Text
  outcome : InboundPartOutcome

inductive InboundPartPlan
  | file (part : InboundFilePart)
  | refused (part : InboundRefusedPart)

namespace InboundPartPlan

@[simp] def ordinal : InboundPartPlan → Nat
  | file part => part.ordinal
  | refused part => part.ordinal

@[simp] def kind : InboundPartPlan → InboundPartKind
  | file part => part.kind
  | refused part => part.kind

@[simp] def filename : InboundPartPlan → Text
  | file part => part.filename
  | refused part => part.filename

end InboundPartPlan

/-- `text.includes(part)`. -/
def includes (text part : Text) : Bool := text.tails.any part.isPrefixOf

/-- `contentId.replace(/^<|>$/g, '')`. -/
def unbracket (contentId : Text) : Text :=
  let opened := if contentId.head? = some '<' then contentId.tail else contentId
  if opened.getLast? = some '>' then opened.dropLast else opened

section
variable (T : CaseTables)

def referencedInline (html contentId : Text) : Bool :=
  let id := T.toLowerCase (trim (unbracket contentId))
  id ≠ [] && includes (T.toLowerCase html) ("cid:".toList ++ id)

/-- The part an attachment is planned as, when so many of them are stored already, and how many are then. -/
def planAttachment (html : Text) (at' stored : Nat) (raw : PostmarkAttachment) : InboundPartPlan × Nat :=
  let filename := (raw.Name.filter fun name => trim name ≠ []).getD "attachment".toList
  match strictBase64 (raw.Content.getD []) with
  | none => (.refused ⟨at', .attachment, filename, .not_base64⟩, stored)
  | some bytes =>
    if (raw.ContentType.any fun type => "image/".toList.isPrefixOf (T.toLowerCase type)) &&
        bytes.length < INLINE_IMAGE_MAX_BYTES && referencedInline T html (raw.ContentID.getD []) then
      (.refused ⟨at', .inline, filename, .inline_image⟩, stored)
    else if MAX_STORED_PARTS_PER_EMAIL ≤ stored then
      (.refused ⟨at', .attachment, filename, .too_many_parts⟩, stored)
    else (.file ⟨at', .attachment, filename, raw.ContentType, bytes⟩, stored + 1)

def planAttachments (html : Text) : Nat → Nat → List PostmarkAttachment → List InboundPartPlan
  | _, _, [] => []
  | at', stored, raw :: rest =>
    let (plan, stored) := planAttachment T html at' stored raw
    plan :: planAttachments html (at' + 1) stored rest

/-- `TextBody`, else `StrippedTextReply`. -/
def bodyText (payload : PostmarkInboundPayload) : Text :=
  ((payload.TextBody.filter fun text => trim text ≠ []).or payload.StrippedTextReply).getD []

def bodyPart (text : Text) (ordinal : Nat) : List InboundPartPlan :=
  if trim text = [] then []
  else [.file ⟨ordinal, .body, "email-body.txt".toList, none, text.flatMap String.utf8EncodeChar⟩]

/-- `none` is `InboundPayloadError`. -/
def planParts (payload : PostmarkInboundPayload) : Option (List InboundPartPlan) :=
  let html := payload.HtmlBody.getD []
  let withBody := fun raws : List PostmarkAttachment =>
    planAttachments T html 0 0 raws ++ bodyPart (bodyText payload) raws.length
  match payload.Attachments with
  | .notAList => none
  | .absent => some (withBody [])
  | .list raws => some (withBody raws)

/-! ## Its places -/

variable {T : CaseTables} {html : Text} {payload : PostmarkInboundPayload} {parts : List InboundPartPlan}

theorem planAttachment_place (at' stored : Nat) (raw : PostmarkAttachment) :
    (planAttachment T html at' stored raw).1.ordinal = at' ∧
      (planAttachment T html at' stored raw).1.kind ≠ .body := by
  unfold planAttachment
  cases strictBase64 (raw.Content.getD []) with
  | none => exact ⟨rfl, by rintro ⟨⟩⟩
  | some bytes =>
    dsimp only
    split
    · exact ⟨rfl, by rintro ⟨⟩⟩
    · split
      · exact ⟨rfl, by rintro ⟨⟩⟩
      · exact ⟨rfl, by rintro ⟨⟩⟩

theorem length_planAttachments (raws : List PostmarkAttachment) (at' stored : Nat) :
    (planAttachments T html at' stored raws).length = raws.length := by
  induction raws generalizing at' stored with
  | nil => rfl
  | cons raw rest ih => simp [planAttachments, ih]

theorem planAttachments_ordinals (raws : List PostmarkAttachment) (at' stored : Nat) :
    (planAttachments T html at' stored raws).map (·.ordinal) = List.range' at' raws.length := by
  induction raws generalizing at' stored with
  | nil => rfl
  | cons raw rest ih =>
    simp only [planAttachments, List.map_cons, (planAttachment_place at' stored raw).1, ih, List.length_cons,
      List.range'_succ]

theorem planAttachments_kind {raws : List PostmarkAttachment} {at' stored : Nat} {plan : InboundPartPlan}
    (h : plan ∈ planAttachments T html at' stored raws) : plan.kind ≠ .body := by
  induction raws generalizing at' stored with
  | nil => cases h
  | cons raw rest ih =>
    simp only [planAttachments, List.mem_cons] at h
    rcases h with rfl | h
    · exact (planAttachment_place at' stored raw).2
    · exact ih h

theorem planParts_some (h : planParts T payload = some parts) : ∃ raws,
    parts = planAttachments T (payload.HtmlBody.getD []) 0 0 raws ++ bodyPart (bodyText payload) raws.length := by
  unfold planParts at h
  cases hraws : payload.Attachments with
  | notAList =>
    rw [hraws] at h
    cases h
  | absent =>
    rw [hraws] at h
    cases h
    exact ⟨[], rfl⟩
  | list raws =>
    rw [hraws] at h
    cases h
    exact ⟨raws, rfl⟩

/-- The ordinals of a plan count its parts. -/
theorem planParts_ordinals (h : planParts T payload = some parts) :
    parts.map (·.ordinal) = List.range parts.length := by
  obtain ⟨raws, rfl⟩ := planParts_some h
  rw [List.map_append, planAttachments_ordinals, List.length_append, length_planAttachments, List.range_eq_range']
  unfold bodyPart
  split
  · simp
  · rw [List.length_singleton, List.range'_concat]
    simp

/-- Only the last part can be the body. -/
theorem planParts_body (h : planParts T payload = some parts) :
    ∃ attachments body, parts = attachments ++ body ∧ (∀ plan ∈ attachments, plan.kind ≠ .body) ∧ body.length ≤ 1 := by
  obtain ⟨raws, rfl⟩ := planParts_some h
  refine ⟨_, _, rfl, fun plan hplan => planAttachments_kind hplan, ?_⟩
  unfold bodyPart
  split
  · simp
  · simp

end

end Recouple.InboundEmail
