import Recouple.Lib.Notes
import Recouple.Qbo.Amounts
import Recouple.Qbo.PostingBodies

/-!
# Reading a posting back: `packages/qbo/src/posting.ts` (304-365)

| here | there |
| --- | --- |
| `verifyLine` | the turn of the loop (322-335) |
| `linkedAt`, `linked` | 341-353 |
| `compare` | the body of the `try` |
| `Agrees` | what QuickBooks must hold for the two to be one |
-/

namespace Recouple.Qbo
open Js KeyedFold Noted

/-- A comparison that notes what differs, or throws. -/
abbrev Comparison := Noted Text Thrown

/-- The verdict: `'match'`, or what differs. -/
inductive ReadBack
  | agreed
  | mismatch (what : List Text)
deriving DecidableEq

/-- `value === text` -/
def isText (value : Option Value) (text : Text) : Bool :=
  match value with
  | some (.str t) => t = text
  | _ => false

section
variable (T : CaseTables)

def verifyLine (customerId : Text) (lines : List Value) (want : PostingLine) (index : Nat) : Comparison Unit :=
  match lines[index]? with
  | none => pure ()
  | some raw => do
    let path := element "Line".toList index
    let line ← lift (readObject (some raw) path)
    let detail ← lift (readObject (field line "JournalEntryLineDetail") (member path "JournalEntryLineDetail"))
    let account ← lift (readObject (field detail "AccountRef") (member path "AccountRef"))
    let entity ← lift (readObject (field detail "Entity") (member path "Entity"))
    let ref ← lift (readObject (field entity "EntityRef") (member path "Entity.EntityRef"))
    let accountId ← lift (readString account "value" path)
    check (member path "AccountRef") (accountId = want.accountId)
    check (member path "PostingType") (isText (field detail "PostingType") want.side.text)
    let amount ← lift (qboAmountToCents T (field line "Amount") (member path "Amount"))
    check (member path "Amount") (amount = want.amountCents)
    let customer ← lift (readString ref "value" path)
    check (member path "Entity") (customer = customerId)

/-- Whether a line links the one entity, for the amount. -/
def linkedAt (type id : Text) (amountCents : Cents) (line : JsonObject) (index : Nat) : Except Thrown Bool := do
  let path := member (element "Line".toList index) "LinkedTxn"
  let raws ← readArray (field line "LinkedTxn") path
  let links ← raws.mapM fun raw => readObject (some raw) path
  match links with
  | [link] =>
    if isText (field link "TxnType") type && isText (field link "TxnId") id then
      (qboAmountToCents T (field line "Amount") (member (element "Line".toList index) "Amount")).map (· = amountCents)
    else .ok false
  | _ => .ok false

/-- `lines.some(…)` -/
def linked (type id : Text) (amountCents : Cents) : List JsonObject → Nat → Except Thrown Bool
  | [], _ => .ok false
  | line :: lines, index => do
    if ← linkedAt T type id amountCents line index then .ok true else linked type id amountCents lines (index + 1)

def compareEntry (sent : JournalEntryPosting) (got : JsonObject) : Comparison Unit := do
  check "TxnDate".toList (isText (field got "TxnDate") sent.txnDate)
  let lines ← lift (readArray (field got "Line") "Line".toList)
  check "Line.length".toList (lines.length = sent.lines.length)
  forM sent.lines.zipIdx fun entry => verifyLine T sent.customerId lines entry.1 entry.2

def comparePayment (sent : ZeroPaymentPosting) (got : JsonObject) : Comparison Unit := do
  check "TxnDate".toList (isText (field got "TxnDate") sent.txnDate)
  let customer ← lift (readObject (field got "CustomerRef") "CustomerRef".toList)
  let customerId ← lift (readString customer "value" "CustomerRef".toList)
  check "CustomerRef".toList (customerId = sent.customerId)
  let total ← lift (qboAmountToCents T (field got "TotalAmt") "TotalAmt".toList)
  check "TotalAmt".toList (total.val = 0)
  let raws ← lift (readArray (field got "Line") "Line".toList)
  let lines ← lift (raws.zipIdx.mapM fun entry => readObject (some entry.1) (element "Line".toList entry.2))
  check "Line.length".toList (lines.length = 2)
  let invoice ← lift (linked T "Invoice".toList sent.invoiceId sent.amountCents lines 0)
  check "Line.Invoice".toList invoice
  let entry ← lift (linked T "JournalEntry".toList sent.journalEntryId sent.amountCents lines 0)
  check "Line.JournalEntry".toList entry

def compare (sent : Posting) (got : JsonObject) : Comparison Unit :=
  match sent with
  | .journalEntry entry => compareEntry T entry got
  | .payment payment => comparePayment T payment got

/-- What is not a `QboMalformedResponse` is thrown on. -/
def verifyReadBack (sent : Posting) (got : JsonObject) : Except MoneyError ReadBack :=
  match (compare T sent got).result with
  | .ok () =>
    .ok (if (compare T sent got).notes = [] then .agreed else .mismatch (compare T sent got).notes)
  | .error (.malformed e) => .ok (.mismatch ((compare T sent got).notes ++ ["malformed:".toList ++ e.fieldPath]))
  | .error (.money e) => .error e

end

/-! ## What agrees -/

/-- A line of QuickBooks' entry with the account, the side, the cents and the customer that were sent. -/
def LineAgrees (customerId : Text) (want : PostingLine) (raw : Value) : Prop :=
  ∃ line detail account entity ref x, raw = .obj line ∧ field line "JournalEntryLineDetail" = some (.obj detail) ∧
    field detail "AccountRef" = some (.obj account) ∧ field account "value" = some (.str want.accountId) ∧
    field detail "PostingType" = some (.str want.side.text) ∧
    field line "Amount" = some (.num x) ∧ ReadsAs x want.amountCents.val ∧
    field detail "Entity" = some (.obj entity) ∧ field entity "EntityRef" = some (.obj ref) ∧
    field ref "value" = some (.str customerId)

/-- A line of QuickBooks' payment that links one entity and no other, for the cents that were sent. -/
def LinkAgrees (type id : Text) (amountCents : Cents) (line : JsonObject) : Prop :=
  ∃ link x, field line "LinkedTxn" = some (.arr [.obj link]) ∧ field link "TxnType" = some (.str type) ∧
    field link "TxnId" = some (.str id) ∧ field line "Amount" = some (.num x) ∧ ReadsAs x amountCents.val

/-- QuickBooks holds what was sent. -/
def Agrees (sent : Posting) (got : JsonObject) : Prop :=
  match sent with
  | .journalEntry entry => field got "TxnDate" = some (.str entry.txnDate) ∧
      ∃ lines, field got "Line" = some (.arr lines) ∧ List.Forall₂ (LineAgrees entry.customerId) entry.lines lines
  | .payment payment => field got "TxnDate" = some (.str payment.txnDate) ∧
      (∃ customer, field got "CustomerRef" = some (.obj customer) ∧
        field customer "value" = some (.str payment.customerId)) ∧
      field got "TotalAmt" = some (.num 0) ∧
      ∃ one other, (field got "Line" = some (.arr [.obj one, .obj other]) ∨
          field got "Line" = some (.arr [.obj other, .obj one])) ∧
        LinkAgrees "Invoice".toList payment.invoiceId payment.amountCents one ∧
        LinkAgrees "JournalEntry".toList payment.journalEntryId payment.amountCents other

theorem isText_iff {value : Option Value} {text : Text} : isText value text = true ↔ value = some (.str text) := by
  unfold isText
  split
  · simp
  · rename_i hstr
    refine iff_of_false (by simp) ?_
    rintro rfl
    exact hstr text rfl

theorem readsAs_zero {x : ℚ} : ReadsAs x 0 ↔ x = 0 := by
  constructor
  · rintro ⟨hround, -⟩
    have hzero : roundDouble (((0 : Int) : ℚ) / 100) = some 0 := by decide +kernel
    exact (Option.some.inj (hzero.symm.trans hround)).symm
  · rintro rfl
    decide +kernel

/-- An id of a built posting is no blank text. -/
theorem trim_qboId {id : Text} (h : isQboId id = true) : trim id ≠ [] := by
  rw [isQboId, Bool.and_eq_true, List.all_eq_true, decide_eq_true_eq] at h
  have htrim : trim id = id := trimmed_of_isSpace fun c hc => isSpace_of_isDigit (h.1 c hc)
  rw [htrim, ← List.length_pos_iff]
  omega

theorem readString_id {source : JsonObject} {key : String} {path id : Text} (h : isQboId id = true) :
    readString source key path = .ok id ↔ field source key = some (.str id) := by
  rw [readString_ok, and_iff_left (trim_qboId h)]

section
variable {T : CaseTables}

theorem clean_verifyLine (hT : UpperCase T) {customerId : Text} {want : PostingLine} {raw : Value} {lines : List Value}
    {index : Nat} (hline : lines[index]? = some raw) (hcustomer : isQboId customerId = true)
    (haccount : isQboId want.accountId = true) :
    Clean (verifyLine T customerId lines want index) () ↔ LineAgrees customerId want raw := by
  unfold verifyLine
  rw [hline]
  simp only [clean_lift_bind, clean_check_bind, clean_check, readObject_ok, Option.some.injEq, isText_iff,
    decide_eq_true_eq, qboAmountToCents_iff hT]
  constructor
  · rintro ⟨line, rfl, detail, hdetail, account, haccountRef, entity, hentity, ref, href, accountId, hid, rfl, hside,
      amount, ⟨x, hx, hreads⟩, rfl, customer, hcustomerRef, rfl⟩
    exact ⟨line, detail, account, entity, ref, x, rfl, hdetail, haccountRef, (readString_id haccount).1 hid, hside, hx,
      hreads, hentity, href, (readString_id hcustomer).1 hcustomerRef⟩
  · rintro ⟨line, detail, account, entity, ref, x, rfl, hdetail, haccountRef, hid, hside, hx, hreads, hentity, href,
      hcustomerRef⟩
    exact ⟨line, rfl, detail, hdetail, account, haccountRef, entity, hentity, ref, href, want.accountId,
      (readString_id haccount).2 hid, rfl, hside, want.amountCents, ⟨x, hx, hreads⟩, rfl, customerId,
      (readString_id hcustomer).2 hcustomerRef, rfl⟩

/-- Every line is compared, and there are as many. -/
theorem clean_compareEntry (hT : UpperCase T) {sent : JournalEntryPosting} {got : JsonObject} (hne : sent.lines ≠ [])
    (hcustomer : isQboId sent.customerId = true) (haccounts : ∀ line ∈ sent.lines, isQboId line.accountId = true) :
    Clean (compareEntry T sent got) () ↔ Agrees (.journalEntry sent) got := by
  unfold compareEntry Agrees
  simp only [clean_lift_bind, clean_check_bind, clean_forM, readArray_ok, isText_iff, decide_eq_true_eq]
  refine and_congr_right fun _ => ?_
  have hturns : ∀ lines : List Value, lines.length = sent.lines.length →
      ((∀ entry ∈ sent.lines.zipIdx, Clean (verifyLine T sent.customerId lines entry.1 entry.2) ()) ↔
        List.Forall₂ (LineAgrees sent.customerId) sent.lines lines) := by
    intro lines hlength
    rw [List.forall₂_iff_get, and_iff_right hlength.symm]
    constructor
    · intro h index hwant hgot
      have hturn := h (sent.lines[index], index) (List.mem_zipIdx_iff_getElem?.2 (List.getElem?_eq_getElem hwant))
      exact (clean_verifyLine hT (List.getElem?_eq_getElem hgot) hcustomer
        (haccounts _ (List.getElem_mem hwant))).1 hturn
    · rintro h ⟨want, index⟩ hentry
      have hwant := List.mem_zipIdx_iff_getElem?.1 hentry
      dsimp only at hwant ⊢
      obtain ⟨hindex, rfl⟩ := List.getElem?_eq_some_iff.1 hwant
      exact (clean_verifyLine hT (List.getElem?_eq_getElem (hlength ▸ hindex)) hcustomer
        (haccounts _ (List.getElem_mem hindex))).2 (h index hindex (hlength ▸ hindex))
  constructor
  · rintro ⟨lines, hlines, hlength, h⟩
    rcases hlines with ⟨-, rfl⟩ | hlines
    · exact absurd (List.length_eq_zero_iff.1 hlength.symm) hne
    · exact ⟨lines, hlines, (hturns lines hlength).1 h⟩
  · rintro ⟨lines, hlines, h⟩
    exact ⟨lines, .inr hlines, h.length_eq.symm, (hturns lines h.length_eq.symm).2 h⟩

/-! ## Links -/

/-- A loop that reads one object for each value. -/
theorem mapM_readObject {β : Type} {f : β → Except Thrown JsonObject} {g : β → Value}
    (hf : ∀ b o, f b = .ok o ↔ g b = .obj o) {l : List β} {os : List JsonObject} :
    l.mapM f = .ok os ↔ l.map g = os.map Value.obj := by
  rw [mapM_iff_forall₂, ← List.forall₂_eq_eq_eq, List.forall₂_map_left_iff, List.forall₂_map_right_iff]
  simp only [hf]

theorem linkedAt_iff (hT : UpperCase T) {type id : Text} {amountCents : Cents} {line : JsonObject} {index : Nat} :
    linkedAt T type id amountCents line index = .ok true ↔ LinkAgrees type id amountCents line := by
  have hobject : ∀ (path : Text) (raw : Value) (o : JsonObject), readObject (some raw) path = .ok o ↔ raw = .obj o := by
    intro path raw o
    rw [readObject_ok, Option.some.injEq]
  unfold linkedAt
  rw [bind_ok]
  constructor
  · rintro ⟨raws, hraws, h⟩
    obtain ⟨links, hlinks, h⟩ := bind_ok.1 h
    rw [mapM_readObject (hobject _), List.map_id'] at hlinks
    rcases links with - | ⟨link, - | ⟨second, rest⟩⟩
    · cases h
    · dsimp only at h
      split at h
      case isTrue hlink =>
        rw [Bool.and_eq_true, isText_iff, isText_iff] at hlink
        obtain ⟨amount, hamount, hsame⟩ := map_ok.1 h
        obtain rfl := of_decide_eq_true hsame
        obtain ⟨x, hx, hreads⟩ := (qboAmountToCents_iff hT).1 hamount
        rcases readArray_ok.1 hraws with ⟨-, rfl⟩ | hfield
        · cases hlinks
        · subst hlinks
          exact ⟨link, x, hfield, hlink.1, hlink.2, hx, hreads⟩
      case isFalse => cases h
    · cases h
  · rintro ⟨link, x, hlinks, htype, hid, hx, hreads⟩
    refine ⟨_, readArray_ok.2 (.inr hlinks), bind_ok.2 ⟨[link], (mapM_readObject (hobject _)).2 rfl, ?_⟩⟩
    dsimp only
    rw [if_pos (by rw [isText_iff.2 htype, isText_iff.2 hid]; rfl)]
    exact map_ok.2 ⟨amountCents, (qboAmountToCents_iff hT).2 ⟨x, hx, hreads⟩, decide_eq_true rfl⟩

/-- A line that links an entity of one type links none of another. -/
theorem linkedAt_of_other {type type' id id' : Text} {amountCents : Cents} {line : JsonObject} {index : Nat}
    (h : LinkAgrees type id amountCents line) (hne : type ≠ type') :
    linkedAt T type' id' amountCents line index = .ok false := by
  obtain ⟨link, x, hlinks, htype, -⟩ := h
  have hobject : ∀ (path : Text) (raw : Value) (o : JsonObject), readObject (some raw) path = .ok o ↔ raw = .obj o := by
    intro path raw o
    rw [readObject_ok, Option.some.injEq]
  unfold linkedAt
  refine bind_ok.2 ⟨_, readArray_ok.2 (.inr hlinks), bind_ok.2 ⟨[link], (mapM_readObject (hobject _)).2 rfl, ?_⟩⟩
  dsimp only
  refine if_neg ?_
  rw [Bool.and_eq_true, isText_iff, htype]
  rintro ⟨hsame, -⟩
  exact hne (Value.str.inj (Option.some.inj hsame))

theorem linked_pair {type id : Text} {amountCents : Cents} {one other : JsonObject} :
    linked T type id amountCents [one, other] 0 = .ok true ↔ linkedAt T type id amountCents one 0 = .ok true ∨
      linkedAt T type id amountCents one 0 = .ok false ∧ linkedAt T type id amountCents other 1 = .ok true := by
  unfold linked
  cases linkedAt T type id amountCents one 0 with
  | error e => simp [bind, Except.bind]
  | ok first =>
    cases first with
    | true => simp [bind, Except.bind]
    | false =>
      unfold linked
      cases linkedAt T type id amountCents other 1 with
      | error e => simp [bind, Except.bind]
      | ok second => cases second <;> simp [bind, Except.bind, linked]

theorem LinkAgrees.type_eq {type type' id id' : Text} {amountCents : Cents} {line : JsonObject}
    (h : LinkAgrees type id amountCents line) (h' : LinkAgrees type' id' amountCents line) : type = type' := by
  obtain ⟨link, -, hlinks, htype, -⟩ := h
  obtain ⟨link', -, hlinks', htype', -⟩ := h'
  rw [hlinks] at hlinks'
  obtain rfl := Value.obj.inj (List.singleton_inj.1 (Value.arr.inj (Option.some.inj hlinks')))
  exact Value.str.inj (Option.some.inj (htype.symm.trans htype'))

theorem clean_comparePayment (hT : UpperCase T) {sent : ZeroPaymentPosting} {got : JsonObject}
    (hcustomer : isQboId sent.customerId = true) :
    Clean (comparePayment T sent got) () ↔ Agrees (.payment sent) got := by
  have hobject : ∀ (entry : Value × Nat) (o : JsonObject),
      readObject (some entry.1) (element "Line".toList entry.2) = .ok o ↔ entry.1 = .obj o := by
    intro entry o
    rw [readObject_ok, Option.some.injEq]
  have hne : "Invoice".toList ≠ "JournalEntry".toList := by decide
  unfold comparePayment Agrees
  simp only [clean_lift_bind, clean_check_bind, clean_check, readObject_ok, readArray_ok, isText_iff, decide_eq_true_eq,
    qboAmountToCents_iff hT, mapM_readObject hobject, List.zipIdx_map_fst]
  refine and_congr_right fun _ => ?_
  constructor
  · rintro ⟨customer, href, id, hid, rfl, total, ⟨x, hx, hreads⟩, hzero, raws, hraws, lines, hlines, hlength, invoice,
      hinvoice, rfl, entry, hentry, rfl⟩
    rw [hzero, readsAs_zero] at hreads
    subst hreads
    refine ⟨⟨customer, href, (readString_id hcustomer).1 hid⟩, hx, ?_⟩
    obtain ⟨one, other, rfl⟩ := List.length_eq_two.1 hlength
    subst hlines
    have hfield : field got "Line" = some (.arr [.obj one, .obj other]) := by
      rcases hraws with ⟨-, hnil⟩ | hfield
      · cases hnil
      · exact hfield
    rw [linked_pair, linkedAt_iff hT, linkedAt_iff hT] at hinvoice hentry
    rcases hinvoice with hinvoice | ⟨-, hinvoice⟩
    · rcases hentry with hentry | ⟨-, hentry⟩
      · exact absurd (hinvoice.type_eq hentry) hne
      · exact ⟨one, other, .inl hfield, hinvoice, hentry⟩
    · rcases hentry with hentry | ⟨-, hentry⟩
      · exact ⟨other, one, .inr hfield, hinvoice, hentry⟩
      · exact absurd (hinvoice.type_eq hentry) hne
  · rintro ⟨⟨customer, href, hid⟩, htotal, one, other, hfield, hinvoice, hentry⟩
    have htotal' : ∃ x, field got "TotalAmt" = some (.num x) ∧ ReadsAs x ZERO.val := ⟨0, htotal, readsAs_zero.2 rfl⟩
    rcases hfield with hfield | hfield
    · refine ⟨customer, href, _, (readString_id hcustomer).2 hid, rfl, ZERO, htotal', rfl, _, .inr hfield, [one, other],
        rfl, rfl, true, linked_pair.2 (.inl ((linkedAt_iff hT).2 hinvoice)), rfl, true,
        linked_pair.2 (.inr ⟨linkedAt_of_other hinvoice hne, (linkedAt_iff hT).2 hentry⟩), rfl⟩
    · refine ⟨customer, href, _, (readString_id hcustomer).2 hid, rfl, ZERO, htotal', rfl, _, .inr hfield, [other, one],
        rfl, rfl, true, linked_pair.2 (.inr ⟨linkedAt_of_other hentry hne.symm, (linkedAt_iff hT).2 hinvoice⟩), rfl, true,
        linked_pair.2 (.inl ((linkedAt_iff hT).2 hentry)), rfl⟩

/-! ## What is thrown is malformed -/

/-- What a reader of a response throws. -/
def IsMalformed (e : Thrown) : Prop := ∃ m, e = .malformed m

theorem readObject_error {value : Option Value} {path : Text} {e : Thrown} (h : readObject value path = .error e) :
    IsMalformed e := by
  unfold readObject at h
  split at h
  · cases h
  · cases h
    exact ⟨_, rfl⟩

theorem readArray_error {value : Option Value} {path : Text} {e : Thrown} (h : readArray value path = .error e) :
    IsMalformed e := by
  unfold readArray at h
  split at h
  · cases h
  · cases h
  · cases h
    exact ⟨_, rfl⟩

theorem readString_error {source : JsonObject} {key : String} {path : Text} {e : Thrown}
    (h : readString source key path = .error e) : IsMalformed e := by
  unfold readString at h
  split at h
  · split at h
    · cases h
      exact ⟨_, rfl⟩
    · cases h
  · cases h
    exact ⟨_, rfl⟩

theorem qboAmountToCents_error {value : Option Value} {path : Text} {e : Thrown}
    (h : qboAmountToCents T value path = .error e) : IsMalformed e := by
  unfold qboAmountToCents at h
  split at h
  · dsimp only at h
    split at h
    · cases h
      exact ⟨_, rfl⟩
    · split at h
      · cases h
      · cases h
        exact ⟨_, rfl⟩
  · cases h
    exact ⟨_, rfl⟩

theorem linkedAt_error {type id : Text} {amountCents : Cents} {line : JsonObject} {index : Nat} {e : Thrown}
    (h : linkedAt T type id amountCents line index = .error e) : IsMalformed e := by
  unfold linkedAt at h
  rcases bind_error h with h | ⟨raws, -, h⟩
  · exact readArray_error h
  · rcases bind_error h with h | ⟨links, -, h⟩
    · obtain ⟨raw, -, h⟩ := mapM_error h
      exact readObject_error h
    · split at h
      · split at h
        · cases hamount : qboAmountToCents T (field line "Amount") (member (element "Line".toList index) "Amount") with
          | ok amount =>
            rw [hamount] at h
            cases h
          | error e' =>
            rw [hamount] at h
            cases h
            exact qboAmountToCents_error hamount
        · cases h
      · cases h

theorem linked_error {type id : Text} {amountCents : Cents} {lines : List JsonObject} {index : Nat} {e : Thrown}
    (h : linked T type id amountCents lines index = .error e) : IsMalformed e := by
  induction lines generalizing index with
  | nil => cases h
  | cons line lines ih =>
    rw [linked] at h
    rcases bind_error h with h | ⟨found, -, h⟩
    · exact linkedAt_error h
    · cases found with
      | true => cases h
      | false => exact ih h

theorem throws_compare (sent : Posting) (got : JsonObject) : Throws IsMalformed (compare T sent got) := by
  cases sent with
  | journalEntry entry =>
    refine throws_check.bind fun _ => (throws_lift fun _ => readArray_error).bind fun lines => throws_check.bind fun _ =>
      throws_forM fun turn _ => ?_
    unfold verifyLine
    split
    · exact throws_pure
    · refine (throws_lift fun _ => readObject_error).bind fun _ => (throws_lift fun _ => readObject_error).bind fun _ =>
        (throws_lift fun _ => readObject_error).bind fun _ => (throws_lift fun _ => readObject_error).bind fun _ =>
        (throws_lift fun _ => readObject_error).bind fun _ => (throws_lift fun _ => readString_error).bind fun _ =>
        throws_check.bind fun _ => throws_check.bind fun _ => (throws_lift fun _ => qboAmountToCents_error).bind fun _ =>
        throws_check.bind fun _ => (throws_lift fun _ => readString_error).bind fun _ => throws_check
  | payment payment =>
    refine throws_check.bind fun _ => (throws_lift fun _ => readObject_error).bind fun _ =>
      (throws_lift fun _ => readString_error).bind fun _ => throws_check.bind fun _ =>
      (throws_lift fun _ => qboAmountToCents_error).bind fun _ => throws_check.bind fun _ =>
      (throws_lift fun _ => readArray_error).bind fun _ => (throws_lift fun _ h => ?_).bind fun _ =>
      throws_check.bind fun _ => (throws_lift fun _ => linked_error).bind fun _ => throws_check.bind fun _ =>
      (throws_lift fun _ => linked_error).bind fun _ => throws_check
    obtain ⟨entry, -, hentry⟩ := mapM_error h
    exact readObject_error hentry

/-- It never throws, and agrees where nothing is noted. -/
theorem verifyReadBack_returns (sent : Posting) (got : JsonObject) :
    ∃ answer, verifyReadBack T sent got = .ok answer ∧ (answer = .agreed ↔ Clean (compare T sent got) ()) := by
  have hthrows := throws_compare (T := T) sent got
  unfold verifyReadBack Clean
  generalize (compare T sent got).notes = notes
  cases hresult : (compare T sent got).result with
  | ok u =>
    refine ⟨_, rfl, ?_⟩
    by_cases hnotes : notes = []
    · simp [hnotes]
    · simp [hnotes]
  | error e =>
    obtain ⟨m, rfl⟩ := hthrows e hresult
    exact ⟨_, rfl, by simp⟩

/-! ## What the builders send -/

variable {parses : Text → Bool}

/-- An entry as `journalEntry` makes it: lines of QuickBooks ids, at least one, and the body they make. -/
structure IsEntry (sent : JournalEntryPosting) : Prop where
  customer : isQboId sent.customerId = true
  accounts : ∀ line ∈ sent.lines, isQboId line.accountId = true
  lines : sent.lines ≠ []
  date : field sent.body "TxnDate" = some (.str sent.txnDate)
  body : ∃ memo memos, field sent.body "Line" =
    some (.arr (sent.lines.mapIdx fun index line => bodyLine sent.customerId memo memos line index))

/-- A payment as `buildZeroPayment` makes it. -/
structure IsPayment (sent : ZeroPaymentPosting) : Prop where
  customer : isQboId sent.customerId = true
  date : field sent.body "TxnDate" = some (.str sent.txnDate)
  customerRef : field sent.body "CustomerRef" = some (.obj [("value".toList, .str sent.customerId)])
  total : field sent.body "TotalAmt" = some (.str (centsToQboAmount ZERO))
  links : field sent.body "Line" =
    some (.arr [linkLine (centsToQboAmount sent.amountCents) sent.invoiceId "Invoice".toList,
      linkLine (centsToQboAmount sent.amountCents) sent.journalEntryId "JournalEntry".toList])

/-- A posting as the builders make it. -/
def IsSent : Posting → Prop
  | .journalEntry entry => IsEntry entry
  | .payment payment => IsPayment payment

theorem isSent_journalEntry {input : Common} {lines : List PostingLine} {memos : List (Option Text)} {sent : Posting}
    (h : journalEntry T parses input lines memos = .ok sent) (hne : lines ≠ [])
    (haccounts : ∀ line ∈ lines, isQboId line.accountId = true) : IsSent sent := by
  obtain ⟨customerId, hcustomer, h⟩ := bind_ok.1 h
  obtain ⟨txnDate, -, h⟩ := bind_ok.1 h
  obtain ⟨reference, -, h⟩ := bind_ok.1 h
  obtain ⟨hid, rfl⟩ := assertQboId_ok.1 hcustomer
  obtain rfl := Except.ok.inj h
  exact ⟨hid, haccounts, hne, rfl, _, memos, rfl⟩

theorem isSent_entryLines {input : Common} {entries : List Journal.DraftEntry} {map : LedgerAccountMap}
    {stages : List Journal.JournalStage} {sent : Posting} (h : buildEntry T parses input entries map stages = .ok sent) :
    IsSent sent := by
  obtain ⟨lines, hlines, h⟩ := bind_ok.1 h
  obtain ⟨hids, hrows, hne, -⟩ := entryLines_ok.1 hlines
  refine isSent_journalEntry h hne fun line hline => ?_
  rw [hrows] at hline
  obtain ⟨row, hrow, rfl⟩ := List.mem_map.1 hline
  obtain ⟨entry, hentry, hrow⟩ := List.mem_flatMap.1 hrow
  obtain ⟨drafted, hdrafted, hrow⟩ := List.mem_flatMap.1 hrow
  have haccount : row.1 = Journal.accountFor drafted.role entry.tag map := by
    rcases List.mem_append.1 hrow with hrow | hrow
    · split at hrow
      · rw [List.mem_singleton.1 hrow]
      · exact absurd hrow List.not_mem_nil
    · split at hrow
      · rw [List.mem_singleton.1 hrow]
      · exact absurd hrow List.not_mem_nil
  have hsame : (ofRow row).accountId = row.1 := by
    unfold ofRow
    split <;> rfl
  rw [hsame, haccount]
  exact hids entry hentry drafted hdrafted

theorem isSent_stored {input : Common} {stored : List StoredPostingLine} {sent : Posting}
    (h : buildStoredSettlementEntry T parses input stored = .ok sent) : IsSent sent := by
  unfold buildStoredSettlementEntry at h
  split at h
  case isTrue => cases h
  case isFalse hlength =>
    obtain ⟨lines, hlines, h⟩ := bind_ok.1 h
    obtain ⟨-, -, h⟩ := bind_ok.1 h
    have hread := mapM_forall₂ hlines
    refine isSent_journalEntry h ?_ fun line hline => ?_
    · intro hnil
      rw [List.map_eq_nil_iff] at hnil
      rw [hread.length_eq, hnil] at hlength
      exact hlength (by decide)
    · obtain ⟨read, hmem, rfl⟩ := List.mem_map.1 hline
      obtain ⟨entry, -, hentry⟩ := exists_of_mem_right hread hmem
      unfold storedLine at hentry
      split at hentry
      · cases hentry
      · obtain ⟨accountId, haccount, hentry⟩ := bind_ok.1 hentry
        obtain ⟨hid, rfl⟩ := assertQboId_ok.1 haccount
        rw [← Except.ok.inj hentry]
        exact hid

theorem isSent_zeroPayment {input : Common} {invoiceId journalEntryId : Text} {amountCents : Cents} {sent : Posting}
    (h : buildZeroPayment T parses input invoiceId journalEntryId amountCents = .ok sent) : IsSent sent := by
  obtain ⟨invoice, hinvoice, h⟩ := bind_ok.1 h
  obtain ⟨entry, hentry, h⟩ := bind_ok.1 h
  obtain ⟨customerId, hcustomer, h⟩ := bind_ok.1 h
  obtain ⟨txnDate, -, h⟩ := bind_ok.1 h
  split at h
  · cases h
  · obtain ⟨reference, -, h⟩ := bind_ok.1 h
    obtain ⟨hid, rfl⟩ := assertQboId_ok.1 hcustomer
    obtain rfl := Except.ok.inj h
    exact ⟨hid, rfl, rfl, rfl, rfl⟩

theorem Built.isSent {sent : Posting} (h : Built T parses sent) : IsSent sent := by
  cases h with
  | found h => exact isSent_entryLines h
  | settlement h => exact isSent_entryLines h
  | stored h => exact isSent_stored h
  | zeroPayment h => exact isSent_zeroPayment h

theorem clean_compare (hT : UpperCase T) {sent : Posting} (h : IsSent sent) (got : JsonObject) :
    Clean (compare T sent got) () ↔ Agrees sent got := by
  cases sent with
  | journalEntry entry => exact clean_compareEntry hT h.lines h.customer h.accounts
  | payment payment => exact clean_comparePayment hT h.customer

end

/-! ## The sent body read as numbers -/

/-- An amount's text as the number it denotes. -/
def amountAsRead : Value → Value
  | .str t => (numberFrom t).elim (.str t) .num
  | v => v

mutual
/-- A value of which each amount is a number. -/
def asRead : Value → Value
  | .arr items => .arr (asReadItems items)
  | .obj fields => .obj (asReadFields fields)
  | v => v
def asReadItems : List Value → List Value
  | [] => []
  | v :: vs => asRead v :: asReadItems vs
def asReadFields : List (Text × Value) → List (Text × Value)
  | [] => []
  | (k, v) :: fs =>
    (k, if k = "Amount".toList ∨ k = "TotalAmt".toList then amountAsRead v else asRead v) :: asReadFields fs
end

/-- The body QuickBooks was sent. -/
def Posting.body : Posting → JsonObject
  | .journalEntry sent => sent.body
  | .payment sent => sent.body

/-- The amounts a posting sends. -/
def Posting.amounts : Posting → List Cents
  | .journalEntry sent => sent.lines.map (·.amountCents)
  | .payment sent => [sent.amountCents]

theorem asReadItems_eq (vs : List Value) : asReadItems vs = vs.map asRead := by
  induction vs with
  | nil => rfl
  | cons v vs ih => rw [asReadItems, ih, List.map_cons]

theorem field_asReadFields (fs : List (Text × Value)) (key : String) : field (asReadFields fs) key =
    (field fs key).map fun v =>
      if key.toList = "Amount".toList ∨ key.toList = "TotalAmt".toList then amountAsRead v else asRead v := by
  unfold field
  induction fs with
  | nil => rfl
  | cons entry fs ih =>
    obtain ⟨k, v⟩ := entry
    rw [asReadFields, JsonTree.get, JsonTree.get]
    by_cases hk : k = key.toList
    · rw [if_pos hk, if_pos hk, hk]
      rfl
    · rw [if_neg hk, if_neg hk, ih]

/-- An amount is written so that it is read as the double nearest to it. -/
theorem amountAsRead_sent {amount : Cents} {x : ℚ} :
    amountAsRead (.str (centsToQboAmount amount)) = .num x ↔ roundDouble ((amount.val : ℚ) / 100) = some x := by
  have hread : numberFrom (centsToQboAmount amount) = roundDouble ((amount.val : ℚ) / 100) := by
    have hsign : centsToQboAmount amount =
        (if decide (amount.val < 0) then ['-'] else []) ++ hundredths amount.val.natAbs := by
      simp [centsToQboAmount]
    rw [hsign, numberFrom_hundredths]
    congr 1
    by_cases hneg : amount.val < 0
    · rw [if_pos (by simpa using hneg), show (amount.val.natAbs : ℚ) = ((amount.val.natAbs : Int) : ℚ) by simp,
        show (amount.val.natAbs : Int) = -amount.val by omega]
      push_cast
      ring
    · rw [if_neg (by simpa using hneg), show (amount.val.natAbs : ℚ) = ((amount.val.natAbs : Int) : ℚ) by simp,
        show (amount.val.natAbs : Int) = amount.val by omega, one_mul]
  unfold amountAsRead
  dsimp only
  rw [hread]
  cases roundDouble ((amount.val : ℚ) / 100) with
  | none => simp
  | some y => simp

theorem num_amountAsRead {amount : Cents} : (∃ x, some (amountAsRead (.str (centsToQboAmount amount))) = some (.num x) ∧
    ReadsAs x amount.val) ↔ ∃ x, ReadsAs x amount.val := by
  constructor
  · rintro ⟨x, -, h⟩
    exact ⟨x, h⟩
  · rintro ⟨x, h⟩
    exact ⟨x, congrArg some (amountAsRead_sent.2 h.1), h⟩

theorem lineAgrees_asRead {customerId memo : Text} {memos : List (Option Text)} {line : PostingLine} {index : Nat} :
    LineAgrees customerId line (asRead (bodyLine customerId memo memos line index)) ↔
      ∃ x, ReadsAs x line.amountCents.val := by
  rw [← num_amountAsRead]
  constructor
  · rintro ⟨sent, detail, account, entity, ref, x, hsent, hdetail, haccount, hid, hside, hamount, hreads, -⟩
    obtain rfl := Value.obj.inj hsent
    exact ⟨x, hamount, hreads⟩
  · rintro ⟨x, hamount, hreads⟩
    let ref : JsonObject := [("value".toList, .str customerId)]
    let account : JsonObject := [("value".toList, .str line.accountId)]
    let entity : JsonObject := [("Type".toList, .str "Customer".toList), ("EntityRef".toList, .obj ref)]
    let detail : JsonObject := [("PostingType".toList, .str line.side.text), ("AccountRef".toList, .obj account),
      ("Entity".toList, .obj entity)]
    refine ⟨_, asReadFields detail, asReadFields account, asReadFields entity, asReadFields ref, x, rfl, ?_, ?_, ?_,
      ?_, hamount, hreads, ?_, ?_, ?_⟩ <;> rfl

theorem linkAgrees_asRead {type id : Text} {amountCents : Cents} {fields : JsonObject}
    (h : asRead (linkLine (centsToQboAmount amountCents) id type) = .obj fields)
    (hreads : ∃ x, ReadsAs x amountCents.val) : LinkAgrees type id amountCents fields := by
  obtain rfl := Value.obj.inj h
  obtain ⟨x, hamount, hreads⟩ := num_amountAsRead.2 hreads
  let link : JsonObject := [("TxnId".toList, .str id), ("TxnType".toList, .str type)]
  exact ⟨asReadFields link, x, rfl, rfl, rfl, hamount, hreads⟩

/-- What was sent, read back with its amounts as numbers, agrees exactly where each amount is read from its number. -/
theorem agrees_asRead {sent : Posting} (h : IsSent sent) :
    Agrees sent (asReadFields sent.body) ↔ ∀ amount ∈ sent.amounts, ∃ x, ReadsAs x amount.val := by
  cases sent with
  | journalEntry sent =>
    obtain ⟨-, -, -, hdate, memo, memos, hbody⟩ := h
    have hlines : field (asReadFields sent.body) "Line" = some (.arr
        ((sent.lines.mapIdx fun index line => bodyLine sent.customerId memo memos line index).map asRead)) := by
      rw [field_asReadFields, hbody, ← asReadItems_eq]
      rfl
    have htxn : field (asReadFields sent.body) "TxnDate" = some (.str sent.txnDate) := by
      rw [field_asReadFields, hdate]
      rfl
    have hall : (∀ amount ∈ sent.lines.map (·.amountCents), ∃ x, ReadsAs x amount.val) ↔
        List.Forall₂ (LineAgrees sent.customerId) sent.lines
          ((sent.lines.mapIdx fun index line => bodyLine sent.customerId memo memos line index).map asRead) := by
      rw [List.forall₂_iff_get, List.forall_mem_map]
      constructor
      · refine fun hamounts => ⟨by simp, fun index hwant hgot => ?_⟩
        simp only [List.get_eq_getElem, List.getElem_map, List.getElem_mapIdx]
        exact lineAgrees_asRead.2 (hamounts _ (List.getElem_mem hwant))
      · rintro ⟨-, hturns⟩ line hline
        obtain ⟨index, hindex, rfl⟩ := List.mem_iff_getElem.1 hline
        have hturn := hturns index hindex (by simpa using hindex)
        simp only [List.get_eq_getElem, List.getElem_map, List.getElem_mapIdx] at hturn
        exact lineAgrees_asRead.1 hturn
    unfold Agrees Posting.amounts Posting.body
    dsimp only
    rw [hall, hlines]
    constructor
    · rintro ⟨-, lines, hfield, hagree⟩
      obtain rfl := Value.arr.inj (Option.some.inj hfield)
      exact hagree
    · exact fun hagree => ⟨htxn, _, rfl, hagree⟩
  | payment sent =>
    obtain ⟨-, hdate, hcustomer, htotal, hlinks⟩ := h
    have hzero : field (asReadFields sent.body) "TotalAmt" = some (.num 0) := by
      rw [field_asReadFields, htotal]
      exact congrArg some (amountAsRead_sent.2 (readsAs_zero.2 rfl).1)
    have hlines : field (asReadFields sent.body) "Line" = some (.arr
        [asRead (linkLine (centsToQboAmount sent.amountCents) sent.invoiceId "Invoice".toList),
          asRead (linkLine (centsToQboAmount sent.amountCents) sent.journalEntryId "JournalEntry".toList)]) := by
      rw [field_asReadFields, hlinks]
      rfl
    unfold Agrees Posting.amounts Posting.body
    dsimp only
    rw [hlines, List.forall_mem_singleton]
    constructor
    · rintro ⟨-, -, -, one, other, -, ⟨link, x, -, -, -, -, hreads⟩, -⟩
      exact ⟨x, hreads⟩
    · intro hreads
      refine ⟨?_, ⟨asReadFields [("value".toList, .str sent.customerId)], ?_, ?_⟩, hzero, _, _, .inl rfl,
        linkAgrees_asRead rfl hreads, linkAgrees_asRead rfl hreads⟩
      · rw [field_asReadFields, hdate]
        rfl
      · rw [field_asReadFields, hcustomer]
        rfl
      · rw [field_asReadFields]
        rfl

/-- **A posting read back agrees exactly where QuickBooks holds what was sent**: the comparison throws on no object, and
what was sent, with each amount read as its number, agrees exactly where each amount is the number of cents nearest to
its own double. That is so of every amount under 2^46 dollars. -/
theorem read_back_sound_complete (hT : UpperCase T) {sent : Posting} (h : Built T parses sent) :
    (∀ got, ∃ answer, verifyReadBack T sent got = .ok answer ∧ (answer = .agreed ↔ Agrees sent got)) ∧
      (verifyReadBack T sent (asReadFields sent.body) = .ok .agreed ↔ ∀ amount ∈ sent.amounts, ∃ x, ReadsAs x amount.val) ∧
      ((∀ amount ∈ sent.amounts, |amount.val| < 2 ^ 46 * 100) →
        verifyReadBack T sent (asReadFields sent.body) = .ok .agreed) := by
  have hagrees : ∀ got, ∃ answer, verifyReadBack T sent got = .ok answer ∧ (answer = .agreed ↔ Agrees sent got) := by
    intro got
    rw [← clean_compare hT h.isSent got]
    exact verifyReadBack_returns sent got
  have hown : verifyReadBack T sent (asReadFields sent.body) = .ok .agreed ↔
      ∀ amount ∈ sent.amounts, ∃ x, ReadsAs x amount.val := by
    obtain ⟨answer, hanswer, hiff⟩ := hagrees (asReadFields sent.body)
    rw [hanswer, Except.ok.injEq, hiff, agrees_asRead h.isSent]
  exact ⟨hagrees, hown, fun hsmall => hown.2 fun amount hmem => readsAs_of_small (hsmall amount hmem)⟩

/-- An entry of two lines for one amount. -/
def storedPair (amountCents : Cents) : List StoredPostingLine :=
  [⟨⟨"80".toList, .Debit, amountCents⟩, none⟩, ⟨⟨"81".toList, .Credit, amountCents⟩, none⟩]

def storedInput : Common :=
  { caseId := "4f".toList, family := none, writebackId := "0123abcd-0000-4000-8000-000000000000".toList,
    approvedOn := "2026-06-01".toList, customerId := "7".toList }

/-- $0.29, whose double times a hundred is no whole number. -/
def twentyNine : Cents := ⟨29, by decide, by decide⟩

/-- $90,071,992,547,409.90, whose double is nearer to ….91. -/
def ninetyTrillion : Cents := ⟨9007199254740990, by decide, by decide⟩

theorem storedPair_built {amountCents : Cents}
    (h : ((buildStoredSettlementEntry asciiCase (fun _ => true) storedInput (storedPair amountCents)).map
      Posting.amounts) = .ok [amountCents, amountCents]) :
    ∃ sent, Built asciiCase (fun _ => true) sent ∧ sent.amounts = [amountCents, amountCents] := by
  obtain ⟨sent, hbuilt, hamounts⟩ := map_ok.1 h
  exact ⟨sent, .stored hbuilt, hamounts⟩

theorem read_back_twentyNine :
    ∃ sent, Built asciiCase (fun _ => true) sent ∧ sent.amounts = [twentyNine, twentyNine] ∧
      verifyReadBack asciiCase sent (asReadFields sent.body) = .ok .agreed := by
  obtain ⟨sent, hbuilt, hamounts⟩ := @storedPair_built twentyNine (by decide)
  refine ⟨sent, hbuilt, hamounts, (read_back_sound_complete asciiCase_upperCase hbuilt).2.2 fun amount hmem => ?_⟩
  rw [hamounts] at hmem
  obtain rfl : amount = twentyNine := by simpa using hmem
  decide

/-- An entry of ninety trillion dollars, read back as it was sent, is answered with a mismatch. -/
theorem own_reading_differs :
    ¬ ∀ sent, Built asciiCase (fun _ => true) sent →
      verifyReadBack asciiCase sent (asReadFields sent.body) = .ok .agreed := by
  intro hall
  obtain ⟨sent, hbuilt, hamounts⟩ := @storedPair_built ninetyTrillion (by decide)
  obtain ⟨answer, hanswer, hiff⟩ := verifyReadBack_returns (T := asciiCase) sent (asReadFields sent.body)
  rw [clean_compare asciiCase_upperCase hbuilt.isSent, agrees_asRead hbuilt.isSent] at hiff
  have hagreed := Except.ok.inj (hanswer.symm.trans (hall sent hbuilt))
  obtain ⟨x, hround, hcents⟩ := hiff.1 hagreed ninetyTrillion (by rw [hamounts]; exact List.mem_cons_self)
  have hdouble : roundDouble ((ninetyTrillion.val : ℚ) / 100) = some (5764607523034234 / 64) := by decide +kernel
  obtain rfl := Option.some.inj (hdouble.symm.trans hround)
  exact absurd hcents (by decide +kernel)

end Recouple.Qbo
