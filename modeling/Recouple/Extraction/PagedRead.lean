import Recouple.Lib.Loop
import Recouple.Extraction.Paging

/-!
# The paged read: `ClaudeExtractor.readInPages` (claude.ts 436-598)

The ranges of the plan are asked for in waves, a wave in batches of `policy.concurrency`; a range whose
reply is cut off is halved into the next wave. One turn of the two nested loops is `turn`; the replies are
a parameter, one for each call in the order the calls are made.

Left out: the prompt blocks, the clock, and what follows the join of the parts (`reassemble`, the quote
check), which the read of one reply shares.
-/

namespace Recouple.Extraction
open Js Loop

/-! ## Calls and replies -/

inductive CallOutcome
  | ok
  | schema_mismatch
  | refusal
  | error
  | timeout
deriving DecidableEq

/-- A `ModelCallRecord`, as far as it differs from call to call. -/
structure ModelCallRecord where
  inputTokens : Nat
  outputTokens : Nat
  cachedTokens : Nat
  costMicros : Nat
  outcome : CallOutcome
  detail : Text
deriving DecidableEq

/-- `usageOf` of a reply and what `costMicros` makes of it; zeros where none was reported. -/
structure Usage where
  inputTokens : Nat
  outputTokens : Nat
  cachedTokens : Nat
  costMicros : Nat
deriving DecidableEq

/-- How a part's call ends: the call throws, or the reply stops for a reason. -/
inductive Answer
  | rejected (outcome : CallOutcome) (detail : Text)
  | refusal
  | max_tokens
  | output (fields : Option (List WireField))
deriving DecidableEq

structure PartReply where
  usage : Usage
  answer : Answer
deriving DecidableEq

/-- Why a part of a paged read did not come back as rows. -/
inductive PartFailure
  | refused (range : PageRange)
  | cut_off (range : PageRange) (outputTokens : Nat)
  | unparseable (range : PageRange)
  | error (range : PageRange) (outcome : CallOutcome) (detail : Text)
deriving DecidableEq

/-- How a paged read ends without a result. -/
inductive ReadError
  | range (error : PagingError)
  | extraction (message : Text) (call : ModelCallRecord)
  | refusal (message : Text) (call : ModelCallRecord)
deriving DecidableEq

structure Spent where
  calls : Nat
  inputTokens : Nat
  outputTokens : Nat
  cachedTokens : Nat
  costMicros : Nat

/-- What the read has so far. -/
structure PagedRead where
  spent : Spent
  asked : List PageRange
  halved : List Text
  readings : List ChunkReading

/-- One paged read: the document's pages and type, the policy, the first (cut-off) call, and the reply
to each call after it, counted from 1. -/
structure PagedRequest where
  pageCount : Nat
  schema : List SchemaProperty
  policy : PagingPolicy
  first : Usage
  reply : Nat → PartReply

/-- Where the loops stand: at the head of a wave, or at a batch of one. -/
inductive Phase
  | wave (wave : List PageRange)
  | batch (wave : List PageRange) (at_ : Int) (next : List PageRange)

structure PagedResult where
  read : PagedRead
  merge : ChunkMerge

def PagedRead.start (first : Usage) : PagedRead :=
  ⟨⟨1, first.inputTokens, first.outputTokens, first.cachedTokens, first.costMicros⟩, [], [], []⟩

/-! ## What is recorded -/

/-- `PAGED_DETAIL_LIMIT`. -/
def PAGED_DETAIL_LIMIT : Nat := 1000

def PagedRead.record (s : PagedRead) (outcome : CallOutcome) (detail : Text) : ModelCallRecord :=
  ⟨s.spent.inputTokens, s.spent.outputTokens, s.spent.cachedTokens, s.spent.costMicros, outcome,
    sliceTo PAGED_DETAIL_LIMIT detail⟩

def pagedHow (first : Usage) (s : PagedRead) : Text :=
  "paged after stop_reason=max_tokens at ".toList ++ decimal first.outputTokens ++ " output tokens: ".toList ++
    decimal s.spent.calls ++ " calls, pages ".toList ++ List.intercalate [','] (s.asked.map rangeLabel) ++
    (if s.halved = [] then [] else "; halved ".toList ++ List.intercalate ", ".toList s.halved)

def partFailed (first : Usage) (s : PagedRead) : PartFailure → ReadError
  | .refused range =>
    .refusal ("the extractor declined pages ".toList ++ rangeLabel range ++ " of this document".toList)
      (s.record .refusal (pagedHow first s ++ "; refused on pages ".toList ++ rangeLabel range))
  | .cut_off range outputTokens =>
    .extraction ("page ".toList ++ rangeLabel range ++ " alone was cut off at ".toList ++ decimal outputTokens ++
        " output tokens: split the document and retry".toList)
      (s.record .schema_mismatch
        (pagedHow first s ++ "; stop_reason=max_tokens on page ".toList ++ rangeLabel range ++ " alone".toList))
  | .unparseable range =>
    .extraction ("the extractor returned no parseable output for pages ".toList ++ rangeLabel range)
      (s.record .schema_mismatch (pagedHow first s ++ "; no parseable output on pages ".toList ++ rangeLabel range))
  | .error range outcome detail =>
    .extraction ("extraction failed on pages ".toList ++ rangeLabel range ++ ": ".toList ++ detail)
      (s.record outcome (pagedHow first s ++ "; pages ".toList ++ rangeLabel range ++ ": ".toList ++ detail))

/-- `MAX_ROWS_PER_GROUP` (wire.ts). -/
def MAX_ROWS_PER_GROUP : Nat := 500

/-- `refusePastRowCap`: the first group past the cap. -/
def refusePastRowCap (first : Usage) (s : PagedRead) (merge : ChunkMerge) : Except ReadError Unit :=
  match merge.rowCounts.find? fun (_, rows) => rows > MAX_ROWS_PER_GROUP with
  | none => .ok ()
  | some (group, rows) =>
    .error (.extraction
      ("a paged read found more than ".toList ++ decimal MAX_ROWS_PER_GROUP ++ " rows of ".toList ++ group ++
        ": split the document and retry".toList)
      (s.record .schema_mismatch
        (pagedHow first s ++ "; ".toList ++ decimal rows ++ " rows of ".toList ++ group ++ ", past the ".toList ++
          decimal MAX_ROWS_PER_GROUP ++ "-row cap: refused".toList)))

/-- The refusal of a wave that would pass the call cap. -/
def pastCallCap (q : PagedRequest) (s : PagedRead) (parts : Nat) : ReadError :=
  .extraction
    ("a paged read of ".toList ++ decimal q.pageCount ++ " pages would need more than ".toList ++
      decimalInt q.policy.maxCalls ++ " calls: split the document and retry".toList)
    (s.record .schema_mismatch
      (pagedHow q.first s ++ "; refused ".toList ++ decimal parts ++ " more parts past the ".toList ++
        decimalInt q.policy.maxCalls ++ "-call cap".toList))

/-! ## The loops -/

/-- What the replies of a batch write to. -/
structure Settled where
  read : PagedRead
  next : List PageRange
  failures : List PartFailure

def Settled.spend (s : Settled) (usage : Usage) : Settled :=
  { s with
    read := { s.read with
      spent := { s.read.spent with
        inputTokens := s.read.spent.inputTokens + usage.inputTokens
        outputTokens := s.read.spent.outputTokens + usage.outputTokens
        cachedTokens := s.read.spent.cachedTokens + usage.cachedTokens
        costMicros := s.read.spent.costMicros + usage.costMicros } } }

def Settled.fail (s : Settled) (failure : PartFailure) : Settled :=
  { s with failures := s.failures ++ [failure] }

def halvedLabel (range a b : PageRange) : Text :=
  rangeLabel range ++ '→' :: (rangeLabel a ++ '+' :: rangeLabel b)

/-- One settled call. -/
def takeReply (range : PageRange) (reply : PartReply) (s : Settled) : Settled :=
  let s := s.spend reply.usage
  match reply.answer with
  | .rejected outcome detail => s.fail (.error range outcome detail)
  | .refusal => s.fail (.refused range)
  | .max_tokens =>
    match halveRange range with
    | none => s.fail (.cut_off range reply.usage.outputTokens)
    | some (a, b) =>
      { s with
        read := { s.read with halved := s.read.halved ++ [halvedLabel range a b] }
        next := s.next ++ [a, b] }
  | .output none => s.fail (.unparseable range)
  | .output (some fields) =>
    { s with read := { s.read with readings := s.read.readings ++ [⟨range, fields⟩] } }

/-- The settled calls of a batch, the first of them call number `call`. -/
def settle (reply : Nat → PartReply) : Nat → List PageRange → Settled → Settled
  | _, [], s => s
  | call, range :: batch, s => settle reply (call + 1) batch (takeReply range (reply call) s)

/-- `list.slice(from, to)`. -/
def slice {α : Type*} (l : List α) (start stop : Int) : List α :=
  let bound (i : Int) : Nat := if i < 0 then (l.length + i).toNat else i.toNat
  (l.take (bound stop)).drop (bound start)

/-- The batch is sent: its calls are counted and its ranges listed. -/
def PagedRead.send (s : PagedRead) (batch : List PageRange) : PagedRead :=
  { s with
    spent := { s.spent with calls := s.spent.calls + batch.length }
    asked := s.asked ++ batch }

/-- The rest of a batch's turn, its calls settled: stop at the first failure, or past the row cap. -/
def checkBatch (q : PagedRequest) (s : Settled) : Except ReadError Unit :=
  match s.failures.head? with
  | some failure => .error (partFailed q.first s.read failure)
  | none =>
    match mergeChunkFields s.read.readings (describeFields q.schema) with
    | .error e => .error (.range e)
    | .ok merge => refusePastRowCap q.first s.read merge

/-- What follows the last wave. -/
def finish (q : PagedRequest) (s : PagedRead) : Except ReadError PagedResult :=
  match mergeChunkFields s.readings (describeFields q.schema) with
  | .error e => .error (.range e)
  | .ok merge =>
    match refusePastRowCap q.first s merge with
    | .error e => .error e
    | .ok () => .ok ⟨s, merge⟩

/-- One turn of the loops: of the `while` at the head of a wave, of the `for` inside one. -/
def turn (q : PagedRequest) : Phase × PagedRead → (Phase × PagedRead) ⊕ Except ReadError PagedResult
  | (.wave wave, s) =>
    if wave = [] then .inr (finish q s)
    else if (s.spent.calls + wave.length : Int) > q.policy.maxCalls then
      .inr (.error (pastCallCap q s wave.length))
    else .inl (.batch wave 0 [], s)
  | (.batch wave at_ next, s) =>
    if at_ < wave.length then
      let batch := slice wave at_ (at_ + q.policy.concurrency)
      let settled := settle q.reply s.spent.calls batch ⟨s.send batch, next, []⟩
      match checkBatch q settled with
      | .error e => .inr (.error e)
      | .ok () => .inl (.batch wave (at_ + q.policy.concurrency) settled.next, settled.read)
    else .inl (.wave next, s)

/-- `readInPages` ends with `r`: a plan that throws ends it at once, else its loops stop with `r`. -/
def ReadsInPages (q : PagedRequest) (r : Except ReadError PagedResult) : Prop :=
  match planPageChunks q.pageCount q.policy.pagesPerChunk with
  | .error e => r = .error (.range e)
  | .ok plan => Stops (turn q) (.wave plan, .start q.first) r

end Recouple.Extraction
