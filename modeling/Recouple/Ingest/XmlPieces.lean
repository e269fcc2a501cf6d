import Recouple.Ingest.SheetXml

/-!
# The spreadsheet XML in pieces: `sheet-xml.ts`

`pieces` is the string cut into texts and tags, before anything is decoded. The reader reads them one after another and
stops at the first it refuses (`tokenizeFrom_eq`); what it decodes is a slice of the string (`pieces_slice`). A text is
decoded where each of its references is one the reader takes, and is no longer where they are legal
(`decodeXmlText_length`).
-/

namespace Recouple.Ingest
open Js Js.Units KeyedFold

/-! ## References -/

/-- The references of a text. -/
def references (raw : Units) : List Reference :=
  (segments raw).filterMap fun
    | .kept _ => none
    | .reference r => some r

/-- A reference there is to be: one of the five names, or a number in range. -/
def Reference.Legal (r : Reference) : Prop :=
  r.closed = true ∧ (r.name ∈ named.map Prod.fst ∨ ∃ code ∈ referenceCode r.name, code ≤ 0x10ffff)

/-- A reference named like a property every object has. -/
def Reference.Inherited (r : Reference) : Prop := r.closed = true ∧ r.name ∈ objectProperties.map Prod.fst

theorem named_not_inherited : ∀ name ∈ objectProperties.map Prod.fst,
    name ∉ named.map Prod.fst ∧ referenceCode name = none := by
  decide

theorem Reference.Legal.not_inherited {r : Reference} (h : r.Legal) : ¬ r.Inherited := by
  rintro ⟨-, hname⟩
  obtain ⟨hnamed, hcode⟩ := named_not_inherited r.name hname
  rcases h.2 with h | ⟨code, h, -⟩
  · exact hnamed h
  · rw [hcode] at h
    cases h

theorem lookup_none_iff {entries : List (Units × Units)} {name : Units} :
    entries.lookup name = none ↔ name ∉ entries.map Prod.fst := by
  rw [List.lookup_eq_none_iff]
  constructor
  · intro h hmem
    obtain ⟨entry, hentry, rfl⟩ := List.mem_map.1 hmem
    exact absurd (h entry hentry) (by simp)
  · intro h entry hentry
    exact bne_iff_ne.2 fun heq => h (List.mem_map.2 ⟨entry, hentry, heq.symm⟩)

/-- What the reader takes for a reference. -/
theorem resolve_ok_iff {r : Reference} : (∃ value, resolve r = .ok value) ↔ r.Legal ∨ r.Inherited := by
  unfold resolve Reference.Legal Reference.Inherited
  cases hclosed : r.closed with
  | false => simp
  | true =>
    simp only [Bool.true_eq_false, if_false, true_and]
    cases hlookup : (named ++ objectProperties).lookup r.name with
    | some value =>
      have hmem : r.name ∈ (named ++ objectProperties).map Prod.fst := by
        by_contra hnot
        rw [lookup_none_iff.2 hnot] at hlookup
        cases hlookup
      rw [List.map_append, List.mem_append] at hmem
      refine ⟨fun _ => hmem.elim (fun h => .inl (.inl h)) .inr, fun _ => ⟨value, rfl⟩⟩
    | none =>
      have hnot := lookup_none_iff.1 hlookup
      rw [List.map_append, List.mem_append, not_or] at hnot
      cases hcode : referenceCode r.name with
      | none => simp [hnot]
      | some code =>
        dsimp only
        split
        case isTrue hlarge =>
          constructor
          · rintro ⟨value, h⟩
            cases h
          · rintro ((h | ⟨code', hcode', hle⟩) | h)
            · exact absurd h hnot.1
            · rw [← Option.some.inj hcode'] at hle
              omega
            · exact absurd h hnot.2
        case isFalse hsmall => exact ⟨fun _ => .inl (.inr ⟨code, rfl, Nat.le_of_not_lt hsmall⟩), fun _ => ⟨_, rfl⟩⟩

theorem length_pointUnits (p : Nat) : (pointUnits p).length ≤ 2 := by
  unfold pointUnits
  split <;> simp

/-- A legal reference is written shorter than it stands. -/
theorem Reference.Legal.length_le {r : Reference} (h : r.Legal) {value : Units} (hvalue : resolve r = .ok value) :
    value.length ≤ r.name.length + 2 := by
  unfold resolve at hvalue
  rw [h.1, if_neg (by simp)] at hvalue
  cases hlookup : (named ++ objectProperties).lookup r.name with
  | some found =>
    rw [hlookup] at hvalue
    obtain rfl := Except.ok.inj hvalue
    have hnotObject : objectProperties.lookup r.name = none :=
      lookup_none_iff.2 fun hmem => h.not_inherited ⟨h.1, hmem⟩
    have hnamed : (r.name, found) ∈ named := by
      rw [List.lookup_append, hnotObject, Option.or_none] at hlookup
      obtain ⟨before, after, hsplit, -⟩ := List.lookup_eq_some_iff.1 hlookup
      rw [hsplit]
      simp
    have hone : ∀ entry ∈ named, entry.2.length = 1 := by decide
    have hlength : found.length = 1 := hone _ hnamed
    omega
  | none =>
    rw [hlookup] at hvalue
    cases hcode : referenceCode r.name with
    | none =>
      rw [hcode] at hvalue
      cases hvalue
    | some code =>
      rw [hcode] at hvalue
      dsimp only at hvalue
      split at hvalue
      · cases hvalue
      · obtain rfl := Except.ok.inj hvalue
        have := length_pointUnits code
        simp only [fromCodePoint, List.length_map]
        omega

/-! ## Texts -/

/-- The units a segment stands for. -/
def Segment.width : Segment → Nat
  | .kept _ => 1
  | .reference r => r.name.length + (if r.closed then 2 else 1)

theorem segments_nil : segments [] = [] := by rw [segments]

theorem segments_cons (u : UInt16) (rest : Units) : segments (u :: rest) =
    if u = unit '&' then
      if (rest.dropWhile inReference).head? = some (unit ';') then
        .reference ⟨rest.takeWhile inReference, true⟩ :: segments (rest.dropWhile inReference).tail
      else .reference ⟨rest.takeWhile inReference, false⟩ :: segments (rest.dropWhile inReference)
    else .kept u :: segments rest := by
  rw [segments]

/-- The segments cover the text. -/
theorem sum_width (raw : Units) : ((segments raw).map Segment.width).sum = raw.length := by
  have hlength : ∀ rest : Units,
      (rest.takeWhile inReference).length + (rest.dropWhile inReference).length = rest.length := fun rest => by
    rw [← List.length_append, List.takeWhile_append_dropWhile]
  induction raw using segments.induct with
  | case1 => rw [segments_nil]; rfl
  | case2 rest hclosed ih =>
    rw [segments_cons, if_pos rfl, if_pos hclosed, List.map_cons, List.sum_cons, ih]
    have hpos : 0 < (rest.dropWhile inReference).length :=
      List.length_pos_iff.2 fun hnil => by rw [hnil] at hclosed; cases hclosed
    have := hlength rest
    simp only [Segment.width, List.length_tail, List.length_cons, if_true]
    omega
  | case3 rest hopen ih =>
    rw [segments_cons, if_pos rfl, if_neg hopen, List.map_cons, List.sum_cons, ih]
    have := hlength rest
    simp only [Segment.width, List.length_cons, Bool.false_eq_true, if_false]
    omega
  | case4 u rest hamp ih =>
    rw [segments_cons, if_neg hamp, List.map_cons, List.sum_cons, ih]
    simp only [Segment.width, List.length_cons]
    omega

theorem decodeXmlText_ok {raw text : Units} : decodeXmlText raw = .ok text ↔
    ∃ parts, (segments raw).mapM Segment.decode = .ok parts ∧ parts.flatten = text := by
  unfold decodeXmlText
  rw [bind_ok]
  constructor
  · rintro ⟨parts, hparts, h⟩
    exact ⟨parts, hparts, Except.ok.inj h⟩
  · rintro ⟨parts, hparts, rfl⟩
    exact ⟨parts, hparts, rfl⟩

theorem mem_references {raw : Units} {r : Reference} : r ∈ references raw ↔ Segment.reference r ∈ segments raw := by
  unfold references
  rw [List.mem_filterMap]
  constructor
  · rintro ⟨segment, hmem, h⟩
    cases segment with
    | kept u => cases h
    | reference s => rwa [← Option.some.inj h]
  · exact fun h => ⟨_, h, rfl⟩

/-- A text is decoded where each of its references is taken. -/
theorem decodeXmlText_returns_iff {raw : Units} :
    (∃ text, decodeXmlText raw = .ok text) ↔ ∀ r ∈ references raw, r.Legal ∨ r.Inherited := by
  constructor
  · rintro ⟨text, h⟩ r hr
    obtain ⟨parts, hparts, -⟩ := decodeXmlText_ok.1 h
    obtain ⟨value, -, hvalue⟩ := exists_of_mem_left (mapM_forall₂ hparts) (mem_references.1 hr)
    exact resolve_ok_iff.1 ⟨value, hvalue⟩
  · intro h
    obtain ⟨parts, hparts⟩ := mapM_returns (f := Segment.decode) (l := segments raw) fun segment hmem => by
      cases segment with
      | kept u => exact ⟨[u], rfl⟩
      | reference r => exact resolve_ok_iff.2 (h r (mem_references.2 hmem))
    exact ⟨parts.flatten, decodeXmlText_ok.2 ⟨parts, hparts, rfl⟩⟩

/-- A text of legal references is no longer decoded than it stands. -/
theorem decodeXmlText_length {raw text : Units} (h : decodeXmlText raw = .ok text)
    (hlegal : ∀ r ∈ references raw, r.Legal) : text.length ≤ raw.length := by
  obtain ⟨parts, hparts, rfl⟩ := decodeXmlText_ok.1 h
  have hforall := mapM_forall₂ hparts
  have hwidths : ∀ {segments : List Segment} {parts : List Units},
      List.Forall₂ (fun s part => s.decode = .ok part) segments parts →
      (∀ r, Segment.reference r ∈ segments → r.Legal) →
      parts.flatten.length ≤ (segments.map Segment.width).sum := by
    intro segments parts hparts hall
    induction hparts with
    | nil => exact Nat.le_refl _
    | @cons segment part segments parts hpart hrest ih =>
      have hone : part.length ≤ segment.width := by
        cases segment with
        | kept u =>
          obtain rfl := Except.ok.inj hpart
          exact Nat.le_refl _
        | reference r =>
          have hr := hall r (by simp)
          have := hr.length_le hpart
          simpa [Segment.width, hr.1] using this
      have := ih fun r hr => hall r (by simp [hr])
      rw [List.flatten_cons, List.length_append, List.map_cons, List.sum_cons]
      omega
  rw [← sum_width raw]
  exact hwidths hforall fun r hr => hlegal r (mem_references.2 hr)

/-! ## The string in pieces -/

/-- An attribute as it stands, or the place where the pattern finds none. -/
inductive RawAttr
  | found (name raw : Units)
  | malformed
deriving DecidableEq

/-- What `parseAttrs` comes to. -/
def attrPieces (src : Units) : List RawAttr :=
  if src.all isSpaceUnit then []
  else match _h : attrMatch src with
    | none => [.malformed]
    | some (name, raw, after) => .found name raw :: attrPieces after
termination_by src.length
decreasing_by exact attrMatch_length _h

/-- A text, a tag, or the place where the string is no XML. -/
inductive Piece
  | text (raw : Units)
  | closing (name : Units)
  | opening (name : Units) (attrs : List RawAttr) (selfClosing : Bool)
  | malformed (e : XmlError)
deriving DecidableEq

def tagPiece (inner : Units) : Piece :=
  if inner.head? = some (unit '/') then
    match nameOf (trimUnits inner.tail) with
    | none => .malformed .malformedClosingTag
    | some (name, _) => .closing name
  else
    let selfClosing := inner.getLast? = some (unit '/')
    match nameOf (if selfClosing then inner.dropLast else inner) with
    | none => .malformed .malformedTag
    | some (name, rest) => .opening name (attrPieces rest) selfClosing

def pieces : Units → List Piece
  | [] => []
  | u :: rest =>
    if _hlt : u ≠ unit '<' then
      .text ((u :: rest).takeWhile (· != unit '<')) :: pieces ((u :: rest).dropWhile (· != unit '<'))
    else if rest.head? = some (unit '?') then
      match _h : afterInstruction rest.tail with
      | none => [.malformed .unterminatedInstruction]
      | some after => pieces after
    else
      match _h : findTagEnd none rest with
      | .error e => [.malformed e]
      | .ok (inner, after) => tagPiece inner :: pieces after
termination_by s => s.length
decreasing_by
  · have := (List.dropWhile_sublist (· != unit '<') (l := rest)).length_le
    rw [List.dropWhile_cons_of_pos (by simpa using _hlt), List.length_cons]
    omega
  · have := afterInstruction_length _h
    rw [List.length_cons]
    omega
  · have := findTagEnd_length _h
    rw [List.length_cons]
    omega

/-- What `parseAttrs` makes of its pieces, past the attributes read so far. -/
def readAttrs (attrs : List (Units × Units)) : List RawAttr → Except XmlError (List (Units × Units))
  | [] => .ok attrs
  | .malformed :: _ => .error .malformedAttribute
  | .found name raw :: rest =>
    if inObject (attrs.map Prod.fst) name then .error .duplicateAttribute
    else do
      let value ← decodeXmlText raw
      readAttrs (attrs ++ [(name, value)]) rest

def readPiece : Piece → Except XmlError XmlToken
  | .text raw => do
    let text ← decodeXmlText raw
    return .text text
  | .closing name => .ok (.closing name)
  | .opening name attrs selfClosing => do
    let attrs ← readAttrs [] attrs
    return .opening name attrs selfClosing
  | .malformed e => .error e

theorem parseAttrsFrom_step (attrs : List (Units × Units)) (src : Units) : parseAttrsFrom attrs src =
    if src.all isSpaceUnit then .ok attrs
    else match attrMatch src with
      | none => .error .malformedAttribute
      | some (name, raw, after) =>
        if inObject (attrs.map Prod.fst) name then .error .duplicateAttribute
        else decodeXmlText raw >>= fun value => parseAttrsFrom (attrs ++ [(name, value)]) after := by
  rw [parseAttrsFrom]
  split
  · rfl
  · split
    · rename_i h
      rw [h]
    · rename_i h
      rw [h]

theorem attrPieces_step (src : Units) : attrPieces src =
    if src.all isSpaceUnit then []
    else match attrMatch src with
      | none => [.malformed]
      | some (name, raw, after) => .found name raw :: attrPieces after := by
  rw [attrPieces]
  split
  · rfl
  · split
    · rename_i h
      rw [h]
    · rename_i h
      rw [h]

theorem parseAttrsFrom_eq (attrs : List (Units × Units)) (src : Units) :
    parseAttrsFrom attrs src = readAttrs attrs (attrPieces src) := by
  induction hn : src.length using Nat.strong_induction_on generalizing attrs src with
  | h n ih =>
    subst hn
    rw [parseAttrsFrom_step, attrPieces_step]
    split
    · rfl
    · cases hmatch : attrMatch src with
      | none => rfl
      | some found =>
        obtain ⟨name, raw, after⟩ := found
        dsimp only
        rw [readAttrs]
        split
        · rfl
        · cases decodeXmlText raw with
          | error e => rfl
          | ok value => exact ih after.length (attrMatch_length hmatch) _ after rfl

theorem readTag_eq (inner : Units) : readTag inner = readPiece (tagPiece inner) := by
  unfold readTag tagPiece
  split
  · cases nameOf (trimUnits inner.tail) <;> rfl
  · dsimp only
    cases nameOf (if inner.getLast? = some (unit '/') then inner.dropLast else inner) with
    | none => rfl
    | some found =>
      show (parseAttrs found.2 >>= _) = (readAttrs [] (attrPieces found.2) >>= _)
      rw [parseAttrs, parseAttrsFrom_eq]

theorem tokenizeFrom_step (u : UInt16) (rest : Units) : tokenizeFrom (u :: rest) =
    if u ≠ unit '<' then do
      let text ← decodeXmlText ((u :: rest).takeWhile (· != unit '<'))
      let tokens ← tokenizeFrom ((u :: rest).dropWhile (· != unit '<'))
      return .text text :: tokens
    else if rest.head? = some (unit '?') then
      match afterInstruction rest.tail with
      | none => .error .unterminatedInstruction
      | some after => tokenizeFrom after
    else
      match findTagEnd none rest with
      | .error e => .error e
      | .ok (inner, after) =>
        readTag inner >>= fun token => tokenizeFrom after >>= fun tokens => pure (token :: tokens) := by
  rw [tokenizeFrom]
  split
  · rfl
  · split
    · split
      · rename_i h
        rw [h]
      · rename_i h
        rw [h]
    · split
      · rename_i h
        rw [h]
      · rename_i h
        rw [h]

theorem pieces_step (u : UInt16) (rest : Units) : pieces (u :: rest) =
    if u ≠ unit '<' then
      .text ((u :: rest).takeWhile (· != unit '<')) :: pieces ((u :: rest).dropWhile (· != unit '<'))
    else if rest.head? = some (unit '?') then
      match afterInstruction rest.tail with
      | none => [.malformed .unterminatedInstruction]
      | some after => pieces after
    else
      match findTagEnd none rest with
      | .error e => [.malformed e]
      | .ok (inner, after) => tagPiece inner :: pieces after := by
  rw [pieces]
  split
  · rfl
  · split
    · split
      · rename_i h
        rw [h]
      · rename_i h
        rw [h]
    · split
      · rename_i h
        rw [h]
      · rename_i h
        rw [h]

/-- The reader reads the pieces one after another, up to the first it refuses. -/
theorem tokenizeFrom_eq (xml : Units) : tokenizeFrom xml = (pieces xml).mapM readPiece := by
  induction hn : xml.length using Nat.strong_induction_on generalizing xml with
  | h n ih =>
    subst hn
    cases xml with
    | nil => rw [tokenizeFrom, pieces]; rfl
    | cons u rest =>
      rw [tokenizeFrom_step, pieces_step]
      split
      case isTrue hne =>
        have hshorter : ((u :: rest).dropWhile (· != unit '<')).length < (u :: rest).length := by
          have := (List.dropWhile_sublist (· != unit '<') (l := rest)).length_le
          rw [List.dropWhile_cons_of_pos (by simpa using hne), List.length_cons]
          omega
        rw [List.mapM_cons, readPiece, ih _ hshorter _ rfl]
        cases decodeXmlText ((u :: rest).takeWhile (· != unit '<')) <;> rfl
      case isFalse =>
        split
        · cases h : afterInstruction rest.tail with
          | none => rfl
          | some after =>
            have := afterInstruction_length h
            exact ih after.length (by rw [List.length_cons]; omega) after rfl
        · cases h : findTagEnd none rest with
          | error e => rfl
          | ok found =>
            obtain ⟨inner, after⟩ := found
            have := findTagEnd_length h
            dsimp only
            rw [List.mapM_cons, readTag_eq, ih after.length (by rw [List.length_cons]; omega) after rfl]

/-! ## Slices -/

/-- The texts and the values of a piece, as they stand. -/
def RawAttr.raws : RawAttr → List Units
  | .found _ raw => [raw]
  | .malformed => []

def Piece.raws : Piece → List Units
  | .text raw => [raw]
  | .opening _ attrs _ => attrs.flatMap RawAttr.raws
  | _ => []

theorem attrPieces_slice (src : Units) : ∀ attr ∈ attrPieces src, ∀ raw ∈ attr.raws, raw <:+: src := by
  induction hn : src.length using Nat.strong_induction_on generalizing src with
  | h n ih =>
    subst hn
    rw [attrPieces_step]
    split
    · simp
    · cases hmatch : attrMatch src with
      | none => simp [RawAttr.raws]
      | some found =>
        obtain ⟨name, raw, after⟩ := found
        obtain ⟨front, quoteUnit, hsplit⟩ := attrMatch_split hmatch
        have hafter : after <:+: src := ⟨front ++ raw ++ [quoteUnit], [], by rw [hsplit]; simp⟩
        refine List.forall_mem_cons.2 ⟨fun r hr => ?_, fun attr hattr r hr =>
          (ih after.length (attrMatch_length hmatch) after rfl attr hattr r hr).trans hafter⟩
        rw [List.mem_singleton.1 hr]
        exact ⟨front, quoteUnit :: after, hsplit.symm⟩

theorem tagPiece_slice (inner : Units) : ∀ raw ∈ (tagPiece inner).raws, raw <:+: inner := by
  unfold tagPiece
  split
  · cases nameOf (trimUnits inner.tail) <;> simp [Piece.raws]
  · dsimp only
    have hbody : (if inner.getLast? = some (unit '/') then inner.dropLast else inner) <:+: inner := by
      split
      · exact (List.dropLast_prefix inner).isInfix
      · exact List.infix_rfl
    generalize (if inner.getLast? = some (unit '/') then inner.dropLast else inner) = body at hbody
    cases hname : nameOf body with
    | none => simp [Piece.raws]
    | some found =>
      obtain ⟨name, rest⟩ := found
      intro raw hraw
      obtain ⟨attr, hattr, hraw⟩ := List.mem_flatMap.1 hraw
      have hrest : rest <:+: body := ⟨name, [], by rw [List.append_nil, ← nameOf_split hname]⟩
      exact ((attrPieces_slice rest attr hattr raw hraw).trans hrest).trans hbody

/-- What is decoded is a slice of the string. -/
theorem pieces_slice (xml : Units) : ∀ piece ∈ pieces xml, ∀ raw ∈ piece.raws, raw <:+: xml := by
  induction hn : xml.length using Nat.strong_induction_on generalizing xml with
  | h n ih =>
    subst hn
    cases xml with
    | nil => rw [pieces]; simp
    | cons u rest =>
      have hafter : ∀ {after front : Units}, u :: rest = front ++ after → front ≠ [] →
          ∀ piece ∈ pieces after, ∀ raw ∈ piece.raws, raw <:+: u :: rest := by
        intro after front hsplit hfront piece hpiece raw hraw
        have hpos := List.length_pos_iff.2 hfront
        have hshorter : after.length < (u :: rest).length := by rw [hsplit, List.length_append]; omega
        exact (ih after.length hshorter after rfl piece hpiece raw hraw).trans ⟨front, [], by rw [hsplit]; simp⟩
      rw [pieces_step]
      split
      case isTrue hne =>
        have hsplit : u :: rest = (u :: rest).takeWhile (· != unit '<') ++ (u :: rest).dropWhile (· != unit '<') :=
          List.takeWhile_append_dropWhile.symm
        refine List.forall_mem_cons.2 ⟨fun raw hraw => ?_, hafter hsplit ?_⟩
        · rw [List.mem_singleton.1 hraw]
          exact (List.takeWhile_prefix _).isInfix
        · rw [List.takeWhile_cons_of_pos (by simpa using hne)]
          exact List.cons_ne_nil _ _
      case isFalse =>
        split
        · cases h : afterInstruction rest.tail with
          | none => simp [Piece.raws]
          | some after =>
            obtain ⟨front, hfront⟩ := afterInstruction_split h
            cases rest with
            | nil => simp at hfront
            | cons v rest =>
              exact @hafter after (u :: v :: front ++ [unit '?', unit '>']) (by
                rw [List.tail_cons] at hfront
                rw [hfront]
                simp) (by simp)
        · cases h : findTagEnd none rest with
          | error e => simp [Piece.raws]
          | ok found =>
            obtain ⟨inner, after⟩ := found
            obtain ⟨close, hclose⟩ := findTagEnd_split h
            have hinner : inner <:+: u :: rest := ⟨[u], close :: after, by rw [hclose]; simp⟩
            refine List.forall_mem_cons.2 ⟨fun raw hraw => (tagPiece_slice inner raw hraw).trans hinner,
              @hafter after (u :: inner ++ [close]) (by rw [hclose]; simp) (by simp)⟩

end Recouple.Ingest
