import Recouple.Ingest.XmlPieces

/-!
# What the spreadsheet XML reader may write: `sheet-xml.ts`

`NeverExpands` is what is asked of the reader: no text or value is longer than the slice it was decoded from, the
references are the five names and the numbers up to 10FFFF, the attributes of a tag have different names, and a tag is
refused for duplicates only where it has some.

* **`never_expands_iff`**: so it is exactly for the strings `Untouched` by the properties every object has: the reader
  comes to no attribute named like one in a tag of different names, and takes no reference named like one. And what
  is written with the five names is decoded to what it was.
* `toString_expands`: `&toString;` is read as the text of a function.
-/

namespace Recouple.Ingest
open Js Js.Units KeyedFold

/-! ## What the reader takes -/

/-- The names of the attributes of a tag. -/
def RawAttr.names : RawAttr → List Units
  | .found name _ => [name]
  | .malformed => []

def rawNames (attrs : List RawAttr) : List Units := attrs.flatMap RawAttr.names

/-- A text whose references the reader takes. -/
def Passable (raw : Units) : Prop := ∀ r ∈ references raw, r.Legal ∨ r.Inherited

/-- An attribute the reader takes, where no other has its name. -/
def RawAttr.Passes : RawAttr → Prop
  | .found name raw => name ∉ objectProperties.map Prod.fst ∧ Passable raw
  | .malformed => False

def Piece.Passes : Piece → Prop
  | .text raw => Passable raw
  | .closing _ => True
  | .opening _ attrs _ => (∀ attr ∈ attrs, attr.Passes) ∧ (rawNames attrs).Nodup
  | .malformed _ => False

/-- A tag of different names in which the reader comes to one every object has. -/
def Piece.FalseDuplicate : Piece → Prop
  | .opening _ attrs _ => (rawNames attrs).Nodup ∧ ∃ before name raw after,
      attrs = before ++ .found name raw :: after ∧ (∀ attr ∈ before, attr.Passes) ∧
        name ∈ objectProperties.map Prod.fst
  | _ => False

theorem inObject_iff {own : List Units} {name : Units} :
    inObject own name = true ↔ name ∈ own ∨ name ∈ objectProperties.map Prod.fst := by
  simp [inObject]

theorem decodeXmlText_not_duplicate (raw : Units) : decodeXmlText raw ≠ .error .duplicateAttribute := by
  intro h
  unfold decodeXmlText at h
  rcases bind_error h with h | ⟨parts, -, h⟩
  · obtain ⟨segment, -, h⟩ := mapM_error h
    cases segment with
    | kept u => cases h
    | reference r =>
      replace h : resolve r = .error .duplicateAttribute := h
      unfold resolve at h
      split at h
      · cases h
      · split at h
        · cases h
        · split at h
          · cases h
          · split at h <;> cases h
  · cases h

theorem readAttrs_cons_ok {attrs out : List (Units × Units)} {name raw : Units} {rest : List RawAttr} :
    readAttrs attrs (.found name raw :: rest) = .ok out ↔
      name ∉ attrs.map Prod.fst ∧ name ∉ objectProperties.map Prod.fst ∧
        ∃ value, decodeXmlText raw = .ok value ∧ readAttrs (attrs ++ [(name, value)]) rest = .ok out := by
  rw [readAttrs]
  by_cases hin : inObject (attrs.map Prod.fst) name = true
  · rw [if_pos hin]
    rw [inObject_iff] at hin
    constructor
    · intro h
      cases h
    · rintro ⟨hown, hobject, -⟩
      exact absurd hin (not_or.2 ⟨hown, hobject⟩)
  · rw [if_neg hin, bind_ok]
    rw [inObject_iff, not_or] at hin
    exact ⟨fun h => ⟨hin.1, hin.2, h⟩, fun h => h.2.2⟩

/-- The attributes of a tag are taken where each is and their names are different. -/
theorem readAttrs_returns_iff {attrs : List (Units × Units)} (hnodup : (attrs.map Prod.fst).Nodup)
    (rest : List RawAttr) : (∃ out, readAttrs attrs rest = .ok out) ↔
      (∀ attr ∈ rest, attr.Passes) ∧ (attrs.map Prod.fst ++ rawNames rest).Nodup := by
  induction rest generalizing attrs with
  | nil => simp [readAttrs, rawNames, hnodup]
  | cons attr rest ih =>
    cases attr with
    | malformed => simp [readAttrs, RawAttr.Passes]
    | found name raw =>
      have hnames : ∀ value : Units, (attrs ++ [(name, value)]).map Prod.fst ++ rawNames rest =
          attrs.map Prod.fst ++ rawNames (.found name raw :: rest) := fun value => by
        simp [rawNames, RawAttr.names]
      have hfresh : name ∉ attrs.map Prod.fst → ∀ value : Units, ((attrs ++ [(name, value)]).map Prod.fst).Nodup := by
        intro hnot value
        rw [List.map_append, List.nodup_append']
        exact ⟨hnodup, List.nodup_singleton _, by simpa using hnot⟩
      rw [List.forall_mem_cons]
      constructor
      · rintro ⟨out, h⟩
        obtain ⟨hown, hobject, value, hvalue, h⟩ := readAttrs_cons_ok.1 h
        obtain ⟨hpass, hall⟩ := (ih (hfresh hown value)).1 ⟨out, h⟩
        rw [hnames] at hall
        exact ⟨⟨⟨hobject, decodeXmlText_returns_iff.1 ⟨value, hvalue⟩⟩, hpass⟩, hall⟩
      · rintro ⟨⟨⟨hobject, hpassable⟩, hpass⟩, hall⟩
        obtain ⟨value, hvalue⟩ := decodeXmlText_returns_iff.2 hpassable
        have hown : name ∉ attrs.map Prod.fst := by
          intro hmem
          rw [List.nodup_append'] at hall
          exact hall.2.2 hmem (by simp [rawNames, RawAttr.names])
        obtain ⟨out, h⟩ := (ih (hfresh hown value)).2 ⟨hpass, by rw [hnames]; exact hall⟩
        exact ⟨out, readAttrs_cons_ok.2 ⟨hown, hobject, value, hvalue, h⟩⟩

/-- A tag is refused for duplicates where it has some, or comes to a name every object has. -/
theorem readAttrs_duplicate_iff {attrs : List (Units × Units)} {rest : List RawAttr}
    (hnodup : (attrs.map Prod.fst ++ rawNames rest).Nodup) :
    readAttrs attrs rest = .error .duplicateAttribute ↔ ∃ before name raw after,
      rest = before ++ .found name raw :: after ∧ (∀ attr ∈ before, attr.Passes) ∧
        name ∈ objectProperties.map Prod.fst := by
  induction rest generalizing attrs with
  | nil => simp [readAttrs]
  | cons attr rest ih =>
    cases attr with
    | malformed =>
      constructor
      · intro h
        cases h
      · rintro ⟨before, name, raw, after, hsplit, hbefore, -⟩
        cases before with
        | nil => cases hsplit
        | cons attr before =>
          obtain ⟨rfl, -⟩ := List.cons.inj hsplit
          exact absurd (hbefore _ List.mem_cons_self) (by simp [RawAttr.Passes])
    | found name raw =>
      have hown : name ∉ attrs.map Prod.fst := by
        intro hmem
        rw [List.nodup_append'] at hnodup
        exact hnodup.2.2 hmem (by simp [rawNames, RawAttr.names])
      rw [readAttrs]
      by_cases hobject : name ∈ objectProperties.map Prod.fst
      · rw [if_pos (inObject_iff.2 (.inr hobject))]
        exact ⟨fun _ => ⟨[], name, raw, rest, rfl, by simp, hobject⟩, fun _ => rfl⟩
      · rw [if_neg fun h => (inObject_iff.1 h).elim hown hobject]
        cases hvalue : decodeXmlText raw with
        | error e =>
          constructor
          · intro h
            rw [show e = .duplicateAttribute from Except.error.inj h] at hvalue
            exact absurd hvalue (decodeXmlText_not_duplicate raw)
          · rintro ⟨before, name', raw', after, hsplit, hbefore, hmem⟩
            cases before with
            | nil =>
              obtain ⟨hattr, -⟩ := List.cons.inj hsplit
              obtain ⟨rfl, -⟩ := RawAttr.found.inj hattr
              exact absurd hmem hobject
            | cons attr before =>
              obtain ⟨rfl, -⟩ := List.cons.inj hsplit
              obtain ⟨value, h⟩ := decodeXmlText_returns_iff.2 (hbefore _ List.mem_cons_self).2
              rw [hvalue] at h
              cases h
        | ok value =>
          show readAttrs (attrs ++ [(name, value)]) rest = _ ↔ _
          rw [ih (by simpa [rawNames, RawAttr.names] using hnodup)]
          constructor
          · rintro ⟨before, name', raw', after, rfl, hbefore, hmem⟩
            refine ⟨.found name raw :: before, name', raw', after, rfl, List.forall_mem_cons.2 ⟨?_, hbefore⟩, hmem⟩
            exact ⟨hobject, decodeXmlText_returns_iff.1 ⟨value, hvalue⟩⟩
          · rintro ⟨before, name', raw', after, hsplit, hbefore, hmem⟩
            cases before with
            | nil =>
              obtain ⟨hattr, -⟩ := List.cons.inj hsplit
              obtain ⟨rfl, -⟩ := RawAttr.found.inj hattr
              exact absurd hmem hobject
            | cons attr before =>
              obtain ⟨-, rfl⟩ := List.cons.inj hsplit
              exact ⟨before, name', raw', after, rfl, fun a ha => hbefore a (List.mem_cons_of_mem _ ha), hmem⟩

theorem readPiece_returns_iff (piece : Piece) : (∃ token, readPiece piece = .ok token) ↔ piece.Passes := by
  cases piece with
  | text raw =>
    rw [Piece.Passes, Passable, ← decodeXmlText_returns_iff]
    constructor
    · rintro ⟨token, h⟩
      obtain ⟨text, htext, -⟩ := bind_ok.1 h
      exact ⟨text, htext⟩
    · rintro ⟨text, htext⟩
      exact ⟨.text text, bind_ok.2 ⟨text, htext, rfl⟩⟩
  | closing name => exact ⟨fun _ => trivial, fun _ => ⟨_, rfl⟩⟩
  | opening name attrs selfClosing =>
    have hreturns := @readAttrs_returns_iff [] List.nodup_nil attrs
    rw [List.map_nil, List.nil_append] at hreturns
    rw [Piece.Passes, ← hreturns]
    constructor
    · rintro ⟨token, h⟩
      obtain ⟨out, hout, -⟩ := bind_ok.1 h
      exact ⟨out, hout⟩
    · rintro ⟨out, hout⟩
      exact ⟨_, bind_ok.2 ⟨out, hout, rfl⟩⟩
  | malformed e =>
    constructor
    · rintro ⟨token, h⟩
      cases h
    · exact False.elim

/-! ## What is asked of the reader -/

/-- A value next to the slice it was decoded from. -/
def EntryNoLonger (attr : RawAttr) (entry : Units × Units) : Prop :=
  ∃ raw, attr = .found entry.1 raw ∧ entry.2.length ≤ raw.length

/-- A token next to the piece it was read from: nothing in it is longer, and its names are different. -/
def NoLonger : Piece → XmlToken → Prop
  | .text raw, .text text => text.length ≤ raw.length
  | .closing name, .closing name' => name = name'
  | .opening name attrs selfClosing, .opening name' entries selfClosing' =>
    name = name' ∧ selfClosing = selfClosing' ∧ List.Forall₂ EntryNoLonger attrs entries ∧
      (entries.map Prod.fst).Nodup
  | _, _ => False

/-- The attribute names of a piece. -/
def Piece.names : Piece → List Units
  | .opening _ attrs _ => rawNames attrs
  | _ => []

/-- What is asked of a run of the reader. -/
structure NeverExpands (xml : Units) : Prop where
  tokens : ∀ tokens, tokenizeXml xml = .ok tokens → List.Forall₂ NoLonger (pieces xml) tokens ∧
    ∀ piece ∈ pieces xml, ∀ raw ∈ piece.raws, raw <:+: xml ∧ ∀ r ∈ references raw, r.Legal
  duplicates : tokenizeXml xml = .error .duplicateAttribute → ∃ before piece after,
    pieces xml = before ++ piece :: after ∧ (∃ tokens, before.mapM readPiece = .ok tokens) ∧
      readPiece piece = .error .duplicateAttribute ∧ ¬ piece.names.Nodup

/-- What the properties every object has leave alone. -/
structure Untouched (xml : Units) : Prop where
  attributes : declares xml = false → ∀ before piece after, pieces xml = before ++ piece :: after →
    (∀ p ∈ before, p.Passes) → ¬ piece.FalseDuplicate
  references : declares xml = false → (∀ piece ∈ pieces xml, piece.Passes) →
    ∀ piece ∈ pieces xml, ∀ raw ∈ piece.raws, ∀ r ∈ references raw, ¬ r.Inherited

theorem tokenizeXml_eq {xml : Units} (h : declares xml = false) : tokenizeXml xml = (pieces xml).mapM readPiece := by
  rw [tokenizeXml, if_neg (by simp [h]), tokenizeFrom_eq]

/-- A run that refuses does so at the first piece that is refused. -/
theorem mapM_first_error {α β : Type} {f : α → Except XmlError β} {l : List α} {e : XmlError} :
    l.mapM f = .error e ↔ ∃ before a after, l = before ++ a :: after ∧
      (∃ bs, before.mapM f = .ok bs) ∧ f a = .error e := by
  constructor
  · intro h
    induction l with
    | nil => cases h
    | cons a l ih =>
      rw [List.mapM_cons] at h
      rcases bind_error h with ha | ⟨b, hb, h⟩
      · exact ⟨[], a, l, rfl, ⟨[], rfl⟩, ha⟩
      · rcases bind_error h with hl | ⟨bs, -, h⟩
        · obtain ⟨before, c, after, rfl, ⟨bs, hbs⟩, hc⟩ := ih hl
          refine ⟨a :: before, c, after, rfl, ⟨b :: bs, ?_⟩, hc⟩
          rw [List.mapM_cons]
          exact bind_ok.2 ⟨b, hb, bind_ok.2 ⟨bs, hbs, rfl⟩⟩
        · cases h
  · rintro ⟨before, a, after, rfl, ⟨bs, hbs⟩, ha⟩
    rw [List.mapM_append, hbs, List.mapM_cons, ha]
    rfl

theorem passes_of_reads {before : List Piece} : (∃ tokens, before.mapM readPiece = .ok tokens) ↔
    ∀ piece ∈ before, piece.Passes := by
  constructor
  · rintro ⟨tokens, h⟩ piece hpiece
    exact (readPiece_returns_iff piece).1 (mapM_all h piece hpiece)
  · exact fun h => mapM_returns fun piece hpiece => (readPiece_returns_iff piece).2 (h piece hpiece)

theorem step_not_duplicate {q : Option UInt16} {u : UInt16} {rest : Units}
    (h : findTagEnd q rest ≠ .error .duplicateAttribute) :
    (do
      let (inner, after) ← findTagEnd q rest
      return (u :: inner, after) : Except XmlError (Units × Units)) ≠ .error .duplicateAttribute := by
  intro hq
  rcases bind_error hq with hq | ⟨found, -, hq⟩
  · exact h hq
  · cases hq

theorem findTagEnd_not_duplicate (quoteUnit : Option UInt16) (s : Units) :
    findTagEnd quoteUnit s ≠ .error .duplicateAttribute := by
  intro h
  induction s generalizing quoteUnit with
  | nil => cases quoteUnit <;> cases h
  | cons u rest ih =>
    cases quoteUnit with
    | some q => exact step_not_duplicate (ih _) h
    | none =>
      rw [findTagEnd] at h
      split at h
      · exact step_not_duplicate (ih _) h
      · split at h
        · cases h
        · split at h
          · cases h
          · exact step_not_duplicate (ih _) h

/-- A place where the string is no XML is not refused for duplicates. -/
theorem not_mem_pieces (xml : Units) : Piece.malformed .duplicateAttribute ∉ pieces xml := by
  induction hn : xml.length using Nat.strong_induction_on generalizing xml with
  | h n ih =>
    subst hn
    cases xml with
    | nil => rw [pieces]; exact List.not_mem_nil
    | cons u rest =>
      rw [pieces_step]
      split
      case isTrue hne =>
        have hshorter : ((u :: rest).dropWhile (· != unit '<')).length < (u :: rest).length := by
          have := (List.dropWhile_sublist (· != unit '<') (l := rest)).length_le
          rw [List.dropWhile_cons_of_pos (by simpa using hne), List.length_cons]
          omega
        exact fun hmem => (List.mem_cons.1 hmem).elim (fun h => by cases h) (ih _ hshorter _ rfl)
      case isFalse =>
        split
        · cases h : afterInstruction rest.tail with
          | none => simp
          | some after =>
            have := afterInstruction_length h
            exact ih after.length (by rw [List.length_cons]; omega) after rfl
        · cases h : findTagEnd none rest with
          | error e =>
            rintro hmem
            rw [← Piece.malformed.inj (List.mem_singleton.1 hmem)] at h
            exact findTagEnd_not_duplicate none rest h
          | ok found =>
            obtain ⟨inner, after⟩ := found
            have := findTagEnd_length h
            refine fun hmem => (List.mem_cons.1 hmem).elim (fun htag => ?_)
              (ih after.length (by rw [List.length_cons]; omega) after rfl)
            unfold tagPiece at htag
            split at htag
            · split at htag <;> cases htag
            · dsimp only at htag
              split at htag <;> cases htag

theorem readPiece_duplicate_iff {piece : Piece} (hpiece : piece ≠ .malformed .duplicateAttribute)
    (hnames : piece.names.Nodup) :
    readPiece piece = .error .duplicateAttribute ↔ piece.FalseDuplicate := by
  cases piece with
  | text raw =>
    refine ⟨fun h => ?_, False.elim⟩
    rcases bind_error h with h | ⟨text, -, h⟩
    · exact decodeXmlText_not_duplicate raw h
    · cases h
  | closing name => exact ⟨fun h => (by cases h), False.elim⟩
  | opening name attrs selfClosing =>
    have hduplicate := @readAttrs_duplicate_iff [] attrs (by simpa [Piece.names] using hnames)
    rw [Piece.FalseDuplicate, ← hduplicate]
    constructor
    · intro h
      rcases bind_error h with h | ⟨out, -, h⟩
      · exact ⟨hnames, h⟩
      · cases h
    · rintro ⟨-, h⟩
      rw [readPiece, h]
      rfl
  | malformed e =>
    refine ⟨fun h => hpiece ?_, False.elim⟩
    rw [show e = .duplicateAttribute from Except.error.inj h]

/-- Attributes that are taken are read under their own names, and no longer where their references are legal. -/
theorem readAttrs_noLonger {attrs out : List (Units × Units)} {rest : List RawAttr}
    (h : readAttrs attrs rest = .ok out) (hlegal : ∀ attr ∈ rest, ∀ raw ∈ attr.raws, ∀ r ∈ references raw, r.Legal) :
    ∃ entries, out = attrs ++ entries ∧ List.Forall₂ EntryNoLonger rest entries := by
  induction rest generalizing attrs with
  | nil => exact ⟨[], by rw [List.append_nil, Except.ok.inj h], .nil⟩
  | cons attr rest ih =>
    cases attr with
    | malformed => cases h
    | found name raw =>
      obtain ⟨-, -, value, hvalue, h⟩ := readAttrs_cons_ok.1 h
      obtain ⟨entries, rfl, hentries⟩ := ih h fun attr hattr => hlegal attr (List.mem_cons_of_mem _ hattr)
      have hlength := decodeXmlText_length hvalue (hlegal _ List.mem_cons_self raw (List.mem_singleton.2 rfl))
      exact ⟨(name, value) :: entries, by simp, .cons ⟨raw, rfl, hlength⟩ hentries⟩

theorem names_of_entries {attrs : List RawAttr} {entries : List (Units × Units)}
    (h : List.Forall₂ EntryNoLonger attrs entries) : rawNames attrs = entries.map Prod.fst := by
  induction h with
  | nil => rfl
  | cons hentry _ ih =>
    obtain ⟨raw, rfl, -⟩ := hentry
    rw [rawNames, List.flatMap_cons, List.map_cons, ← ih]
    rfl

theorem readPiece_noLonger {piece : Piece} {token : XmlToken} (h : readPiece piece = .ok token)
    (hlegal : ∀ raw ∈ piece.raws, ∀ r ∈ references raw, r.Legal) : NoLonger piece token := by
  cases piece with
  | text raw =>
    obtain ⟨text, htext, h⟩ := bind_ok.1 h
    obtain rfl := Except.ok.inj h
    exact decodeXmlText_length htext (hlegal raw (List.mem_singleton.2 rfl))
  | closing name =>
    obtain rfl := Except.ok.inj h
    rfl
  | opening name attrs selfClosing =>
    have hpasses := (readPiece_returns_iff _).1 ⟨token, h⟩
    obtain ⟨out, hout, h⟩ := bind_ok.1 h
    obtain rfl := Except.ok.inj h
    obtain ⟨entries, rfl, hentries⟩ := readAttrs_noLonger hout fun attr hattr raw hraw =>
      hlegal raw (List.mem_flatMap.2 ⟨attr, hattr, hraw⟩)
    exact ⟨rfl, rfl, hentries, by rw [← names_of_entries hentries]; exact hpasses.2⟩
  | malformed e => cases h

theorem neverExpands_of_untouched {xml : Units} (h : Untouched xml) : NeverExpands xml where
  tokens tokens hok := by
    have hdeclares : declares xml = false := by
      by_contra hnot
      rw [tokenizeXml, if_pos (by simpa using hnot)] at hok
      cases hok
    rw [tokenizeXml_eq hdeclares] at hok
    have hpasses : ∀ piece ∈ pieces xml, piece.Passes := passes_of_reads.1 ⟨tokens, hok⟩
    have hlegal : ∀ piece ∈ pieces xml, ∀ raw ∈ piece.raws, ∀ r ∈ references raw, r.Legal := by
      intro piece hpiece raw hraw r hr
      have hpassable : Passable raw := by
        have hpass := hpasses piece hpiece
        cases piece with
        | text raw' =>
          obtain rfl := List.mem_singleton.1 hraw
          exact hpass
        | closing name => cases hraw
        | opening name attrs selfClosing =>
          obtain ⟨attr, hattr, hraw⟩ := List.mem_flatMap.1 hraw
          have hattr := hpass.1 attr hattr
          cases attr with
          | malformed => cases hraw
          | found name raw' =>
            obtain rfl := List.mem_singleton.1 hraw
            exact hattr.2
        | malformed e => cases hraw
      exact (hpassable r hr).resolve_right (h.references hdeclares hpasses piece hpiece raw hraw r hr)
    refine ⟨?_, fun piece hpiece raw hraw => ⟨pieces_slice xml piece hpiece raw hraw, hlegal piece hpiece raw hraw⟩⟩
    have hread := mapM_forall₂ hok
    have hboth : List.Forall₂ (fun piece token => piece ∈ pieces xml ∧ readPiece piece = .ok token) (pieces xml)
        tokens := (List.forall₂_and_left _ _).2 ⟨fun piece hpiece => hpiece, hread⟩
    exact hboth.imp fun piece token hpair => readPiece_noLonger hpair.2 (hlegal piece hpair.1)
  duplicates herror := by
    have hdeclares : declares xml = false := by
      by_contra hnot
      rw [tokenizeXml, if_pos (by simpa using hnot)] at herror
      cases herror
    rw [tokenizeXml_eq hdeclares] at herror
    obtain ⟨before, piece, after, hsplit, hbefore, hpiece⟩ := mapM_first_error.1 herror
    refine ⟨before, piece, after, hsplit, hbefore, hpiece, fun hnames => ?_⟩
    have hne : piece ≠ .malformed .duplicateAttribute := by
      rintro rfl
      exact not_mem_pieces xml (by rw [hsplit]; simp)
    exact h.attributes hdeclares before piece after hsplit (passes_of_reads.1 hbefore)
      ((readPiece_duplicate_iff hne hnames).1 hpiece)

theorem untouched_of_neverExpands {xml : Units} (h : NeverExpands xml) : Untouched xml where
  attributes hdeclares before piece after hsplit hbefore hfalse := by
    have hnames : piece.names.Nodup := by
      cases piece with
      | opening name attrs selfClosing => exact hfalse.1
      | text raw => exact List.nodup_nil
      | closing name => exact List.nodup_nil
      | malformed e => exact List.nodup_nil
    have hne : piece ≠ .malformed .duplicateAttribute := by
      rintro rfl
      exact hfalse
    have hpiece := (readPiece_duplicate_iff hne hnames).2 hfalse
    have herror : tokenizeXml xml = .error .duplicateAttribute := by
      rw [tokenizeXml_eq hdeclares, mapM_first_error]
      exact ⟨before, piece, after, hsplit, passes_of_reads.2 hbefore, hpiece⟩
    obtain ⟨before', piece', after', hsplit', hbefore', hpiece', hnames'⟩ := h.duplicates herror
    -- both cuts stand at the first piece the reader refuses
    have hrefused : ¬ piece.Passes := fun hpass => by
      obtain ⟨token, htoken⟩ := (readPiece_returns_iff piece).2 hpass
      rw [hpiece] at htoken
      cases htoken
    have hrefused' : ¬ piece'.Passes := fun hpass => by
      obtain ⟨token, htoken⟩ := (readPiece_returns_iff piece').2 hpass
      rw [hpiece'] at htoken
      cases htoken
    have hbefore' := passes_of_reads.1 hbefore'
    rw [hsplit] at hsplit'
    rcases List.append_eq_append_iff.1 hsplit' with ⟨z, hz, htail⟩ | ⟨z, hz, htail⟩
    · cases z with
      | nil =>
        obtain ⟨rfl, -⟩ := List.cons.inj htail
        exact hnames' hnames
      | cons p z =>
        obtain ⟨rfl, -⟩ := List.cons.inj htail
        exact hrefused (hbefore' _ (by rw [hz]; simp))
    · cases z with
      | nil =>
        obtain ⟨rfl, -⟩ := List.cons.inj htail
        exact hnames' hnames
      | cons p z =>
        obtain ⟨rfl, -⟩ := List.cons.inj htail
        exact hrefused' (hbefore _ (by rw [hz]; simp))
  references hdeclares hpasses piece hpiece raw hraw r hr := by
    obtain ⟨tokens, htokens⟩ := passes_of_reads.2 hpasses
    have hlegal := (h.tokens tokens (by rw [tokenizeXml_eq hdeclares, htokens])).2 piece hpiece raw hraw
    exact (hlegal.2 r hr).not_inherited

/-! ## What is written with the five names -/

/-- The text with each of the five characters written by its name. -/
def escaped (s : Units) : Units :=
  s.flatMap fun u => match named.find? (fun entry => entry.2 == [u]) with
    | some entry => unit '&' :: (entry.1 ++ [unit ';'])
    | none => [u]

theorem segments_named {name : Units} (hname : ∀ u ∈ name, inReference u = true) (rest : Units) :
    segments (unit '&' :: (name ++ unit ';' :: rest)) = .reference ⟨name, true⟩ :: segments rest := by
  have hsemicolon : inReference (unit ';') = false := by decide
  have htake : (name ++ unit ';' :: rest).takeWhile inReference = name := by
    rw [List.takeWhile_append_of_pos hname, List.takeWhile_cons_of_neg (by simp [hsemicolon]), List.append_nil]
  have hdrop : (name ++ unit ';' :: rest).dropWhile inReference = unit ';' :: rest := by
    rw [List.dropWhile_append_of_pos hname, List.dropWhile_cons_of_neg (by simp [hsemicolon])]
  rw [segments_cons, if_pos rfl, htake, hdrop]
  exact if_pos rfl

theorem decode_escaped (s : Units) : decodeXmlText (escaped s) = .ok s := by
  rw [decodeXmlText_ok]
  refine ⟨s.map fun u => [u], ?_, List.flatMap_def.symm.trans (List.flatMap_singleton' s)⟩
  induction s with
  | nil => rw [escaped, List.flatMap_nil, segments_nil]; rfl
  | cons u s ih =>
    have hplain : ∀ entry ∈ named, ∀ v ∈ entry.1, inReference v = true := by
      have hall : named.all (fun entry => entry.1.all inReference) = true := by decide
      exact fun entry hmem v hv => List.all_eq_true.1 (List.all_eq_true.1 hall entry hmem) v hv
    have hlookup : ∀ entry ∈ named, named.lookup entry.1 = some entry.2 := by decide
    have hresolve : ∀ entry ∈ named, resolve ⟨entry.1, true⟩ = .ok entry.2 := by
      intro entry hmem
      rw [resolve, if_neg (by simp), List.lookup_append, hlookup entry hmem, Option.some_or]
    rw [escaped, List.flatMap_cons, ← escaped]
    cases hfind : named.find? (fun entry => entry.2 == [u]) with
    | some entry =>
      have hmem := List.mem_of_find?_eq_some hfind
      have hvalue : entry.2 = [u] := by simpa using List.find?_some hfind
      have htext : unit '&' :: (entry.1 ++ [unit ';']) ++ escaped s =
          unit '&' :: (entry.1 ++ unit ';' :: escaped s) := by simp
      dsimp only
      rw [htext, segments_named (hplain entry hmem), List.mapM_cons]
      exact bind_ok.2 ⟨[u], by rw [← hvalue]; exact hresolve entry hmem, bind_ok.2 ⟨_, ih, rfl⟩⟩
    | none =>
      have hamp : u ≠ unit '&' := by
        rintro rfl
        revert hfind
        decide
      dsimp only
      rw [List.singleton_append, segments_cons, if_neg hamp, List.mapM_cons]
      exact bind_ok.2 ⟨[u], rfl, bind_ok.2 ⟨_, ih, rfl⟩⟩

/-- **The reader never expands exactly the strings the properties of every object leave alone**, and what is written
with the five names is read as it was. -/
theorem never_expands_iff (xml s : Units) :
    (NeverExpands xml ↔ Untouched xml) ∧ decodeXmlText (escaped s) = .ok s :=
  ⟨⟨untouched_of_neverExpands, neverExpands_of_untouched⟩, decode_escaped s⟩

/-- A reference named like a method of every object is read as the method's text; an attribute named so is refused as
a duplicate. -/
theorem toString_expands :
    tokenizeXml (ofText "<v>&toString;</v>".toList) =
      .ok [.opening (ofText "v".toList) [] false, .text (nativeFunction "toString"), .closing (ofText "v".toList)] ∧
    ¬ NeverExpands (ofText "<v>&toString;</v>".toList) ∧ ¬ NeverExpands (ofText "<v valueOf=\"1\"/>".toList) := by
  have hread : tokenizeXml (ofText "<v>&toString;</v>".toList) =
      .ok [.opening (ofText "v".toList) [] false, .text (nativeFunction "toString"), .closing (ofText "v".toList)] := by
    decide +kernel
  refine ⟨hread, fun h => ?_, fun h => ?_⟩
  · have hpieces : pieces (ofText "<v>&toString;</v>".toList) = [.opening (ofText "v".toList) [] false,
        .text (ofText "&toString;".toList), .closing (ofText "v".toList)] := by decide +kernel
    obtain ⟨hlonger, -⟩ := h.tokens _ hread
    rw [hpieces] at hlonger
    cases hlonger with
    | cons _ hlonger =>
      cases hlonger with
      | cons htext _ =>
        have hlonger : ¬ (nativeFunction "toString").length ≤ (ofText "&toString;".toList).length := by decide
        exact hlonger htext
  · have hpieces : pieces (ofText "<v valueOf=\"1\"/>".toList) =
        [.opening (ofText "v".toList) [.found (ofText "valueOf".toList) (ofText "1".toList)] true] := by decide +kernel
    obtain ⟨before, piece, after, hsplit, -, -, hnames⟩ := h.duplicates (by decide +kernel)
    rw [hpieces] at hsplit
    cases before with
    | nil =>
      obtain ⟨rfl, -⟩ := List.cons.inj hsplit
      exact hnames (by decide)
    | cons p before => simp at hsplit

end Recouple.Ingest
