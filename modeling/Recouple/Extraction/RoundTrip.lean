import Recouple.Extraction.Assembled
import Recouple.Extraction.Restore
import Recouple.Lib.NumberText

/-!
# A document read back from its rows

* **`restore_flatten_iff`**: the rows of a document `reassemble` made, put through `restoreDocument`, give the
  same document with the same `validated`, if and only if the last row of every group was spelled without
  leading zeros and no quantity is too large to be written in digits.
* **`padded_row_lost`**: a field at `lines[01]`.

The rows are stored as they are: what a column makes of a confidence is not part of this. Zero has one sign.
-/

namespace Recouple.Extraction.Wire
open Js FirstSeen JsonTree

/-! ## The rows of a document -/

/-- The path of a step below a path. -/
def extendPath (path : Text) : Step Text → Text
  | .key k => keyPath path k
  | .index i => indexPath path i

theorem mem_walkItems {row : ExtractedField} {path : Text} : ∀ {items : List (Node Text FieldRecord)} {index : Nat},
    row ∈ walkItems items path index ↔
      ∃ j item, items[j]? = some item ∧ row ∈ walk item (indexPath path (index + j))
  | [], index => by simp [walkItems]
  | item :: items, index => by
    rw [walkItems, List.mem_append, mem_walkItems]
    constructor
    · rintro (h | ⟨j, item', hj, h⟩)
      · exact ⟨0, item, rfl, h⟩
      · exact ⟨j + 1, item', hj, by rwa [show index + (j + 1) = index + 1 + j by omega]⟩
    · rintro ⟨j, item', hj, h⟩
      cases j with
      | zero =>
        cases hj
        exact .inl h
      | succ j => exact .inr ⟨j, item', hj, by rwa [show index + 1 + j = index + (j + 1) by omega]⟩

theorem mem_walkEntries {row : ExtractedField} {path : Text} : ∀ {entries : Entries},
    row ∈ walkEntries entries path ↔ ∃ e ∈ entries, row ∈ walk e.2 (keyPath path e.1)
  | [] => by simp [walkEntries]
  | (key, value) :: entries => by
    rw [walkEntries, List.mem_append, mem_walkEntries]
    simp

/-- The rows are those of the records the document's paths lead to. -/
theorem mem_walk {node : Node Text FieldRecord} (hd : node.Distinct) {row : ExtractedField} :
    ∀ {path : Text}, row ∈ walk node path ↔ ∃ steps record, node.find steps = some (.leaf record) ∧
      fieldRow record (steps.foldl extendPath path) = some row := by
  induction hd with
  | leaf record =>
    intro path
    rw [walk, Option.mem_toList]
    constructor
    · intro h
      exact ⟨[], record, rfl, h⟩
    · rintro ⟨steps, record', hfind, hrow⟩
      rw [Node.find_leaf] at hfind
      split_ifs at hfind with hs
      subst hs
      cases hfind
      exact hrow
  | array hitems ih =>
    intro path
    rw [walk, mem_walkItems]
    constructor
    · rintro ⟨j, item, hj, hrow⟩
      obtain ⟨steps, record, hfind, hrow⟩ := (ih item (List.mem_of_getElem? hj)).1 hrow
      refine ⟨.index j :: steps, record, ?_, ?_⟩
      · rw [Node.find_array_index, hj]
        exact hfind
      · rwa [List.foldl_cons, extendPath, show indexPath path j = indexPath path (0 + j) by rw [Nat.zero_add]]
    · rintro ⟨steps, record, hfind, hrow⟩
      cases steps with
      | nil => cases hfind
      | cons step steps =>
        cases step with
        | key k => cases hfind
        | index j =>
          obtain ⟨item, hj, hfind⟩ := Option.bind_eq_some_iff.1 hfind
          refine ⟨j, item, hj, (ih item (List.mem_of_getElem? hj)).2 ⟨steps, record, hfind, ?_⟩⟩
          rwa [Nat.zero_add]
  | object hk hentries ih =>
    intro path
    rw [walk, mem_walkEntries]
    constructor
    · rintro ⟨e, he, hrow⟩
      obtain ⟨steps, record, hfind, hrow⟩ := (ih e he).1 hrow
      refine ⟨.key e.1 :: steps, record, ?_, hrow⟩
      rw [Node.find_object_key, (mem_iff_get hk).1 he]
      exact hfind
    · rintro ⟨steps, record, hfind, hrow⟩
      cases steps with
      | nil => cases hfind
      | cons step steps =>
        cases step with
        | index j => cases hfind
        | key k =>
          obtain ⟨node, hget, hfind⟩ := Option.bind_eq_some_iff.1 hfind
          have he := (mem_iff_get hk).2 hget
          exact ⟨_, he, (ih _ he).2 ⟨steps, record, hfind, hrow⟩⟩

/-! ## The leaves of a document -/

section
variable {schema : DocumentSchema} {document document' : Entries} {writes writes' : List Write}

theorem path_of_steps {place : Place} (hin : place.In schema) : place.steps.foldl extendPath [] = place.path := by
  cases place with
  | flat name => rfl
  | row group number leaf =>
    have hne := hin.group.identifier.1
    simp [Place.steps, extendPath, keyPath, indexPath, hne, Place.path, rowPath]
  | bare group leaf =>
    simp [Place.steps, extendPath, keyPath, Place.path, leafTemplate, bareName]

theorem holds_leaf {entries : Entries} {cells : Text → Option FieldRecord} (h : Holds entries cells)
    {steps : List (Step Text)} {record : FieldRecord}
    (hfind : (Node.object entries).find steps = some (.leaf record)) :
    ∃ leaf, steps = [.key leaf] ∧ cells leaf = some record := by
  cases steps with
  | nil => cases hfind
  | cons step steps =>
    cases step with
    | index j => cases hfind
    | key leaf =>
      rw [Node.find_object_key, h leaf] at hfind
      cases hc : cells leaf with
      | none =>
        rw [hc] at hfind
        cases hfind
      | some record' =>
        rw [hc, Option.map_some, Option.bind_some, Node.find_leaf] at hfind
        split_ifs at hfind with hs
        subst hs
        cases hfind
        exact ⟨leaf, rfl, hc⟩

/-- Every leaf of the document is at a place that was written. -/
theorem Shows.leaf_place (h : Shows schema document writes) {steps : List (Step Text)} {record : FieldRecord}
    (hfind : (Node.object document).find steps = some (.leaf record)) :
    ∃ place : Place, steps = place.steps ∧ cell writes place = some record := by
  cases steps with
  | nil => cases hfind
  | cons step steps =>
    cases step with
    | index j => cases hfind
    | key k =>
      rw [Node.find_object_key] at hfind
      by_cases hf : HasField schema k
      · rw [h.flat hf] at hfind
        cases hc : cell writes (.flat k) with
        | none =>
          rw [hc] at hfind
          cases hfind
        | some record' =>
          rw [hc, Option.map_some, Option.bind_some, Node.find_leaf] at hfind
          split_ifs at hfind with hs
          subst hs
          cases hfind
          exact ⟨.flat k, rfl, hc⟩
      · by_cases hg : HasGroup schema k
        · rcases h.group hg with ⟨hnone, -⟩ | ⟨items, hsome, -, hitems⟩
          · rw [hnone] at hfind
            cases hfind
          · rw [hsome, Option.bind_some] at hfind
            cases steps with
            | nil => cases hfind
            | cons step steps =>
              cases step with
              | key l => cases hfind
              | index number =>
                obtain ⟨node, hnode, hfind⟩ := Option.bind_eq_some_iff.1 hfind
                obtain ⟨entries, rfl, hentries⟩ := hitems number node hnode
                obtain ⟨leaf, rfl, hc⟩ := holds_leaf hentries hfind
                exact ⟨.row k number leaf, rfl, hc⟩
        · by_cases hb : ∃ group, HasGroup schema group ∧ k = bareName group
          · obtain ⟨group, hgroup, rfl⟩ := hb
            rcases h.bare hgroup with ⟨hnone, -⟩ | ⟨entries, hsome, -, hentries⟩
            · rw [hnone] at hfind
              cases hfind
            · rw [hsome, Option.bind_some] at hfind
              obtain ⟨leaf, rfl, hc⟩ := holds_leaf hentries hfind
              exact ⟨.bare group leaf, rfl, hc⟩
          · rw [h.other hf hg fun group hgroup heq => hb ⟨group, hgroup, heq⟩] at hfind
            cases hfind

theorem find_congr {entries entries' : Entries} (h : ∀ k, get entries k = get entries' k) (steps : List (Step Text)) :
    (Node.object entries).find steps = (Node.object entries').find steps := by
  cases steps with
  | nil => rfl
  | cons step steps =>
    cases step with
    | index j => rfl
    | key k => rw [Node.find_object_key, Node.find_object_key, h]

/-- Two documents with the same cells and as many rows are the same. -/
theorem Shows.same (h : Shows schema document writes) (h' : Shows schema document' writes')
    (hcell : ∀ place, cell writes place = cell writes' place)
    (hrows : ∀ group, rowCount group writes = rowCount group writes')
    (harrays : ∀ group, HasGroup schema group → get document group ≠ none)
    (harrays' : ∀ group, HasGroup schema group → get document' group ≠ none) :
    (Node.object document).Same (Node.object document') := by
  intro steps
  cases steps with
  | nil => rfl
  | cons step steps =>
    cases step with
    | index j => rfl
    | key k =>
      rw [Node.find_object_key, Node.find_object_key]
      by_cases hf : HasField schema k
      · rw [h.flat hf, h'.flat hf, hcell]
      · by_cases hg : HasGroup schema k
        · rcases h.group hg with ⟨hnone, -⟩ | ⟨items, hsome, hlen, hitems⟩
          · exact absurd hnone (harrays k hg)
          · rcases h'.group hg with ⟨hnone, -⟩ | ⟨items', hsome', hlen', hitems'⟩
            · exact absurd hnone (harrays' k hg)
            · rw [hsome, hsome', Option.bind_some, Option.bind_some]
              have hlength : items.length = items'.length := by rw [hlen, hlen', hrows]
              cases steps with
              | nil => simp [Node.find, hlength]
              | cons step steps =>
                cases step with
                | key l => rfl
                | index number =>
                  rw [Node.find_array_index, Node.find_array_index]
                  by_cases hn : number < items.length
                  · have hn' : number < items'.length := hlength ▸ hn
                    rw [List.getElem?_eq_getElem hn, List.getElem?_eq_getElem hn']
                    obtain ⟨entries, he, hentries⟩ := hitems number _ (List.getElem?_eq_getElem hn)
                    obtain ⟨entries', he', hentries'⟩ := hitems' number _ (List.getElem?_eq_getElem hn')
                    rw [he, he', Option.bind_some, Option.bind_some]
                    exact find_congr (fun leaf => by rw [hentries leaf, hentries' leaf]; exact congrArg _ (hcell _)) steps
                  · rw [List.getElem?_eq_none (by omega), List.getElem?_eq_none (by omega)]
        · by_cases hb : ∃ group, HasGroup schema group ∧ k = bareName group
          · obtain ⟨group, hgroup, rfl⟩ := hb
            rcases h.bare hgroup with ⟨hnone, hall⟩ | ⟨entries, hsome, ⟨leaf, hleaf⟩, hentries⟩
            · rcases h'.bare hgroup with ⟨hnone', -⟩ | ⟨-, -, ⟨leaf, hleaf⟩, -⟩
              · rw [hnone, hnone']
              · exact absurd (hcell _ ▸ hall leaf) hleaf
            · rcases h'.bare hgroup with ⟨-, hall⟩ | ⟨entries', hsome', -, hentries'⟩
              · exact absurd ((hcell _).trans (hall leaf)) hleaf
              · rw [hsome, hsome', Option.bind_some, Option.bind_some]
                exact find_congr (fun leaf => by rw [hentries leaf, hentries' leaf]; exact congrArg _ (hcell _)) steps
          · have hother : ∀ group, HasGroup schema group → k ≠ bareName group :=
              fun group hgroup heq => hb ⟨group, hgroup, heq⟩
            rw [h.other hf hg hother, h'.other hf hg hother]

end

/-! ## Values -/

/-- A record with a page, a quote no longer than is stored and a confidence storage keeps as it is. -/
structure Provenanced (record : FieldRecord) : Prop where
  page : 1 ≤ record.source_page
  trimmed : Trimmed record.source_quote
  quoted : record.source_quote ≠ []
  fits : utf16Length record.source_quote ≤ 2000
  low : 0 ≤ record.confidence
  high : record.confidence ≤ 1

def smallLetters : Text := "abcdefghijklmnopqrstuvwxyz"

/-- A small letter of the alphabet is its own lower case. -/
def KeepsSmallLetters (T : CaseTables) : Prop := ∀ c ∈ smallLetters, T.lower c = [c]

instance (T : CaseTables) : Decidable (KeepsSmallLetters T) := List.decidableBAll _ smallLetters

theorem lowerWithin_self {T : CaseTables} : ∀ {t : Text} (before after : Text),
    (∀ c ∈ t, c ≠ 'Σ' ∧ T.lower c = [c]) → T.lowerWithin before t after = t
  | [], _, _, _ => rfl
  | c :: cs, before, after, h => by
    rw [List.forall_mem_cons] at h
    rw [CaseTables.lowerWithin, CaseTables.lowerAt, if_neg h.1.1, h.1.2, lowerWithin_self _ _ h.2]
    rfl

/-- The words a stored flag is written as stay themselves in lower case. -/
theorem KeepsSmallLetters.flag {T : CaseTables} (h : KeepsSmallLetters T) :
    T.toLowerCase "true".toList = "true".toList ∧ T.toLowerCase "false".toList = "false".toList := by
  have hself : ∀ {t : Text}, t.all (fun c => c ≠ 'Σ' && c ∈ smallLetters) = true → T.toLowerCase t = t := by
    refine fun ht => lowerWithin_self [] [] fun c hc => ?_
    obtain ⟨hsigma, hsmall⟩ := Bool.and_eq_true_iff.1 (List.all_eq_true.1 ht c hc)
    exact ⟨of_decide_eq_true hsigma, h c (of_decide_eq_true hsmall)⟩
  exact ⟨hself (by decide), hself (by decide)⟩

/-- The value is written without an exponent. -/
def Writable : FieldValue → Prop
  | .integer (.finite n) => n.natAbs < 10 ^ 21
  | .integer (.infinite _) => False
  | _ => True

theorem fieldRow_provenanced {record : FieldRecord} (h : Provenanced record) (hv : record.value ≠ .null)
    (path : Text) : fieldRow record path =
      some ⟨path, record.value, record.confidence, record.source_page, record.source_quote⟩ := by
  have hpage : ¬ record.source_page < 1 := not_lt.2 h.page
  have hquote : trim record.source_quote = record.source_quote := h.trimmed
  have hclamp : clampConfidence record.confidence = record.confidence := by
    rw [clampConfidence, max_eq_right h.low, min_eq_right h.high]
  unfold fieldRow
  dsimp only
  rw [if_neg hv, hquote, if_neg (by simp [h.quoted, hpage]), hclamp, sliceTo_eq_self h.fits]

/-- One letter, read with certainty on the first page. -/
theorem provenanced_letter {path value : Text} {letter : Char} {read : FieldValue} (h : isSpace letter = false)
    (hunits : utf16Length [letter] ≤ 2000) : Provenanced (recordOf ⟨path, value, 1, 1, [letter]⟩ read) where
  page := le_refl _
  trimmed := trimmed_of_isSpace fun _ hc => List.mem_singleton.1 hc ▸ h
  quoted := List.cons_ne_nil _ _
  fits := hunits
  low := zero_le_one
  high := le_refl _

theorem signed_finite {negative : Bool} {m : Nat} {n : Int} (h : signed negative (numberOf m) = .finite n) :
    toDouble n.natAbs = n.natAbs := by
  cases hm : numberOf m with
  | top => rw [hm] at h; cases h
  | coe k =>
    have hk : toDouble k = k := numberOf_eq_some hm
    rw [hm] at h
    have hn : n = if negative then -(k : Int) else k := (JsInteger.finite.inj h).symm
    have habs : n.natAbs = k := by
      rw [hn]
      split <;> omega
    rw [habs, hk]

theorem readInteger_showInteger {n : Int} (hd : toDouble n.natAbs = n.natAbs) (hn : n.natAbs < 10 ^ 21) :
    ∃ text, showInteger n = text ∧ text ≠ [] ∧ (∀ c ∈ text, isSpace c = false ∧ c ≠ ',') ∧
      readInteger text = some (.finite n) := by
  obtain ⟨digits, hshow, hne, hall, hnumber⟩ := numberOf_showNumber hd hn
  have hplain : ∀ c ∈ digits, isSpace c = false ∧ c ≠ ',' := fun c hc =>
    ⟨isSpace_of_isDigit (hall c hc), isDigit_ne (hall c hc) (by decide)⟩
  have hread : ∀ negative : Bool, readInteger (if negative then '-' :: digits else digits) =
      some (.finite (if negative then -(n.natAbs : Int) else n.natAbs)) := fun negative => by
    rw [readInteger_eq_some_iff.2 ⟨negative, digits, hne, hall, rfl, rfl⟩, hnumber]
    rfl
  unfold showInteger
  rw [hshow]
  split
  · rename_i hneg
    refine ⟨_, rfl, by simp, fun c hc => ?_, ?_⟩
    · rcases List.mem_cons.1 hc with rfl | hc
      · decide
      · exact hplain c hc
    · exact (hread true).trans (by rw [if_pos rfl, show -(n.natAbs : Int) = n by omega])
  · rename_i hneg
    refine ⟨_, rfl, hne, hplain, ?_⟩
    exact (hread false).trans (by rw [if_neg Bool.false_ne_true, show (n.natAbs : Int) = n by omega])

section
variable {T : CaseTables} {raw : Text} {valueType : ValueType} {value : FieldValue}

theorem coerce_integer {v : JsInteger} (h : coerce T raw valueType = .ok (.integer v)) :
    valueType = .integer ∧ ∃ negative m, v = signed negative (numberOf m) := by
  cases valueType with
  | string => cases h
  | boolean =>
    unfold coerce at h
    dsimp only at h
    split_ifs at h <;> cases h
  | integer =>
    unfold coerce at h
    dsimp only at h
    split at h
    · rename_i v' hv
      cases h
      obtain ⟨negative, digits, -, -, -, hsigned⟩ := readInteger_eq_some_iff.1 hv
      exact ⟨rfl, negative, _, hsigned⟩
    · cases h

/-- A value that was read is read again from the text it is stored as. -/
theorem coerce_asWireText (hT : KeepsSmallLetters T) (h : coerce T raw valueType = .ok value) (hne : trim raw ≠ [])
    (hw : Writable value) :
    ∃ text, asWireText value = some text ∧ trim text ≠ [] ∧ coerce T text valueType = .ok value := by
  cases value with
  | null => exact absurd rfl (coerce_ne_null h)
  | text t =>
    have hstring : valueType = .string ∧ t = trim raw := by
      unfold coerce at h
      dsimp only at h
      cases valueType with
      | string => exact ⟨rfl, (FieldValue.text.inj (Except.ok.inj h)).symm⟩
      | integer => dsimp only at h; split at h <;> cases h
      | boolean => dsimp only at h; split_ifs at h <;> cases h
    obtain ⟨rfl, rfl⟩ := hstring
    refine ⟨_, rfl, by rwa [trim_trim], ?_⟩
    unfold coerce
    dsimp only
    rw [trim_trim]
  | boolean b =>
    have hboolean : valueType = .boolean := by
      unfold coerce at h
      cases valueType with
      | string => cases h
      | integer => dsimp only at h; split at h <;> cases h
      | boolean => rfl
    subst hboolean
    cases b with
    | true =>
      refine ⟨_, rfl, by decide, ?_⟩
      have htrim : trim "true".toList = "true".toList := by decide
      unfold coerce
      dsimp only
      rw [if_pos rfl, htrim, hT.flag.1, if_pos (by simp)]
    | false =>
      refine ⟨_, rfl, by decide, ?_⟩
      have htrim : trim "false".toList = "false".toList := by decide
      unfold coerce
      dsimp only
      rw [if_neg (show ¬ (false = true) by decide), htrim, hT.flag.2]
      rfl
  | integer v =>
    obtain ⟨rfl, negative, m, hv⟩ := coerce_integer h
    cases v with
    | infinite neg => exact absurd hw id
    | finite n =>
      obtain ⟨text, hshow, htext, hall, hread⟩ := readInteger_showInteger (signed_finite hv.symm) hw
      have htrim : trim text = text := trimmed_of_isSpace fun c hc => (hall c hc).1
      have hfilter : (text.filter fun c => c ≠ ',' && !isSpace c) = text :=
        List.filter_eq_self.2 fun c hc => by simp [(hall c hc).1, (hall c hc).2]
      refine ⟨text, congrArg some hshow, by rwa [htrim], ?_⟩
      unfold coerce
      dsimp only
      rw [htrim, hfilter, hread]

/-- A value with an exponent is not. -/
theorem coerce_of_not_writable (h : coerce T raw valueType = .ok value) (hw : ¬ Writable value) {text : Text}
    (ht : asWireText value = some text) : coerce T text valueType ≠ .ok value := by
  cases value with
  | integer v =>
    obtain ⟨rfl, negative, m, hv⟩ := coerce_integer h
    cases v with
    | infinite neg => cases ht
    | finite n =>
      cases ht
      have hexp : 'e' ∈ showInteger n := by
        have := exponent_of_showNumber (signed_finite hv.symm) (not_lt.1 hw)
        unfold showInteger
        split
        · exact List.mem_cons_of_mem _ this
        · exact this
      intro hc
      unfold coerce at hc
      dsimp only at hc
      split at hc
      · rename_i v' hread
        -- trimming and dropping commas leave the exponent, which is no digit
        have hkept : 'e' ∈ (trim (showInteger n)).filter fun c => c ≠ ',' && !isSpace c := by
          refine List.mem_filter.2 ⟨mem_trim hexp (by decide), by decide⟩
        unfold readInteger at hread
        dsimp only at hread
        split_ifs at hread with h1 h2 h2
        · have he : 'e' ∈ ((trim (showInteger n)).filter fun c => c ≠ ',' && !isSpace c).tail := by
            obtain ⟨tail, htail⟩ := List.head?_eq_some_iff.1 h1
            rw [htail] at hkept ⊢
            rcases List.mem_cons.1 hkept with hc | hc
            · exact absurd hc (by decide)
            · exact hc
          exact absurd (List.all_eq_true.1 h2.2 'e' he) (by decide)
        · exact absurd (List.all_eq_true.1 h2.2 'e' hkept) (by decide)
      · cases hc
  | null => exact absurd trivial hw
  | text t => exact absurd trivial hw
  | boolean b => exact absurd trivial hw

end

/-! ## The stored fields -/

/-- Every value of the document has provenance. -/
def AllProvenanced (document : Node Text FieldRecord) : Prop :=
  ∀ steps record, document.find steps = some (.leaf record) → record.value ≠ .null → Provenanced record

/-- The wire field of a value stored as a text. -/
def storedField (place : Place) (record : FieldRecord) (text : Text) : WireField :=
  ⟨place.path, text, record.confidence, record.source_page, record.source_quote⟩

section
variable (T : CaseTables) (schema : DocumentSchema) (message : Node Text FieldRecord → Text → Text)
  (wireFields : List WireField)

/-- The wire fields of the rows a document is stored as. -/
def storedFields : List WireField :=
  (flattenExtraction (reassemble T message schema wireFields).document).filterMap wireOf

/-- The last row of every group has a field that is read and whose path spells the row as `String` does. -/
def LastRowsSpelled : Prop := ∀ group, 0 < rowsOf T schema wireFields group →
  ∃ leaf, (Place.row group (rowsOf T schema wireFields group - 1) leaf).In schema ∧
    spelled T schema wireFields (.row group (rowsOf T schema wireFields group - 1) leaf) = true

/-- No value of the document is a number `String` writes with an exponent. -/
def AllWritable : Prop := ∀ place record, place.In schema → spelled T schema wireFields place = true →
  cell (wireWrites T schema wireFields) place = some record → Writable record.value

end

section
variable {T : CaseTables} {schema : DocumentSchema} {message : Node Text FieldRecord → Text → Text}
  {wireFields : List WireField}

theorem asWireText_ne_null {value : FieldValue} {text : Text} (h : asWireText value = some text) : value ≠ .null := by
  rintro rfl
  cases h

theorem exists_row_of_rowCount {group : Text} {writes : List Write} (h : 0 < rowCount group writes) :
    ∃ write ∈ writes, ∃ leaf, write.1 = .row group (rowCount group writes - 1) leaf := by
  by_contra hnone
  have hle : rowCount group writes ≤ rowCount group writes - 1 := by
    refine rowCount_le.2 fun write hw => ?_
    have hmax := rowCount_le.1 (le_refl (rowCount group writes)) write hw
    cases hplace : write.1 with
    | flat name => exact Nat.zero_le _
    | bare g leaf => exact Nat.zero_le _
    | row g number leaf =>
      rw [hplace] at hmax
      simp only [rowsFor, Place.rowOf] at hmax ⊢
      split_ifs at hmax ⊢ with hg
      · have hne : number ≠ rowCount group writes - 1 := by
          rintro rfl
          exact hnone ⟨write, hw, leaf, hg ▸ hplace⟩
        omega
      · omega
  omega

/-- The checks of the row number pass on the path of a place with a small row number. -/
theorem rowNumber_place {place : Place} {d : TypedDescriptor} (hin : place.In schema)
    (hcap : ∀ group number, place.rowOf = some (group, number) → number < MAX_ROWS_PER_GROUP) :
    ∃ row, rowNumber d place.path = .ok row := by
  unfold rowNumber
  cases d.group with
  | none => exact ⟨none, rfl⟩
  | some g =>
    cases place with
    | flat name =>
      rw [Place.path, rowIndexOf, rowDigits_none fun c hc => (hin.identifier.plain c hc).1]
      exact ⟨none, rfl⟩
    | bare group leaf =>
      rw [Place.path, rowIndexOf, rowDigits_leafTemplate hin.group.identifier hin.identifier]
      exact ⟨none, rfl⟩
    | row group number leaf =>
      have hn := hcap group number rfl
      rw [Place.path, rowIndexOf_rowPath hin.group.identifier (by unfold MAX_ROWS_PER_GROUP at hn; omega)]
      exact ⟨some number, if_neg (not_le.2 hn)⟩

theorem value_of_cell {place : Place} {record : FieldRecord}
    (h : cell (wireWrites T schema wireFields) place = some record) : record.value ≠ .null := by
  obtain ⟨field, -, reading, hread, hrecord, -⟩ := place_of_write (mem_of_cell h)
  rw [show record = _ from congrArg Prod.snd hrecord]
  exact coerce_ne_null (readField_ok.1 hread).2.2.2

/-- A value of the document was read, under the path of its place, from a text with the type of the place. -/
theorem kept_of_finalCell {place : Place} {record : FieldRecord}
    (h : finalCell T schema wireFields place = some record) (hv : record.value ≠ .null) :
    spelled T schema wireFields place = true ∧ cell (wireWrites T schema wireFields) place = some record ∧
      place.Small ∧ ∃ raw d row, descriptorOf schema.descriptors place.path = some d ∧
        rowNumber d place.path = .ok row ∧ trim raw ≠ [] ∧ coerce T raw d.valueType = .ok record.value := by
  unfold finalCell at h
  split_ifs at h with hsp hfill
  · obtain ⟨field, hfield, reading, hread, hrecord, hin, hleads, -, hcap⟩ := place_of_write (mem_of_cell h)
    obtain ⟨hd, hne, -, hvalue⟩ := readField_ok.1 hread
    obtain ⟨row, hrow⟩ := @rowNumber_place schema place reading.descriptor hin hcap
    rw [descriptorOf, templatePath_leads hin hleads] at hd
    refine ⟨hsp, h, fun group number hg => ?_, field.value, _, row, hd, hrow, hne, ?_⟩
    · exact lt_trans (hcap group number hg) (by unfold MAX_ROWS_PER_GROUP; omega)
    · rw [hvalue, show record = _ from congrArg Prod.snd hrecord]
      rfl
  · cases h
    exact absurd rfl hv

theorem mem_flattenExtraction {row : ExtractedField} :
    row ∈ flattenExtraction (reassemble T message schema wireFields).document ↔ ∃ place : Place, place.In schema ∧
      ∃ record, finalCell T schema wireFields place = some record ∧ fieldRow record place.path = some row := by
  obtain ⟨writes, hshows, hcell, -, -, -, hwrites⟩ := assembled T schema wireFields
  have hdistinct : (reassemble T message schema wireFields).document.Distinct := hshows.distinct
  rw [flattenExtraction, mem_walk hdistinct]
  constructor
  · rintro ⟨steps, record, hfind, hrow⟩
    obtain ⟨place, rfl, hplace⟩ := hshows.leaf_place hfind
    have hin := hwrites _ (mem_of_cell hplace)
    rw [path_of_steps hin] at hrow
    exact ⟨place, hin, record, hcell place hin ▸ hplace, hrow⟩
  · rintro ⟨place, hin, record, hfinal, hrow⟩
    refine ⟨place.steps, record, ?_, ?_⟩
    · rw [find_place T message wireFields hin, hfinal]
      rfl
    · rwa [path_of_steps hin]

/-- The stored fields are the values of the document, each under the path of its place. -/
theorem mem_storedFields (hprov : AllProvenanced (reassemble T message schema wireFields).document)
    {field : WireField} : field ∈ storedFields T schema message wireFields ↔ ∃ place : Place, place.In schema ∧
      ∃ record text, finalCell T schema wireFields place = some record ∧ asWireText record.value = some text ∧
        field = storedField place record text := by
  rw [storedFields, List.mem_filterMap]
  have hstored : ∀ place : Place, place.In schema → ∀ record, finalCell T schema wireFields place = some record →
      record.value ≠ .null → Provenanced record := fun place hin record hfinal hv =>
    hprov place.steps record (by rw [find_place T message wireFields hin, hfinal]; rfl) hv
  constructor
  · rintro ⟨row, hrow, hwire⟩
    obtain ⟨place, hin, record, hfinal, hfield⟩ := mem_flattenExtraction.1 hrow
    have hv : record.value ≠ .null := by
      intro hnull
      rw [fieldRow, if_pos hnull] at hfield
      cases hfield
    rw [fieldRow_provenanced (hstored place hin record hfinal hv) hv, Option.some.injEq] at hfield
    subst hfield
    obtain ⟨text, htext, rfl⟩ := Option.map_eq_some_iff.1 hwire
    exact ⟨place, hin, record, text, hfinal, htext, rfl⟩
  · rintro ⟨place, hin, record, text, hfinal, htext, rfl⟩
    have hv := asWireText_ne_null htext
    refine ⟨_, mem_flattenExtraction.2 ⟨place, hin, record, hfinal,
      fieldRow_provenanced (hstored place hin record hfinal hv) hv _⟩, ?_⟩
    rw [wireOf, htext]
    rfl

/-! ## The document of the stored fields -/

/-- A stored field that is read is written at the place it was stored for. -/
theorem stored_of_write (hprov : AllProvenanced (reassemble T message schema wireFields).document) {write : Write}
    (h : write ∈ wireWrites T schema (storedFields T schema message wireFields)) : ∃ record text, write.1.In schema ∧
      finalCell T schema wireFields write.1 = some record ∧ asWireText record.value = some text ∧
      storedField write.1 record text ∈ storedFields T schema message wireFields ∧
      writeOf T schema (storedField write.1 record text) = some write := by
  obtain ⟨field, hfield, hwrite⟩ := mem_wireWrites.1 h
  obtain ⟨place, hin, record, text, hfinal, htext, rfl⟩ := (mem_storedFields hprov).1 hfield
  obtain ⟨-, -, hsmall, -⟩ := kept_of_finalCell hfinal (asWireText_ne_null htext)
  obtain ⟨-, -, hplace, -⟩ := writeOf_eq_some.1 hwrite
  have hsame : place = write.1 := Option.some.inj ((placeOf_path hin hsmall).symm.trans hplace)
  subst hsame
  exact ⟨record, text, hin, hfinal, htext, hfield, hwrite⟩

/-- What is read again is a value the document holds, from the text it is stored as. -/
theorem coerce_of_stored (hprov : AllProvenanced (reassemble T message schema wireFields).document) {write : Write}
    (h : write ∈ wireWrites T schema (storedFields T schema message wireFields)) :
    ∃ record text d, finalCell T schema wireFields write.1 = some record ∧ asWireText record.value = some text ∧
      descriptorOf schema.descriptors write.1.path = some d ∧ coerce T text d.valueType = .ok write.2.value := by
  obtain ⟨record, text, -, hfinal, htext, -, hwrite⟩ := stored_of_write hprov h
  obtain ⟨reading, hread, -, hrecord⟩ := writeOf_eq_some.1 hwrite
  obtain ⟨hd, -, -, hvalue⟩ := readField_ok.1 hread
  exact ⟨record, text, reading.descriptor, hfinal, htext, hd, by rw [hrecord]; exact hvalue⟩

/-- A value that is written in digits is stored and read again as it is. -/
theorem writeOf_stored (hT : KeepsSmallLetters T) (hw : AllWritable T schema wireFields) {place : Place}
    {record : FieldRecord} (hin : place.In schema) (hfinal : finalCell T schema wireFields place = some record)
    (hv : record.value ≠ .null) : ∃ text, asWireText record.value = some text ∧
      writeOf T schema (storedField place record text) = some (place, record) := by
  obtain ⟨hsp, hcell, hsmall, raw, d, row, hd, hrow, hne, hvalue⟩ := kept_of_finalCell hfinal hv
  obtain ⟨text, htext, htrim, hagain⟩ := coerce_asWireText hT hvalue hne (hw place record hin hsp hcell)
  exact ⟨text, htext, writeOf_eq_some.2 ⟨⟨d, row, record.value⟩, readField_ok.2 ⟨hd, htrim, hrow, hagain⟩,
    placeOf_path hin hsmall, rfl⟩⟩

/-- Where every number is written in digits, the stored fields write what the document holds. -/
theorem write_iff_of_writable (hT : KeepsSmallLetters T)
    (hprov : AllProvenanced (reassemble T message schema wireFields).document) (hw : AllWritable T schema wireFields)
    {place : Place} {record : FieldRecord} (hin : place.In schema) :
    (place, record) ∈ wireWrites T schema (storedFields T schema message wireFields) ↔
      finalCell T schema wireFields place = some record ∧ record.value ≠ .null := by
  constructor
  · intro h
    obtain ⟨record', text, -, hfinal, htext, -, hwrite⟩ := stored_of_write hprov h
    have hv := asWireText_ne_null htext
    obtain ⟨text', htext', hwrite'⟩ := writeOf_stored hT hw hin hfinal hv
    rw [htext, Option.some.injEq] at htext'
    subst htext'
    rw [hwrite] at hwrite'
    cases hwrite'
    exact ⟨hfinal, hv⟩
  · rintro ⟨hfinal, hv⟩
    obtain ⟨text, htext, hwrite⟩ := writeOf_stored hT hw hin hfinal hv
    exact mem_wireWrites.2 ⟨_, (mem_storedFields hprov).2 ⟨place, hin, record, text, hfinal, htext, rfl⟩, hwrite⟩

/-- The stored fields need no row the document does not have. -/
theorem rowsOf_stored_le (hprov : AllProvenanced (reassemble T message schema wireFields).document) (group : Text) :
    rowsOf T schema (storedFields T schema message wireFields) group ≤ rowsOf T schema wireFields group := by
  refine rowCount_le.2 fun write hwrite => ?_
  obtain ⟨record, text, -, hfinal, htext, -⟩ := stored_of_write hprov hwrite
  obtain ⟨-, hcell, -⟩ := kept_of_finalCell hfinal (asWireText_ne_null htext)
  exact rowCount_le.1 (le_refl _) (write.1, record) (mem_of_cell hcell)

/-- A place without a value has an absence where every document with so many rows has something. -/
theorem finalCell_of_no_value {place : Place} (hin : place.In schema)
    (hno : ¬ ∃ record, finalCell T schema wireFields place = some record ∧ record.value ≠ .null) :
    finalCell T schema wireFields place =
      if place ∈ fillPlaces schema (rowsOf T schema wireFields) then some absentField else none := by
  have hcell : spelled T schema wireFields place = true → cell (wireWrites T schema wireFields) place = none := by
    refine fun hsp => Option.eq_none_iff_forall_ne_some.2 fun record hc => hno ⟨record, ?_, value_of_cell hc⟩
    rw [finalCell, if_pos hsp, hc]
  unfold finalCell
  split_ifs with hsp hfill hfill
  · obtain ⟨record, hrecord⟩ := cell_of_spelled hin (small_of_fill hfill) hsp
    rw [hcell hsp] at hrecord
    cases hrecord
  · exact hcell hsp
  · rfl
  · rfl

/-- A place of the document holds in the restored one what it held. -/
theorem finalCell_stored (hT : KeepsSmallLetters T)
    (hprov : AllProvenanced (reassemble T message schema wireFields).document) (hw : AllWritable T schema wireFields)
    (hrows : ∀ group, rowsOf T schema (storedFields T schema message wireFields) group = rowsOf T schema wireFields group)
    {place : Place} (hin : place.In schema) :
    finalCell T schema (storedFields T schema message wireFields) place = finalCell T schema wireFields place := by
  by_cases hkept : ∃ record, finalCell T schema wireFields place = some record ∧ record.value ≠ .null
  · obtain ⟨record, hfinal, hv⟩ := hkept
    have hwrite := (write_iff_of_writable hT hprov hw hin).2 ⟨hfinal, hv⟩
    have hcell : cell (wireWrites T schema (storedFields T schema message wireFields)) place = some record := by
      cases hc : cell (wireWrites T schema (storedFields T schema message wireFields)) place with
      | none => exact absurd rfl (cell_eq_none.1 hc _ hwrite)
      | some record' =>
        obtain ⟨hfinal', -⟩ := (write_iff_of_writable hT hprov hw hin).1 (mem_of_cell hc)
        rw [← hfinal', hfinal]
    have hsp : spelled T schema (storedFields T schema message wireFields) place = true := by
      obtain ⟨record', text, -, -, -, hfield, hwrite'⟩ := stored_of_write hprov hwrite
      exact List.any_eq_true.2 ⟨_, hfield, by rw [hwrite']; simp [storedField]⟩
    rw [finalCell, if_pos hsp, hcell, hfinal]
  · -- nothing was stored for the place, so it is filled in again where it was filled in before
    have hno : ¬ ∃ record, finalCell T schema (storedFields T schema message wireFields) place = some record ∧
        record.value ≠ .null := by
      rintro ⟨record, hfinal, hv⟩
      obtain ⟨-, hcell, -⟩ := kept_of_finalCell hfinal hv
      exact hkept ⟨record, (write_iff_of_writable hT hprov hw hin).1 (mem_of_cell hcell)⟩
    rw [finalCell_of_no_value hin hkept, finalCell_of_no_value hin hno, funext hrows]

/-! ## The restored document -/

theorem schemaFaults_same {a b : Node Text FieldRecord} (h : a.Same b) : schemaFaults schema a = schemaFaults schema b := by
  have hfind : ∀ steps, a.find steps = b.find steps := h
  simp only [schemaFaults, hfind]

theorem same_of_rows (hT : KeepsSmallLetters T)
    (hprov : AllProvenanced (reassemble T message schema wireFields).document) (hw : AllWritable T schema wireFields)
    (hrows : ∀ group, rowsOf T schema (storedFields T schema message wireFields) group = rowsOf T schema wireFields group) :
    (reassemble T message schema (storedFields T schema message wireFields)).document.Same
      (reassemble T message schema wireFields).document := by
  obtain ⟨writes, hshows, hcell, hcount, harrays, -, hwrites⟩ :=
    assembled T schema (storedFields T schema message wireFields)
  obtain ⟨writes', hshows', hcell', hcount', harrays', -, hwrites'⟩ := assembled T schema wireFields
  have hnone : ∀ {writes : List Write} {place : Place}, (∀ write ∈ writes, write.1.In schema) → ¬ place.In schema →
      cell writes place = none := fun hall hin => cell_eq_none.2 fun write hmem heq => hin (heq ▸ hall write hmem)
  refine hshows.same hshows' (fun place => ?_) (fun group => ?_) harrays harrays'
  · by_cases hin : place.In schema
    · rw [hcell place hin, hcell' place hin, finalCell_stored hT hprov hw hrows hin]
    · rw [hnone hwrites hin, hnone hwrites' hin]
  · rw [hcount, hcount', hrows]

/-- A group keeps its rows if and only if the last one is spelled. -/
theorem rowsOf_stored_iff (hT : KeepsSmallLetters T)
    (hprov : AllProvenanced (reassemble T message schema wireFields).document) (hw : AllWritable T schema wireFields) :
    (∀ group, rowsOf T schema (storedFields T schema message wireFields) group = rowsOf T schema wireFields group) ↔
      LastRowsSpelled T schema wireFields := by
  constructor
  · intro hrows group hpos
    rw [← hrows group] at hpos ⊢
    obtain ⟨write, hwrite, leaf, hplace⟩ := exists_row_of_rowCount hpos
    obtain ⟨record, text, hin, hfinal, htext, -⟩ := stored_of_write hprov hwrite
    obtain ⟨hsp, -⟩ := kept_of_finalCell hfinal (asWireText_ne_null htext)
    rw [hplace] at hin hsp
    exact ⟨leaf, hin, hsp⟩
  · intro hlast group
    refine Nat.le_antisymm (rowsOf_stored_le hprov group) ?_
    rcases Nat.eq_zero_or_pos (rowsOf T schema wireFields group) with hzero | hpos
    · omega
    · obtain ⟨leaf, hin, hsp⟩ := hlast group hpos
      have hfill : Place.row group (rowsOf T schema wireFields group - 1) leaf ∈
          fillPlaces schema (rowsOf T schema wireFields) :=
        mem_fillPlaces.2 ⟨hin, by dsimp only; omega⟩
      obtain ⟨record, hrecord⟩ := cell_of_spelled hin (small_of_fill hfill) hsp
      have hfinal : finalCell T schema wireFields (.row group (rowsOf T schema wireFields group - 1) leaf) =
          some record := by rw [finalCell, if_pos hsp, hrecord]
      have := lt_rowCount ((write_iff_of_writable hT hprov hw hin).2 ⟨hfinal, value_of_cell hrecord⟩)
      unfold rowsOf at this ⊢
      omega

/-- A document has provenance where every wire field does. -/
theorem allProvenanced (hwire : ∀ field ∈ wireFields, ∀ value, Provenanced (recordOf field value)) :
    AllProvenanced (reassemble T message schema wireFields).document := by
  intro steps record hfind hv
  obtain ⟨writes, hshows, hcell, -, -, -, hwrites⟩ := assembled T schema wireFields
  obtain ⟨place, -, hplace⟩ := hshows.leaf_place hfind
  rw [hcell place (hwrites _ (mem_of_cell hplace))] at hplace
  obtain ⟨-, hkept, -⟩ := kept_of_finalCell hplace hv
  obtain ⟨field, hfield, reading, -, hrecord, -⟩ := place_of_write (mem_of_cell hkept)
  rw [show record = _ from congrArg Prod.snd hrecord]
  exact hwire field hfield reading.value

end

/-- **Storage and back.** The document the reader made comes back from its rows, as valid as it was, if and only
if the last row of every group was spelled and no number is written with an exponent. -/
theorem restore_flatten_iff {T : CaseTables} (hT : KeepsSmallLetters T) (message : Node Text FieldRecord → Text → Text)
    (docType : DocType) (wireFields : List WireField)
    (hprov : AllProvenanced (reassemble T message (schemaFor docType) wireFields).document) :
    ((restoreDocument T message docType
          (flattenExtraction (reassemble T message (schemaFor docType) wireFields).document)).document.Same
        (reassemble T message (schemaFor docType) wireFields).document ∧
      (restoreDocument T message docType
          (flattenExtraction (reassemble T message (schemaFor docType) wireFields).document)).validated =
        (reassemble T message (schemaFor docType) wireFields).validated) ↔
    LastRowsSpelled T (schemaFor docType) wireFields ∧ AllWritable T (schemaFor docType) wireFields := by
  change ((reassemble T message (schemaFor docType) (storedFields T (schemaFor docType) message wireFields)).document.Same
      (reassemble T message (schemaFor docType) wireFields).document ∧
    (reassemble T message (schemaFor docType) (storedFields T (schemaFor docType) message wireFields)).validated =
      (reassemble T message (schemaFor docType) wireFields).validated) ↔ _
  generalize schemaFor docType = schema at hprov ⊢
  constructor
  · rintro ⟨hsame, -⟩
    have hw : AllWritable T schema wireFields := by
      intro place record hin hsp hcell
      by_contra hnot
      have hfinal : finalCell T schema wireFields place = some record := by rw [finalCell, if_pos hsp, hcell]
      have hv := value_of_cell hcell
      obtain ⟨-, -, -, raw, d, -, hd, -, -, hvalue⟩ := kept_of_finalCell hfinal hv
      -- the restored document has the value as well, so the text it was stored as is read as the value
      have hfind := hsame place.steps
      rw [find_place T message _ hin, find_place T message _ hin, hfinal, Option.map_some, Option.map_eq_some_iff] at hfind
      obtain ⟨_, hstored, ⟨⟩⟩ := hfind
      obtain ⟨-, hcell', -⟩ := kept_of_finalCell hstored hv
      obtain ⟨record', text, d', hfinal', htext, hd', hagain⟩ := coerce_of_stored hprov (mem_of_cell hcell')
      rw [hfinal, Option.some.injEq] at hfinal'
      rw [hd, Option.some.injEq] at hd'
      subst hfinal' hd'
      exact coerce_of_not_writable hvalue hnot htext hagain
    refine ⟨(rowsOf_stored_iff hT hprov hw).1 fun group => ?_, hw⟩
    by_cases hg : HasGroup schema group
    · have hfind := hsame [.key group]
      rw [find_group T message _ hg, find_group T message _ hg] at hfind
      exact Shape.array.inj (Option.some.inj hfind)
    · have hzero : ∀ fields, rowsOf T schema fields group = 0 := fun fields => by
        by_contra hne
        obtain ⟨write, hwrite, leaf, hplace⟩ := exists_row_of_rowCount (Nat.pos_of_ne_zero hne)
        have hin := in_of_mem_wireWrites hwrite
        rw [hplace] at hin
        exact hg hin.group
      rw [hzero, hzero]
  · rintro ⟨hlast, hw⟩
    have hsame := same_of_rows hT hprov hw ((rowsOf_stored_iff hT hprov hw).2 hlast)
    exact ⟨hsame, congrArg List.isEmpty (schemaFaults_same hsame)⟩

/-- A notice with a field of its own and two lines, a number in one of them. -/
def noticeFields : List WireField :=
  [⟨"claim_id".toList, "C".toList, 1, 1, "C".toList⟩, ⟨"lines[0].reason_code".toList, "R".toList, 1, 1, "R".toList⟩,
    ⟨"lines[0].qty_invoiced".toList, "5".toList, 1, 1, "5".toList⟩,
    ⟨"lines[1].reason_code".toList, "S".toList, 1, 1, "S".toList⟩]

theorem notice_restored :
    let read := reassemble asciiCase (fun _ path => path) (schemaFor .deduction_notice) noticeFields
    (restoreDocument asciiCase (fun _ path => path) .deduction_notice (flattenExtraction read.document)).document.Same
        read.document ∧
      (restoreDocument asciiCase (fun _ path => path) .deduction_notice
        (flattenExtraction read.document)).validated = read.validated := by
  have hwrites : wireWrites asciiCase (schemaFor .deduction_notice) noticeFields =
      [(.flat "claim_id".toList, ⟨.text "C".toList, 1, 1, "C".toList⟩),
        (.row "lines".toList 0 "reason_code".toList, ⟨.text "R".toList, 1, 1, "R".toList⟩),
        (.row "lines".toList 0 "qty_invoiced".toList, ⟨.integer (.finite 5), 1, 1, "5".toList⟩),
        (.row "lines".toList 1 "reason_code".toList, ⟨.text "S".toList, 1, 1, "S".toList⟩)] := by decide +kernel
  have hrows : ∀ group, rowsOf asciiCase (schemaFor .deduction_notice) noticeFields group =
      if "lines".toList = group then 2 else 0 := fun group => by
    rw [rowsOf, hwrites]
    simp only [rowCount, List.foldl_cons, List.foldl_nil, rowsFor, Place.rowOf]
    split_ifs <;> rfl
  refine (@restore_flatten_iff asciiCase ?_ _ .deduction_notice _ (allProvenanced fun field hfield value => ?_)).2
    ⟨fun group hgroup => ?_, fun place record _ _ hcell => ?_⟩
  · decide
  · simp only [noticeFields, List.mem_cons, List.not_mem_nil, or_false] at hfield
    rcases hfield with rfl | rfl | rfl | rfl <;> exact provenanced_letter (by decide) (by decide)
  · rw [hrows] at hgroup ⊢
    split_ifs at hgroup ⊢ with hg
    · subst hg
      have hlast : (.row "lines".toList 1 "reason_code".toList, ⟨.text "S".toList, 1, 1, "S".toList⟩) ∈
          wireWrites asciiCase (schemaFor .deduction_notice) noticeFields := by
        rw [hwrites]
        exact .tail _ (.tail _ (.tail _ (.head _)))
      exact ⟨"reason_code".toList, in_of_mem_wireWrites hlast, by decide +kernel⟩
    · cases hgroup
  · have hall : ∀ write ∈ wireWrites asciiCase (schemaFor .deduction_notice) noticeFields, Writable write.2.value := by
      rw [hwrites]
      simp [Writable]
    exact hall _ (mem_of_cell hcell)

/-- A row number with a leading zero: the document has two lines, and one comes back. -/
theorem padded_row_lost :
    let wireFields : List WireField := [⟨"lines[0].invoice_number".toList, "I".toList, 1, 1, "I".toList⟩,
      ⟨"lines[01].invoice_number".toList, "J".toList, 1, 1, "J".toList⟩]
    let read := reassemble asciiCase (fun _ path => path) (schemaFor .remittance_advice) wireFields
    (∀ field ∈ wireFields, ∀ value, Provenanced (recordOf field value)) ∧
      ¬ (restoreDocument asciiCase (fun _ path => path) .remittance_advice
        (flattenExtraction read.document)).document.Same read.document := by
  refine ⟨fun field hfield value => ?_, fun h => ?_⟩
  · rcases List.mem_pair.1 hfield with rfl | rfl <;>
      exact provenanced_letter (by decide) (by decide)
  · exact absurd (h [.key "lines".toList]) (by decide +kernel)

end Recouple.Extraction.Wire
