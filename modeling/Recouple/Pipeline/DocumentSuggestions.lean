import Recouple.Pipeline.DocumentMatch

/-!
# What a document suggests: `packages/core-domain/src/document-match.ts` (301-430)

| here | there |
| --- | --- |
| `Identified`, `Referred`, `CarriesName` | the names a document prints and a case carries, as sets |
| `Suggested` | when a case is to be suggested |
| `SuggestsRightly` | what a list of suggestions has to be |

* `exactBasis_ne_nil`, `probableBasis_ne_nil`: a basis is found exactly where the sets meet.
* **`suggestions_right_iff`**: the suggestions are right, and the same for every order of the cases, except for a type
  named like what every object inherits, of which the table's lookup finds something that is no entry.
-/

namespace Recouple.Pipeline
open Js FirstSeen SortByKey

/-! ## The two sides as sets -/

section
variable (T : CaseTables) (nfkd : Text → Text)

/-- A text that is not blank, and neither is its key. -/
def Prints (value : Value) (key : Text) : Prop :=
  ∃ text, value = .str text ∧ trim text ≠ [] ∧ identifierMatchKey T text = key ∧ key ≠ []

/-- The document prints an identifier of the kind. -/
def Identified (spec : DocumentMatchFields) (fields : List DocumentMatchField) (kind : DocumentMatchKind) (key : Text) :
    Prop :=
  ∃ field ∈ fields, ∃ path, (path, kind) ∈ spec.identifiers ∧ pathMatches path field.path = true ∧ Prints T field.value key

/-- The document prints an identifier without a kind. -/
def Referred (spec : DocumentMatchFields) (fields : List DocumentMatchField) (key : Text) : Prop :=
  ∃ field ∈ fields, (∃ path ∈ spec.references, pathMatches path field.path = true) ∧ Prints T field.value key

/-- The case carries an identifier of the kind. -/
def CarriesName (candidate : DocumentMatchCase) (kind : DocumentMatchKind) (key : Text) : Prop :=
  key ≠ [] ∧ ((kind = .claim_id ∧ ∃ claimId, candidate.claimId = some claimId ∧ identifierMatchKey T claimId = key) ∨
    ∃ known ∈ candidate.identifiers, caseKind known.kind = some kind ∧ identifierMatchKey T known.value = key)

def SharesIdentifier (spec : DocumentMatchFields) (fields : List DocumentMatchField) (candidate : DocumentMatchCase) :
    Prop := ∃ kind key, Identified T spec fields kind key ∧ CarriesName T candidate kind key

def SharesReference (spec : DocumentMatchFields) (fields : List DocumentMatchField) (candidate : DocumentMatchCase) :
    Prop := ∃ kind key, Referred T spec fields key ∧ CarriesName T candidate kind key

/-- The payer that the document names is the case's debtor, by a name a person gave it or the name printed on the case. -/
def SharesPayer (spec : DocumentMatchFields) (fields : List DocumentMatchField) (candidate : DocumentMatchCase) : Prop :=
  ∃ field ∈ fields, (∃ path ∈ spec.payerNames, pathMatches path field.path = true) ∧
    ∃ text, field.value = .str text ∧ trim text ≠ [] ∧ retailerMatchKey T nfkd text ≠ [] ∧
      ∃ name, (name ∈ candidate.debtorNames.getD [] ∨ name = candidate.retailerNameAsPrinted.getD []) ∧
        retailerMatchKey T nfkd name = retailerMatchKey T nfkd text

/-- An amount on the document is the case's, to the cent. -/
def SharesAmount (spec : DocumentMatchFields) (fields : List DocumentMatchField) (candidate : DocumentMatchCase) : Prop :=
  ∃ field ∈ fields, (∃ path ∈ spec.amounts, pathMatches path field.path = true) ∧
    ∃ text, field.value = .str text ∧ parseMoneyToCents T text = .ok candidate.amountCents

def Open (candidate : DocumentMatchCase) : Prop := Database.Workflow.isClosed candidate.state = false

def Suggested (spec : DocumentMatchFields) (fields : List DocumentMatchField) (candidate : DocumentMatchCase) : Prop :=
  Open candidate ∧ (SharesIdentifier T spec fields candidate ∨ ¬ SharesIdentifier T spec fields candidate ∧
    (SharesReference T spec fields candidate ∨
      SharesPayer T nfkd spec fields candidate ∧ SharesAmount T spec fields candidate))

/-- The fields a type lists; a type that is not in the table lists none. -/
def listed (documentType : Text) : DocumentMatchFields := (DOCUMENT_MATCH_FIELDS.lookup documentType).getD NOTHING

/-- The cases to suggest, each once, the identifier matches first, and `exact` where it is the only one. -/
structure SuggestsRightly (spec : DocumentMatchFields) (fields : List DocumentMatchField) (cases : List DocumentMatchCase)
    (list : List DocumentCaseSuggestion) : Prop where
  suggested : ∀ id, id ∈ list.map (·.caseId) ↔ ∃ candidate ∈ cases, candidate.caseId = id ∧
    Suggested T nfkd spec fields candidate
  once : (list.map (·.caseId)).Nodup
  based : ∀ row ∈ list, row.basis ≠ []
  probable : ∀ row ∈ list, ∀ candidate ∈ cases, candidate.caseId = row.caseId →
    (row.strength = .probable ↔ ¬ SharesIdentifier T spec fields candidate)
  exact : ∀ row ∈ list, ∀ candidate ∈ cases, candidate.caseId = row.caseId →
    (row.strength = .exact ↔ SharesIdentifier T spec fields candidate ∧
      ∀ other ∈ cases, Open other → SharesIdentifier T spec fields other → other.caseId = row.caseId)
  first : list.Pairwise fun row later => row.strength = .probable → later.strength = .probable

end

section
variable {T : CaseTables} {nfkd : Text → Text} {spec : DocumentMatchFields} {fields : List DocumentMatchField}
  {candidate : DocumentMatchCase}

/-! ## Where a basis is found -/

theorem printedKey_some {field : DocumentMatchField} {key : Text} :
    (∃ p, printedKey T field = some p ∧ p.key = key) ↔ Prints T field.value key := by
  unfold printedKey Prints printed
  simp only [Option.bind_eq_bind, Option.bind_eq_some_iff]
  constructor
  · rintro ⟨p, ⟨text, htext, h⟩, rfl⟩
    split at htext
    case h_1 text' hvalue =>
      split at htext
      case isTrue hblank =>
        obtain rfl := Option.some.inj htext
        split at h
        case isTrue hkey =>
          obtain rfl := Option.some.inj h
          exact ⟨text', hvalue, hblank, rfl, hkey⟩
        case isFalse => cases h
      case isFalse => cases htext
    case h_2 => cases htext
  · rintro ⟨text, hvalue, hblank, rfl, hkey⟩
    rw [hvalue]
    exact ⟨_, ⟨text, if_pos hblank, if_pos hkey⟩, rfl⟩

theorem mem_identifiersOf {kind : DocumentMatchKind} {key : Text} :
    (∃ p, (kind, p) ∈ identifiersOf T spec fields ∧ p.key = key) ↔ Identified T spec fields kind key := by
  unfold identifiersOf Identified
  simp only [List.mem_flatMap, List.mem_filterMap, List.mem_filter, Option.map_eq_some_iff, Prod.exists,
    ← printedKey_some]
  constructor
  · rintro ⟨p, ⟨field, hfield, path, kind', ⟨hentry, hpath⟩, p', hp, heq⟩, rfl⟩
    obtain ⟨rfl, rfl⟩ := Prod.mk.inj heq
    exact ⟨field, hfield, path, hentry, hpath, p', hp, rfl⟩
  · rintro ⟨field, hfield, path, hentry, hpath, p, hp, rfl⟩
    exact ⟨p, ⟨field, hfield, path, kind, ⟨hentry, hpath⟩, p, hp, rfl⟩, rfl⟩

theorem mem_fieldsAt {paths : List Text} {field : DocumentMatchField} :
    field ∈ fieldsAt paths fields ↔ field ∈ fields ∧ ∃ path ∈ paths, pathMatches path field.path = true := by
  unfold fieldsAt
  rw [List.mem_filter, List.any_eq_true]

theorem mem_referencesOf {key : Text} :
    (∃ p ∈ referencesOf T spec fields, p.key = key) ↔ Referred T spec fields key := by
  unfold referencesOf Referred
  simp only [List.mem_filterMap, mem_fieldsAt, ← printedKey_some]
  constructor
  · rintro ⟨p, ⟨field, ⟨hfield, hpath⟩, hp⟩, rfl⟩
    exact ⟨field, hfield, hpath, p, hp, rfl⟩
  · rintro ⟨field, hfield, hpath, p, hp, rfl⟩
    exact ⟨p, ⟨field, ⟨hfield, hpath⟩, hp⟩, rfl⟩

theorem mem_carried {kind : DocumentMatchKind} {key : Text} :
    (kind, key) ∈ carried T candidate ↔ CarriesName T candidate kind key := by
  unfold carried CarriesName
  simp only [List.mem_filter, List.mem_map, List.mem_append, Option.mem_toList, Option.map_eq_some_iff,
    List.mem_filterMap, Prod.exists, Prod.mk.injEq, decide_eq_true_eq]
  constructor
  · rintro ⟨⟨kind', value, hnamed, rfl, rfl⟩, hkey⟩
    rcases hnamed with ⟨claimId, hclaim, rfl, rfl⟩ | ⟨known, hknown, kind'', hkind, rfl, rfl⟩
    · exact ⟨hkey, .inl ⟨rfl, claimId, hclaim, rfl⟩⟩
    · exact ⟨hkey, .inr ⟨known, hknown, hkind, rfl⟩⟩
  · rintro ⟨hkey, ⟨rfl, claimId, hclaim, rfl⟩ | ⟨known, hknown, hkind, rfl⟩⟩
    · exact ⟨⟨_, _, .inl ⟨claimId, hclaim, rfl, rfl⟩, rfl, rfl⟩, hkey⟩
    · exact ⟨⟨_, _, .inr ⟨known, hknown, kind, hkind, rfl, rfl⟩, rfl, rfl⟩, hkey⟩

/-- Nothing is kept of a list only where it is empty. -/
theorem firstBy_ne_nil {α κ : Type} [DecidableEq κ] (key : α → κ) {l : List α} : firstBy key l ≠ [] ↔ l ≠ [] := by
  have hmap := mem_map_firstBy key l
  constructor
  · rintro h rfl
    exact h rfl
  · intro h hnil
    obtain ⟨a, ha⟩ := List.exists_mem_of_ne_nil l h
    have hkept := (hmap (key a)).2 (List.mem_map_of_mem ha)
    rw [hnil] at hkept
    exact List.not_mem_nil hkept

theorem exactBasis_ne_nil :
    exactBasis T (identifiersOf T spec fields) candidate ≠ [] ↔ SharesIdentifier T spec fields candidate := by
  unfold exactBasis SharesIdentifier
  dsimp only
  rw [ne_eq, List.map_eq_nil_iff, ← ne_eq, firstBy_ne_nil, ← List.length_pos_iff, List.length_pos_iff_exists_mem]
  simp only [List.mem_filter, decide_eq_true_eq, Prod.exists, mem_carried, ← mem_identifiersOf]
  constructor
  · rintro ⟨kind, p, hp, hcarried⟩
    exact ⟨kind, p.key, ⟨p, hp, rfl⟩, hcarried⟩
  · rintro ⟨kind, key, ⟨p, hp, rfl⟩, hcarried⟩
    exact ⟨kind, p, hp, hcarried⟩

theorem reference_isSome : ((referencesOf T spec fields).find? fun named =>
    named.key ∈ (carried T candidate).map (·.2)).isSome = true ↔ SharesReference T spec fields candidate := by
  unfold SharesReference
  simp only [List.find?_isSome, decide_eq_true_eq, List.mem_map, Prod.exists, exists_eq_right, mem_carried,
    ← mem_referencesOf]
  constructor
  · rintro ⟨p, hp, kind, hcarried⟩
    exact ⟨kind, p.key, ⟨p, hp, rfl⟩, hcarried⟩
  · rintro ⟨kind, key, ⟨p, hp, rfl⟩, hcarried⟩
    exact ⟨p, hp, kind, hcarried⟩

theorem payer_isSome : ((payersOf T nfkd spec fields).find? fun named =>
    named.1 ∈ caseNames T nfkd candidate).isSome = true ↔ SharesPayer T nfkd spec fields candidate := by
  have hnames : ∀ key, key ∈ caseNames T nfkd candidate ↔ key ≠ [] ∧ ∃ name,
      (name ∈ candidate.debtorNames.getD [] ∨ name = candidate.retailerNameAsPrinted.getD []) ∧
        retailerMatchKey T nfkd name = key := by
    intro key
    unfold caseNames
    rw [List.mem_filter, List.mem_map, decide_eq_true_eq, and_comm]
    simp only [List.mem_append, List.mem_singleton]
  have hpayers : ∀ named, named ∈ payersOf T nfkd spec fields ↔ ∃ field ∈ fields,
      (∃ path ∈ spec.payerNames, pathMatches path field.path = true) ∧ ∃ text, field.value = .str text ∧ trim text ≠ [] ∧
        retailerMatchKey T nfkd text ≠ [] ∧ named = (retailerMatchKey T nfkd text, field.path) := by
    intro named
    unfold payersOf
    simp only [List.mem_filterMap, mem_fieldsAt, and_assoc]
    refine exists_congr fun field => and_congr_right fun _ => and_congr_right fun _ => ?_
    unfold printed
    cases field.value with
    | str text =>
      by_cases hblank : trim text = []
      · simp [hblank]
      · by_cases hkey : retailerMatchKey T nfkd text = []
        · simp [hblank, hkey]
        · simp [hblank, hkey, @eq_comm _ named]
    | _ => simp
  unfold SharesPayer
  simp only [List.find?_isSome, decide_eq_true_eq, hnames, hpayers]
  constructor
  · rintro ⟨_, ⟨field, hfield, hpath, text, hvalue, hblank, hkey, rfl⟩, -, name, hname, hsame⟩
    exact ⟨field, hfield, hpath, text, hvalue, hblank, hkey, name, hname, hsame⟩
  · rintro ⟨field, hfield, hpath, text, hvalue, hblank, hkey, name, hname, hsame⟩
    exact ⟨_, ⟨field, hfield, hpath, text, hvalue, hblank, hkey, rfl⟩, hkey, name, hname, hsame⟩

theorem centsOf_some {value : Value} {amount : Cents} :
    centsOf T value = some amount ↔ ∃ text, value = .str text ∧ parseMoneyToCents T text = .ok amount := by
  unfold centsOf
  cases value with
  | str text =>
    cases h : parseMoneyToCents T text with
    | ok parsed => simp [Except.toOption, h]
    | error e => simp [Except.toOption, h]
  | _ => simp

theorem amount_isSome : ((amountsOf T spec fields).find? fun named => named.1 = candidate.amountCents).isSome = true ↔
    SharesAmount T spec fields candidate := by
  unfold SharesAmount amountsOf
  simp only [List.find?_isSome, decide_eq_true_eq, List.mem_filterMap, mem_fieldsAt, Option.map_eq_some_iff, centsOf_some]
  constructor
  · rintro ⟨_, ⟨field, ⟨hfield, hpath⟩, amount, ⟨text, hvalue, hcents⟩, rfl⟩, rfl⟩
    exact ⟨field, hfield, hpath, text, hvalue, hcents⟩
  · rintro ⟨field, hfield, hpath, text, hvalue, hcents⟩
    exact ⟨_, ⟨field, ⟨hfield, hpath⟩, _, ⟨text, hvalue, hcents⟩, rfl⟩, rfl⟩

theorem probableBasis_ne_nil : probableBasis T nfkd (namesOf T nfkd spec fields) candidate ≠ [] ↔
    SharesReference T spec fields candidate ∨
      SharesPayer T nfkd spec fields candidate ∧ SharesAmount T spec fields candidate := by
  rw [← reference_isSome, ← payer_isSome, ← amount_isSome]
  unfold probableBasis namesOf
  dsimp only
  generalize (referencesOf T spec fields).find? _ = reference
  generalize (payersOf T nfkd spec fields).find? _ = payer
  generalize (amountsOf T spec fields).find? _ = amount
  cases reference with
  | some named => simp
  | none =>
    cases payer with
    | none => simp
    | some payer => cases amount <;> simp

/-! ## The ranking -/

theorem byBasis_compares (a b : Text × List DocumentMatchBasis) : Compares (byBasis a b)
    (toLex (OrderDual.toDual a.2.length, codeUnits a.1)) (toLex (OrderDual.toDual b.2.length, codeUnits b.1)) := by
  have hlength : Compares ((b.2.length : Int) - a.2.length) (OrderDual.toDual a.2.length) (OrderDual.toDual b.2.length) :=
    ⟨by rw [OrderDual.toDual_lt_toDual]; omega, by rw [OrderDual.toDual_inj]; omega⟩
  exact hlength.orElse (Books.compareText_compares _ _)

theorem perm_ranked (rows : List (Text × List DocumentMatchBasis)) : (ranked rows).Perm rows :=
  List.perm_insertionSort _ rows

theorem ranked_congr {rows rows' : List (Text × List DocumentMatchBasis)} (hperm : rows.Perm rows')
    (hids : (rows.map (·.1)).Nodup) : ranked rows = ranked rows' := by
  refine insertionSort_congr_of_apart (fun a b => (byBasis_compares a b).le) hperm fun a ha b hb hkey => ?_
  have hunits : codeUnits a.1 = codeUnits b.1 := congrArg Prod.snd (toLex_inj.1 hkey)
  exact List.inj_on_of_nodup_map hids ha hb (codeUnits_injective hunits)

/-! ## The suggestions of a document -/

variable {names : DocumentNames} {cases : List DocumentMatchCase}

/-- The open cases, which are one row each. -/
def openCases (cases : List DocumentMatchCase) : List DocumentMatchCase :=
  cases.filter fun candidate => !Database.Workflow.isClosed candidate.state

theorem mem_openCases : candidate ∈ openCases cases ↔ candidate ∈ cases ∧ Open candidate := by
  unfold openCases Open
  rw [List.mem_filter, Bool.not_eq_true']

theorem nodup_openCases (hids : (cases.map (·.caseId)).Nodup) : ((openCases cases).map (·.caseId)).Nodup :=
  hids.sublist (List.filter_sublist.map _)

variable (T nfkd names) in
/-- The rows that an identifier puts on the list. -/
def exactRows (cases : List DocumentMatchCase) : List (Text × List DocumentMatchBasis) :=
  ((openCases cases).map fun candidate => (candidate.caseId, exactBasis T names.identifiers candidate)).filter (·.2 ≠ [])

variable (T nfkd names) in
/-- The rows that anything else does. -/
def probableRows (cases : List DocumentMatchCase) : List (Text × List DocumentMatchBasis) :=
  (((openCases cases).filter fun candidate => exactBasis T names.identifiers candidate = []).map fun candidate =>
    (candidate.caseId, probableBasis T nfkd names candidate)).filter (·.2 ≠ [])

theorem suggestionsOf_eq (hids : (cases.map (·.caseId)).Nodup) : suggestionsOf T nfkd names cases =
    (ranked (exactRows T names cases)).map
        (fun row => ⟨row.1, if (exactRows T names cases).length = 1 then .exact else .ambiguous, row.2⟩) ++
      (ranked (probableRows T nfkd names cases)).map fun row => ⟨row.1, .probable, row.2⟩ := by
  unfold suggestionsOf
  dsimp only
  rw [show (cases.filter fun candidate => !Database.Workflow.isClosed candidate.state) = openCases cases from rfl,
    firstBy_eq_self _ (nodup_openCases hids)]
  rfl

theorem mem_exactRows {row : Text × List DocumentMatchBasis} : row ∈ exactRows T names cases ↔
    ∃ candidate ∈ cases, Open candidate ∧ exactBasis T names.identifiers candidate ≠ [] ∧
      row = (candidate.caseId, exactBasis T names.identifiers candidate) := by
  unfold exactRows
  simp only [List.mem_filter, List.mem_map, mem_openCases, decide_eq_true_eq]
  constructor
  · rintro ⟨⟨candidate, ⟨hmem, hopen⟩, rfl⟩, hbasis⟩
    exact ⟨candidate, hmem, hopen, hbasis, rfl⟩
  · rintro ⟨candidate, hmem, hopen, hbasis, rfl⟩
    exact ⟨⟨candidate, ⟨hmem, hopen⟩, rfl⟩, hbasis⟩

theorem mem_probableRows {row : Text × List DocumentMatchBasis} : row ∈ probableRows T nfkd names cases ↔
    ∃ candidate ∈ cases, Open candidate ∧ exactBasis T names.identifiers candidate = [] ∧
      probableBasis T nfkd names candidate ≠ [] ∧ row = (candidate.caseId, probableBasis T nfkd names candidate) := by
  unfold probableRows
  simp only [List.mem_filter, List.mem_map, mem_openCases, decide_eq_true_eq]
  constructor
  · rintro ⟨⟨candidate, ⟨⟨hmem, hopen⟩, hexact⟩, rfl⟩, hbasis⟩
    exact ⟨candidate, hmem, hopen, hexact, hbasis, rfl⟩
  · rintro ⟨candidate, hmem, hopen, hexact, hbasis, rfl⟩
    exact ⟨⟨candidate, ⟨⟨hmem, hopen⟩, hexact⟩, rfl⟩, hbasis⟩

theorem nodup_exactRows (hids : (cases.map (·.caseId)).Nodup) : ((exactRows T names cases).map (·.1)).Nodup := by
  have hrows : ((openCases cases).map fun candidate =>
      (candidate.caseId, exactBasis T names.identifiers candidate)).map (·.1) = (openCases cases).map (·.caseId) := by
    rw [List.map_map]
    rfl
  exact (hrows ▸ nodup_openCases hids).sublist (List.filter_sublist.map _)

theorem nodup_probableRows (hids : (cases.map (·.caseId)).Nodup) :
    ((probableRows T nfkd names cases).map (·.1)).Nodup := by
  have hopen := (nodup_openCases hids).sublist ((List.filter_sublist (l := openCases cases)
    (p := fun candidate => exactBasis T names.identifiers candidate = [])).map (·.caseId))
  have hrows : (((openCases cases).filter fun candidate => exactBasis T names.identifiers candidate = []).map
      fun candidate => (candidate.caseId, probableBasis T nfkd names candidate)).map (·.1) =
      ((openCases cases).filter fun candidate => exactBasis T names.identifiers candidate = []).map (·.caseId) := by
    rw [List.map_map]
    rfl
  exact (hrows ▸ hopen).sublist (List.filter_sublist.map _)

/-- The order of the cases says nothing. -/
theorem suggestionsOf_congr (hids : (cases.map (·.caseId)).Nodup) {cases' : List DocumentMatchCase}
    (hperm : cases'.Perm cases) : suggestionsOf T nfkd names cases' = suggestionsOf T nfkd names cases := by
  have hids' : (cases'.map (·.caseId)).Nodup := (hperm.map _).nodup_iff.2 hids
  have hexact : (exactRows T names cases').Perm (exactRows T names cases) := ((hperm.filter _).map _).filter _
  have hprobable : (probableRows T nfkd names cases').Perm (probableRows T nfkd names cases) :=
    (((hperm.filter _).filter _).map _).filter _
  rw [suggestionsOf_eq hids, suggestionsOf_eq hids', ranked_congr hexact (nodup_exactRows hids'),
    ranked_congr hprobable (nodup_probableRows hids'), hexact.length_eq]

/-- What a row that an identifier puts on the list is called. -/
def exactStrength (rows : List (Text × List DocumentMatchBasis)) : DocumentMatchStrength :=
  if rows.length = 1 then .exact else .ambiguous

theorem exactStrength_ne_probable (rows : List (Text × List DocumentMatchBasis)) : exactStrength rows ≠ .probable := by
  unfold exactStrength
  split <;> simp

theorem mem_suggestionsOf (hids : (cases.map (·.caseId)).Nodup) {row : DocumentCaseSuggestion} :
    row ∈ suggestionsOf T nfkd names cases ↔
      (∃ candidate ∈ cases, Open candidate ∧ exactBasis T names.identifiers candidate ≠ [] ∧
        row = ⟨candidate.caseId, exactStrength (exactRows T names cases), exactBasis T names.identifiers candidate⟩) ∨
      ∃ candidate ∈ cases, Open candidate ∧ exactBasis T names.identifiers candidate = [] ∧
        probableBasis T nfkd names candidate ≠ [] ∧
        row = ⟨candidate.caseId, .probable, probableBasis T nfkd names candidate⟩ := by
  rw [suggestionsOf_eq hids, List.mem_append, List.mem_map, List.mem_map]
  simp only [(perm_ranked _).mem_iff, mem_exactRows, mem_probableRows]
  refine or_congr ⟨?_, ?_⟩ ⟨?_, ?_⟩
  · rintro ⟨_, ⟨candidate, hmem, hopen, hbasis, rfl⟩, rfl⟩
    exact ⟨candidate, hmem, hopen, hbasis, rfl⟩
  · rintro ⟨candidate, hmem, hopen, hbasis, rfl⟩
    exact ⟨_, ⟨candidate, hmem, hopen, hbasis, rfl⟩, rfl⟩
  · rintro ⟨_, ⟨candidate, hmem, hopen, hexact, hbasis, rfl⟩, rfl⟩
    exact ⟨candidate, hmem, hopen, hexact, hbasis, rfl⟩
  · rintro ⟨candidate, hmem, hopen, hexact, hbasis, rfl⟩
    exact ⟨_, ⟨candidate, hmem, hopen, hexact, hbasis, rfl⟩, rfl⟩

/-- Rows of distinct ids are one row exactly where each has the id of one of them. -/
theorem length_eq_one_iff {rows : List (Text × List DocumentMatchBasis)} (hids : (rows.map (·.1)).Nodup)
    {row : Text × List DocumentMatchBasis} (hrow : row ∈ rows) : rows.length = 1 ↔ ∀ other ∈ rows, other.1 = row.1 := by
  constructor
  · intro hone other hother
    obtain ⟨only, rfl⟩ := List.length_eq_one_iff.1 hone
    rw [List.mem_singleton.1 hother, List.mem_singleton.1 hrow]
  · intro hall
    rcases rows with - | ⟨first, - | ⟨second, rest⟩⟩
    · exact absurd hrow List.not_mem_nil
    · rfl
    · have hfirst := hall first List.mem_cons_self
      have hsecond := hall second (List.mem_cons_of_mem _ List.mem_cons_self)
      rw [List.map_cons, List.map_cons, List.nodup_cons] at hids
      exact absurd (by rw [hfirst, hsecond]; exact List.mem_cons_self) hids.1

theorem suggestionsOf_right (hids : (cases.map (·.caseId)).Nodup) :
    SuggestsRightly T nfkd spec fields cases (suggestionsOf T nfkd (namesOf T nfkd spec fields) cases) := by
  have hmem := fun row => @mem_suggestionsOf T nfkd (namesOf T nfkd spec fields) cases hids row
  have hexactBasis : ∀ candidate, exactBasis T (namesOf T nfkd spec fields).identifiers candidate ≠ [] ↔
      SharesIdentifier T spec fields candidate := fun candidate => exactBasis_ne_nil
  have hexactBasis' : ∀ candidate, exactBasis T (namesOf T nfkd spec fields).identifiers candidate = [] ↔
      ¬ SharesIdentifier T spec fields candidate := fun candidate => by rw [← hexactBasis, not_not]
  have hsame : ∀ {c d : DocumentMatchCase}, c ∈ cases → d ∈ cases → c.caseId = d.caseId → c = d :=
    fun hc hd h => List.inj_on_of_nodup_map hids hc hd h
  simp only [hexactBasis, hexactBasis', probableBasis_ne_nil] at hmem
  constructor
  case suggested =>
    intro id
    rw [List.mem_map]
    simp only [hmem]
    constructor
    · rintro ⟨row, ⟨candidate, hcase, hopen, hshares, rfl⟩ | ⟨candidate, hcase, hopen, hshares, hprobable, rfl⟩, rfl⟩
      · exact ⟨candidate, hcase, rfl, hopen, .inl hshares⟩
      · exact ⟨candidate, hcase, rfl, hopen, .inr ⟨hshares, hprobable⟩⟩
    · rintro ⟨candidate, hcase, rfl, hopen, hshares | ⟨hshares, hprobable⟩⟩
      · exact ⟨_, .inl ⟨candidate, hcase, hopen, hshares, rfl⟩, rfl⟩
      · exact ⟨_, .inr ⟨candidate, hcase, hopen, hshares, hprobable, rfl⟩, rfl⟩
  case once =>
    have hids' : (suggestionsOf T nfkd (namesOf T nfkd spec fields) cases).map (·.caseId) =
        (ranked (exactRows T (namesOf T nfkd spec fields) cases)).map (·.1) ++
          (ranked (probableRows T nfkd (namesOf T nfkd spec fields) cases)).map (·.1) := by
      rw [suggestionsOf_eq hids, List.map_append, List.map_map, List.map_map]
      rfl
    rw [hids', List.nodup_append']
    refine ⟨((perm_ranked _).map _).nodup_iff.2 (nodup_exactRows hids),
      ((perm_ranked _).map _).nodup_iff.2 (nodup_probableRows hids), fun id hexact hprobable => ?_⟩
    obtain ⟨row, hrow, rfl⟩ := List.mem_map.1 hexact
    obtain ⟨row', hrow', hid⟩ := List.mem_map.1 hprobable
    obtain ⟨c, hc, -, hbasis, rfl⟩ := mem_exactRows.1 ((perm_ranked _).mem_iff.1 hrow)
    obtain ⟨d, hd, -, hnone, -, rfl⟩ := mem_probableRows.1 ((perm_ranked _).mem_iff.1 hrow')
    exact hbasis (hsame hd hc hid ▸ hnone)
  case based =>
    intro row hrow
    rcases (hmem row).1 hrow with ⟨candidate, hcase, hopen, hshares, rfl⟩ | ⟨candidate, hcase, hopen, hshares, hprobable, rfl⟩
    · exact (hexactBasis candidate).2 hshares
    · exact probableBasis_ne_nil.2 hprobable
  case probable =>
    intro row hrow candidate hcase hid
    rcases (hmem row).1 hrow with ⟨own, hown, hopen, hshares, rfl⟩ | ⟨own, hown, hopen, hshares, hprobable, rfl⟩
    · obtain rfl := hsame hcase hown hid
      exact iff_of_false (exactStrength_ne_probable _) (not_not.2 hshares)
    · obtain rfl := hsame hcase hown hid
      exact iff_of_true rfl hshares
  case exact =>
    intro row hrow candidate hcase hid
    rcases (hmem row).1 hrow with ⟨own, hown, hopen, hshares, rfl⟩ | ⟨own, hown, hopen, hshares, hprobable, rfl⟩
    · obtain rfl := hsame hcase hown hid
      have hlisted : (candidate.caseId, exactBasis T (namesOf T nfkd spec fields).identifiers candidate) ∈
          exactRows T (namesOf T nfkd spec fields) cases :=
        mem_exactRows.2 ⟨candidate, hcase, hopen, (hexactBasis candidate).2 hshares, rfl⟩
      have honly : exactStrength (exactRows T (namesOf T nfkd spec fields) cases) = .exact ↔
          ∀ other ∈ cases, Open other → SharesIdentifier T spec fields other → other.caseId = candidate.caseId := by
        unfold exactStrength
        rw [ite_eq_left_iff, length_eq_one_iff (nodup_exactRows hids) hlisted]
        constructor
        · intro h other hother hopen' hshares'
          refine Decidable.byContradiction fun hne => ?_
          have hmore := h fun hall => hne (hall (other.caseId, _)
            (mem_exactRows.2 ⟨other, hother, hopen', (hexactBasis other).2 hshares', rfl⟩))
          cases hmore
        · intro h hmore
          refine absurd (fun row hrow => ?_) hmore
          obtain ⟨other, hother, hopen', hbasis, rfl⟩ := mem_exactRows.1 hrow
          exact h other hother hopen' ((hexactBasis other).1 hbasis)
      exact honly.trans (and_iff_right hshares).symm
    · obtain rfl := hsame hcase hown hid
      exact iff_of_false (fun h => by cases h) fun h => hshares h.1
  case first =>
    rw [suggestionsOf_eq hids, List.pairwise_append]
    refine ⟨?_, ?_, ?_⟩
    · refine List.pairwise_of_forall_mem_list fun row hrow later _ hprobable => ?_
      obtain ⟨_, -, rfl⟩ := List.mem_map.1 hrow
      exact absurd hprobable (exactStrength_ne_probable _)
    · refine List.pairwise_of_forall_mem_list fun row _ later hlater _ => ?_
      obtain ⟨_, -, rfl⟩ := List.mem_map.1 hlater
      rfl
    · intro row _ later hlater _
      obtain ⟨_, -, rfl⟩ := List.mem_map.1 hlater
      rfl

variable (T nfkd) in
/-- The suggestions are right, and the same for every order of the cases. -/
def DocumentSuggested (documentType : Text) (fields : List DocumentMatchField) (cases : List DocumentMatchCase) : Prop :=
  ∃ list, suggestCasesForDocument T nfkd documentType fields cases = .ok list ∧
    SuggestsRightly T nfkd (listed documentType) fields cases list ∧
    ∀ cases', cases'.Perm cases → suggestCasesForDocument T nfkd documentType fields cases' = .ok list

/-- No entry is named like what every object inherits. -/
theorem lookup_inherited {documentType : Text} (h : documentType ∈ INHERITED) :
    DOCUMENT_MATCH_FIELDS.lookup documentType = none := by
  have hall : ∀ name ∈ INHERITED, (DOCUMENT_MATCH_FIELDS.lookup name).isNone = true := by decide +kernel
  exact Option.isNone_iff_eq_none.1 (hall documentType h)

theorem suggestsRightly_nothing : SuggestsRightly T nfkd NOTHING fields cases [] := by
  have hnone : ∀ candidate, ¬ Suggested T nfkd NOTHING fields candidate := by
    rintro candidate ⟨-, ⟨kind, key, ⟨_, _, _, hpath, _⟩, _⟩ | ⟨-, ⟨kind, key, ⟨_, _, ⟨_, hpath, _⟩, _⟩, _⟩ |
      ⟨⟨_, _, ⟨_, hpath, _⟩, _⟩, _⟩⟩⟩
    · exact List.not_mem_nil hpath
    · exact List.not_mem_nil hpath
    · exact List.not_mem_nil hpath
  refine ⟨fun id => iff_of_false List.not_mem_nil ?_, List.nodup_nil, ?_, ?_, ?_, List.Pairwise.nil⟩
  · rintro ⟨candidate, -, -, h⟩
    exact hnone candidate h
  · exact fun _ h => absurd h List.not_mem_nil
  · exact fun _ h => absurd h List.not_mem_nil
  · exact fun _ h => absurd h List.not_mem_nil

/-- **The suggestions are right** but for a type that is named like what every object inherits: of a document of that
type that has fields the function throws. -/
theorem suggestions_right_iff {documentType : Text} (hids : (cases.map (·.caseId)).Nodup) :
    DocumentSuggested T nfkd documentType fields cases ↔ documentType ∉ INHERITED ∨ fields = [] := by
  unfold DocumentSuggested suggestCasesForDocument specOf listed
  cases hlookup : DOCUMENT_MATCH_FIELDS.lookup documentType with
  | some spec =>
    have hown : documentType ∉ INHERITED := fun h => by rw [lookup_inherited h] at hlookup; cases hlookup
    refine iff_of_true ⟨_, rfl, suggestionsOf_right hids, fun cases' hperm => ?_⟩ (.inl hown)
    exact congrArg Except.ok (suggestionsOf_congr hids hperm)
  | none =>
    dsimp only
    by_cases hinherited : documentType ∈ INHERITED
    · rw [if_pos hinherited]
      by_cases hfields : fields = []
      · subst hfields
        refine iff_of_true ⟨_, rfl, suggestionsOf_right hids, fun cases' hperm => ?_⟩ (.inr rfl)
        exact congrArg Except.ok (suggestionsOf_congr hids hperm)
      · refine iff_of_false ?_ fun h => h.elim (fun h => h hinherited) hfields
        rintro ⟨list, hthrows, -⟩
        dsimp only at hthrows
        rw [if_pos hfields] at hthrows
        cases hthrows
    · rw [if_neg hinherited]
      exact iff_of_true ⟨[], rfl, suggestsRightly_nothing, fun _ _ => rfl⟩ (.inl hinherited)

end

/-- An invoice, and three cases: the first carries its order's number, the second is its payer's and its amount's, and
the third, which is closed, carries its own number. -/
def invoiceFields : List DocumentMatchField :=
  [⟨"invoice_number".toList, .str "INV 7".toList⟩, ⟨"po_number".toList, .str "PO 7".toList⟩,
    ⟨"customer_name".toList, .str "Acme, Inc.".toList⟩, ⟨"invoice_total".toList, .str "$12.00".toList⟩]

def invoiceCase (caseId : Text) (state : CaseState) (identifiers : List CaseIdentifier) (amount : Cents) :
    DocumentMatchCase :=
  { caseId, state, amountCents := amount, debtorNames := some ["ACME".toList], retailerNameAsPrinted := none,
    claimId := none, identifiers }

def invoiceCases : List DocumentMatchCase :=
  [invoiceCase "b".toList .classified [] ⟨1200, by decide, by decide⟩,
    invoiceCase "a".toList .discovered [⟨.document .po_number, " po  7".toList⟩] ZERO,
    invoiceCase "c".toList .won [⟨.deduction .invoice_number, "inv 7".toList⟩] ZERO]

theorem suggestions_of_invoice : DocumentSuggested asciiCase id "invoice".toList invoiceFields invoiceCases ∧
    suggestCasesForDocument asciiCase id "invoice".toList invoiceFields invoiceCases =
      .ok [⟨"a".toList, .exact, [⟨.identifier .po_number, "po_number".toList, some "PO 7".toList⟩]⟩,
        ⟨"b".toList, .probable, [⟨.payer, "customer_name".toList, none⟩, ⟨.amount_cents, "invoice_total".toList, none⟩]⟩] :=
  ⟨(suggestions_right_iff (by decide +kernel)).2 (.inl (by decide +kernel)), by decide +kernel⟩

/-- A document of type `constructor` with one field makes it throw. -/
theorem constructor_throws : ¬ ∀ (documentType : Text) (fields : List DocumentMatchField) (cases : List DocumentMatchCase),
    (cases.map (·.caseId)).Nodup → DocumentSuggested asciiCase id documentType fields cases := by
  intro hall
  obtain ⟨list, hlist, -⟩ := hall "constructor".toList invoiceFields [] List.nodup_nil
  have hthrows : suggestCasesForDocument asciiCase id "constructor".toList invoiceFields [] =
      .error "spec.identifiers is not iterable".toList := by decide +kernel
  cases hthrows.symm.trans hlist

end Recouple.Pipeline
