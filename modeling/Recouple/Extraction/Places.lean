import Recouple.Extraction.Wire
import Recouple.Lib.KeyedFold

/-!
# The places of a document

A path of a field that `reassemble` reads leads to one place of the document type (`leads_of_read`): to a field
of the document, to a field of a row, or, where the row number is missing, to a field of the object that
`setPath` makes under the name `lines[]`.
-/

namespace Recouple.Extraction.Wire
open Js FirstSeen JsonTree

/-! ## Names and places -/

section
variable (schema : DocumentSchema)

def HasField (name : Text) : Prop := ∃ f, Property.field f ∈ schema.properties ∧ f.name = name
def HasGroup (group : Text) : Prop := ∃ fields, Property.array group fields ∈ schema.properties
def HasLeaf (group leaf : Text) : Prop :=
  ∃ fields, Property.array group fields ∈ schema.properties ∧ ∃ f ∈ fields, f.name = leaf

end

/-- Where a value is written: a field of the document, a field of a row, or, for a path such as
`lines[].net_amount`, a field of the object the document has under the name `lines[]`. -/
inductive Place
  | flat (name : Text)
  | row (group : Text) (number : Nat) (leaf : Text)
  | bare (group leaf : Text)
deriving DecidableEq

def bareName (group : Text) : Text := group ++ ['[', ']']

/-- The path a place has in the field list, its row number as `String` writes it. -/
def Place.path : Place → Text
  | .flat name => name
  | .row group number leaf => rowPath group (decimal number) leaf
  | .bare group leaf => leafTemplate group leaf

def Place.steps : Place → List (Step Text)
  | .flat name => [.key name]
  | .row group number leaf => [.key group, .index number, .key leaf]
  | .bare group leaf => [.key (bareName group), .key leaf]

def Place.In (schema : DocumentSchema) : Place → Prop
  | .flat name => HasField schema name
  | .row group _ leaf => HasLeaf schema group leaf
  | .bare group leaf => HasLeaf schema group leaf

/-- The place takes values of this type. -/
def Place.Typed (schema : DocumentSchema) (type : ValueType) : Place → Prop
  | .flat name => ∃ f, Property.field f ∈ schema.properties ∧ f.name = name ∧ f.valueType = type
  | .row group _ leaf | .bare group leaf =>
    ∃ fields, Property.array group fields ∈ schema.properties ∧ ∃ f ∈ fields, f.name = leaf ∧ f.valueType = type

/-- The place a path of a document type names. -/
def placeOf (descriptors : List TypedDescriptor) (path : Text) : Option Place :=
  match descriptorOf descriptors path with
  | none => none
  | some d =>
    match d.group with
    | none => some (.flat d.path)
    | some group =>
      let leaf := d.path.drop (group.length + 3)
      match rowIndexOf path with
      | none => some (.bare group leaf)
      | some (some number) => some (.row group number leaf)
      | some none => none

/-- The path leads to the place: the row number may be written with leading zeros. -/
inductive Leads : Text → Place → Prop
  | flat (name : Text) : Leads name (.flat name)
  | row (group leaf : Text) {digits : Text} (hne : digits ≠ []) (hd : ∀ c ∈ digits, c.isDigit = true) :
      Leads (rowPath group digits leaf) (.row group (Nat.ofDigitChars 10 digits 0) leaf)
  | bare (group leaf : Text) : Leads (leafTemplate group leaf) (.bare group leaf)

section
variable {schema : DocumentSchema}

theorem HasGroup.leaf {group : Text} (h : HasGroup schema group) : ∃ leaf, HasLeaf schema group leaf := by
  obtain ⟨fields, hfields⟩ := h
  cases fields with
  | nil => exact absurd rfl (schema.filled _ hfields)
  | cons f fields => exact ⟨f.name, _, hfields, f, List.mem_cons_self, rfl⟩

theorem HasLeaf.group {group leaf : Text} (h : HasLeaf schema group leaf) : HasGroup schema group :=
  ⟨_, h.choose_spec.1⟩

theorem HasField.identifier {name : Text} (h : HasField schema name) : Identifier name := by
  obtain ⟨f, hf, rfl⟩ := h
  exact (schema.named _ hf).1

theorem Place.Typed.isIn {type : ValueType} : ∀ {place : Place}, place.Typed schema type → place.In schema
  | .flat _, ⟨f, hf, hname, _⟩ => ⟨f, hf, hname⟩
  | .row _ _ _, ⟨fields, hp, f, hf, hname, _⟩ => ⟨fields, hp, f, hf, hname⟩
  | .bare _ _, ⟨fields, hp, f, hf, hname, _⟩ => ⟨fields, hp, f, hf, hname⟩

theorem Place.In.typed : ∀ {place : Place}, place.In schema → ∃ type, place.Typed schema type
  | .flat _, ⟨f, hf, hname⟩ => ⟨f.valueType, f, hf, hname, rfl⟩
  | .row _ _ _, ⟨fields, hp, f, hf, hname⟩ => ⟨f.valueType, fields, hp, f, hf, hname, rfl⟩
  | .bare _ _, ⟨fields, hp, f, hf, hname⟩ => ⟨f.valueType, fields, hp, f, hf, hname, rfl⟩

theorem HasGroup.identifier {group : Text} (h : HasGroup schema group) : Identifier group := by
  obtain ⟨fields, hf⟩ := h
  exact (schema.named _ hf).1

theorem HasLeaf.identifier {group leaf : Text} (h : HasLeaf schema group leaf) : Identifier leaf := by
  obtain ⟨fields, hfields, f, hf, rfl⟩ := h
  exact (schema.named _ hfields).2 f hf

/-- A name stands for one property. -/
theorem property_eq {p q : Property} (hp : p ∈ schema.properties) (hq : q ∈ schema.properties)
    (h : p.name = q.name) : p = q := List.inj_on_of_nodup_map schema.distinct hp hq h

theorem HasField.ne_group {name group : Text} (h : HasField schema name) (hg : HasGroup schema group) :
    name ≠ group := by
  rintro rfl
  obtain ⟨f, hf, rfl⟩ := h
  obtain ⟨fields, hfields⟩ := hg
  cases property_eq hf hfields rfl

theorem ne_bareName {name group : Text} (h : Identifier name) : name ≠ bareName group := by
  rintro rfl
  exact (h.2 '[' (by simp [bareName])).1 rfl

theorem bareName_inj {group group' : Text} (h : bareName group = bareName group') : group = group' :=
  List.append_cancel_right h

/-! ## Paths -/

theorem segments_name {name : Text} (h : Identifier name) : segments name = [name] :=
  List.splitOn_eq_singleton h.dotless

theorem segments_dot {front leaf : Text} (hf : '.' ∉ front) (hl : Identifier leaf) :
    segments (front ++ '.' :: leaf) = [front, leaf] := by
  have := List.splitOn_append_cons_of_beq (a := '.') front leaf (beq_self_eq_true '.')
  rw [segments, this, List.splitOn_eq_singleton hf, List.splitOn_eq_singleton hl.dotless]
  rfl

theorem isDigit_ne {c d : Char} (hc : c.isDigit = true) (hd : d.isDigit = false) : c ≠ d := by
  rintro rfl
  rw [hc] at hd
  cases hd

theorem segments_rowPath {group digits leaf : Text} (hg : Identifier group) (hl : Identifier leaf)
    (hd : ∀ c ∈ digits, c.isDigit = true) :
    segments (rowPath group digits leaf) = [group ++ '[' :: (digits ++ [']']), leaf] := by
  have hsplit : rowPath group digits leaf = (group ++ '[' :: (digits ++ [']'])) ++ '.' :: leaf := by
    simp [rowPath]
  rw [hsplit]
  refine segments_dot (fun hm => ?_) hl
  rcases List.mem_append.1 hm with hm | hm
  · exact hg.dotless hm
  · rcases List.mem_cons.1 hm with hm | hm
    · exact absurd hm (by decide)
    · rcases List.mem_append.1 hm with hm | hm
      · exact isDigit_ne (hd _ hm) (by decide) rfl
      · exact absurd (List.mem_singleton.1 hm) (by decide)

theorem segments_leafTemplate {group leaf : Text} (hg : Identifier group) (hl : Identifier leaf) :
    segments (leafTemplate group leaf) = [bareName group, leaf] := by
  have hsplit : leafTemplate group leaf = bareName group ++ '.' :: leaf := by simp [leafTemplate, bareName]
  rw [hsplit]
  refine segments_dot (fun hm => ?_) hl
  rcases List.mem_append.1 hm with hm | hm
  · exact hg.dotless hm
  · exact absurd hm (by decide)

theorem takeWhile_name {name : Text} (rest : Text) (h : Plain name) :
    (name ++ '[' :: rest).takeWhile (· ≠ '[') = name ∧ (name ++ '[' :: rest).dropWhile (· ≠ '[') = '[' :: rest := by
  have hall : ∀ c ∈ name, decide (c ≠ '[') = true := fun c hc => decide_eq_true (h c hc).1
  rw [List.takeWhile_append_of_pos hall, List.dropWhile_append_of_pos hall]
  simp

theorem rowSegment_name {name : Text} (h : Identifier name) : rowSegment name = none := by
  have hall : ∀ c ∈ name, decide (c ≠ '[') = true := fun c hc => decide_eq_true (h.plain c hc).1
  rw [rowSegment, List.dropWhile_eq_nil_iff.2 hall]

theorem rowSegment_bareName {group : Text} (h : Identifier group) : rowSegment (bareName group) = none := by
  obtain ⟨-, hdrop⟩ := takeWhile_name [']'] h.plain
  rw [rowSegment, bareName, hdrop]
  simp [Char.isDigit]

theorem rowSegment_row {group digits : Text} (h : Identifier group) (hne : digits ≠ [])
    (hd : ∀ c ∈ digits, c.isDigit = true) :
    rowSegment (group ++ '[' :: (digits ++ [']'])) = some (group, Nat.ofDigitChars 10 digits 0) := by
  obtain ⟨htake, hdrop⟩ := takeWhile_name (digits ++ [']']) h.plain
  obtain ⟨htake', hdrop'⟩ := @takeWhile_digits digits [] hd
  rw [rowSegment, hdrop, htake]
  dsimp only
  rw [htake', hdrop', if_pos ⟨h.1, hne, rfl⟩]

/-! ## What a field that is read says of its path -/

/-- The row of a place that has one. -/
def Place.rowOf : Place → Option (Text × Nat)
  | .row group number _ => some (group, number)
  | _ => none

variable {T : CaseTables} {path : Text} {d : TypedDescriptor}

theorem mem_descriptors : d ∈ schema.descriptors ↔
    (∃ f, Property.field f ∈ schema.properties ∧ d = ⟨⟨f.name, none⟩, f.valueType⟩) ∨
    ∃ group fields f, Property.array group fields ∈ schema.properties ∧ f ∈ fields ∧
      d = ⟨⟨leafTemplate group f.name, some group⟩, f.valueType⟩ := by
  rw [DocumentSchema.descriptors, List.mem_flatMap]
  constructor
  · rintro ⟨p, hp, hd⟩
    cases p with
    | field f => exact .inl ⟨f, hp, List.mem_singleton.1 hd⟩
    | array group fields =>
      obtain ⟨f, hf, rfl⟩ := List.mem_map.1 hd
      exact .inr ⟨group, fields, f, hp, hf, rfl⟩
  · rintro (⟨f, hf, rfl⟩ | ⟨group, fields, f, hp, hf, rfl⟩)
    · exact ⟨_, hf, List.mem_singleton.2 rfl⟩
    · exact ⟨_, hp, List.mem_map.2 ⟨f, hf, rfl⟩⟩

theorem leafTemplate_ne_name {name group leaf : Text} (h : Identifier name) : leafTemplate group leaf ≠ name := by
  rintro rfl
  exact (h.2 '[' (by simp [leafTemplate])).1 rfl

theorem drop_leafTemplate (group leaf : Text) : (leafTemplate group leaf).drop (group.length + 3) = leaf := by
  rw [leafTemplate, List.drop_append, List.drop_eq_nil_of_le (by omega), List.nil_append,
    show group.length + 3 - group.length = 3 by omega]
  rfl

theorem leafTemplate_inj {group group' leaf leaf' : Text} (h : Identifier group) (h' : Identifier group')
    (he : leafTemplate group leaf = leafTemplate group' leaf') : group = group' ∧ leaf = leaf' := by
  have htake := congrArg (fun t : Text => t.takeWhile (· ≠ '[')) he
  have hdrop := congrArg (fun t : Text => t.dropWhile (· ≠ '[')) he
  simp only [leafTemplate, takeWhile_name _ h.plain, takeWhile_name _ h'.plain] at htake hdrop
  simp only [List.cons.injEq, true_and] at hdrop
  exact ⟨htake, hdrop⟩

/-- A path stands for one descriptor. -/
theorem descriptor_eq {d' : TypedDescriptor} (hd : d ∈ schema.descriptors) (hd' : d' ∈ schema.descriptors)
    (h : d.path = d'.path) : d = d' := by
  rcases mem_descriptors.1 hd with ⟨f, hf, rfl⟩ | ⟨g, fields, f, hp, hf, rfl⟩ <;>
    rcases mem_descriptors.1 hd' with ⟨f', hf', rfl⟩ | ⟨g', fields', f', hp', hf', rfl⟩
  · cases property_eq hf hf' h
    rfl
  · exact absurd h.symm (leafTemplate_ne_name (schema.named _ hf).1)
  · exact absurd h (leafTemplate_ne_name (schema.named _ hf').1)
  · obtain ⟨rfl, hleaf⟩ := leafTemplate_inj (schema.named _ hp).1 (schema.named _ hp').1 h
    cases property_eq hp hp' rfl
    cases List.inj_on_of_nodup_map (schema.leavesDistinct _ hp) hf hf' hleaf
    rfl

theorem descriptorOf_eq_some : descriptorOf schema.descriptors path = some d ↔
    d ∈ schema.descriptors ∧ d.path = templatePath path := by
  constructor
  · intro h
    exact ⟨by simpa using List.mem_of_find?_eq_some h, by simpa using List.find?_some h⟩
  · rintro ⟨hd, hpath⟩
    cases h : descriptorOf schema.descriptors path with
    | none => exact absurd hpath (by simpa using List.find?_eq_none.1 h d (List.mem_reverse.2 hd))
    | some d' =>
      have hmem : d' ∈ schema.descriptors := by simpa using List.mem_of_find?_eq_some h
      have hpath' : d'.path = templatePath path := by simpa using List.find?_some h
      rw [descriptor_eq hmem hd (hpath'.trans hpath.symm)]

theorem readField_ok {field : WireField} {reading : Reading} :
    readField T schema.descriptors field = .ok reading ↔
      descriptorOf schema.descriptors field.path = some reading.descriptor ∧ trim field.value ≠ [] ∧
        rowNumber reading.descriptor field.path = .ok reading.row ∧
        coerce T field.value reading.descriptor.valueType = .ok reading.value := by
  unfold readField
  cases hd : descriptorOf schema.descriptors field.path with
  | none => simp
  | some d =>
    by_cases ht : trim field.value = []
    · simp [ht]
    · simp only [if_neg ht]
      constructor
      · intro h
        obtain ⟨row, hrow, h⟩ := KeyedFold.bind_ok.1 h
        obtain ⟨value, hvalue, h⟩ := KeyedFold.bind_ok.1 h
        cases h
        exact ⟨rfl, ht, hrow, hvalue⟩
      · rintro ⟨he, -, hrow, hvalue⟩
        cases he
        exact KeyedFold.bind_ok.2 ⟨_, hrow, KeyedFold.bind_ok.2 ⟨_, hvalue, rfl⟩⟩

theorem numberOf_eq {m n : Nat} (h : numberOf m = some n) (hn : n < MAX_ROWS_PER_GROUP) : m = n := by
  unfold MAX_ROWS_PER_GROUP at hn
  unfold numberOf at h
  split_ifs at h with h1 h2
  · exact Option.some.inj h
  · have := le_toDouble (not_lt.1 h1)
    have : toDouble m = n := Option.some.inj h
    omega

/-- The path of a field that passed the checks leads to a place of the document type. -/
theorem leads_of_read {row : Option Nat} (hd : descriptorOf schema.descriptors path = some d)
    (hr : rowNumber d path = .ok row) :
    ∃ place : Place, placeOf schema.descriptors path = some place ∧ place.In schema ∧ Leads path place ∧
      (d.group.bind fun group => row.map fun number => (group, number)) = place.rowOf ∧
      ∀ group number, place.rowOf = some (group, number) → number < MAX_ROWS_PER_GROUP := by
  obtain ⟨hmem, hpath⟩ := descriptorOf_eq_some.1 hd
  rcases mem_descriptors.1 hmem with ⟨f, hf, rfl⟩ | ⟨g, fields, f, hp, hf, rfl⟩
  · have hopen : ∀ c ∈ templatePath path, c ≠ '[' := fun c hc =>
      ((schema.named _ hf).1.2 c (by rwa [← hpath] at hc)).1
    rw [eq_of_templatePath hopen] at hpath
    subst hpath
    refine ⟨.flat f.name, ?_, ⟨f, hf, rfl⟩, .flat _, rfl, fun _ _ h => by cases h⟩
    rw [placeOf, hd]
  · have hg := (schema.named _ hp).1
    have hl := (schema.named _ hp).2 f hf
    have hleaf : HasLeaf schema g f.name := ⟨fields, hp, f, hf, rfl⟩
    have hplace : placeOf schema.descriptors path =
        match rowIndexOf path with
        | none => some (.bare g f.name)
        | some (some number) => some (.row g number f.name)
        | some none => none := by
      rw [placeOf, hd]
      dsimp only
      rw [drop_leafTemplate]
    unfold rowIndexOf at hplace
    unfold rowNumber rowIndexOf at hr
    dsimp only at hr
    cases hdigits : rowDigits path with
    | none =>
      rw [hdigits] at hr hplace
      cases hr
      rw [eq_of_rowDigits_none hdigits] at hpath
      subst hpath
      exact ⟨.bare g f.name, hplace, hleaf, .bare _ _, rfl, fun _ _ h => by cases h⟩
    | some digits =>
      obtain ⟨hne, hdig⟩ := rowDigits_eq_some hdigits
      have heq := path_of_row hg.plain hl.plain hpath.symm hdigits
      rw [hdigits] at hr hplace
      dsimp only [Option.map_some] at hr hplace
      cases hnum : numberOf (Nat.ofDigitChars 10 digits 0) with
      | top => rw [hnum] at hr; cases hr
      | coe n =>
        rw [hnum] at hr hplace
        change (if MAX_ROWS_PER_GROUP ≤ n then Except.error _ else Except.ok (some n)) = _ at hr
        split_ifs at hr with hcap
        cases hr
        have hn := numberOf_eq hnum (not_le.1 hcap)
        subst hn
        refine ⟨.row g (Nat.ofDigitChars 10 digits 0) f.name, hplace, hleaf, heq ▸ .row g f.name hne hdig, rfl, ?_⟩
        rintro _ _ ⟨⟩
        exact not_le.1 hcap

theorem templatePath_name {name : Text} (h : Identifier name) : templatePath name = name := by
  have := templatePath_plain [] h.plain
  simpa [templatePath, templateFrom] using this

theorem rowDigits_leafTemplate {group leaf : Text} (hg : Identifier group) (hl : Identifier leaf) :
    rowDigits (leafTemplate group leaf) = none := by
  have hopen : bracketed ('[' :: ']' :: '.' :: leaf) = none := by simp [bracketed, Char.isDigit]
  rw [leafTemplate, rowDigits_plain _ hg.plain, rowDigits, hopen, Option.none_or]
  refine rowDigits_none fun c hc => ?_
  rcases List.mem_cons.1 hc with rfl | hc
  · decide
  · exact (plain_dot hl.plain c hc).1

theorem template_of_place {place : Place} {type : ValueType} (htyped : place.Typed schema type) :
    ∃ d ∈ schema.descriptors, d.path = templatePath place.path ∧ d.valueType = type ∧
      match place with
      | .flat _ => d.group = none
      | .row group _ leaf => d.group = some group ∧ d.path = leafTemplate group leaf
      | .bare group leaf => d.group = some group ∧ d.path = leafTemplate group leaf := by
  have hin := htyped.isIn
  cases place with
  | flat name =>
    obtain ⟨f, hf, rfl, rfl⟩ := htyped
    exact ⟨_, mem_descriptors.2 (.inl ⟨f, hf, rfl⟩), (templatePath_name (schema.named _ hf).1).symm, rfl, rfl⟩
  | row group number leaf =>
    have hg := hin.group.identifier
    have hl := hin.identifier
    obtain ⟨fields, hp, f, hf, rfl, rfl⟩ := htyped
    refine ⟨_, mem_descriptors.2 (.inr ⟨group, fields, f, hp, hf, rfl⟩), ?_, rfl, rfl, rfl⟩
    rw [Place.path, templatePath_rowPath hg.plain hl.plain (decimal_ne_nil _) fun c hc => isDigit_of_mem_decimal hc]
    rfl
  | bare group leaf =>
    have hg := hin.group.identifier
    have hl := hin.identifier
    obtain ⟨fields, hp, f, hf, rfl, rfl⟩ := htyped
    refine ⟨_, mem_descriptors.2 (.inr ⟨group, fields, f, hp, hf, rfl⟩), ?_, rfl, rfl, rfl⟩
    exact (eq_of_rowDigits_none (rowDigits_leafTemplate hg hl)).symm

/-- The row number of a path does not show in its template. -/
theorem templatePath_leads {place : Place} (hin : place.In schema) (h : Leads path place) :
    templatePath path = templatePath place.path := by
  cases h with
  | flat name => rfl
  | bare group leaf => rfl
  | row group leaf hne hd =>
    rw [Place.path, templatePath_rowPath hin.group.identifier.plain hin.identifier.plain hne hd,
      templatePath_rowPath hin.group.identifier.plain hin.identifier.plain (decimal_ne_nil _)
        fun c hc => isDigit_of_mem_decimal hc]

theorem rowDigits_leads {group leaf : Text} {number : Nat} (hg : Identifier group)
    (h : Leads path (.row group number leaf)) : ∃ digits, rowDigits path = some digits ∧ number = Nat.ofDigitChars 10 digits 0 := by
  cases h with
  | row group leaf hne hd => exact ⟨_, rowDigits_rowPath hg.plain hne hd, rfl⟩

/-- A path leads to one place. -/
theorem Leads.unique {place place' : Place} (hin : place.In schema) (hin' : place'.In schema) (h : Leads path place)
    (h' : Leads path place') : place = place' := by
  obtain ⟨type, htyped⟩ := hin.typed
  obtain ⟨type', htyped'⟩ := hin'.typed
  obtain ⟨d, hd, hpath, -, hgroup⟩ := template_of_place htyped
  obtain ⟨d', hd', hpath', -, hgroup'⟩ := template_of_place htyped'
  -- both places have the descriptor of the path's template
  obtain rfl : d = d' := descriptor_eq hd hd'
    (by rw [hpath, hpath', ← templatePath_leads hin h, ← templatePath_leads hin' h'])
  cases place with
  | flat name =>
    cases place' with
    | flat name' => cases h; cases h'; rfl
    | _ => cases hgroup.symm.trans hgroup'.1
  | row group number leaf =>
    obtain ⟨digits, hdigits, rfl⟩ := rowDigits_leads hin.group.identifier h
    cases place' with
    | flat name' => cases hgroup'.symm.trans hgroup.1
    | row group' number' leaf' =>
      obtain ⟨digits', hdigits', rfl⟩ := rowDigits_leads hin'.group.identifier h'
      cases hdigits.symm.trans hdigits'
      obtain ⟨rfl, rfl⟩ := leafTemplate_inj hin.group.identifier hin'.group.identifier (hgroup.2.symm.trans hgroup'.2)
      rfl
    | bare group' leaf' =>
      cases h'
      rw [rowDigits_leafTemplate hin'.group.identifier hin'.identifier] at hdigits
      cases hdigits
  | bare group leaf =>
    cases place' with
    | flat name' => cases hgroup'.symm.trans hgroup.1
    | row group' number' leaf' =>
      obtain ⟨digits', hdigits', -⟩ := rowDigits_leads hin'.group.identifier h'
      cases h
      rw [rowDigits_leafTemplate hin.group.identifier hin.identifier] at hdigits'
      cases hdigits'
    | bare group' leaf' =>
      obtain ⟨rfl, rfl⟩ := leafTemplate_inj hin.group.identifier hin'.group.identifier (hgroup.2.symm.trans hgroup'.2)
      rfl

/-- The type of value a path leads to is its descriptor's. -/
theorem descriptorOf_leads {place : Place} {type : ValueType} (htyped : place.Typed schema type) (h : Leads path place) :
    ∃ d, descriptorOf schema.descriptors path = some d ∧ d.valueType = type := by
  obtain ⟨d, hd, hpath, htype, -⟩ := template_of_place htyped
  exact ⟨d, descriptorOf_eq_some.2 ⟨hd, hpath.trans (templatePath_leads htyped.isIn h).symm⟩, htype⟩

/-- A row number no double rounds. -/
def Place.Small (place : Place) : Prop := ∀ group number, place.rowOf = some (group, number) → number < 2 ^ 53

theorem rowIndexOf_rowPath {group leaf : Text} {number : Nat} (hg : Identifier group) (hn : number < 2 ^ 53) :
    rowIndexOf (rowPath group (decimal number) leaf) = some ((number : Nat) : WithTop Nat) := by
  rw [rowIndexOf, rowDigits_rowPath hg.plain (decimal_ne_nil _) fun c hc => isDigit_of_mem_decimal hc,
    Option.map_some, show Nat.ofDigitChars 10 (decimal number) 0 = number from Nat.ofDigitChars_ten_toDigits,
    numberOf, if_pos hn]

/-- The row number of a path below the cap passes its check. -/
theorem rowNumber_ok {place : Place} {type : ValueType} (hd : descriptorOf schema.descriptors path = some d)
    (htyped : place.Typed schema type) (h : Leads path place)
    (hcap : ∀ group number, place.rowOf = some (group, number) → number < MAX_ROWS_PER_GROUP) :
    ∃ row, rowNumber d path = .ok row := by
  obtain ⟨d', hd', hpath, -, hgroup⟩ := template_of_place htyped
  have hin := htyped.isIn
  obtain rfl : d = d' := Option.some.inj
    (hd.symm.trans (descriptorOf_eq_some.2 ⟨hd', hpath.trans (templatePath_leads hin h).symm⟩))
  unfold rowNumber
  cases h with
  | flat name => exact ⟨none, by rw [hgroup]⟩
  | @row group leaf digits hne hdigits =>
    have hnumber : Nat.ofDigitChars 10 digits 0 < MAX_ROWS_PER_GROUP := hcap group _ rfl
    have hindex : rowIndexOf (rowPath group digits leaf) = some (Nat.ofDigitChars 10 digits 0 : Nat) := by
      unfold MAX_ROWS_PER_GROUP at hnumber
      rw [rowIndexOf, rowDigits_rowPath hin.group.identifier.plain hne hdigits, Option.map_some, numberOf,
        if_pos (by omega)]
      rfl
    refine ⟨some (Nat.ofDigitChars 10 digits 0), ?_⟩
    rw [hgroup.1, hindex]
    exact if_neg (not_le.2 hnumber)
  | bare group leaf =>
    have hindex : rowIndexOf (leafTemplate group leaf) = none := by
      rw [rowIndexOf, rowDigits_leafTemplate hin.group.identifier hin.identifier, Option.map_none]
    exact ⟨none, by rw [hgroup.1, hindex]⟩

/-- A place's own path names it. -/
theorem placeOf_path {place : Place} (hin : place.In schema) (hn : place.Small) :
    placeOf schema.descriptors place.path = some place := by
  obtain ⟨type, htyped⟩ := hin.typed
  obtain ⟨d, hd, hpath, -, hgroup⟩ := template_of_place htyped
  rw [placeOf, descriptorOf_eq_some.2 ⟨hd, hpath⟩]
  dsimp only
  cases place with
  | flat name =>
    rw [hgroup, hpath, Place.path, templatePath_name hin.identifier]
  | row group number leaf =>
    rw [hgroup.1, hgroup.2]
    dsimp only
    rw [drop_leafTemplate, Place.path]
    have hrow := @rowIndexOf_rowPath group leaf number hin.group.identifier (hn _ _ rfl)
    generalize rowIndexOf (rowPath group (decimal number) leaf) = index at hrow ⊢
    subst hrow
    rfl
  | bare group leaf =>
    rw [hgroup.1, hgroup.2]
    dsimp only
    rw [drop_leafTemplate, Place.path, rowIndexOf, rowDigits_leafTemplate hin.group.identifier hin.identifier]
    rfl

end

end Recouple.Extraction.Wire
