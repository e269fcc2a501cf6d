import Recouple.Extraction.Assembly

/-!
# The document `reassemble` returns

The loop over the wire fields writes at the place of each field it can read (`inserted`), the loop that fills
in writes an absence at every place of the document whose path was not spelled, and what there is then at a
place is its `finalCell` (`find_place`).
-/

namespace Recouple.Extraction.Wire
open Js FirstSeen JsonTree

/-! ## The loops -/

section
variable (T : CaseTables) (schema : DocumentSchema)

/-- What a wire field is written as, where it passes the checks. -/
def writeOf (field : WireField) : Option Write :=
  match readField T schema.descriptors field with
  | .ok reading => (placeOf schema.descriptors field.path).map fun place => (place, recordOf field reading.value)
  | .error _ => none

/-- The writes of the wire fields. -/
def wireWrites (wireFields : List WireField) : List Write := wireFields.filterMap (writeOf T schema)

/-- What the loop says of a wire field, where it fails a check. -/
def issueOf (field : WireField) : Option ReassemblyIssue :=
  match readField T schema.descriptors field with
  | .ok _ => none
  | .error problem => some ⟨field.path, problem⟩

/-- The places every document of the type with so many rows has. -/
def fillPlaces (rowsPerGroup : Text → Nat) : List Place :=
  schema.properties.flatMap fun property =>
    match property with
    | .field f => [.flat f.name]
    | .array group fields => fields.flatMap fun f =>
        (List.range (rowsPerGroup group)).map fun number => .row group number f.name

/-- The writes of the loop that fills in what was not sent. -/
def fillWrites (seen : List Text) (places : List Place) : List Write :=
  (places.filter fun place => place.path ∉ seen).map fun place => (place, absentField)

end

section
variable {T : CaseTables} {schema : DocumentSchema}

theorem coerce_ne_null {raw : Text} {valueType : ValueType} {value : FieldValue}
    (h : coerce T raw valueType = .ok value) : value ≠ .null := by
  rintro rfl
  cases valueType with
  | string => cases h
  | integer =>
    unfold coerce at h
    dsimp only at h
    split at h <;> cases h
  | boolean =>
    unfold coerce at h
    dsimp only at h
    split_ifs at h <;> cases h

theorem writeOf_eq_some {field : WireField} {write : Write} :
    writeOf T schema field = some write ↔ ∃ reading, readField T schema.descriptors field = .ok reading ∧
      placeOf schema.descriptors field.path = some write.1 ∧ write.2 = recordOf field reading.value := by
  unfold writeOf
  cases h : readField T schema.descriptors field with
  | error problem => simp
  | ok reading =>
    rw [Option.map_eq_some_iff]
    constructor
    · rintro ⟨place, hp, rfl⟩
      exact ⟨reading, rfl, hp, rfl⟩
    · rintro ⟨_, ⟨⟩, hp, hr⟩
      exact ⟨_, hp, Prod.ext rfl hr.symm⟩

/-- A field that is read is written, at the place its path leads to. -/
theorem writeOf_read {field : WireField} {reading : Reading}
    (h : readField T schema.descriptors field = .ok reading) :
    ∃ place : Place, writeOf T schema field = some (place, recordOf field reading.value) ∧ place.In schema ∧
      Leads field.path place ∧ placeOf schema.descriptors field.path = some place ∧
      (reading.descriptor.group.bind fun group => reading.row.map fun number => (group, number)) = place.rowOf ∧
      ∀ group number, place.rowOf = some (group, number) → number < MAX_ROWS_PER_GROUP := by
  obtain ⟨hd, -, hr, -⟩ := readField_ok.1 h
  obtain ⟨place, hp, hin, hl, hrow, hcap⟩ := leads_of_read hd hr
  exact ⟨place, writeOf_eq_some.2 ⟨reading, h, hp, rfl⟩, hin, hl, hp, hrow, hcap⟩

/-- What the loop over the wire fields leaves. -/
structure Inserted (T : CaseTables) (schema : DocumentSchema) (wireFields : List WireField) (s : Assembly) : Prop where
  shows : Shows schema s.document (wireWrites T schema wireFields)
  issues : s.issues = wireFields.filterMap (issueOf T schema)
  seen : ∀ path, path ∈ s.seen ↔ ∃ field ∈ wireFields, field.path = path ∧ (writeOf T schema field).isSome
  rows : ∀ group, s.rowsPerGroup group = rowCount group (wireWrites T schema wireFields)

theorem wireWrites_concat (wireFields : List WireField) (field : WireField) :
    wireWrites T schema (wireFields ++ [field]) = wireWrites T schema wireFields ++ (writeOf T schema field).toList := by
  rw [wireWrites, List.filterMap_append]
  cases h : writeOf T schema field <;> simp [h, wireWrites]

theorem issues_concat (wireFields : List WireField) (field : WireField) :
    (wireFields ++ [field]).filterMap (issueOf T schema) =
      wireFields.filterMap (issueOf T schema) ++ (issueOf T schema field).toList := by
  rw [List.filterMap_append]
  cases h : issueOf T schema field <;> simp [h]

theorem Inserted.takeField {wireFields : List WireField} {s : Assembly} (h : Inserted T schema wireFields s)
    (field : WireField) :
    Inserted T schema (wireFields ++ [field]) (takeField T schema.descriptors s field) := by
  unfold Wire.takeField
  cases hread : readField T schema.descriptors field with
  | error problem =>
    have hwrite : writeOf T schema field = none := by simp [writeOf, hread]
    have hissue : issueOf T schema field = some ⟨field.path, problem⟩ := by simp [issueOf, hread]
    refine ⟨?_, ?_, fun path => ?_, fun group => ?_⟩
    · rw [wireWrites_concat, hwrite, Option.toList_none, List.append_nil]
      exact h.shows
    · rw [issues_concat, hissue, ← h.issues]
      rfl
    · simp [h.seen, hwrite]
    · rw [wireWrites_concat, hwrite, Option.toList_none, List.append_nil]
      exact h.rows group
  | ok reading =>
    obtain ⟨place, hwrite, hin, hleads, -, hrow, -⟩ := writeOf_read hread
    have hissue : issueOf T schema field = none := by simp [issueOf, hread]
    refine ⟨?_, ?_, fun path => ?_, fun group => ?_⟩
    · rw [wireWrites_concat, hwrite, Option.toList_some]
      exact h.shows.write hin hleads
    · rw [issues_concat, hissue, ← h.issues, Option.toList_none, List.append_nil]
    · rw [List.mem_append, List.mem_singleton, h.seen]
      simp only [List.mem_append, List.mem_singleton, or_and_right, exists_or, exists_eq_left, hwrite,
        Option.isSome_some, and_true]
      rw [eq_comm (a := path)]
    · rw [wireWrites_concat, hwrite, Option.toList_some, rowCount_concat, rowsFor, ← hrow, ← h.rows group]
      cases hg : reading.descriptor.group with
      | none =>
        simp only [hg, Option.bind_none]
        exact (Nat.max_zero _).symm
      | some g =>
        cases hn : reading.row with
        | none =>
          simp only [hg, hn, Option.bind_some, Option.map_none]
          exact (Nat.max_zero _).symm
        | some number =>
          simp only [hg, hn, Option.bind_some, Option.map_some]
          rw [Function.update_apply]
          by_cases heq : group = g
          · rw [if_pos heq, if_pos heq.symm, heq]
          · rw [if_neg heq, if_neg (Ne.symm heq), Nat.max_zero]

theorem inserted (T : CaseTables) (schema : DocumentSchema) (wireFields : List WireField) :
    Inserted T schema wireFields (wireFields.foldl (takeField T schema.descriptors) Assembly.start) := by
  induction wireFields using List.reverseRecOn with
  | nil => exact ⟨shows_nil, rfl, fun path => by simp [Assembly.start], fun group => rfl⟩
  | append_singleton wireFields field ih =>
    rw [List.foldl_append]
    exact ih.takeField field

/-! ## Filling -/

theorem leads_path (place : Place) : Leads place.path place := by
  cases place with
  | flat name => exact .flat name
  | row group number leaf =>
    have h := Leads.row group leaf (decimal_ne_nil number) fun c hc => isDigit_of_mem_decimal hc
    rwa [show Nat.ofDigitChars 10 (decimal number) 0 = number from Nat.ofDigitChars_ten_toDigits] at h
  | bare group leaf => exact .bare group leaf

theorem concretePaths_eq (rowsPerGroup : Text → Nat) :
    schema.descriptors.flatMap (concretePaths rowsPerGroup) = (fillPlaces schema rowsPerGroup).map Place.path := by
  rw [DocumentSchema.descriptors, fillPlaces, List.flatMap_assoc, List.map_flatMap]
  refine List.flatMap_congr fun property hp => ?_
  cases property with
  | field f => rfl
  | array group fields =>
    rw [Property.descriptors, List.flatMap_map, List.map_flatMap]
    refine List.flatMap_congr fun f hf => ?_
    have hin : HasLeaf schema group f.name := ⟨fields, hp, f, hf, rfl⟩
    have hleaf : List.intercalate ['.'] ((segments (leafTemplate group f.name)).drop 1) = f.name := by
      rw [segments_leafTemplate hin.group.identifier hin.identifier]
      simp [List.intercalate]
    rw [concretePaths, List.map_map]
    dsimp only
    rw [hleaf]
    rfl

theorem mem_fillPlaces {rowsPerGroup : Text → Nat} {place : Place} :
    place ∈ fillPlaces schema rowsPerGroup ↔ place.In schema ∧
      match place with
      | .flat _ => True
      | .row group number _ => number < rowsPerGroup group
      | .bare _ _ => False := by
  rw [fillPlaces, List.mem_flatMap]
  constructor
  · rintro ⟨property, hp, hplace⟩
    cases property with
    | field f =>
      rw [List.mem_singleton.1 hplace]
      exact ⟨⟨f, hp, rfl⟩, trivial⟩
    | array group fields =>
      obtain ⟨f, hf, hplace⟩ := List.mem_flatMap.1 hplace
      obtain ⟨number, hn, rfl⟩ := List.mem_map.1 hplace
      exact ⟨⟨fields, hp, f, hf, rfl⟩, List.mem_range.1 hn⟩
  · rintro ⟨hin, hplace⟩
    cases place with
    | flat name =>
      obtain ⟨f, hf, rfl⟩ := hin
      exact ⟨_, hf, List.mem_singleton.2 rfl⟩
    | row group number leaf =>
      obtain ⟨fields, hp, f, hf, rfl⟩ := hin
      exact ⟨_, hp, List.mem_flatMap.2 ⟨f, hf, List.mem_map.2 ⟨number, List.mem_range.2 hplace, rfl⟩⟩⟩
    | bare group leaf => exact absurd hplace not_false

theorem Shows.fill {seen : List Text} : ∀ {places : List Place} {document : Entries} {writes : List Write},
    (∀ place ∈ places, place.In schema) → Shows schema document writes →
    Shows schema ((places.map Place.path).foldl (fillPath seen) document) (writes ++ fillWrites seen places)
  | [], document, writes, _, h => by simpa [fillWrites] using h
  | place :: places, document, writes, hin, h => by
    rw [List.forall_mem_cons] at hin
    rw [List.map_cons, List.foldl_cons, fillPath]
    by_cases hseen : place.path ∈ seen
    · rw [if_pos hseen, fillWrites, List.filter_cons_of_neg (by simpa using hseen)]
      exact Shows.fill hin.2 h
    · rw [if_neg hseen, fillWrites, List.filter_cons_of_pos (by simpa using hseen), List.map_cons,
        ← List.singleton_append, ← List.append_assoc]
      exact Shows.fill hin.2 (h.write hin.1 (leads_path place))

theorem fillGroups : ∀ {groups : List Text} {document : Entries} {writes : List Write},
    (∀ group ∈ groups, HasGroup schema group) → Shows schema document writes →
    Shows schema (groups.foldl fillGroup document) writes ∧
      ∀ group, (group ∈ groups ∨ get document group ≠ none) → get (groups.foldl fillGroup document) group ≠ none
  | [], document, writes, _, h => ⟨h, fun group hg => hg.elim (fun hm => absurd hm List.not_mem_nil) id⟩
  | group :: groups, document, writes, hin, h => by
    rw [List.forall_mem_cons] at hin
    rw [List.foldl_cons, fillGroup]
    have hstep : ∀ {next : Entries}, Shows schema next writes → get next group ≠ none →
        (∀ g, get document g ≠ none → get next g ≠ none) →
        Shows schema (groups.foldl fillGroup next) writes ∧
          ∀ g, (g ∈ group :: groups ∨ get document g ≠ none) → get (groups.foldl fillGroup next) g ≠ none := by
      intro next hshows hself hkeep
      obtain ⟨hshown, hall⟩ := fillGroups hin.2 hshows
      refine ⟨hshown, fun g hg => hall g ?_⟩
      rcases hg with hg | hg
      · rcases List.mem_cons.1 hg with rfl | hg
        · exact .inr hself
        · exact .inl hg
      · exact .inr (hkeep g hg)
    by_cases hnone : get document group = none
    · rw [if_pos (by simp [hnone])]
      refine hstep (h.emptyGroup hin.1 hnone) (by simp) fun g hg => ?_
      rw [get_put]
      split
      · simp
      · exact hg
    · rw [if_neg (by simpa using hnone)]
      exact hstep h hnone fun _ hg => hg

theorem mem_groupsOf {group : Text} : group ∈ groupsOf schema.descriptors ↔ HasGroup schema group := by
  rw [groupsOf, mem_firstSeen, List.mem_filterMap]
  constructor
  · rintro ⟨d, hd, hgroup⟩
    rcases mem_descriptors.1 hd with ⟨f, -, rfl⟩ | ⟨g, fields, f, hp, -, rfl⟩
    · cases hgroup
    · cases hgroup
      exact ⟨fields, hp⟩
  · intro hg
    obtain ⟨leaf, fields, hp, f, hf, rfl⟩ := hg.leaf
    exact ⟨_, mem_descriptors.2 (.inr ⟨group, fields, f, hp, hf, rfl⟩), rfl⟩

end

/-! ## The document -/

section
variable (T : CaseTables) (schema : DocumentSchema) (wireFields : List WireField)

/-- The rows of a group: one past the highest row number that was read. -/
def rowsOf (group : Text) : Nat := rowCount group (wireWrites T schema wireFields)

/-- Some field that was read has the path of the place, written as `String` writes it. -/
def spelled (place : Place) : Bool :=
  wireFields.any fun field => field.path = place.path && (writeOf T schema field).isSome

/-- What the document holds at a place: the last field written there where the path was spelled so, and
otherwise the absence that was filled in. -/
def finalCell (place : Place) : Option FieldRecord :=
  if spelled T schema wireFields place then cell (wireWrites T schema wireFields) place
  else if place ∈ fillPlaces schema (rowsOf T schema wireFields) then some absentField
  else none

end

section
variable {T : CaseTables} {schema : DocumentSchema} {wireFields : List WireField}

theorem mem_wireWrites {write : Write} : write ∈ wireWrites T schema wireFields ↔
    ∃ field ∈ wireFields, writeOf T schema field = some write := List.mem_filterMap

theorem in_of_mem_wireWrites {write : Write} (h : write ∈ wireWrites T schema wireFields) :
    write.1.In schema := by
  obtain ⟨field, -, hw⟩ := mem_wireWrites.1 h
  obtain ⟨reading, hread, -, -⟩ := writeOf_eq_some.1 hw
  obtain ⟨place, hw', hin, -⟩ := writeOf_read hread
  rw [hw] at hw'
  cases hw'
  exact hin

theorem cell_fillWrites (seen : List Text) (places : List Place) (place : Place) :
    cell (fillWrites seen places) place = if place ∈ places ∧ place.path ∉ seen then some absentField else none := by
  by_cases h : place ∈ places ∧ place.path ∉ seen
  · rw [if_pos h]
    cases hc : cell (fillWrites seen places) place with
    | none =>
      refine absurd rfl (cell_eq_none.1 hc (place, absentField) (List.mem_map.2 ⟨place, ?_, rfl⟩))
      exact List.mem_filter.2 ⟨h.1, by simpa using h.2⟩
    | some record =>
      obtain ⟨p, -, he⟩ := List.mem_map.1 (mem_of_cell hc)
      cases he
      rfl
  · rw [if_neg h, cell_eq_none]
    rintro write hw rfl
    obtain ⟨p, hp, rfl⟩ := List.mem_map.1 hw
    obtain ⟨hmem, hseen⟩ := List.mem_filter.1 hp
    exact h ⟨hmem, by simpa using hseen⟩

/-- A place with a field written at it is filled or has its own path spelled. -/
theorem filled_or_spelled {write : Write} (h : write ∈ wireWrites T schema wireFields) :
    write.1 ∈ fillPlaces schema (rowsOf T schema wireFields) ∨ spelled T schema wireFields write.1 = true := by
  obtain ⟨field, hfield, hw⟩ := mem_wireWrites.1 h
  obtain ⟨reading, hread, -, -⟩ := writeOf_eq_some.1 hw
  obtain ⟨place, hw', hin, hleads, -⟩ := writeOf_read hread
  rw [hw] at hw'
  cases hw'
  generalize hpath : field.path = path at hleads
  cases hleads with
  | flat name => exact .inl (mem_fillPlaces.2 ⟨hin, trivial⟩)
  | row group leaf hne hd => exact .inl (mem_fillPlaces.2 ⟨hin, lt_rowCount h⟩)
  | bare group leaf =>
    refine .inr (List.any_eq_true.2 ⟨field, hfield, ?_⟩)
    rw [hpath, hw]
    simp [Place.path]

/-- **The document.** What `reassemble` builds shows the final cell of every place. -/
theorem assembled (T : CaseTables) (schema : DocumentSchema) (wireFields : List WireField) : ∃ writes,
    Shows schema (assemble T schema.descriptors wireFields).document writes ∧
    (∀ place : Place, place.In schema → cell writes place = finalCell T schema wireFields place) ∧
    (∀ group, rowCount group writes = rowsOf T schema wireFields group) ∧
    (∀ group, HasGroup schema group → get (assemble T schema.descriptors wireFields).document group ≠ none) ∧
    (assemble T schema.descriptors wireFields).issues = wireFields.filterMap (issueOf T schema) ∧
    ∀ write ∈ writes, write.1.In schema := by
  have h := inserted T schema wireFields
  unfold assemble
  generalize wireFields.foldl (takeField T schema.descriptors) Assembly.start = s at h
  have hrows : s.rowsPerGroup = rowsOf T schema wireFields := funext h.rows
  dsimp only
  rw [concretePaths_eq, hrows]
  have hfilled := @Shows.fill schema s.seen (fillPlaces schema (rowsOf T schema wireFields)) _ _
    (fun place hp => (mem_fillPlaces.1 hp).1) h.shows
  obtain ⟨hshows, hall⟩ := @fillGroups schema (groupsOf schema.descriptors) _ _ (fun group hg => mem_groupsOf.1 hg) hfilled
  have hseen : ∀ place : Place, place.path ∈ s.seen ↔ spelled T schema wireFields place = true := fun place => by
    rw [h.seen, spelled, List.any_eq_true]
    simp
  refine ⟨_, hshows, fun place hin => ?_, fun group => ?_, fun group hg => hall group (.inl (mem_groupsOf.2 hg)), h.issues,
    fun write hw => ?_⟩
  · rw [cell_append, cell_fillWrites, finalCell]
    by_cases hsp : spelled T schema wireFields place = true
    · rw [if_pos hsp, if_neg fun hc => hc.2 ((hseen place).2 hsp), Option.none_or]
    · rw [if_neg hsp]
      by_cases hfill : place ∈ fillPlaces schema (rowsOf T schema wireFields)
      · rw [if_pos hfill, if_pos ⟨hfill, fun hm => hsp ((hseen place).1 hm)⟩, Option.some_or]
      · rw [if_neg hfill, if_neg fun hc => hfill hc.1, Option.none_or, cell_eq_none]
        rintro write hw rfl
        exact (filled_or_spelled hw).elim hfill hsp
  · refine Nat.le_antisymm (rowCount_le.2 fun write hw => ?_) (rowCount_le.2 fun write hw => ?_)
    · rcases List.mem_append.1 hw with hw | hw
      · exact rowCount_le.1 (le_refl _) write hw
      · obtain ⟨place, hp, rfl⟩ := List.mem_map.1 hw
        obtain ⟨hin, hlt⟩ := mem_fillPlaces.1 (List.mem_filter.1 hp).1
        cases place with
        | row g number leaf =>
          dsimp only [rowsFor, Place.rowOf]
          split
          · rename_i heq
            exact heq ▸ hlt
          · exact Nat.zero_le _
        | _ => exact Nat.zero_le _
    · exact rowCount_le.1 (le_refl _) write (List.mem_append_left _ hw)
  · rcases List.mem_append.1 hw with hw | hw
    · exact in_of_mem_wireWrites hw
    · obtain ⟨place, hp, rfl⟩ := List.mem_map.1 hw
      exact (mem_fillPlaces.1 (List.mem_filter.1 hp).1).1

/-- What a place of the document type holds in the end. -/
theorem find_place (T : CaseTables) (message : Node Text FieldRecord → Text → Text) (wireFields : List WireField)
    {place : Place} (hin : place.In schema) :
    (reassemble T message schema wireFields).document.find place.steps =
      (finalCell T schema wireFields place).map .leaf := by
  obtain ⟨writes, hshows, hcell, -, -⟩ := assembled T schema wireFields
  rw [← hcell place hin]
  change (Node.object (assemble T schema.descriptors wireFields).document).find place.steps = _
  generalize (assemble T schema.descriptors wireFields).document = document at hshows
  cases place with
  | flat name =>
    rw [Place.steps, Node.find_object_key, hshows.flat hin]
    cases cell writes (.flat name) <;> rfl
  | bare group leaf =>
    rw [Place.steps, Node.find_object_key]
    rcases hshows.bare hin.group with ⟨hnone, hcells⟩ | ⟨entries, hsome, -, hcells⟩
    · rw [hnone, hcells leaf]
      rfl
    · rw [hsome, Option.bind_some, Node.find_object_key, hcells leaf]
      dsimp only
      cases cell writes (.bare group leaf) <;> rfl
  | row group number leaf =>
    rw [Place.steps, Node.find_object_key]
    rcases hshows.group hin.group with ⟨hnone, hrows⟩ | ⟨items, hsome, hlen, hitems⟩
    · rw [hnone, cell_of_rowCount_le (by omega)]
      rfl
    · rw [hsome, Option.bind_some, Node.find_array_index]
      cases hi : items[number]? with
      | none =>
        rw [cell_of_rowCount_le (hlen ▸ List.getElem?_eq_none_iff.1 hi)]
        rfl
      | some node =>
        obtain ⟨entries, rfl, hcells⟩ := hitems number node hi
        rw [Option.bind_some, Node.find_object_key, hcells leaf]
        dsimp only
        cases cell writes (.row group number leaf) <;> rfl

/-- A group is an array with its rows. -/
theorem find_group (T : CaseTables) (message : Node Text FieldRecord → Text → Text) (wireFields : List WireField)
    {group : Text} (hg : HasGroup schema group) :
    (reassemble T message schema wireFields).document.find [.key group] =
      some (.array (rowsOf T schema wireFields group)) := by
  obtain ⟨writes, hshows, -, hrows, harrays, -⟩ := assembled T schema wireFields
  change (Node.object (assemble T schema.descriptors wireFields).document).find [.key group] = _
  rcases hshows.group hg with ⟨hnone, -⟩ | ⟨items, hsome, hlen, -⟩
  · exact absurd hnone (harrays group hg)
  · rw [Node.find_object_key, hsome, ← hrows group, ← hlen]
    rfl

theorem place_of_write {write : Write} (h : write ∈ wireWrites T schema wireFields) :
    ∃ field ∈ wireFields, ∃ reading, readField T schema.descriptors field = .ok reading ∧
      write = (write.1, recordOf field reading.value) ∧ write.1.In schema ∧ Leads field.path write.1 ∧
      placeOf schema.descriptors field.path = some write.1 ∧
      ∀ group number, write.1.rowOf = some (group, number) → number < MAX_ROWS_PER_GROUP := by
  obtain ⟨field, hfield, hw⟩ := mem_wireWrites.1 h
  obtain ⟨reading, hread, -, -⟩ := writeOf_eq_some.1 hw
  obtain ⟨place, hw', hin, hleads, hplace, -, hcap⟩ := writeOf_read hread
  rw [hw] at hw'
  cases hw'
  exact ⟨field, hfield, reading, hread, rfl, hin, hleads, hplace, hcap⟩

/-- No group has more rows than the cap. -/
theorem rowsOf_le (T : CaseTables) (schema : DocumentSchema) (wireFields : List WireField) (group : Text) :
    rowsOf T schema wireFields group ≤ MAX_ROWS_PER_GROUP := by
  refine rowCount_le.2 fun write hw => ?_
  obtain ⟨field, -, reading, -, -, -, -, -, hcap⟩ := place_of_write hw
  unfold rowsFor
  split
  · rename_i g number hrow
    split
    · exact hcap g number hrow
    · exact Nat.zero_le _
  · exact Nat.zero_le _

theorem small_of_fill {place : Place} (h : place ∈ fillPlaces schema (rowsOf T schema wireFields)) : place.Small := by
  obtain ⟨-, hlt⟩ := mem_fillPlaces.1 h
  intro group number hrow
  cases place with
  | row g n l =>
    cases hrow
    have := rowsOf_le T schema wireFields group
    unfold MAX_ROWS_PER_GROUP at this
    omega
  | _ => cases hrow

/-- Where the path of a place is spelled, a field was written there. -/
theorem cell_of_spelled {place : Place} (hin : place.In schema) (hsmall : place.Small)
    (h : spelled T schema wireFields place = true) : ∃ record, cell (wireWrites T schema wireFields) place = some record := by
  obtain ⟨field, hfield, hf⟩ := List.any_eq_true.1 h
  obtain ⟨hpath, hwrite⟩ := Bool.and_eq_true_iff.1 hf
  obtain ⟨write, hw⟩ := Option.isSome_iff_exists.1 hwrite
  obtain ⟨reading, -, hplace, -⟩ := writeOf_eq_some.1 hw
  rw [of_decide_eq_true hpath, placeOf_path hin hsmall, Option.some.injEq] at hplace
  cases hc : cell (wireWrites T schema wireFields) place with
  | some record => exact ⟨record, rfl⟩
  | none => exact absurd hplace.symm (cell_eq_none.1 hc write (mem_wireWrites.2 ⟨field, hfield, hw⟩))

end

end Recouple.Extraction.Wire
