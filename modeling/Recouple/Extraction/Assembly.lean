import Recouple.Extraction.Places

/-!
# What `reassemble` builds

The loops of `reassemble` are a list of writes, each at a place of the document. `Shows` says that a document
is what the last write at each place left, and `Shows.setPath` that one more write keeps it so.
-/

namespace Recouple.Extraction.Wire
open Js FirstSeen JsonTree

/-! ## Writes -/

abbrev Write := Place × FieldRecord

/-- The last write at a place. -/
def cell (writes : List Write) (place : Place) : Option FieldRecord :=
  (writes.reverse.find? fun write => write.1 = place).map Prod.snd

/-- The rows a write needs in a group. -/
def rowsFor (group : Text) (place : Place) : Nat :=
  match place.rowOf with
  | some (group', number) => if group' = group then number + 1 else 0
  | none => 0

/-- The rows the writes need in a group. -/
def rowCount (group : Text) (writes : List Write) : Nat :=
  writes.foldl (fun count write => max count (rowsFor group write.1)) 0

@[simp] theorem cell_nil (place : Place) : cell [] place = none := rfl

theorem cell_concat (writes : List Write) (write : Write) (place : Place) :
    cell (writes ++ [write]) place = if write.1 = place then some write.2 else cell writes place := by
  by_cases h : write.1 = place <;> simp [cell, h]

theorem cell_append (writes writes' : List Write) (place : Place) :
    cell (writes ++ writes') place = (cell writes' place).or (cell writes place) := by
  rw [cell, List.reverse_append, List.find?_append, Option.map_or]
  rfl

theorem cell_eq_none {writes : List Write} {place : Place} :
    cell writes place = none ↔ ∀ write ∈ writes, write.1 ≠ place := by
  simp [cell]

theorem mem_of_cell {writes : List Write} {place : Place} {record : FieldRecord}
    (h : cell writes place = some record) : (place, record) ∈ writes := by
  obtain ⟨write, hw, rfl⟩ := Option.map_eq_some_iff.1 h
  have hplace : write.1 = place := by simpa using List.find?_some hw
  have hmem := List.mem_of_find?_eq_some hw
  rw [← hplace]
  simpa using hmem

theorem rowCount_concat (group : Text) (writes : List Write) (write : Write) :
    rowCount group (writes ++ [write]) = max (rowCount group writes) (rowsFor group write.1) := by
  simp [rowCount]

theorem rowCount_le {group : Text} {n : Nat} {writes : List Write} :
    rowCount group writes ≤ n ↔ ∀ write ∈ writes, rowsFor group write.1 ≤ n := by
  induction writes using List.reverseRecOn with
  | nil => simp [rowCount]
  | append_singleton writes write ih =>
    rw [rowCount_concat, Nat.max_le, ih]
    simp [or_imp, forall_and]

/-- A row that is written is one of the rows. -/
theorem lt_rowCount {group leaf : Text} {number : Nat} {record : FieldRecord} {writes : List Write}
    (h : (Place.row group number leaf, record) ∈ writes) : number < rowCount group writes := by
  have := rowCount_le.1 (le_refl (rowCount group writes)) _ h
  simp only [rowsFor, Place.rowOf, if_true] at this
  omega

theorem cell_of_rowCount_le {group leaf : Text} {number : Nat} {writes : List Write}
    (h : rowCount group writes ≤ number) : cell writes (.row group number leaf) = none :=
  cell_eq_none.2 fun (place, record) hw he => by
    subst he
    have := lt_rowCount hw
    omega

/-! ## One write -/

section
variable {schema : DocumentSchema} {document : Entries} {group leaf digits name : Text} {record : FieldRecord}

theorem setPath_flat (h : Identifier name) : setPath document name record = put name (.leaf record) document := by
  rw [setPath, segments_name h, setSegments, rowSegment_name h]
  rfl

theorem setSegments_name (h : Identifier leaf) (entries : Entries) :
    setSegments record [leaf] entries = put leaf (.leaf record) entries := by
  rw [setSegments, rowSegment_name h]
  rfl

theorem setPath_row (hg : Identifier group) (hl : Identifier leaf) (hne : digits ≠ [])
    (hd : ∀ c ∈ digits, c.isDigit = true) :
    setPath document (rowPath group digits leaf) record =
      put group (.array (setAt (Node.itemsOf (get document group)) (Nat.ofDigitChars 10 digits 0)
        (.object (put leaf (.leaf record)
          (Node.entriesOf (Node.itemsOf (get document group))[Nat.ofDigitChars 10 digits 0]?))))) document := by
  rw [setPath, segments_rowPath hg hl hd, setSegments, rowSegment_row hg hne hd]
  dsimp only
  rw [setSegments_name hl]

theorem setPath_bare (hg : Identifier group) (hl : Identifier leaf) :
    setPath document (leafTemplate group leaf) record =
      put (bareName group) (.object (put leaf (.leaf record) (Node.entriesOf (get document (bareName group)))))
        document := by
  rw [setPath, segments_leafTemplate hg hl, setSegments, rowSegment_bareName hg]
  dsimp only
  rw [setSegments_name hl, if_neg (by simp)]

theorem length_setAt (items : List (Node Text FieldRecord)) (row : Nat) (node : Node Text FieldRecord) :
    (setAt items row node).length = max items.length (row + 1) := by
  unfold setAt
  split
  · rw [List.length_set]
    omega
  · simp only [List.length_append, List.length_replicate, List.length_singleton]
    omega

theorem getElem?_setAt (items : List (Node Text FieldRecord)) (row i : Nat) (node : Node Text FieldRecord) :
    (setAt items row node)[i]? =
      if i = row then some node else if i < items.length then items[i]? else if i < row then some (.object []) else none := by
  unfold setAt
  split
  · rename_i h
    rw [List.getElem?_set]
    by_cases hi : row = i
    · subst hi
      simp [h]
    · rw [if_neg hi, if_neg (Ne.symm hi)]
      by_cases hlt : i < items.length
      · rw [if_pos hlt]
      · rw [if_neg hlt, if_neg (by omega), List.getElem?_eq_none (by omega)]
  · rename_i h
    rw [List.append_assoc, List.getElem?_append]
    by_cases hlt : i < items.length
    · rw [if_pos hlt, if_neg (by omega), if_pos hlt]
    · rw [if_neg hlt, if_neg hlt, List.getElem?_append, List.length_replicate, List.getElem?_replicate]
      by_cases hrow : i = row
      · rw [if_pos hrow, if_neg (by omega), show i - items.length - (row - items.length) = 0 by omega]
        rfl
      · rw [if_neg hrow]
        by_cases hless : i < row
        · rw [if_pos (by omega), if_pos (by omega), if_pos hless]
        · rw [if_neg (by omega), if_neg hless, List.getElem?_eq_none (by simp; omega)]

theorem mem_setAt {items : List (Node Text FieldRecord)} {row : Nat} {node n : Node Text FieldRecord}
    (h : n ∈ setAt items row node) : n = node ∨ n ∈ items ∨ n = .object [] := by
  unfold setAt at h
  split at h
  · exact (List.mem_or_eq_of_mem_set h).elim (fun h => .inr (.inl h)) .inl
  · rw [List.mem_append, List.mem_append, List.mem_singleton, List.mem_replicate] at h
    tauto

end

/-! ## The document after some writes -/

/-- The properties of an object hold these records. -/
def Holds (entries : Entries) (cells : Text → Option FieldRecord) : Prop :=
  ∀ leaf, get entries leaf = (cells leaf).map .leaf

/-- The document is what the writes left. -/
structure Shows (schema : DocumentSchema) (document : Entries) (writes : List Write) : Prop where
  distinct : (Node.object document).Distinct
  flat : ∀ {name}, HasField schema name → get document name = (cell writes (.flat name)).map .leaf
  group : ∀ {group}, HasGroup schema group →
    (get document group = none ∧ rowCount group writes = 0) ∨
    ∃ items, get document group = some (.array items) ∧ items.length = rowCount group writes ∧
      ∀ number node, items[number]? = some node → ∃ entries, node = .object entries ∧
        Holds entries fun leaf => cell writes (.row group number leaf)
  bare : ∀ {group}, HasGroup schema group →
    (get document (bareName group) = none ∧ ∀ leaf, cell writes (.bare group leaf) = none) ∨
    ∃ entries, get document (bareName group) = some (.object entries) ∧
      (∃ leaf, cell writes (.bare group leaf) ≠ none) ∧ Holds entries fun leaf => cell writes (.bare group leaf)
  other : ∀ {name}, ¬ HasField schema name → ¬ HasGroup schema name →
    (∀ group, HasGroup schema group → name ≠ bareName group) → get document name = none

theorem Holds.put {entries : Entries} {cells : Text → Option FieldRecord} (h : Holds entries cells) (leaf : Text)
    (record : FieldRecord) :
    Holds (JsonTree.put leaf (.leaf record) entries) fun l => if leaf = l then some record else cells l := fun l => by
  rw [get_put, h l]
  by_cases hl : leaf = l <;> simp [hl]

theorem distinct_put {entries : Entries} {k : Text} {node : Node Text FieldRecord}
    (h : (Node.object entries).Distinct) (hn : node.Distinct) : (Node.object (put k node entries)).Distinct := by
  cases h with
  | object hk hall =>
    refine .object (nodup_put hk) fun e he => ?_
    rcases mem_put he with rfl | he
    · exact hn
    · exact hall e he

theorem distinct_get {entries : Entries} {k : Text} {node : Node Text FieldRecord}
    (h : (Node.object entries).Distinct) (hget : get entries k = some node) : node.Distinct := by
  cases h with
  | object hk hall => exact hall _ ((mem_iff_get hk).2 hget)

theorem distinct_entriesOf {node : Option (Node Text FieldRecord)} (h : ∀ n, node = some n → n.Distinct) :
    (Node.object (Node.entriesOf node)).Distinct := by
  cases node with
  | none => exact .object .nil fun e he => absurd he List.not_mem_nil
  | some n =>
    cases n with
    | leaf a => exact .object .nil fun e he => absurd he List.not_mem_nil
    | array items => exact .object .nil fun e he => absurd he List.not_mem_nil
    | object entries => exact h _ rfl

theorem distinct_items {node : Option (Node Text FieldRecord)} (h : ∀ n, node = some n → n.Distinct) :
    ∀ n ∈ Node.itemsOf node, n.Distinct := fun n hn => by
  cases node with
  | none => cases hn
  | some m =>
    cases m with
    | leaf a => cases hn
    | object entries => cases hn
    | array items =>
      cases h _ rfl with
      | array hall => exact hall n hn

/-- The property of the document a place is under. -/
def Place.top : Place → Text
  | .flat name => name
  | .row group _ _ => group
  | .bare group _ => bareName group

section
variable {schema : DocumentSchema} {document : Entries} {writes : List Write} {record : FieldRecord}

/-- Under every other property the document stays, so only the one that is put has to be looked at. -/
theorem Shows.put (h : Shows schema document writes) (place : Place) (hin : place.In schema) {node : Node Text FieldRecord}
    (hnode : node.Distinct)
    (hflat : ∀ name, HasField schema name → name = place.top →
      some node = (cell (writes ++ [(place, record)]) (.flat name)).map .leaf)
    (hgroup : ∀ group, HasGroup schema group → group = place.top → ∃ items, node = .array items ∧
      items.length = rowCount group (writes ++ [(place, record)]) ∧
      ∀ number n, items[number]? = some n → ∃ entries, n = .object entries ∧
        Holds entries fun leaf => cell (writes ++ [(place, record)]) (.row group number leaf))
    (hbare : ∀ group, HasGroup schema group → bareName group = place.top → ∃ entries, node = .object entries ∧
      (∃ leaf, cell (writes ++ [(place, record)]) (.bare group leaf) ≠ none) ∧
      Holds entries fun leaf => cell (writes ++ [(place, record)]) (.bare group leaf)) :
    Shows schema (JsonTree.put place.top node document) (writes ++ [(place, record)]) where
  distinct := distinct_put h.distinct hnode
  flat {name} hname := by
    by_cases heq : name = place.top
    · subst heq
      rw [get_put_self]
      exact hflat _ hname rfl
    · rw [get_put_of_ne (Ne.symm heq), h.flat hname, cell_concat, if_neg]
      rintro rfl
      exact heq rfl
  group {group} hg := by
    by_cases heq : group = place.top
    · obtain ⟨items, rfl, hitems⟩ := hgroup _ hg heq
      subst heq
      exact .inr ⟨items, get_put_self _ _ _, hitems⟩
    · have hrows : rowsFor group place = 0 := by
        cases place with
        | row g n l => exact if_neg (Ne.symm heq)
        | _ => rfl
      have hcell : ∀ number leaf, cell (writes ++ [(place, record)]) (.row group number leaf) =
          cell writes (.row group number leaf) := fun number leaf => by
        rw [cell_concat, if_neg]
        rintro rfl
        exact heq rfl
      simp only [get_put_of_ne (Ne.symm heq), rowCount_concat, hrows, Nat.max_zero, hcell]
      exact h.group hg
  bare {group} hg := by
    by_cases heq : bareName group = place.top
    · obtain ⟨entries, rfl, hentries⟩ := hbare _ hg heq
      rw [heq]
      exact .inr ⟨entries, get_put_self _ _ _, hentries⟩
    · have hcell : ∀ leaf, cell (writes ++ [(place, record)]) (.bare group leaf) =
          cell writes (.bare group leaf) := fun leaf => by
        rw [cell_concat, if_neg]
        rintro rfl
        exact heq rfl
      simp only [get_put_of_ne (Ne.symm heq), hcell]
      exact h.bare hg
  other {name} hf hg hb := by
    rw [get_put_of_ne, h.other hf hg hb]
    rintro rfl
    cases place with
    | flat name => exact hf hin
    | row g n l => exact hg hin.group
    | bare g l => exact hb g hin.group rfl

theorem Shows.write_flat {name : Text} (h : Shows schema document writes) (hin : HasField schema name) :
    Shows schema (setPath document name record) (writes ++ [(.flat name, record)]) := by
  rw [setPath_flat hin.identifier]
  refine h.put (.flat name) hin (.leaf _) ?_ ?_ ?_
  · rintro name - rfl
    rw [cell_concat, if_pos rfl]
    rfl
  · rintro group hg rfl
    exact absurd rfl (hin.ne_group hg)
  · intro group hg heq
    exact absurd heq.symm (ne_bareName hin.identifier)

theorem Shows.write_bare {group leaf : Text} (h : Shows schema document writes) (hin : HasLeaf schema group leaf) :
    Shows schema (setPath document (leafTemplate group leaf) record) (writes ++ [(.bare group leaf, record)]) := by
  rw [setPath_bare hin.group.identifier hin.identifier]
  have hold : Holds (Node.entriesOf (get document (bareName group))) fun l => cell writes (.bare group l) := by
    rcases h.bare hin.group with ⟨hnone, hcells⟩ | ⟨entries, hsome, -, hcells⟩
    · intro l
      dsimp only
      rw [hnone, hcells l]
      rfl
    · rw [hsome]
      exact hcells
  refine h.put (.bare group leaf) hin ?_ ?_ ?_ ?_
  · exact distinct_put (distinct_entriesOf fun n hn => distinct_get h.distinct hn) (.leaf _)
  · intro name hname heq
    exact absurd heq (ne_bareName hname.identifier)
  · intro g hg heq
    exact absurd heq (ne_bareName hg.identifier)
  · intro g hg heq
    cases bareName_inj heq
    refine ⟨_, rfl, ⟨leaf, ?_⟩, fun l => ?_⟩
    · simp [cell_concat]
    · rw [hold.put leaf record l]
      simp [cell_concat]

theorem Shows.write_row {group leaf digits : Text} (h : Shows schema document writes)
    (hin : HasLeaf schema group leaf) (hne : digits ≠ []) (hd : ∀ c ∈ digits, c.isDigit = true) :
    Shows schema (setPath document (rowPath group digits leaf) record)
      (writes ++ [(.row group (Nat.ofDigitChars 10 digits 0) leaf, record)]) := by
  rw [setPath_row hin.group.identifier hin.identifier hne hd]
  generalize Nat.ofDigitChars 10 digits 0 = number
  have hitems : (Node.itemsOf (get document group)).length = rowCount group writes ∧
      ∀ i node, (Node.itemsOf (get document group))[i]? = some node → ∃ entries, node = .object entries ∧
        Holds entries fun leaf => cell writes (.row group i leaf) := by
    rcases h.group hin.group with ⟨hnone, hrows⟩ | ⟨items, hsome, hitems⟩
    · rw [hnone, hrows]
      exact ⟨rfl, fun i node hi => by simp [Node.itemsOf] at hi⟩
    · rw [hsome]
      exact hitems
  have hdistinct := distinct_items fun n hn => distinct_get (k := group) h.distinct hn
  generalize Node.itemsOf (get document group) = items at hitems hdistinct
  obtain ⟨hlen, hrow⟩ := hitems
  -- the object at the row, before the write
  have hold : Holds (Node.entriesOf items[number]?) fun l => cell writes (.row group number l) := by
    cases hi : items[number]? with
    | none =>
      intro l
      dsimp only
      rw [cell_of_rowCount_le (hlen ▸ List.getElem?_eq_none_iff.1 hi)]
      rfl
    | some node =>
      obtain ⟨entries, rfl, hentries⟩ := hrow number node hi
      exact hentries
  refine h.put (.row group number leaf) hin ?_ ?_ ?_ ?_
  · refine .array fun n hn => ?_
    rcases mem_setAt hn with rfl | hn | rfl
    · exact distinct_put (distinct_entriesOf fun n hn => hdistinct n (List.mem_of_getElem? hn)) (.leaf _)
    · exact hdistinct n hn
    · exact .object .nil fun e he => absurd he List.not_mem_nil
  · intro name hname heq
    exact absurd heq (hname.ne_group hin.group)
  · rintro g hg rfl
    refine ⟨_, rfl, ?_, fun i node hi => ?_⟩
    · rw [length_setAt, hlen, rowCount_concat]
      simp [rowsFor, Place.rowOf]
    · rw [getElem?_setAt] at hi
      simp only [cell_concat]
      split_ifs at hi with h1 h2 h3
      · subst h1
        cases hi
        refine ⟨_, rfl, fun l => ?_⟩
        rw [hold.put leaf record l]
        simp
      · obtain ⟨entries, rfl, hentries⟩ := hrow i node hi
        refine ⟨entries, rfl, fun l => ?_⟩
        dsimp only
        rw [hentries l, if_neg]
        · rintro ⟨⟩
          exact h1 rfl
      · cases hi
        refine ⟨[], rfl, fun l => ?_⟩
        dsimp only
        rw [if_neg, cell_of_rowCount_le (by rw [← hlen]; exact not_lt.1 h2)]
        · rfl
        · rintro ⟨⟩
          exact h1 rfl
  · intro g hg heq
    exact absurd heq.symm (ne_bareName hin.group.identifier)

/-- Writing at a path that leads to a place. -/
theorem Shows.write {path : Text} {place : Place} (h : Shows schema document writes) (hin : place.In schema)
    (hpath : Leads path place) : Shows schema (setPath document path record) (writes ++ [(place, record)]) := by
  cases hpath with
  | flat name => exact h.write_flat hin
  | row group leaf hne hd => exact h.write_row hin hne hd
  | bare group leaf => exact h.write_bare hin

theorem shows_nil : Shows schema [] [] where
  distinct := .object .nil fun _ he => absurd he List.not_mem_nil
  flat _ := rfl
  group _ := .inl ⟨rfl, rfl⟩
  bare _ := .inl ⟨rfl, fun _ => rfl⟩
  other _ _ _ := rfl

/-- An empty array for a group without rows writes nothing. -/
theorem Shows.emptyGroup {group : Text} (h : Shows schema document writes) (hin : HasGroup schema group)
    (hnone : get document group = none) : Shows schema (JsonTree.put group (.array []) document) writes where
  distinct := distinct_put h.distinct (.array fun _ hn => absurd hn List.not_mem_nil)
  flat hname := by rw [get_put_of_ne (hname.ne_group hin).symm, h.flat hname]
  group {group'} hg := by
    by_cases heq : group = group'
    · subst heq
      rcases h.group hg with ⟨-, hrows⟩ | ⟨items, hsome, -⟩
      · exact .inr ⟨[], get_put_self _ _ _, hrows.symm, fun number node hi => by simp at hi⟩
      · rw [hnone] at hsome
        cases hsome
    · rw [get_put_of_ne heq]
      exact h.group hg
  bare {group'} hg := by
    rw [get_put_of_ne (ne_bareName hin.identifier)]
    exact h.bare hg
  other {name} hf hg hb := by
    rw [get_put_of_ne, h.other hf hg hb]
    rintro rfl
    exact hg hin

end

end Recouple.Extraction.Wire
