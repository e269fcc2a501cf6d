import Recouple.Extraction.Paging
import Recouple.Lib.SortByKey

/-!
# What a join of page parts keeps

Parts over ranges that do not overlap, in any order of arrival. The rows of the joined list are the rows
that start inside their part, in page order and then in the part's own order, numbered from 0 without
gaps, each with all its fields (`mergeChunkFields_accounts`); a row that starts elsewhere, and a field
outside the rows that a part without page 1 reports, is dropped and named.
-/

namespace Recouple.Extraction
open Js FirstSeen

/-! ## Rows of one part -/

/-- `rowsByGroup.get(group)` once the fields are through. -/
def collect (descriptors : List FieldDescriptor) (group : Text) (rows : List Row) (field : WireField) :
    List Row :=
  match rowOf descriptors field.path with
  | some (g, index) => if g = group then pushField index field rows else rows
  | none => rows

theorem map_index_pushField (index : WithTop Nat) (field : WireField) : ∀ rows : List Row,
    (pushField index field rows).map (·.index) =
      if index ∈ rows.map (·.index) then rows.map (·.index) else rows.map (·.index) ++ [index]
  | [] => by simp [pushField]
  | row :: rows => by
    by_cases h : row.index = index
    · simp [pushField, h]
    · have hne : ¬ index = row.index := fun h' => h h'.symm
      simp only [pushField, h, ↓reduceIte, List.map_cons, map_index_pushField index field rows,
        List.mem_cons, hne, false_or]
      split <;> rfl

theorem mem_pushField {index : WithTop Nat} {field : WireField} {row : Row} : ∀ {rows : List Row},
    (rows.map (·.index)).Nodup → (row ∈ pushField index field rows ↔
      (row ∈ rows ∧ row.index ≠ index) ∨
      (∃ old ∈ rows, old.index = index ∧ row = { old with fields := old.fields ++ [field] }) ∨
      (index ∉ rows.map (·.index) ∧ row = ⟨index, [field]⟩))
  | [], _ => by simp [pushField]
  | r :: rows, hn => by
    rw [List.map_cons, List.nodup_cons] at hn
    by_cases h : r.index = index
    · have hrest : ∀ x ∈ rows, x.index ≠ index := fun x hx e =>
        hn.1 (List.mem_map.2 ⟨x, hx, e.trans h.symm⟩)
      rw [pushField, if_pos h, List.mem_cons]
      constructor
      · rintro (rfl | hx)
        · exact .inr (.inl ⟨r, by simp, h, rfl⟩)
        · exact .inl ⟨by simp [hx], hrest row hx⟩
      · rintro (⟨hx, hne⟩ | ⟨old, hold, hoi, rfl⟩ | ⟨hnot, -⟩)
        · rcases List.mem_cons.1 hx with rfl | hx
          · exact absurd h hne
          · exact .inr hx
        · rcases List.mem_cons.1 hold with rfl | hold
          · exact .inl rfl
          · exact absurd hoi (hrest old hold)
        · exact absurd (by simp [h]) hnot
    · rw [pushField, if_neg h, List.mem_cons, mem_pushField hn.2]
      constructor
      · rintro (rfl | ⟨hx, hne⟩ | ⟨old, hold, hoi, rfl⟩ | ⟨hnot, rfl⟩)
        · exact .inl ⟨by simp, h⟩
        · exact .inl ⟨by simp [hx], hne⟩
        · exact .inr (.inl ⟨old, by simp [hold], hoi, rfl⟩)
        · refine .inr (.inr ⟨?_, rfl⟩)
          rw [List.map_cons, List.mem_cons, not_or]
          exact ⟨fun e => h e.symm, hnot⟩
      · rintro (⟨hx, hne⟩ | ⟨old, hold, hoi, rfl⟩ | ⟨hnot, rfl⟩)
        · rcases List.mem_cons.1 hx with rfl | hx
          · exact .inl rfl
          · exact .inr (.inl ⟨hx, hne⟩)
        · rcases List.mem_cons.1 hold with rfl | hold
          · exact absurd hoi h
          · exact .inr (.inr (.inl ⟨old, hold, hoi, rfl⟩))
        · rw [List.map_cons, List.mem_cons, not_or] at hnot
          exact .inr (.inr (.inr ⟨hnot.2, rfl⟩))

/-- A row a part reports: its number, and every field the part reports under it. -/
structure IsRow (descriptors : List FieldDescriptor) (group : Text) (fields : List WireField)
    (row : Row) : Prop where
  ne_nil : row.fields ≠ []
  fields_eq : row.fields = fields.filter fun f => rowOf descriptors f.path = some (group, row.index)

/-- The rows collected from the fields so far: one per number, with exactly its fields. -/
structure Collected (descriptors : List FieldDescriptor) (group : Text) (fields : List WireField)
    (rows : List Row) : Prop where
  nodup : (rows.map (·.index)).Nodup
  mem : ∀ row, row ∈ rows ↔ IsRow descriptors group fields row

section
variable {descriptors : List FieldDescriptor} {group : Text} {fields : List WireField}
  {rows : List Row} {field : WireField} {index : WithTop Nat}

theorem Collected.skip (h : Collected descriptors group fields rows)
    (hf : ∀ index, rowOf descriptors field.path ≠ some (group, index)) :
    Collected descriptors group (fields ++ [field]) rows := by
  refine ⟨h.nodup, fun row => ?_⟩
  have hsame : (fields ++ [field]).filter (fun f => rowOf descriptors f.path = some (group, row.index)) =
      fields.filter fun f => rowOf descriptors f.path = some (group, row.index) := by
    rw [List.filter_append, List.filter_cons_of_neg (by simpa using hf row.index), List.filter_nil,
      List.append_nil]
  rw [h.mem]
  constructor
  · rintro ⟨hne, heq⟩; exact ⟨hne, by rw [hsame]; exact heq⟩
  · rintro ⟨hne, heq⟩; exact ⟨hne, by rw [hsame] at heq; exact heq⟩

theorem Collected.push (h : Collected descriptors group fields rows)
    (hf : rowOf descriptors field.path = some (group, index)) :
    Collected descriptors group (fields ++ [field]) (pushField index field rows) := by
  have hother : ∀ i, i ≠ index →
      (fields ++ [field]).filter (fun f => rowOf descriptors f.path = some (group, i)) =
        fields.filter fun f => rowOf descriptors f.path = some (group, i) := by
    intro i hi
    rw [List.filter_append, List.filter_cons_of_neg (by simp [hf, hi.symm]), List.filter_nil, List.append_nil]
  have hown : (fields ++ [field]).filter (fun f => rowOf descriptors f.path = some (group, index)) =
      (fields.filter fun f => rowOf descriptors f.path = some (group, index)) ++ [field] := by
    rw [List.filter_append, List.filter_cons_of_pos (by simp [hf]), List.filter_nil]
  refine ⟨?_, fun row => ?_⟩
  · rw [map_index_pushField]
    split
    · exact h.nodup
    · rename_i hnew
      exact List.Nodup.append h.nodup (List.nodup_singleton _) (List.disjoint_singleton.2 hnew)
  rw [mem_pushField h.nodup]
  constructor
  · rintro (⟨hrow, hi⟩ | ⟨old, hold, rfl, rfl⟩ | ⟨hnew, rfl⟩)
    · obtain ⟨hne, heq⟩ := (h.mem row).1 hrow
      exact ⟨hne, by rw [hother _ hi]; exact heq⟩
    · obtain ⟨hne, heq⟩ := (h.mem old).1 hold
      exact ⟨by simp, by rw [hown, ← heq]⟩
    · refine ⟨by simp, ?_⟩
      rw [hown]
      have hnone : (fields.filter fun f => rowOf descriptors f.path = some (group, index)) = [] := by
        by_contra hne
        exact hnew (List.mem_map.2 ⟨⟨index, _⟩, (h.mem _).2 ⟨hne, rfl⟩, rfl⟩)
      rw [hnone]; rfl
  · rintro ⟨hne, heq⟩
    by_cases hi : row.index = index
    · rw [hi, hown] at heq
      right
      by_cases hnone : (fields.filter fun f => rowOf descriptors f.path = some (group, index)) = []
      · right
        refine ⟨fun hin => ?_, ?_⟩
        · obtain ⟨old, hold, hoi⟩ := List.mem_map.1 hin
          obtain ⟨hne', heq'⟩ := (h.mem old).1 hold
          rw [hoi, hnone] at heq'
          exact hne' heq'
        · rw [hnone, List.nil_append] at heq
          cases row; simp_all
      · left
        refine ⟨⟨index, _⟩, (h.mem _).2 ⟨hnone, rfl⟩, rfl, ?_⟩
        cases row; simp_all
    · left
      exact ⟨(h.mem row).2 ⟨hne, by rw [hother _ hi] at heq; exact heq⟩, hi⟩

theorem collected (descriptors : List FieldDescriptor) (group : Text) (fields : List WireField) :
    Collected descriptors group fields (fields.foldl (collect descriptors group) []) := by
  induction fields using List.reverseRecOn with
  | nil => exact ⟨List.nodup_nil, fun row => ⟨fun h => absurd h (by simp), fun ⟨hne, heq⟩ => absurd heq hne⟩⟩
  | append_singleton fields field ih =>
    rw [List.foldl_concat]
    unfold collect
    split
    · rename_i g index hrow
      split
      · rename_i hg; subst hg; exact ih.push hrow
      · rename_i hg
        exact ih.skip fun i h => by rw [hrow] at h; cases h; exact hg rfl
    · rename_i hrow
      exact ih.skip fun i h => by rw [hrow] at h; cases h

/-- The rows of a group that a part reports, in its own order. -/
def rowsIn (descriptors : List FieldDescriptor) (group : Text) (fields : List WireField) : List Row :=
  (fields.foldl (collect descriptors group) []).insertionSort rowLe

theorem mem_rowsIn {row : Row} : row ∈ rowsIn descriptors group fields ↔ IsRow descriptors group fields row := by
  rw [rowsIn, (List.perm_insertionSort _ _).mem_iff, (collected descriptors group fields).mem]

/-- A part's rows stand in strictly increasing order of number. -/
theorem rowsIn_sorted : (rowsIn descriptors group fields).Pairwise fun a b => a.index < b.index :=
  List.pairwise_map.1 (SortByKey.pairwise_lt_insertionSort (fun _ _ => Iff.rfl)
    (collected descriptors group fields).nodup)

end

/-! ## Renumbering -/

theorem renumber_rowPath {group digits leaf : Text} (hd : ∀ c ∈ digits, c.isDigit = true) (n : Nat) :
    renumber (rowPath group digits leaf) group n = rowPath group (decimal n) leaf := by
  have hdrop : (rowPath group digits leaf).drop (group.length + 1) = digits ++ ']' :: '.' :: leaf := by
    rw [rowPath, List.drop_append, List.drop_eq_nil_of_le (by omega), List.nil_append,
      show group.length + 1 - group.length = 1 by omega]
    rfl
  have hclose : (digits ++ ']' :: '.' :: leaf).dropWhile (· ≠ ']') = ']' :: '.' :: leaf := by
    rw [List.dropWhile_append_of_pos fun c hc => ?_, List.dropWhile_cons_of_neg (by simp)]
    have : c ≠ ']' := by rintro rfl; exact absurd (hd _ hc) (by decide)
    simpa using this
  rw [renumber, hdrop, hclose]
  rfl

variable {schema : List SchemaProperty}

/-- A field of a row names a field of its group, with a number in brackets. -/
theorem rowOf_eq_some {path group : Text} {index : WithTop Nat}
    (h : rowOf (describeFields schema) path = some (group, index)) :
    group ∈ repeatingGroupsOf (describeFields schema) ∧ ∃ leaf digits, Plain group ∧ Plain leaf ∧
      digits ≠ [] ∧ (∀ c ∈ digits, c.isDigit = true) ∧ path = rowPath group digits leaf := by
  rw [rowOf, Option.bind_eq_some_iff] at h
  obtain ⟨g, hg, h⟩ := h
  obtain ⟨i, hi, he⟩ := Option.map_eq_some_iff.1 h
  cases he
  obtain ⟨digits, hdigits, -⟩ := Option.map_eq_some_iff.1 hi
  obtain ⟨d, hd, hgroup⟩ := Option.bind_eq_some_iff.1 hg
  have hpath : d.path = templatePath path := by simpa using List.find?_some hd
  have hmem : d ∈ describeFields schema := by simpa using List.mem_of_find?_eq_some hd
  refine ⟨mem_firstSeen.2 (List.mem_filterMap.2 ⟨d, hmem, hgroup⟩), ?_⟩
  obtain ⟨property, -, hdp⟩ := List.mem_flatMap.1 hmem
  cases property with
  | field key =>
    rw [List.mem_singleton] at hdp
    subst hdp
    cases hgroup
  | rows key fields =>
    obtain ⟨sub, -, rfl⟩ := List.mem_map.1 hdp
    cases hgroup
    obtain ⟨hne, hdig⟩ := rowDigits_eq_some hdigits
    exact ⟨sub.text, digits, key.plain, sub.plain, hne, hdig, path_of_row key.plain sub.plain hpath.symm hdigits⟩

/-- A renumbered field of a row stays in its group, under the new number. -/
theorem rowOf_renumber {path group : Text} {index : WithTop Nat}
    (h : rowOf (describeFields schema) path = some (group, index)) (n : Nat) :
    rowOf (describeFields schema) (renumber path group n) = some (group, numberOf n) := by
  obtain ⟨-, leaf, digits, hgp, hlp, hne, hd, rfl⟩ := rowOf_eq_some h
  have hnne : decimal n ≠ [] := decimal_ne_nil n
  have hnd : ∀ c ∈ decimal n, c.isDigit = true := fun c hc => isDigit_of_mem_decimal hc
  have htemplate : templatePath (rowPath group (decimal n) leaf) = templatePath (rowPath group digits leaf) := by
    rw [templatePath_rowPath hgp hlp hnne hnd, templatePath_rowPath hgp hlp hne hd]
  rw [rowOf, Option.bind_eq_some_iff] at h
  obtain ⟨g, hg, h⟩ := h
  obtain ⟨i, hi, he⟩ := Option.map_eq_some_iff.1 h
  cases he
  rw [renumber_rowPath hd, rowOf, groupOf, htemplate, ← groupOf, hg, Option.bind_some, rowIndexOf,
    rowDigits_rowPath hgp hnne hnd]
  exact congrArg (fun i => some (group, numberOf i)) Nat.ofDigitChars_ten_toDigits

/-! ## What each loop adds -/

/-- The fields of rows, renumbered from `n` on. -/
def numbered (group : Text) (n : Nat) (rows : List Row) : List WireField :=
  (rows.zipIdx n).flatMap fun (row, i) => row.fields.map fun f => { f with path := renumber f.path group i }

theorem numbered_append (group : Text) (n : Nat) (l l' : List Row) :
    numbered group n (l ++ l') = numbered group n l ++ numbered group (n + l.length) l' := by
  rw [numbered, List.zipIdx_append, List.flatMap_append]
  rfl

/-- The field is in a row of the group. -/
def inGroup (descriptors : List FieldDescriptor) (group : Text) (f : WireField) : Bool :=
  (rowOf descriptors f.path).any fun r => r.1 = group

/-- The field is outside every row. -/
def outside (descriptors : List FieldDescriptor) (f : WireField) : Bool := (rowOf descriptors f.path).isNone

/-- What a stage of the join adds: rows to the groups, fields outside the rows, and issues. -/
structure Adds (descriptors : List FieldDescriptor) (s s' : Joining) (rows : Text → List Row)
    (headers : List WireField) (issues : List ReassemblyIssue) : Prop where
  inRows : ∀ g, s'.fields.filter (inGroup descriptors g) =
    s.fields.filter (inGroup descriptors g) ++ numbered g (s.offsets g) (rows g)
  headers : s'.fields.filter (outside descriptors) = s.fields.filter (outside descriptors) ++ headers
  offsets : ∀ g, s'.offsets g = s.offsets g + (rows g).length
  issues : s'.issues = s.issues ++ issues

section
variable {descriptors : List FieldDescriptor} {s s' s'' : Joining} {rows rows' : Text → List Row}
  {headers headers' : List WireField} {issues issues' : List ReassemblyIssue}

theorem Adds.refl (descriptors : List FieldDescriptor) (s : Joining) :
    Adds descriptors s s (fun _ => []) [] [] := by
  refine ⟨fun g => ?_, ?_, fun g => rfl, ?_⟩ <;> simp [numbered]

theorem Adds.trans (h : Adds descriptors s s' rows headers issues)
    (h' : Adds descriptors s' s'' rows' headers' issues') :
    Adds descriptors s s'' (fun g => rows g ++ rows' g) (headers ++ headers') (issues ++ issues') := by
  refine ⟨fun g => ?_, ?_, fun g => ?_, ?_⟩
  · rw [h'.inRows, h.inRows, h.offsets, numbered_append, List.append_assoc]
  · rw [h'.headers, h.headers, List.append_assoc]
  · rw [h'.offsets, h.offsets, List.length_append, Nat.add_assoc]
  · rw [h'.issues, h.issues, List.append_assoc]

/-- What a loop adds is what its turns add, one after another; `p` reads the join off the loop's state. -/
theorem Adds.foldl {σ α : Type*} {f : σ → α → σ} {p : σ → Joining} {r : α → Text → List Row}
    {h : α → List WireField} {i : α → List ReassemblyIssue} : ∀ {l : List α},
    (∀ a ∈ l, ∀ s, Adds descriptors (p s) (p (f s a)) (r a) (h a) (i a)) → ∀ s : σ,
      Adds descriptors (p s) (p (l.foldl f s)) (fun g => l.flatMap fun a => r a g) (l.flatMap h) (l.flatMap i)
  | [], _, s => Adds.refl descriptors (p s)
  | a :: l, step, s => by
    have hrest := Adds.foldl (l := l) (fun b hb => step b (by simp [hb])) (f s a)
    exact (step a (by simp) s).trans hrest

end

def headerIssue (range : PageRange) (f : WireField) : ReassemblyIssue :=
  { path := f.path
    problem := "reported by ".toList ++ partLabel range ++
      "; only the part with page 1 reports fields outside a repeating group: dropped".toList }

def rowIssue (group : Text) (range : PageRange) (row : Row) : ReassemblyIssue :=
  { path := rowLabel group (showNumber row.index)
    problem := partLabel range ++ " reported a row that starts on page ".toList ++
      decimalInt (startsOn row) ++ ", outside its pages: dropped".toList }

theorem takeHeader_adds {descriptors : List FieldDescriptor} (range : PageRange) {f : WireField}
    (hf : rowOf descriptors f.path = none) (s : Joining) :
    Adds descriptors s (takeHeader range s f) (fun _ => []) (if range.first = 1 then [f] else [])
      (if range.first = 1 then [] else [headerIssue range f]) := by
  have hout : outside descriptors f = true := by simp [outside, hf]
  have hin : ∀ g, ¬ inGroup descriptors g f = true := fun g => by simp [inGroup, hf]
  by_cases h1 : range.first = 1
  · rw [takeHeader, if_pos h1, if_pos h1, if_pos h1]
    refine ⟨fun g => ?_, ?_, fun g => rfl, ?_⟩
    · simp [List.filter_append, hin, numbered]
    · simp [List.filter_append, hout]
    · simp
  · rw [takeHeader, if_neg h1, if_neg h1, if_neg h1]
    refine ⟨fun g => ?_, ?_, fun g => rfl, rfl⟩ <;> simp [numbered]

/-- The loop over a part's fields: the rows are collected, the other fields are taken or dropped. -/
theorem takeFields {descriptors : List FieldDescriptor} (range : PageRange) (fields : List WireField)
    (s : Joining) :
    Adds descriptors s (fields.foldl (takeField descriptors range) (s, fun _ => [])).1 (fun _ => [])
      (if range.first = 1 then fields.filter (outside descriptors) else [])
      (if range.first = 1 then [] else (fields.filter (outside descriptors)).map (headerIssue range)) ∧
    ∀ g, (fields.foldl (takeField descriptors range) (s, fun _ => [])).2 g =
      fields.foldl (collect descriptors g) [] := by
  induction fields using List.reverseRecOn with
  | nil => exact ⟨by simpa using Adds.refl descriptors s, fun g => rfl⟩
  | append_singleton fields f ih =>
    obtain ⟨hadds, hrows⟩ := ih
    rw [List.foldl_concat]
    generalize fields.foldl (takeField descriptors range) (s, fun _ => []) = u at hadds hrows ⊢
    unfold takeField
    split
    · rename_i g index hrow
      have hout : ¬ outside descriptors f = true := by simp [outside, hrow]
      refine ⟨by simpa [List.filter_append, hout] using hadds, fun g' => ?_⟩
      rw [List.foldl_concat, collect, hrow]
      by_cases hg : g = g'
      · subst hg; simp [hrows]
      · simp [hg, Ne.symm hg, hrows]
    · rename_i hrow
      have hout : outside descriptors f = true := by simp [outside, hrow]
      constructor
      · have := hadds.trans (takeHeader_adds range hrow u.1)
        by_cases h1 : range.first = 1 <;> simpa [List.filter_append, hout, h1] using this
      · intro g'
        rw [List.foldl_concat, collect, hrow, hrows]

/-- The rows of one group only. -/
def only (group : Text) (rows : List Row) (g : Text) : List Row := if g = group then rows else []

theorem only_nil (group : Text) : only group [] = fun _ => [] := by
  funext g; exact ite_self _

theorem only_append (group : Text) (l l' : List Row) :
    (fun g => only group l g ++ only group l' g) = only group (l ++ l') := by
  funext g
  unfold only
  split
  · rfl
  · rfl

section
variable {group : Text} {range : PageRange} {row : Row}

theorem keepRow_adds (hrow : ∀ f ∈ row.fields, rowOf (describeFields schema) f.path = some (group, row.index))
    (keptHere : Nat) (s : Joining) :
    Adds (describeFields schema) s (keepRow group range keptHere s row) (only group [row]) [] [] := by
  have hnew : ∀ f ∈ row.fields, rowOf (describeFields schema) (renumber f.path group (s.offsets group)) =
      some (group, numberOf (s.offsets group)) :=
    fun f hf => rowOf_renumber (hrow f hf) _
  refine ⟨fun g => ?_, ?_, fun g => ?_, by simp [keepRow]⟩
  · simp only [keepRow, List.filter_append, List.filter_map]
    congr 1
    by_cases hg : g = group
    · subst hg
      rw [List.filter_eq_self.2 fun f hf => by simp [inGroup, hnew f hf]]
      simp [only, numbered]
    · rw [List.filter_eq_nil_iff.2 fun f hf => by simp [inGroup, hnew f hf, Ne.symm hg]]
      simp [only, hg, numbered]
  · simp only [keepRow, List.filter_append, List.filter_map]
    congr 1
    rw [List.map_eq_nil_iff, List.filter_eq_nil_iff]
    intro f hf
    simp [outside, hnew f hf]
  · by_cases hg : g = group
    · subst hg; simp [keepRow, only]
    · simp [keepRow, only, hg]

theorem dropRow_adds (descriptors : List FieldDescriptor) (s : Joining) :
    Adds descriptors s (dropRow group range s row) (fun _ => []) [] [rowIssue group range row] := by
  refine ⟨fun g => ?_, ?_, fun g => rfl, rfl⟩ <;> simp [dropRow, numbered]

/-- The loop over the rows of a group keeps those that start inside the part and names the others. -/
theorem takeRows : ∀ {rows : List Row},
    (∀ row ∈ rows, ∀ f ∈ row.fields, rowOf (describeFields schema) f.path = some (group, row.index)) →
    ∀ s : Joining × Nat, Adds (describeFields schema) s.1 (rows.foldl (takeRow group range) s).1
      (only group (rows.filter (startsInside range))) []
      ((rows.filter fun row => !startsInside range row).map (rowIssue group range))
  | [], _, s => by
    rw [List.filter_nil, only_nil]
    exact Adds.refl _ _
  | row :: rows, hrows, s => by
    rw [List.forall_mem_cons] at hrows
    rw [List.foldl_cons, takeRow]
    by_cases hin : startsInside range row = true
    · have hrest := takeRows hrows.2 (keepRow group range s.2 s.1 row, s.2 + 1)
      have hboth := (keepRow_adds hrows.1 s.2 s.1).trans hrest
      rw [only_append] at hboth
      simpa [hin] using hboth
    · have hrest := takeRows hrows.2 (dropRow group range s.1 row, s.2)
      have hboth := (dropRow_adds _ s.1).trans hrest
      simpa [hin] using hboth

end

/-! ## The run -/

/-- The rows of a group that the join keeps of a part. -/
def keptIn (descriptors : List FieldDescriptor) (chunk : ChunkReading) (group : Text) : List Row :=
  (rowsIn descriptors group chunk.fields).filter (startsInside chunk.range)

/-- The fields outside the rows that the join keeps of a part. -/
def headersIn (descriptors : List FieldDescriptor) (chunk : ChunkReading) : List WireField :=
  if chunk.range.first = 1 then chunk.fields.filter (outside descriptors) else []

/-- What the join names of a part: the fields, then the rows, that it drops. -/
def issuesOf (descriptors : List FieldDescriptor) (chunk : ChunkReading) : List ReassemblyIssue :=
  (if chunk.range.first = 1 then []
    else (chunk.fields.filter (outside descriptors)).map (headerIssue chunk.range)) ++
  (repeatingGroupsOf descriptors).flatMap fun g =>
    ((rowsIn descriptors g chunk.fields).filter fun row => !startsInside chunk.range row).map
      (rowIssue g chunk.range)

theorem rowOf_of_mem_rowsIn {descriptors : List FieldDescriptor} {group : Text} {fields : List WireField}
    {row : Row} (h : row ∈ rowsIn descriptors group fields) {f : WireField} (hf : f ∈ row.fields) :
    rowOf descriptors f.path = some (group, row.index) := by
  rw [(mem_rowsIn.1 h).fields_eq] at hf
  simpa using (List.mem_filter.1 hf).2

/-- Over groups named once each, a group's rows are its own. -/
theorem flatMap_only (rows : Text → List Row) (g : Text) : ∀ {groups : List Text}, groups.Nodup →
    (groups.flatMap fun group => only group (rows group) g) = if g ∈ groups then rows g else []
  | [], _ => rfl
  | group :: groups, hn => by
    rw [List.nodup_cons] at hn
    rw [List.flatMap_cons, flatMap_only rows g hn.2]
    by_cases hg : g = group
    · subst hg; simp [only, hn.1]
    · simp [only, hg]

/-- One group of a part. -/
theorem takeGroup_adds {chunk : ChunkReading} {rowsByGroup : Text → List Row}
    (hrows : ∀ g, rowsByGroup g = chunk.fields.foldl (collect (describeFields schema) g) [])
    (group : Text) (s : Joining) :
    Adds (describeFields schema) s (takeGroup chunk.range rowsByGroup s group)
      (only group (keptIn (describeFields schema) chunk group)) []
      (((rowsIn (describeFields schema) group chunk.fields).filter fun row =>
        !startsInside chunk.range row).map (rowIssue group chunk.range)) := by
  have htaken := @takeRows schema group chunk.range (rowsIn (describeFields schema) group chunk.fields)
    (fun row hrow f hf => rowOf_of_mem_rowsIn hrow hf) (s, 0)
  rw [takeGroup, hrows]
  exact ⟨htaken.inRows, htaken.headers, htaken.offsets, htaken.issues⟩

theorem keptIn_of_not_mem {chunk : ChunkReading} {group : Text}
    (hg : group ∉ repeatingGroupsOf (describeFields schema)) :
    keptIn (describeFields schema) chunk group = [] := by
  rw [keptIn, List.filter_eq_nil_iff]
  intro row hrow
  obtain ⟨f, fs, hf⟩ := List.exists_cons_of_ne_nil (mem_rowsIn.1 hrow).ne_nil
  exact absurd (rowOf_eq_some (rowOf_of_mem_rowsIn hrow (f := f) (by simp [hf]))).1 hg

/-- One part: its kept rows, its fields outside the rows if it has page 1, and what it drops named. -/
theorem takeChunk_adds (chunk : ChunkReading) (s : Joining) :
    Adds (describeFields schema) s (takeChunk (describeFields schema) s chunk)
      (keptIn (describeFields schema) chunk) (headersIn (describeFields schema) chunk)
      (issuesOf (describeFields schema) chunk) := by
  obtain ⟨hfields, hrows⟩ := takeFields chunk.range chunk.fields s
  rw [takeChunk]
  generalize chunk.fields.foldl (takeField (describeFields schema) chunk.range) (s, fun _ => []) = read
    at hfields hrows ⊢
  have hgroups := Adds.foldl (f := takeGroup chunk.range read.2) (p := id)
    (l := repeatingGroupsOf (describeFields schema)) (fun g _ s => takeGroup_adds hrows g s) read.1
  have hnodup : (repeatingGroupsOf (describeFields schema)).Nodup := nodup_firstSeen _
  have hkept : (fun g => (repeatingGroupsOf (describeFields schema)).flatMap fun group =>
      only group (keptIn (describeFields schema) chunk group) g) = keptIn (describeFields schema) chunk := by
    funext g
    rw [flatMap_only _ _ hnodup]
    split
    · rfl
    · rename_i hg; rw [keptIn_of_not_mem hg]
  have hnone : (repeatingGroupsOf (describeFields schema)).flatMap (fun _ => ([] : List WireField)) = [] :=
    List.flatMap_eq_nil_iff.2 fun _ _ => rfl
  have hboth := hfields.trans hgroups
  simp only [List.nil_append, hnone, List.append_nil, hkept] at hboth
  exact hboth

/-- Over a run: every part's rows, fields and issues, part after part. -/
theorem takeChunks_adds (parts : List ChunkReading) :
    Adds (describeFields schema) Joining.start (parts.foldl (takeChunk (describeFields schema)) Joining.start)
      (fun g => parts.flatMap fun c => keptIn (describeFields schema) c g)
      (parts.flatMap (headersIn (describeFields schema))) (parts.flatMap (issuesOf (describeFields schema))) :=
  Adds.foldl (p := id) (fun c _ s => takeChunk_adds c s) Joining.start

/-! ## Parts in any order -/

/-- No page in both. -/
def PageRange.Apart (a b : PageRange) : Prop := a.last < b.first ∨ b.last < a.first

instance (a b : PageRange) : Decidable (a.Apart b) :=
  inferInstanceAs (Decidable (a.last < b.first ∨ b.last < a.first))

/-- Ranges of pages, no two over one page. -/
structure NonOverlapping (chunks : List ChunkReading) : Prop where
  pages : ∀ c ∈ chunks, c.range.first ≤ c.range.last
  apart : chunks.Pairwise fun a b => a.range.Apart b.range

theorem PageRange.Apart.symm {a b : PageRange} (h : a.Apart b) : b.Apart a := Or.symm h

theorem NonOverlapping.perm {l l' : List ChunkReading} (h : NonOverlapping l) (hp : l.Perm l') :
    NonOverlapping l' :=
  ⟨fun c hc => h.pages c (hp.mem_iff.2 hc), hp.pairwise h.apart fun hab => hab.symm⟩

theorem NonOverlapping.nodup_first {l : List ChunkReading} (h : NonOverlapping l) :
    (l.map (·.range.first)).Nodup := by
  rw [List.Nodup, List.pairwise_map]
  refine (List.Pairwise.and_mem.1 h.apart).imp ?_
  rintro a b ⟨ha, hb, hab⟩ heq
  have := h.pages a ha
  have := h.pages b hb
  rcases hab with hab | hab <;> omega

theorem firstOverlap_eq_none : ∀ {l : List ChunkReading}, NonOverlapping l →
    (l.map (·.range.first)).Pairwise (· < ·) → firstOverlap l = none
  | [], _, _ => rfl
  | [_], _, _ => rfl
  | a :: b :: l, h, hs => by
    have hrest : NonOverlapping (b :: l) := ⟨fun c hc => h.pages c (by simp [hc]), (List.pairwise_cons.1 h.apart).2⟩
    rw [firstOverlap, firstOverlap_eq_none hrest (List.pairwise_cons.1 hs).2, if_neg]
    have hlt : a.range.first < b.range.first := (List.pairwise_cons.1 hs).1 _ (by simp)
    have := h.pages b (by simp)
    rcases (List.pairwise_cons.1 h.apart).1 b (by simp) with hab | hab <;> omega

/-- The parts in page order. -/
def pageOrder (chunks : List ChunkReading) : List ChunkReading := chunks.insertionSort chunkLe

theorem pageOrder_sorted {l : List ChunkReading} (h : NonOverlapping l) :
    ((pageOrder l).map (·.range.first)).Pairwise (· < ·) :=
  SortByKey.pairwise_lt_insertionSort (fun _ _ => Iff.rfl) h.nodup_first

theorem mergeChunkFields_ok {l : List ChunkReading} (h : NonOverlapping l) (descriptors : List FieldDescriptor) :
    ∃ m, mergeChunkFields l descriptors = .ok m ∧
      m.fields = ((pageOrder l).foldl (takeChunk descriptors) Joining.start).fields ∧
      m.issues = ((pageOrder l).foldl (takeChunk descriptors) Joining.start).issues ∧
      m.rowCounts = (repeatingGroupsOf descriptors).map
        fun g => (g, ((pageOrder l).foldl (takeChunk descriptors) Joining.start).offsets g) := by
  have hp : l.Perm (pageOrder l) := (List.perm_insertionSort _ _).symm
  have hnone : firstOverlap (l.insertionSort chunkLe) = none :=
    firstOverlap_eq_none (h.perm hp) (pageOrder_sorted h)
  unfold mergeChunkFields
  simp only [hnone]
  exact ⟨_, rfl, rfl, rfl, rfl⟩

theorem mergeChunkFields_perm {l l' : List ChunkReading} (h : NonOverlapping l) (hp : l.Perm l')
    (descriptors : List FieldDescriptor) :
    mergeChunkFields l' descriptors = mergeChunkFields l descriptors := by
  have : l.insertionSort chunkLe = l'.insertionSort chunkLe :=
    SortByKey.insertionSort_congr (fun _ _ => Iff.rfl) hp h.nodup_first
  rw [mergeChunkFields, ← this]
  rfl

/-- The kept rows of a group, each with its part. -/
def keptRowsOf (descriptors : List FieldDescriptor) (chunks : List ChunkReading) (group : Text) :
    List (ChunkReading × Row) :=
  (pageOrder chunks).flatMap fun c => (keptIn descriptors c group).map fun row => (c, row)

/-- Page order, and in one part the part's own order. -/
def Before (a b : ChunkReading × Row) : Prop :=
  a.1.range.first < b.1.range.first ∨ (a.1 = b.1 ∧ a.2.index < b.2.index)

theorem mem_keptRowsOf {descriptors : List FieldDescriptor} {chunks : List ChunkReading} {group : Text}
    {c : ChunkReading} {row : Row} : (c, row) ∈ keptRowsOf descriptors chunks group ↔
      c ∈ chunks ∧ IsRow descriptors group c.fields row ∧ startsInside c.range row = true := by
  simp only [keptRowsOf, pageOrder, keptIn, List.mem_flatMap, List.mem_map, List.mem_filter, mem_rowsIn,
    (List.perm_insertionSort chunkLe chunks).mem_iff, Prod.mk.injEq]
  constructor
  · rintro ⟨c', hc, row', ⟨hrow, hin⟩, rfl, rfl⟩
    exact ⟨hc, hrow, hin⟩
  · rintro ⟨hc, hrow, hin⟩
    exact ⟨c, hc, row, ⟨hrow, hin⟩, rfl, rfl⟩

theorem keptRowsOf_sorted {chunks : List ChunkReading} (h : NonOverlapping chunks)
    (descriptors : List FieldDescriptor) (group : Text) :
    (keptRowsOf descriptors chunks group).Pairwise Before := by
  rw [keptRowsOf, List.pairwise_flatMap]
  constructor
  · intro c _
    rw [List.pairwise_map]
    exact ((rowsIn_sorted).filter _).imp fun h => .inr ⟨rfl, h⟩
  · refine (List.pairwise_map.1 (pageOrder_sorted h)).imp fun {a b} hab x hx y hy => .inl ?_
    obtain ⟨_, -, rfl⟩ := List.mem_map.1 hx
    obtain ⟨_, -, rfl⟩ := List.mem_map.1 hy
    exact hab

/-- Every field a part reports is outside the rows or in one of the part's rows. -/
theorem outside_or_inRow (descriptors : List FieldDescriptor) (fields : List WireField) :
    ∀ f ∈ fields, outside descriptors f = true ∨ ∃ g row, IsRow descriptors g fields row ∧ f ∈ row.fields := by
  intro f hf
  cases hrow : rowOf descriptors f.path with
  | none => exact .inl (by simp [outside, hrow])
  | some r =>
    obtain ⟨g, index⟩ := r
    have hmem : f ∈ fields.filter fun f => rowOf descriptors f.path = some (g, index) :=
      List.mem_filter.2 ⟨hf, by simpa using hrow⟩
    exact .inr ⟨g, ⟨index, _⟩, ⟨List.ne_nil_of_mem hmem, rfl⟩, hmem⟩

theorem headersIn_of_ne {descriptors : List FieldDescriptor} {c : ChunkReading} (h : c.range.first ≠ 1) :
    headersIn descriptors c = [] := if_neg h

/-- The part with page 1 is the only one whose fields outside the rows are kept. -/
theorem flatMap_headersIn (descriptors : List FieldDescriptor) {c : ChunkReading} (h1 : c.range.first = 1) :
    ∀ {l : List ChunkReading}, (l.map (·.range.first)).Nodup → c ∈ l →
      l.flatMap (headersIn descriptors) = c.fields.filter (outside descriptors)
  | a :: l, hn, hc => by
    rw [List.map_cons, List.nodup_cons] at hn
    rw [List.flatMap_cons]
    by_cases ha : a.range.first = 1
    · have hrest : ∀ b ∈ l, b.range.first ≠ 1 := fun b hb h =>
        hn.1 (List.mem_map.2 ⟨b, hb, h.trans ha.symm⟩)
      rcases List.mem_cons.1 hc with rfl | hc
      · rw [List.flatMap_eq_nil_iff.2 fun b hb => headersIn_of_ne (hrest b hb), List.append_nil, headersIn,
          if_pos ha]
      · exact absurd h1 (hrest c hc)
    · rcases List.mem_cons.1 hc with rfl | hc
      · exact absurd h1 ha
      · rw [headersIn_of_ne ha, List.nil_append, flatMap_headersIn descriptors h1 hn.2 hc]

theorem rowIssue_mem {c : ChunkReading} {group : Text} {row : Row}
    (hrow : IsRow (describeFields schema) group c.fields row) (hout : startsInside c.range row = false) :
    rowIssue group c.range row ∈ issuesOf (describeFields schema) c := by
  have hin := mem_rowsIn.2 hrow
  obtain ⟨f, fs, hf⟩ := List.exists_cons_of_ne_nil hrow.ne_nil
  have hg := (rowOf_eq_some (rowOf_of_mem_rowsIn hin (f := f) (by simp [hf]))).1
  refine List.mem_append_right _ (List.mem_flatMap.2 ⟨group, hg, List.mem_map.2 ⟨row, ?_, rfl⟩⟩)
  exact List.mem_filter.2 ⟨hin, by simp [hout]⟩

theorem headerIssue_mem {descriptors : List FieldDescriptor} {c : ChunkReading} {f : WireField}
    (h1 : c.range.first ≠ 1) (hf : f ∈ c.fields) (hout : outside descriptors f = true) :
    headerIssue c.range f ∈ issuesOf descriptors c := by
  refine List.mem_append_left _ ?_
  rw [if_neg h1]
  exact List.mem_map.2 ⟨f, List.mem_filter.2 ⟨hf, hout⟩, rfl⟩

/-- Parts that report nothing join to no rows. -/
theorem mergeChunkFields_empty {schema : List SchemaProperty} {chunks : List ChunkReading}
    (h : NonOverlapping chunks) (hempty : ∀ c ∈ chunks, c.fields = []) :
    ∃ m, mergeChunkFields chunks (describeFields schema) = .ok m ∧ ∀ r ∈ m.rowCounts, r.2 = 0 := by
  obtain ⟨m, hm, -, -, hcounts⟩ := mergeChunkFields_ok h (describeFields schema)
  refine ⟨m, hm, fun r hr => ?_⟩
  rw [hcounts] at hr
  obtain ⟨g, -, rfl⟩ := List.mem_map.1 hr
  have hnone : ((pageOrder chunks).flatMap fun c => keptIn (describeFields schema) c g) = [] := by
    refine List.flatMap_eq_nil_iff.2 fun c hc => ?_
    rw [keptIn, hempty c ((List.perm_insertionSort _ _).mem_iff.1 hc)]
    rfl
  rw [(takeChunks_adds (pageOrder chunks)).offsets, hnone]
  rfl

/-- **Every row once, or named.** Parts over ranges that do not overlap, in whatever order they are
supplied, join to one list. Its fields in a group are the rows that start inside their part, in page
order, renumbered from 0, each read under its new number; its fields outside the rows are those of the part
with page 1. Every other row and every other field outside the rows has its issue. A row's number is what
JavaScript reads its digits as (`numberOf`), so rows whose digits make one double are one row. -/
theorem mergeChunkFields_accounts (schema : List SchemaProperty) (chunks : List ChunkReading)
    (h : NonOverlapping chunks) :
    ∃ m, (∀ supplied, chunks.Perm supplied → mergeChunkFields supplied (describeFields schema) = .ok m) ∧
      (∀ g, ∃ kept : List (ChunkReading × Row), kept.Pairwise Before ∧
        (∀ c row, (c, row) ∈ kept ↔
          c ∈ chunks ∧ IsRow (describeFields schema) g c.fields row ∧ startsInside c.range row = true) ∧
        m.fields.filter (inGroup (describeFields schema) g) = numbered g 0 (kept.map Prod.snd) ∧
        ∀ (i : Nat) c row, kept[i]? = some (c, row) → ∀ f ∈ row.fields,
          rowOf (describeFields schema) (renumber f.path g i) = some (g, numberOf i)) ∧
      (∀ c ∈ chunks, ∀ g row, IsRow (describeFields schema) g c.fields row →
        startsInside c.range row = false → rowIssue g c.range row ∈ m.issues) ∧
      (∀ c ∈ chunks, c.range.first = 1 → m.fields.filter (outside (describeFields schema)) =
        c.fields.filter (outside (describeFields schema))) ∧
      ((∀ c ∈ chunks, c.range.first ≠ 1) → m.fields.filter (outside (describeFields schema)) = []) ∧
      (∀ c ∈ chunks, c.range.first ≠ 1 → ∀ f ∈ c.fields, outside (describeFields schema) f = true →
        headerIssue c.range f ∈ m.issues) ∧
      (∀ c ∈ chunks, ∀ f ∈ c.fields, outside (describeFields schema) f = true ∨
        ∃ g row, IsRow (describeFields schema) g c.fields row ∧ f ∈ row.fields) := by
  obtain ⟨m, hm, hfields, hissues, -⟩ := mergeChunkFields_ok h (describeFields schema)
  have hadds := @takeChunks_adds schema (pageOrder chunks)
  have hp : chunks.Perm (pageOrder chunks) := (List.perm_insertionSort _ _).symm
  have hheaders : m.fields.filter (outside (describeFields schema)) =
      (pageOrder chunks).flatMap (headersIn (describeFields schema)) := by
    rw [hfields, hadds.headers]; rfl
  have hissue : ∀ {c i}, c ∈ chunks → i ∈ issuesOf (describeFields schema) c → i ∈ m.issues := by
    intro c i hc hi
    rw [hissues, hadds.issues]
    exact List.mem_append_right _ (List.mem_flatMap.2 ⟨c, hp.mem_iff.1 hc, hi⟩)
  refine ⟨m, fun supplied hs => by rw [mergeChunkFields_perm h hs, hm], fun g => ?_, ?_, ?_, ?_, ?_,
    fun c _ => outside_or_inRow _ c.fields⟩
  · refine ⟨keptRowsOf (describeFields schema) chunks g, keptRowsOf_sorted h _ g, fun c row => mem_keptRowsOf, ?_,
      fun i c row hrow f hf => ?_⟩
    · rw [hfields, hadds.inRows, keptRowsOf, List.map_flatMap]
      simp [Joining.start]
    · have hmem := (mem_keptRowsOf.1 (List.mem_of_getElem? hrow)).2.1
      exact rowOf_renumber (rowOf_of_mem_rowsIn (mem_rowsIn.2 hmem) hf) i
  · intro c hc g row hrow hout
    exact hissue hc (rowIssue_mem hrow hout)
  · intro c hc h1
    rw [hheaders, flatMap_headersIn _ h1 (h.perm hp).nodup_first (hp.mem_iff.1 hc)]
  · intro h1
    rw [hheaders, List.flatMap_eq_nil_iff]
    exact fun c hc => headersIn_of_ne (h1 c (hp.mem_iff.2 hc))
  · intro c hc h1 f hf hout
    exact hissue hc (headerIssue_mem h1 hf hout)

/-- A type of one field and one group. -/
def payerAndLines : List SchemaProperty :=
  have plain : Plain "payer_name" ∧ Plain "lines" ∧ Plain "net_amount" := by decide
  [.field ⟨"payer_name", plain.1⟩, .rows ⟨"lines", plain.2.1⟩ [⟨"net_amount", plain.2.2⟩]]

def wireField (path value : Text) (page : Int) : WireField := ⟨path, value, 1, page, value⟩

/-- Pages 1-2 and 3-4; the second part repeats a row of page 2 and reports the payer again. -/
def twoParts : List ChunkReading :=
  [⟨⟨1, 2⟩, [wireField "payer_name" "ACME" 1, wireField "lines[0].net_amount" "10.00" 1,
      wireField "lines[1].net_amount" "20.00" 2]⟩,
    ⟨⟨3, 4⟩, [wireField "payer_name" "ACME Ltd" 3, wireField "lines[0].net_amount" "20.00" 2,
      wireField "lines[1].net_amount" "30.00" 4]⟩]

theorem twoParts_accounted :
    ∃ m, mergeChunkFields twoParts.reverse (describeFields payerAndLines) = .ok m ∧
      m.fields.filter (outside (describeFields payerAndLines)) = [wireField "payer_name" "ACME" 1] ∧
      headerIssue ⟨3, 4⟩ (wireField "payer_name" "ACME Ltd" 3) ∈ m.issues ∧
      rowIssue "lines" ⟨3, 4⟩ ⟨((0 : Nat) : WithTop Nat), [wireField "lines[0].net_amount" "20.00" 2]⟩ ∈
        m.issues := by
  obtain ⟨m, hm, -, hrows, hfirst, -, hheaders, -⟩ :=
    mergeChunkFields_accounts payerAndLines twoParts ⟨by decide, by decide⟩
  refine ⟨m, hm _ (List.reverse_perm _).symm, ?_, ?_, ?_⟩
  · rw [hfirst _ (List.mem_cons_self ..) rfl]
    decide
  · exact hheaders _ (List.mem_cons_of_mem _ (List.mem_cons_self ..)) (by decide) _ (List.mem_cons_self ..) (by decide)
  · exact hrows _ (List.mem_cons_of_mem _ (List.mem_cons_self ..)) _ _ ⟨by decide, by decide⟩ (by decide)

end Recouple.Extraction
