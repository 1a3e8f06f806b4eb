import FirstMatch.Dataset.Reader
import FirstMatch.Proofs.DecisionList

/-!
# What a dataset has seen

The feature of a column has observed the cells of that column, from the first row to the last. So its values are pairwise
different, and it holds every value of the column that equals itself; a value stands at the one place whose value it equals.
-/

namespace FirstMatch

namespace Feature

/-- No two values seen are equal. -/
def Distinct (f : Feature) : Prop := f.values.Pairwise fun a b => (a == b) = false

/-- A feature contains what equals one of its values. -/
theorem contains_iff {f : Feature} {v : Value} : f.contains v = true ↔ ∃ u ∈ f.values, (v == u) = true :=
  List.contains_iff_exists_mem_beq

@[simp] theorem values_add (f : Feature) (v : Value) : (f.add v).values = f.values ++ [v] := by
  cases v with
  | number x =>
    simp only [add]
    split <;> rfl
  | text s => rfl

theorem observe_some (f : Feature) (v : Value) : f.observe (some v) = if f.contains v then f else f.add v := rfl

/-- What is seen stays seen. -/
theorem contains_observe {f : Feature} {v : Value} (h : f.contains v = true) (cell : Cell) :
    (f.observe cell).contains v = true := by
  cases cell with
  | none => exact h
  | some u =>
    rw [observe_some]
    split
    · exact h
    · obtain ⟨w, hw, hvw⟩ := contains_iff.1 h
      exact contains_iff.2 ⟨w, by rw [values_add]; exact List.mem_append_left _ hw, hvw⟩

/-- A value that equals itself is seen once it is observed. -/
theorem contains_observe_self {f : Feature} {v : Value} (hv : (v == v) = true) : (f.observe (some v)).contains v = true := by
  rw [observe_some]
  split
  · assumption
  · exact contains_iff.2 ⟨v, by rw [values_add]; exact List.mem_append_right _ (List.mem_singleton_self v), hv⟩

theorem distinct_unseen (name : String) (isLabel : Bool) : (unseen name isLabel).Distinct := List.Pairwise.nil

/-- Observing a cell leaves the values distinct. -/
theorem distinct_observe {f : Feature} (h : f.Distinct) (cell : Cell) : (f.observe cell).Distinct := by
  cases cell with
  | none => exact h
  | some v =>
    rw [observe_some]
    split
    · exact h
    · next hnew =>
      rw [Distinct, values_add]
      refine List.pairwise_append.2 ⟨h, List.pairwise_singleton _ _, fun u hu w hw => ?_⟩
      rw [List.mem_singleton.1 hw, Bool.eq_false_iff]
      intro huv
      exact hnew (contains_iff.2 ⟨u, hu, PartialEquivBEq.symm huv⟩)

/-- Observing cells leaves the values distinct. -/
theorem distinct_observeAll {f : Feature} (h : f.Distinct) (cells : List Cell) : (cells.foldl observe f).Distinct := by
  induction cells generalizing f with
  | nil => exact h
  | cons cell rest ih => exact ih (distinct_observe h cell)

/-- A feature contains what it contained before and the values of the cells observed. -/
theorem contains_observeAll {f : Feature} {cells : List Cell} {v : Value} (hv : (v == v) = true)
    (h : f.contains v = true ∨ some v ∈ cells) : (cells.foldl observe f).contains v = true := by
  induction cells generalizing f with
  | nil => exact h.resolve_right (by simp)
  | cons cell rest ih =>
    refine ih ?_
    rcases h with h | h
    · exact Or.inl (contains_observe h cell)
    · rcases List.mem_cons.1 h with rfl | h
      · exact Or.inl (contains_observe_self hv)
      · exact Or.inr h

/-- A value stands at the place whose value it equals. -/
theorem position_eq_some_iff {f : Feature} (h : f.Distinct) {v : Value} {k : Nat} :
    f.position? v = some k ↔ ∃ u, f.values[k]? = some u ∧ (u == v) = true := by
  unfold position?
  constructor
  · intro hk
    obtain ⟨hlt, hbeq, -⟩ := List.findIdx?_eq_some_iff_getElem.1 hk
    exact ⟨_, List.getElem?_eq_getElem hlt, hbeq⟩
  · rintro ⟨u, hu, hbeq⟩
    obtain ⟨hlt, rfl⟩ := List.getElem?_eq_some_iff.1 hu
    refine List.findIdx?_eq_some_iff_getElem.2 ⟨hlt, hbeq, fun j hj hj' => ?_⟩
    have hdiff := List.pairwise_iff_getElem.1 h j k (Nat.lt_trans hj hlt) hlt hj
    have hsame := PartialEquivBEq.trans hj' (PartialEquivBEq.symm hbeq)
    rw [hdiff] at hsame
    cases hsame

/-- What has been seen has a place, and nothing else has. -/
theorem contains_iff_exists_position {f : Feature} {v : Value} : f.contains v = true ↔ ∃ k, f.position? v = some k := by
  rw [contains_iff, ← Option.isSome_iff_exists, position?, List.findIdx?_isSome, List.any_eq_true]
  exact exists_congr fun u => and_congr_right fun _ => BEq.comm (a := v) (b := u) ▸ Iff.rfl

theorem contains_of_position_eq_none {f : Feature} {v : Value} (h : f.position? v = none) : f.contains v = false := by
  rw [Bool.eq_false_iff, Ne, contains_iff_exists_position, h]
  simp

end Feature

/-! ## Columns -/

/-- Before any row is seen, nothing has been seen in any column. -/
theorem Catalog.ofHeader_ok {header : List String} {label : String} {c : Catalog} (h : ofHeader header label = .ok c) :
    c.features = header.map fun name => Feature.unseen name (name = label) := by
  rw [ofHeader] at h
  split at h
  · cases h
  · split at h
    · cases h
    · split at h
      · cases h
        rfl
      · cases h

namespace Dataset

/-- After some rows, each feature has observed the cells of its column in order. -/
theorem observeRows_ok {c c' : Catalog} {n : Nat} {rows : List Row} (h : observeRows c n rows = .ok c') (i : Nat) :
    c'.features[i]? = (c.features[i]?).map fun f => (rows.map (·.cell i)).foldl Feature.observe f := by
  induction rows generalizing c n with
  | nil =>
    cases h
    simp
  | cons r rest ih =>
    rw [observeRows] at h
    split at h
    · rw [ih h, Catalog.observe, List.getElem?_mapIdx, Option.map_map]
      rfl
    · cases h

/-- The feature of a column has the name that stands over it, and has observed the cells of the column. -/
theorem getElem?_features_ofRows {header : List String} {rows : List Row} {label : String} {d : Dataset}
    (h : ofRows header rows label = .ok d) (i : Nat) : d.rows = rows ∧ d.catalog.features[i]? =
      (header[i]?).map fun name => (rows.map (·.cell i)).foldl Feature.observe (.unseen name (name = label)) := by
  obtain ⟨empty, hempty, h⟩ := bind_eq_ok.1 h
  obtain ⟨catalog, hcatalog, h⟩ := bind_eq_ok.1 h
  cases h
  refine ⟨rfl, ?_⟩
  rw [observeRows_ok hcatalog, Catalog.ofHeader_ok hempty, List.getElem?_map, Option.map_map]
  rfl

/-- The feature of a column has observed the cells of the column, and nothing before. -/
theorem feature_ofRows {header : List String} {rows : List Row} {label : String} {d : Dataset}
    (h : ofRows header rows label = .ok d) {i : Nat} {f : Feature} (hf : d.catalog.features[i]? = some f) :
    ∃ name isLabel, f = (d.rows.map (·.cell i)).foldl Feature.observe (.unseen name isLabel) := by
  obtain ⟨hrows, hfeatures⟩ := getElem?_features_ofRows h i
  rw [hfeatures, ← hrows] at hf
  obtain ⟨name, -, rfl⟩ := Option.map_eq_some_iff.1 hf
  exact ⟨name, _, rfl⟩

section Label

variable {header : List String} {rows : List Row} {label : String} {d : Dataset} (h : ofRows header rows label = .ok d)

include h

/-- The label feature is what is observed of the cells in the label column. -/
theorem labelFeature_ofRows : ∃ name isLabel,
    d.catalog.labelFeature = (d.rows.map (·.cell d.catalog.label)).foldl Feature.observe (.unseen name isLabel) :=
  feature_ofRows h (List.getElem?_eq_getElem d.catalog.label_lt)

/-- No two labels are equal. -/
theorem distinct_labels : d.catalog.labelFeature.Distinct := by
  obtain ⟨name, isLabel, hf⟩ := labelFeature_ofRows h
  rw [hf]
  exact Feature.distinct_observeAll (Feature.distinct_unseen name isLabel) _

/-- The label of a row is among the labels. -/
theorem contains_label {r : Row} (hr : r ∈ d.rows) {v : Value} (hcell : r.cell d.catalog.label = some v)
    (hv : (v == v) = true) : d.catalog.labelFeature.contains v = true := by
  obtain ⟨name, isLabel, hf⟩ := labelFeature_ofRows h
  rw [hf]
  exact Feature.contains_observeAll hv (Or.inr (hcell ▸ List.mem_map_of_mem hr))

end Label

/-- The rows of a dataset are those it was made of. -/
theorem rows_ofRows {header : List String} {rows : List Row} {label : String} {d : Dataset} (h : ofRows header rows label = .ok d) :
    d.rows = rows :=
  (getElem?_features_ofRows h 0).1

/-- The dataset that a text writes is that of its table. -/
theorem exists_table_of_read {text : String} {delimiter : Char} {label : String} {d : Dataset}
    (h : Dataset.read text delimiter label = .ok d) :
    ∃ t, Table.read delimiter text = .ok t ∧ ofRows t.header t.rows label = .ok d := by
  rw [read] at h
  split at h
  · cases h
  · next t ht =>
    split at h
    · cases h
    · next hd =>
      cases h
      exact ⟨t, ht, hd⟩

end Dataset

/-! ## Cells that are read -/

namespace Table

/-- Every value of the rows read is read of a token. -/
theorem exists_token_of_rowsOf {width : Nat} {records : List Record.Numbered} {rows : List Row}
    (h : rowsOf width records = .ok rows) : ∀ row ∈ rows, ∀ v, some v ∈ row.cells → ∃ token, v = Value.ofToken token := by
  induction records generalizing rows with
  | nil =>
    cases h
    simp
  | cons r rest ih =>
    rw [rowsOf] at h
    split at h
    · obtain ⟨others, hothers, h⟩ := bind_eq_ok.1 h
      cases h
      refine List.forall_mem_cons.2 ⟨fun v hv => ?_, ih hothers⟩
      obtain ⟨field, -, hcell⟩ := List.mem_map.1 hv
      simp only [cellOf] at hcell
      split at hcell
      · cases hcell
      · cases hcell
        exact ⟨_, rfl⟩
    · cases h

/-- A value in a table that is read is the value of a token. -/
theorem exists_token_of_read {delimiter : Char} {text : String} {t : Table} (h : Table.read delimiter text = .ok t) :
    ∀ row ∈ t.rows, ∀ v, some v ∈ row.cells → ∃ token, v = Value.ofToken token := by
  obtain ⟨records, -, h⟩ := bind_eq_ok.1 h
  cases records with
  | nil =>
    cases h
    simp
  | cons r rest =>
    obtain ⟨rows, hrows, h⟩ := bind_eq_ok.1 h
    cases h
    exact exists_token_of_rowsOf hrows

end Table

/-- A value in a dataset that is read is the value of a token. -/
theorem Dataset.exists_token_of_read {text : String} {delimiter : Char} {label : String} {d : Dataset}
    (h : Dataset.read text delimiter label = .ok d) {row : Row} (hrow : row ∈ d.rows) {i : Nat} {v : Value}
    (hv : row.cell i = some v) : ∃ token, v = Value.ofToken token := by
  obtain ⟨t, htable, hd⟩ := exists_table_of_read h
  rw [rows_ofRows hd] at hrow
  exact Table.exists_token_of_read htable row hrow v (List.mem_of_getElem? (Option.join_eq_some_iff.1 hv))

end FirstMatch
