import FirstMatch.Proofs.Dataset

/-!
# The summary of a column

A feature sums up its column exactly (`Feature.SumsUp`): it holds the distinct values of the column in the order of first sight, is
numeric while all of them are numbers, and then has the least and the greatest of them for its bounds. Before any cell this is so,
and seeing one more cell keeps it (`Feature.SumsUp.observe`), so it is so of each feature of a dataset, under the name in its
place of the header (`Dataset.catalog_summary`).
-/

namespace FirstMatch

/-! ## Bounds -/

/-- A way to choose one of two numbers, and the order in which it chooses the first. -/
structure Chooses (le : Float → Float → Prop) (choose : Float → Float → Float) : Prop where
  trans : ∀ {x y z}, le x y → le y z → le x z
  of_beq : ∀ {x y : Float}, (x == y) = true → le x y
  eq_or : ∀ x y, choose x y = x ∨ choose x y = y
  left : ∀ {x y : Float}, (x == x) = true → (y == y) = true → le (choose x y) x
  right : ∀ {x y : Float}, (x == x) = true → (y == y) = true → le (choose x y) y

theorem isNaN_eq_false {x : Float} (h : (x == x) = true) : x.isNaN = false := Rank.beq_self_iff.1 h

/-- The lesser of two numbers is chosen in ascending order. -/
theorem chooses_lesser : Chooses (· ≤ ·) lesser where
  trans := Rank.le_trans
  of_beq := Rank.le_of_beq
  eq_or x y := by
    unfold lesser
    split_ifs <;> simp
  left {x y} hx hy := by
    unfold lesser
    rw [isNaN_eq_false hx, if_neg Bool.false_ne_true]
    split
    · next hlt => exact Rank.le_of_lt hlt
    · exact Rank.le_of_beq hx
  right {x y} hx hy := by
    unfold lesser
    rw [isNaN_eq_false hx, if_neg Bool.false_ne_true]
    split
    · exact Rank.le_of_beq hy
    · next hlt => exact Rank.le_of_not_lt hx hy hlt

/-- The greater of two numbers is chosen in descending order. -/
theorem chooses_greater : Chooses (· ≥ ·) greater where
  trans hxy hyz := Rank.le_trans hyz hxy
  of_beq h := Rank.le_of_beq (PartialEquivBEq.symm h)
  eq_or x y := by
    unfold greater
    split_ifs <;> simp
  left {x y} hx hy := by
    unfold greater
    rw [isNaN_eq_false hx, if_neg Bool.false_ne_true]
    split
    · next hlt => exact Rank.le_of_lt hlt
    · exact Rank.le_of_beq hx
  right {x y} hx hy := by
    unfold greater
    rw [isNaN_eq_false hx, if_neg Bool.false_ne_true]
    split
    · exact Rank.le_of_beq hy
    · next hlt => exact Rank.le_of_not_lt hy hx hlt

namespace Feature

/-- The bound of values is there if they are numbers, at least one, and is then the first of them in an order. -/
structure Bounds (le : Float → Float → Prop) (isNumeric : Bool) (values : List Value) (bound? : Option Float) : Prop where
  isSome_iff : (∃ x, bound? = some x) ↔ isNumeric = true ∧ values ≠ []
  mem : ∀ x, bound? = some x → .number x ∈ values
  le : ∀ x, bound? = some x → ∀ y, .number y ∈ values → le x y

section Bounds

variable {le : Float → Float → Prop} {choose : Float → Float → Float} {values : List Value} {bound? : Option Float}

theorem bounds_none (le : Float → Float → Prop) (values : List Value) : Bounds le false values none :=
  ⟨by simp, by simp, by simp⟩

/-- Where a text is among the values, there is no bound. -/
theorem Bounds.eq_none (h : Bounds le false values bound?) : bound? = none := by
  rw [Option.eq_none_iff_forall_ne_some]
  intro x hx
  have := (h.isSome_iff.1 ⟨x, hx⟩).1
  cases this

/-- A value that equals one of the values changes no bound. -/
theorem Bounds.seen (hle : Chooses le choose) {isNumeric : Bool} (h : Bounds le isNumeric values bound?) {u v : Value}
    (hu : u ∈ values) (huv : (u == v) = true) : Bounds le isNumeric (values ++ [v]) bound? where
  isSome_iff := by
    rw [h.isSome_iff]
    simp [List.ne_nil_of_mem hu]
  mem x hx := List.mem_append_left _ (h.mem x hx)
  le x hx y hy := by
    rcases List.mem_append.1 hy with hy | hy
    · exact h.le x hx y hy
    · rw [← List.mem_singleton.1 hy] at huv
      obtain ⟨z, rfl, hzy⟩ := Value.beq_number_iff.1 huv
      exact hle.trans (h.le x hx z hu) (hle.of_beq hzy)

/-- One more number is chosen from with the bound so far. -/
theorem Bounds.number (hle : Chooses le choose) (h : Bounds le true values bound?) (hvalues : ∀ v ∈ values, (v == v) = true)
    {x : Float} (hx : (x == x) = true) :
    Bounds le true (values ++ [.number x]) (some ((bound?.map (choose · x)).getD x)) where
  isSome_iff := by simp
  mem y hy := by
    cases hy
    cases hb : bound? with
    | none => simp
    | some b =>
      rcases hle.eq_or b x with he | he
      · simpa [he] using Or.inl (h.mem b hb)
      · simp [he]
  le y hy z hz := by
    cases hy
    cases hb : bound? with
    | none =>
      have hnil : values = [] := by
        by_contra hne
        obtain ⟨b, hb'⟩ := h.isSome_iff.2 ⟨rfl, hne⟩
        rw [hb] at hb'
        cases hb'
      rw [hnil, List.nil_append, List.mem_singleton] at hz
      cases hz
      exact hle.of_beq hx
    | some b =>
      have hbb : (b == b) = true := hvalues _ (h.mem b hb)
      rcases List.mem_append.1 hz with hz | hz
      · exact hle.trans (hle.left hbb hx) (h.le b hb z hz)
      · cases List.mem_singleton.1 hz
        exact hle.right hbb hx

end Bounds

/-! ## Columns -/

/-- A feature holds what is to be known of the values of a column, repeated as they are there. -/
structure SumsUp (f : Feature) (column : List Value) : Prop where
  values_eq : f.values = column.eraseDups
  isNumeric_iff : f.isNumeric = true ↔ ∀ v ∈ column, v.isNumber = true
  least : Bounds (· ≤ ·) f.isNumeric column f.least?
  greatest : Bounds (· ≥ ·) f.isNumeric column f.greatest?

theorem sumsUp_unseen (name : String) (isLabel : Bool) : (unseen name isLabel).SumsUp [] where
  values_eq := rfl
  isNumeric_iff := by simp [unseen]
  least := ⟨by simp [unseen], by simp [unseen], by simp [unseen]⟩
  greatest := ⟨by simp [unseen], by simp [unseen], by simp [unseen]⟩

namespace SumsUp

variable {f : Feature} {column : List Value} (h : f.SumsUp column)

include h

/-- What has been seen equals a value of the column. -/
theorem contains_eq_any (v : Value) : f.contains v = column.any (· == v) := by
  rw [← any_eraseDups, ← h.values_eq, Bool.eq_iff_iff, Feature.contains_iff, List.any_eq_true]
  exact exists_congr fun u => and_congr_right fun _ => BEq.comm (a := v) (b := u) ▸ Iff.rfl

/-- A value that has been seen changes nothing. -/
theorem observe_seen {v : Value} (hv : f.contains v = true) : (f.observe (some v)).SumsUp (column ++ [v]) := by
  have hany := h.contains_eq_any v ▸ hv
  obtain ⟨u, hu, huv⟩ := List.any_eq_true.1 hany
  rw [observe_some, if_pos hv]
  constructor
  · rw [eraseDups_concat, hany, h.values_eq, if_pos rfl, List.append_nil]
  · rw [h.isNumeric_iff, List.forall_mem_append, List.forall_mem_singleton]
    exact ⟨fun hall => ⟨hall, Value.isNumber_congr huv ▸ hall u hu⟩, And.left⟩
  · exact h.least.seen chooses_lesser hu huv
  · exact h.greatest.seen chooses_greater hu huv

theorem values_concat {v : Value} (hnew : f.contains v = false) : f.values ++ [v] = (column ++ [v]).eraseDups := by
  rw [eraseDups_concat, ← h.contains_eq_any, hnew, h.values_eq, if_neg Bool.false_ne_true]

/-- A new number joins the values, and is chosen from for the bounds of a column of numbers. -/
theorem observe_number {x : Float} (hx : (x == x) = true) (hcolumn : ∀ v ∈ column, (v == v) = true)
    (hnew : f.contains (.number x) = false) : (f.observe (some (.number x))).SumsUp (column ++ [.number x]) := by
  have hvalues := h.values_concat hnew
  have hnumeric : f.isNumeric = true ↔ ∀ v ∈ column ++ [Value.number x], v.isNumber = true := by
    rw [h.isNumeric_iff, List.forall_mem_append, List.forall_mem_singleton]
    exact ⟨fun hall => ⟨hall, rfl⟩, And.left⟩
  have hleast := h.least
  have hgreatest := h.greatest
  rw [observe_some, if_neg (by simp [hnew]), add]
  split
  · next hf =>
    rw [hf] at hleast hgreatest
    refine ⟨hvalues, hnumeric, ?_, ?_⟩
    · show Bounds _ f.isNumeric _ _
      rw [hf]
      exact hleast.number chooses_lesser hcolumn hx
    · show Bounds _ f.isNumeric _ _
      rw [hf]
      exact hgreatest.number chooses_greater hcolumn hx
  · next hf =>
    rw [Bool.not_eq_true] at hf
    rw [hf] at hleast hgreatest
    refine ⟨hvalues, hnumeric, ?_, ?_⟩
    · show Bounds _ f.isNumeric _ f.least?
      rw [hf, hleast.eq_none]
      exact bounds_none _ _
    · show Bounds _ f.isNumeric _ f.greatest?
      rw [hf, hgreatest.eq_none]
      exact bounds_none _ _

/-- A new text joins the values, and ends the bounds. -/
theorem observe_text {s : String} (hnew : f.contains (.text s) = false) :
    (f.observe (some (.text s))).SumsUp (column ++ [.text s]) := by
  rw [observe_some, if_neg (by simp [hnew]), add]
  refine ⟨h.values_concat hnew, ?_, bounds_none _ _, bounds_none _ _⟩
  rw [List.forall_mem_append, List.forall_mem_singleton]
  simp [Value.isNumber, Value.number?]

/-- One more value is summed up. -/
theorem observe (hcolumn : ∀ v ∈ column, (v == v) = true) {v : Value} (hv : (v == v) = true) :
    (f.observe (some v)).SumsUp (column ++ [v]) := by
  cases hseen : f.contains v with
  | true => exact h.observe_seen hseen
  | false =>
    cases v with
    | number x => exact h.observe_number hv hcolumn hseen
    | text s => exact h.observe_text hseen

end SumsUp

/-- A feature that has observed the cells of a column sums up those that are not missing. -/
theorem sumsUp_observeAll (name : String) (isLabel : Bool) {cells : List Cell} (hcells : ∀ v, some v ∈ cells → (v == v) = true) :
    (cells.foldl observe (unseen name isLabel)).SumsUp cells.reduceOption := by
  induction cells using List.reverseRecOn with
  | nil => exact sumsUp_unseen name isLabel
  | append_singleton cells cell ih =>
    have hbefore := ih fun v hv => hcells v (List.mem_append_left _ hv)
    rw [List.foldl_append, List.reduceOption_append]
    cases cell with
    | none => simpa [Feature.observe] using hbefore
    | some v =>
      refine hbefore.observe (fun u hu => ?_) (hcells v (by simp))
      exact hcells u (List.mem_append_left _ (List.reduceOption_mem_iff.1 hu))

/-- Whatever has been observed, the name stays, and so does the mark of the label. -/
theorem observeAll_named (f : Feature) (cells : List Cell) :
    (cells.foldl observe f).name = f.name ∧ (cells.foldl observe f).isLabel = f.isLabel := by
  have hone : ∀ (f : Feature) (cell : Cell), (f.observe cell).name = f.name ∧ (f.observe cell).isLabel = f.isLabel := by
    intro f cell
    cases cell with
    | none => exact ⟨rfl, rfl⟩
    | some v =>
      rw [observe_some]
      split
      · exact ⟨rfl, rfl⟩
      · cases v with
        | number x =>
          rw [add]
          split <;> exact ⟨rfl, rfl⟩
        | text s => exact ⟨rfl, rfl⟩
  induction cells generalizing f with
  | nil => exact ⟨rfl, rfl⟩
  | cons cell rest ih =>
    rw [List.foldl_cons, (ih _).1, (ih _).2]
    exact hone f cell

end Feature

/-! ## Headers -/

namespace Catalog

/-- Names of which none is the first to be repeated are different. -/
theorem nodup_of_duplicate {header seen : List String} (h : duplicate? seen header = none) :
    header.Nodup ∧ ∀ name ∈ header, name ∉ seen := by
  induction header generalizing seen with
  | nil => exact ⟨List.nodup_nil, by simp⟩
  | cons name rest ih =>
    rw [duplicate?] at h
    split at h
    · cases h
    · next hname =>
      obtain ⟨hnodup, hrest⟩ := ih h
      refine ⟨List.nodup_cons.2 ⟨fun hm => hrest name hm List.mem_cons_self, hnodup⟩, List.forall_mem_cons.2 ⟨hname, ?_⟩⟩
      exact fun other hother hseen => hrest other hother (List.mem_cons_of_mem _ hseen)

/-- An accepted header repeats no name, and the label has its name there. -/
theorem label_ofHeader {header : List String} {label : String} {c : Catalog} (h : ofHeader header label = .ok c) :
    header.Nodup ∧ header[c.label]? = some label := by
  rw [ofHeader] at h
  split at h
  · cases h
  · split at h
    · cases h
    · next hdup =>
      split at h
      · next hmem =>
        cases h
        exact ⟨(nodup_of_duplicate hdup).1, List.getElem?_idxOf hmem⟩
      · cases h

end Catalog

namespace Dataset

variable {header : List String} {rows : List Row} {label : String} {d : Dataset}

/-- Observing rows keeps the label column. -/
theorem label_observeRows {c c' : Catalog} {n : Nat} (h : observeRows c n rows = .ok c') : c'.label = c.label := by
  induction rows generalizing c n with
  | nil =>
    cases h
    rfl
  | cons r rest ih =>
    rw [observeRows] at h
    split at h
    · rw [ih h, Catalog.label_observe]
    · cases h

/-- An accepted table has different names in its header, and the label where its label column is. -/
theorem label_ofRows (h : ofRows header rows label = .ok d) : header.Nodup ∧ header[d.catalog.label]? = some label := by
  obtain ⟨empty, hempty, h⟩ := bind_eq_ok.1 h
  obtain ⟨catalog, hcatalog, h⟩ := bind_eq_ok.1 h
  cases h
  rw [label_observeRows hcatalog]
  exact Catalog.label_ofHeader hempty

section Catalog

variable (h : ofRows header rows label = .ok d)

include h

/-- Each column has the feature of its name in the header. -/
theorem feature_named {i : Nat} {f : Feature} (hf : d.catalog.features[i]? = some f) :
    header[i]? = some f.name ∧ (f.isLabel = true ↔ f.name = label) := by
  rw [(getElem?_features_ofRows h i).2] at hf
  obtain ⟨name, hname, rfl⟩ := Option.map_eq_some_iff.1 hf
  obtain ⟨hkeepsName, hkeepsMark⟩ := Feature.observeAll_named (.unseen name (name = label)) (rows.map (·.cell i))
  rw [hkeepsName, hkeepsMark]
  exact ⟨hname, by simp [Feature.unseen]⟩

/-- The features are named as the header names them. -/
theorem map_name_features : d.catalog.features.map (·.name) = header := by
  apply List.ext_getElem?
  intro i
  have hi := (getElem?_features_ofRows h i).2
  rw [List.getElem?_map]
  cases hf : d.catalog.features[i]? with
  | none =>
    rw [hf] at hi
    simpa using hi.symm
  | some f => exact (feature_named h hf).1.symm

/-- A name has the column over which it stands. -/
theorem column_eq_some_iff (name : String) (i : Nat) : d.catalog.column? name = some i ↔ header[i]? = some name := by
  have hnodup := (label_ofRows h).1
  have hnames := map_name_features h
  have hcolumn : d.catalog.column? name = header.findIdx? (· = name) := by
    rw [← hnames, List.findIdx?_map]
    rfl
  rw [hcolumn, List.findIdx?_eq_some_iff_getElem]
  constructor
  · rintro ⟨hi, he, -⟩
    rw [List.getElem?_eq_getElem hi, of_decide_eq_true he]
  · intro hi
    obtain ⟨hlt, rfl⟩ := List.getElem?_eq_some_iff.1 hi
    refine ⟨hlt, by simp, fun j hj => ?_⟩
    rw [decide_eq_true_eq]
    intro he
    exact absurd ((hnodup.getElem_inj_iff).1 he) (Nat.ne_of_lt hj)

/-- The feature of a column sums up the values of the column. -/
theorem sumsUp_ofRows (hproper : ∀ r ∈ rows, ∀ v, some v ∈ r.cells → (v == v) = true) {i : Nat} {f : Feature}
    (hf : d.catalog.features[i]? = some f) : f.SumsUp (rows.map (·.cell i)).reduceOption ∧ f.Distinct := by
  rw [(getElem?_features_ofRows h i).2] at hf
  obtain ⟨name, -, rfl⟩ := Option.map_eq_some_iff.1 hf
  refine ⟨Feature.sumsUp_observeAll _ _ fun v hv => ?_, Feature.distinct_observeAll (Feature.distinct_unseen _ _) _⟩
  obtain ⟨r, hr, hcell⟩ := List.mem_map.1 hv
  exact hproper r hr v (List.mem_of_getElem? (Option.join_eq_some_iff.1 hcell))

/-- The catalog of a dataset sums up its table, if what stands in a cell equals itself.
1. The feature of each column sums up the values there: it lists them, each once and in the order of first sight, is numeric if all
   are numbers, and then has the least and the greatest of them for bounds, if there are any. It contains what equals one of them,
   and gives the place of that among the values listed.
2. The features have the names of the header in its order, and a name has the column over which it stands.
3. The label is the column of the name asked for, and the only one that is marked. -/
theorem catalog_summary (hproper : ∀ r ∈ rows, ∀ v, some v ∈ r.cells → (v == v) = true) :
    (∀ i f, d.catalog.features[i]? = some f →
      let column := (rows.map (·.cell i)).reduceOption
      f.SumsUp column ∧
        ∀ v, (f.contains v = true ↔ ∃ u ∈ column, (u == v) = true) ∧ (f.contains v = true ↔ ∃ k, f.position? v = some k) ∧
          ∀ k, f.position? v = some k ↔ ∃ u, f.values[k]? = some u ∧ (u == v) = true) ∧
    (d.catalog.features.map (·.name) = header ∧ ∀ name i, d.catalog.column? name = some i ↔ header[i]? = some name) ∧
    header[d.catalog.label]? = some label ∧
      ∀ i f, d.catalog.features[i]? = some f → (f.isLabel = true ↔ i = d.catalog.label) := by
  obtain ⟨hnodup, hlabel⟩ := label_ofRows h
  refine ⟨fun i f hf => ?_, ⟨map_name_features h, column_eq_some_iff h⟩, hlabel, fun i f hf => ?_⟩
  · obtain ⟨hsums, hdistinct⟩ := sumsUp_ofRows h hproper hf
    refine ⟨hsums, fun v => ⟨?_, ?_, fun k => Feature.position_eq_some_iff hdistinct⟩⟩
    · rw [hsums.contains_eq_any, List.any_eq_true]
    · exact Feature.contains_iff_exists_position
  · obtain ⟨hname, hmark⟩ := feature_named h hf
    rw [hmark]
    constructor
    · rintro rfl
      exact (List.getElem?_inj (List.getElem?_eq_some_iff.1 hname).1 hnodup).1 (hname.trans hlabel.symm)
    · rintro rfl
      exact Option.some.inj (hname.symm.trans hlabel)

end Catalog

/-- Parts in stock: a zero of either sign, a number between texts, and cells that are missing. -/
def stock : List Row := [
  ⟨[some (.number 0), some (.number 7), some (.text "keep")]⟩,
  ⟨[none, some (.text "n/a"), some (.text "sell")]⟩,
  ⟨[some (.number (-0.0)), some (.number 2), none]⟩,
  ⟨[some (.number (-3)), none, some (.text "keep")]⟩]

/-- The changes of the stock sum up two zeros, which are one value, and a lower number; texts stand in another column. -/
theorem catalog_summary_stock : ∃ d, ofRows ["change", "size", "label"] stock "label" = .ok d ∧
    (∀ r ∈ stock, ∀ v, some v ∈ r.cells → (v == v) = true) ∧
    ∃ f, d.catalog.features[0]? = some f ∧ f.SumsUp [.number 0, .number (-0.0), .number (-3)] ∧
      (f.contains (.number (-0.0)) = true ↔ ∃ k, f.position? (.number (-0.0)) = some k) ∧ d.catalog.column? "size" = some 1 ∧
      (f.isLabel = true ↔ 0 = d.catalog.label) := by
  obtain ⟨d, hd⟩ : ∃ d, ofRows ["change", "size", "label"] stock "label" = .ok d := ⟨_, rfl⟩
  have hproper : ∀ r ∈ stock, ∀ v, some v ∈ r.cells → (v == v) = true := by
    have hall : ∀ r ∈ stock, ∀ cell ∈ r.cells, cell.all (fun v => v == v) = true := by decide +kernel
    exact fun r hr v hv => hall r hr _ hv
  obtain ⟨hcolumns, ⟨-, hnames⟩, -, hmark⟩ := catalog_summary hd hproper
  obtain ⟨f, hf⟩ : ∃ f, d.catalog.features[0]? = some f := by
    cases hd
    exact ⟨_, rfl⟩
  obtain ⟨hsums, hplaces⟩ := hcolumns 0 f hf
  exact ⟨d, hd, hproper, f, hf, hsums, (hplaces _).2.1, (hnames _ _).2 rfl, hmark 0 f hf⟩

end Dataset

end FirstMatch
