import FirstMatch.Dataset
import FirstMatch.Filter.Predicate

/-!
# Dataset criteria

Criteria give features predicates that their cells must all pass. The features stand in the order of their names, and the
predicates of a feature in the order in which they were added. A row is kept when it passes every predicate of every feature.
-/

namespace FirstMatch

/-- A feature's name with its predicates. -/
abbrev CriteriaEntry : Type := String × List Predicate

/-- Entries of different names, in the order of the names. -/
def ByName (entries : List CriteriaEntry) : Prop := entries.Pairwise fun a b => a.1 < b.1

/-- Predicates by feature name. -/
structure Criteria where
  entries : List CriteriaEntry
  byName : ByName entries

namespace Criteria

/-! ## Making criteria -/

/-- Entries with more predicates under a name, after those it has. -/
def extendEntries (name : String) (ps : List Predicate) : List CriteriaEntry → List CriteriaEntry
  | [] => [(name, ps)]
  | e :: rest =>
    if name < e.1 then (name, ps) :: e :: rest
    else if e.1 = name then (e.1, e.2 ++ ps) :: rest
    else e :: extendEntries name ps rest

theorem mem_names_extendEntries {name n : String} {ps : List Predicate} {entries : List CriteriaEntry}
    (h : n ∈ (extendEntries name ps entries).map (·.1)) : n = name ∨ n ∈ entries.map (·.1) := by
  induction entries with
  | nil => simpa [extendEntries] using h
  | cons e rest ih =>
    rw [extendEntries] at h
    split at h
    · simpa using h
    · split at h
      · exact Or.inr (by simpa using h)
      · rw [List.map_cons] at h ⊢
        rcases List.mem_cons.1 h with he | hr
        · exact Or.inr (he ▸ List.mem_cons_self)
        · exact (ih hr).imp_right (List.mem_cons_of_mem _)

theorem byName_extendEntries (name : String) (ps : List Predicate) {entries : List CriteriaEntry} (h : ByName entries) :
    ByName (extendEntries name ps entries) := by
  induction entries with
  | nil => simp [extendEntries, ByName]
  | cons e rest ih =>
    obtain ⟨he, hrest⟩ := List.pairwise_cons.1 h
    rw [extendEntries]
    split
    · next hlt =>
      refine List.pairwise_cons.2 ⟨fun b hb => ?_, h⟩
      rcases List.mem_cons.1 hb with rfl | hb
      · exact hlt
      · exact String.lt_trans hlt (he b hb)
    · next hnlt =>
      split
      · exact List.pairwise_cons.2 ⟨he, hrest⟩
      · next hne =>
        refine List.pairwise_cons.2 ⟨fun b hb => ?_, ih hrest⟩
        rcases mem_names_extendEntries (List.mem_map_of_mem hb) with hn | hn
        · rw [hn]
          exact Std.lt_of_le_of_ne (String.not_lt.1 hnlt) hne
        · obtain ⟨b', hb', hn⟩ := List.mem_map.1 hn
          rw [← hn]
          exact he b' hb'

/-- No criteria: every row passes. -/
def empty : Criteria := ⟨[], List.Pairwise.nil⟩

instance : Inhabited Criteria := ⟨empty⟩

/-- More predicates for a feature, taken as they are. -/
def extend (c : Criteria) (name : String) (ps : List Predicate) : Criteria :=
  ⟨extendEntries name ps c.entries, byName_extendEntries name ps c.byName⟩

/-- One more predicate for a feature; texts that it lists are read as cells are. -/
def add (c : Criteria) (name : String) (p : Predicate) : Criteria := c.extend name [p.reread]

/-- A lower bound for a feature. -/
def atLeast (c : Criteria) (name : String) (bound : Float) : Criteria := c.add name (.atLeast bound)

/-- An upper bound for a feature. -/
def atMost (c : Criteria) (name : String) (bound : Float) : Criteria := c.add name (.atMost bound)

/-- The values a feature may have. -/
def oneOf (c : Criteria) (name : String) (values : List Value) : Criteria := c.add name (.oneOf values)

/-- Predicates for a feature in place of those it has, taken as they are. -/
def replace (c : Criteria) (name : String) (ps : List Predicate) : Criteria :=
  let others : Criteria := ⟨c.entries.filter (·.1 ≠ name), c.byName.filter _⟩
  others.extend name ps

/-- The criteria of some entries, taken as they are; of entries of one name the last stands. -/
def ofEntries (entries : List CriteriaEntry) : Criteria := entries.foldl (fun c e => c.replace e.1 e.2) empty

/-- Both criteria together. -/
def and (c other : Criteria) : Criteria := other.entries.foldl (fun c e => c.extend e.1 e.2) c

/-- Whether no feature has an entry. -/
def isEmpty (c : Criteria) : Bool := c.entries.isEmpty

/-! ## Keeping rows -/

/-- An entry with its feature's column, which must exist and be numeric if it is bounded. -/
def resolveEntry (catalog : Catalog) (e : CriteriaEntry) : Except SchemaError (Nat × List Predicate) := do
  let i ← catalog.resolve e.1
  if e.2.any (·.isRange) && !catalog.isNumeric i then throw (.nonNumericRange e.1)
  return (i, e.2)

/-- The predicates by column. -/
def resolve (c : Criteria) (catalog : Catalog) : Except SchemaError (List (Nat × List Predicate)) :=
  c.entries.mapM (resolveEntry catalog)

/-- Whether a row passes predicates by column. -/
def passes (tests : List (Nat × List Predicate)) (r : Row) : Bool :=
  tests.all fun (i, ps) => ps.all (·.admits (r.cell i))

/-- The row numbers, of those given, whose rows pass. Numbers keep their order and may repeat; those that the dataset has no row
for are dropped. -/
def apply (c : Criteria) (d : Dataset) (rows : List Nat) : Except SchemaError (List Nat) := do
  let tests ← c.resolve d.catalog
  return rows.filter fun i => (d.row? i).any (passes tests)

end Criteria

end FirstMatch
