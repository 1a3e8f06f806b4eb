import FirstMatch.Catalog

/-!
# Datasets

A dataset is a table of cells with the catalog derived from it. It never changes: filters choose row numbers and leave the rows
where they are.
-/

namespace FirstMatch

/-- The cells of a row, by column. -/
structure Row where
  cells : List Cell

/-- The cell of a column; beyond the last column there is none. -/
def Row.cell (r : Row) (i : Nat) : Cell := (r.cells[i]?).join

/-- A table and the catalog of its columns. -/
structure Dataset where
  catalog : Catalog
  rows : List Row

namespace Dataset

/-- The catalog after some rows, the first of which has number `n`; a row must have a cell for each column. -/
def observeRows (c : Catalog) (n : Nat) : List Row → Except SchemaError Catalog
  | [] => .ok c
  | r :: rest =>
    if r.cells.length = c.size then observeRows (c.observe r.cells) (n + 1) rest
    else .error (.rowWidth n c.size r.cells.length)

/-- The dataset of a header and rows. Rows count from one. -/
def ofRows (header : List String) (rows : List Row) (label : String) : Except SchemaError Dataset := do
  let empty ← Catalog.ofHeader header label
  let catalog ← observeRows empty 1 rows
  return ⟨catalog, rows⟩

/-- The number of rows. -/
def size (d : Dataset) : Nat := d.rows.length

/-- Every row number, in order: where filtering starts. -/
def indices (d : Dataset) : List Nat := List.range d.size

/-- The row of a number, if the dataset has one. -/
def row? (d : Dataset) (i : Nat) : Option Row := d.rows[i]?

end Dataset

end FirstMatch
