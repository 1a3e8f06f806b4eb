import FirstMatch.Dataset
import FirstMatch.Pattern.Matching
import FirstMatch.Pattern.Reader

/-!
# Pattern filter

A pattern filter gives features patterns, each known by the texts it occurs in. A row is kept when each pattern occurs in the text
of its feature's cell; a missing cell has no text. Patterns are read when the filter is made, and names are looked up when it is
applied.
-/

namespace FirstMatch

/-- Features with patterns, in the order in which they were added. -/
structure PatternFilter where
  /-- Each feature's name, and the texts that its pattern occurs in. -/
  patterns : List (String × (String → Bool)) := []

namespace PatternFilter

instance : Inhabited PatternFilter := ⟨{}⟩

/-- One more pattern for a feature. -/
def add (f : PatternFilter) (feature pattern : String) : Except Error PatternFilter :=
  match Pattern.read? pattern with
  | some p => .ok ⟨f.patterns ++ [(feature, p.occursIn)]⟩
  | none => .error (.pattern feature)

/-- The filter of features with pattern texts, which are read in order. -/
def ofTexts (texts : List (String × String)) : Except Error PatternFilter :=
  texts.foldlM (fun f (feature, pattern) => f.add feature pattern) {}

/-- Whether no feature has a pattern. -/
def isEmpty (f : PatternFilter) : Bool := f.patterns.isEmpty

/-- A pattern with its feature's column. -/
def resolveEntry (c : Catalog) (e : String × (String → Bool)) : Except SchemaError (Nat × (String → Bool)) := do
  return (← c.resolve e.1, e.2)

/-- The patterns by column. -/
def resolve (f : PatternFilter) (c : Catalog) : Except SchemaError (List (Nat × (String → Bool))) :=
  f.patterns.mapM (resolveEntry c)

/-- Whether a row matches patterns by column. -/
def passes (tests : List (Nat × (String → Bool))) (r : Row) : Bool :=
  tests.all fun (i, occursIn) => (r.cell i).any fun v => occursIn v.render

/-- The row numbers, of those given, whose rows match. Numbers keep their order; those that the dataset has no row for are
dropped. -/
def apply (f : PatternFilter) (d : Dataset) (rows : List Nat) : Except SchemaError (List Nat) := do
  let tests ← f.resolve d.catalog
  return rows.filter fun i => (d.row? i).any (passes tests)

end PatternFilter

end FirstMatch
