import FirstMatch.Dataset.Sheet
import FirstMatch.RuleText.List

/-!
# Layouts of a rule text

How a rule text may be laid out anew: with more blanks around its lines, a carriage return at their ends among them, with lines
quoted as a whole, and with blank lines put in between. A line that is quoted as a whole already, between blanks or not, is not
quoted again.
-/

namespace FirstMatch

namespace RuleText

/-- A text quoted as a whole, the quotes inside it doubled. -/
def enquote (t : List Char) : List Char := '"' :: (Record.double t ++ ['"'])

/-- A text begins with a quote and ends with another. -/
def Quoted (t : List Char) : Prop := t.head? = some '"' ∧ t.tail.getLast? = some '"'

instance (t : List Char) : Decidable (Quoted t) := inferInstanceAs (Decidable (_ ∧ _))

/-- Blanks alone. -/
def Blanks (t : List Char) : Prop := ∀ c ∈ t, Text.isBlank c = true

instance (t : List Char) : Decidable (Blanks t) := List.decidableBAll (Text.isBlank · = true) t

/-- A line as it may be laid out: between blanks, or, unless it is quoted between its blanks, between blanks, quoted as a whole and
between blanks again. -/
inductive Laid (line : List Char) : List Char → Prop where
  | plain {before after : List Char} : Blanks before → Blanks after → Laid line (before ++ line ++ after)
  | quoted {before left right after : List Char} : ¬Quoted (Text.trim line) → Blanks before → Blanks left → Blanks right →
      Blanks after → Laid line (before ++ enquote (left ++ line ++ right) ++ after)

/-- A line of a layout as it is written, and the line of the text that it lays out; another is put in. -/
structure LaidLine where
  original? : Option (List Char)
  written : List Char

/-- A line that is put in is an empty line laid out. -/
def LaidLine.Fits (x : LaidLine) : Prop := Laid (x.original?.getD []) x.written

/-- The lines that a layout has of the text, with their numbers in the layout. -/
def kept (layout : List LaidLine) : List (List Char × Nat) :=
  (layout.zipIdx 1).filterMap fun (x, n) => x.original?.map (·, n)

/-- The number in the layout of a line of the text, by its number there. -/
def newLine (layout : List LaidLine) (n : Nat) : Nat := (((kept layout)[n - 1]?).map (·.2)).getD n

end RuleText

/-! ## Refusals -/

/-- The same fault on the line's new place. That there are no rules is said of the first line in any layout. -/
def GrammarError.relocate (place : Nat → Nat) (e : GrammarError) : GrammarError :=
  match e.fault with
  | .emptyList => e
  | _ => { e with line := place e.line }

/-- The same disagreement on the line's new place, if it is said of a line. -/
def SchemaError.relocate (place : Nat → Nat) : SchemaError → SchemaError
  | unknownRuleFeature line feature => unknownRuleFeature (place line) feature
  | labelNotInDomain line label => labelNotInDomain (place line) label
  | conditionOnLabel line feature => conditionOnLabel (place line) feature
  | e => e

/-- The same refusal on the line's new place. -/
def Error.relocate (place : Nat → Nat) : Error → Error
  | grammar e => grammar (e.relocate place)
  | schema e => schema (e.relocate place)
  | e => e

end FirstMatch
