import FirstMatch.Dataset.Reader
import FirstMatch.Proofs.Dataset.Summary
import FirstMatch.Proofs.DecisionList.Validation
import FirstMatch.Proofs.Filter.Satisfiability
import FirstMatch.Proofs.RuleText.Line

/-!
# Comparisons are decided

Numbers that are written are finite, in a table (`Table.finite_of_read`) as in a condition (`RuleText.finite_of_readConditions`), so two of
them always compare (`Value.exists_compare`). A rule orders only numbers, in a column that holds nothing else. So no cell that a
dataset has goes undecided by a list that was read against it (`DecisionList.compare_cells`).
-/

namespace FirstMatch

/-! ## Values -/

/-- Two numbers are in some order. -/
theorem Rank.exists_order {x y : Float} (hx : (x == x) = true) (hy : (y == y) = true) : ∃ o, order? x y = some o := by
  obtain ⟨r, hr, -⟩ := beq_iff.1 hx
  obtain ⟨s, hs, -⟩ := beq_iff.1 hy
  exact ⟨compare r s, by rw [order_eq, hr, hs]; rfl⟩

namespace Value

/-- A number that a token writes is finite. -/
theorem finite_ofToken (token : List Char) : (ofToken token).Finite := by
  intro y hy
  rw [ofToken] at hy
  split at hy
  · split at hy
    · next hfinite =>
      cases hy
      exact hfinite
    · cases hy
  · cases hy

/-- Whether two values are equal is always decided, and so is the order of two numbers that are finite. -/
theorem exists_compare {op : Operator} {a b : Value} (ha : a.Finite) (hb : b.Finite)
    (hnumbers : op.isOrdering = true → a.isNumber = true ∧ b.isNumber = true) : ∃ outcome, a.compare op b = some outcome := by
  cases hop : op.isOrdering with
  | true =>
    obtain ⟨x, rfl⟩ := exists_of_isNumber (hnumbers hop).1
    obtain ⟨y, rfl⟩ := exists_of_isNumber (hnumbers hop).2
    obtain ⟨o, ho⟩ := Rank.exists_order ha.beq_self hb.beq_self
    refine ⟨op.accepts o, ?_⟩
    rw [compare_of_ordering hop]
    simp [number?, ho]
  | false =>
    cases op with
    | eq => exact ⟨_, rfl⟩
    | ne => exact ⟨_, rfl⟩
    | _ => cases hop

end Value

/-! ## Tables -/

namespace Table

/-- The numbers in a table that is read are finite. -/
theorem finite_of_read {delimiter : Char} {text : String} {t : Table} (h : Table.read delimiter text = .ok t) :
    ∀ row ∈ t.rows, ∀ v, some v ∈ row.cells → v.Finite := by
  intro row hrow v hv
  obtain ⟨token, rfl⟩ := Table.exists_token_of_read h row hrow v hv
  exact Value.finite_ofToken token

end Table

namespace Dataset

variable {d : Dataset}

/-- The cells of a dataset that is read hold finite numbers and texts, and where a column is numeric, no texts. -/
theorem cell_of_read {text : String} {delimiter : Char} {label : String} (h : Dataset.read text delimiter label = .ok d) {row : Row}
    (hrow : row ∈ d.rows) {i : Nat} {v : Value} (hv : row.cell i = some v) :
    v.Finite ∧ (d.catalog.isNumeric i = true → v.isNumber = true) := by
  obtain ⟨t, htable, hd⟩ := exists_table_of_read h
  have hfinite := Table.finite_of_read htable
  rw [rows_ofRows hd] at hrow
  refine ⟨hfinite row hrow v (List.mem_of_getElem? (Option.join_eq_some_iff.1 hv)), fun hnumeric => ?_⟩
  rw [Catalog.isNumeric, Option.any_eq_true] at hnumeric
  obtain ⟨f, hf, hnumeric⟩ := hnumeric
  have hsums := (sumsUp_ofRows hd (fun r hr u hu => (hfinite r hr u hu).beq_self) hf).1
  exact hsums.isNumeric_iff.1 hnumeric v (List.reduceOption_mem_iff.2 (List.mem_map.2 ⟨row, hrow, hv⟩))

end Dataset

/-! ## Lists -/

namespace RuleText

/-- The numbers in conditions that are read are finite. -/
theorem finite_of_readConditions {line : Nat} {ts : List (List Char)} {ds : List ConditionDraft}
    (h : readConditions line ts = .ok ds) : ∀ d ∈ ds, d.value.Finite := by
  induction ts generalizing ds with
  | nil =>
    cases h
    simp
  | cons t rest ih =>
    obtain ⟨d, hd, h⟩ := bind_eq_ok.1 h
    obtain ⟨others, hothers, h⟩ := bind_eq_ok.1 h
    cases h
    obtain ⟨-, literal, -, -, -, -, hvalue⟩ := readCondition_ok_iff.1 hd
    exact List.forall_mem_cons.2 ⟨hvalue ▸ Value.finite_ofToken _, ih hothers⟩

end RuleText

namespace DecisionList

variable {l : DecisionList}

/-- The numbers that the rules of a list compare with are finite, if the list is read from a text. -/
theorem finite_of_read {rules : String} {c : Catalog} (h : DecisionList.read rules c = .ok l) {r : Rule} (hr : r ∈ l.rules)
    {x : Condition} (hx : x ∈ r.conditions) : x.value.Finite := by
  obtain ⟨line, -, draft, hwritten⟩ := exists_line_of_rule h hr
  obtain ⟨condition, hcondition, -, -, hvalue⟩ := exists_of_forall₂ hwritten.becomes.conditions hx
  exact hvalue ▸ RuleText.finite_of_readConditions (RuleText.conditions_of_readLine hwritten.read) condition hcondition

/-- A list decides every cell of the dataset that it was read against: whether the cell meets a condition is what comparing it with
the literal of the condition says, and this is never unsaid. -/
theorem compare_cells {text rules : String} {delimiter : Char} {label : String} {d : Dataset}
    (hd : Dataset.read text delimiter label = .ok d) (hl : DecisionList.read rules d.catalog = .ok l) :
    ∀ row ∈ d.rows, ∀ r ∈ l.rules, ∀ x ∈ r.conditions, ∀ v, row.cell x.feature = some v →
      ∃ outcome, v.compare x.op x.value = some outcome ∧ x.meets (row.cell x.feature) = outcome := by
  intro row hrow r hr x hx v hv
  obtain ⟨hfinite, hnumeric⟩ := Dataset.cell_of_read hd hrow hv
  have hfits := ((Accepted.read rules hl).fits r hr).conditions_fit x hx
  have hnumbers : x.op.isOrdering = true → v.isNumber = true ∧ x.value.isNumber = true :=
    fun hop => ⟨hnumeric (hfits.ordered hop).1, (hfits.ordered hop).2⟩
  obtain ⟨outcome, houtcome⟩ := Value.exists_compare hfinite (finite_of_read hl hr hx) hnumbers
  refine ⟨outcome, houtcome, ?_⟩
  rw [Condition.meets, hv, Option.bind_some, houtcome, Option.getD_some]

/-- Patients by temperature, one of whom was not measured. -/
def patients : String := "temperature,cough,label\n39.5,yes,ill\n36.8,no,well\n,no,well\n"

/-- Rules on patients, by a bound and by a text. -/
def fever : String := "if temperature >= 38 and cough != no then ill (1/0)\nelse well (2/0)"

/-- The temperature of a patient meets the bound that a rule sets. -/
theorem compare_cells_fever : ∃ d l, Dataset.read patients ',' "label" = .ok d ∧ DecisionList.read fever d.catalog = .ok l ∧
    ∃ row ∈ d.rows, ∃ r ∈ l.rules, ∃ x ∈ r.conditions, ∃ v, row.cell x.feature = some v ∧ x.op.isOrdering = true ∧
      v.compare x.op x.value = some true := by
  have hread : ((Dataset.read patients ',' "label").toOption.bind fun d => (DecisionList.read fever d.catalog).toOption.map fun l =>
      d.rows.any fun row => l.rules.any fun r => r.conditions.any fun x =>
        x.op.isOrdering && x.meets (row.cell x.feature)) = some true := by decide +kernel
  cases hd : Dataset.read patients ',' "label" with
  | error e => simp [hd, Except.toOption] at hread
  | ok d =>
    cases hl : DecisionList.read fever d.catalog with
    | error e => simp [hd, hl, Except.toOption] at hread
    | ok l =>
      simp only [hd, hl, Except.toOption, Option.bind_some, Option.map_some, Option.some.injEq, List.any_eq_true,
        Bool.and_eq_true] at hread
      obtain ⟨row, hrow, r, hr, x, hx, hop, hmeets⟩ := hread
      cases hv : row.cell x.feature with
      | none => simp [hv, Condition.meets] at hmeets
      | some v =>
        obtain ⟨outcome, houtcome, hmeets'⟩ := compare_cells hd hl row hrow r hr x hx v hv
        obtain rfl : outcome = true := hmeets'.symm.trans hmeets
        exact ⟨d, l, rfl, hl, row, hrow, r, hr, x, hx, v, hv, hop, houtcome⟩

end DecisionList

end FirstMatch
