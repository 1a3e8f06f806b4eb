import FirstMatch.Rule

/-!
# Decision lists

A decision list is a sequence of rules of which the last, and no other, is a default rule. A row belongs to the first rule that
matches it; there always is one, because the default rule matches every row (`exists_firstMatch`).
-/

namespace FirstMatch

/-- The last rule is a default rule and no other is. -/
structure EndsInDefault (rules : List Rule) : Prop where
  ne_nil : rules ≠ []
  last_default : (rules.getLast ne_nil).isDefault = true
  only_last : ∀ r ∈ rules.dropLast, r.isDefault = false

/-- Rules tried in order, the last of them the default. -/
structure DecisionList where
  rules : List Rule
  ends : EndsInDefault rules

namespace DecisionList

/-- The number of rules. -/
def size (l : DecisionList) : Nat := l.rules.length

/-- The rule that matches where no other does. -/
def defaultRule (l : DecisionList) : Rule := l.rules.getLast l.ends.ne_nil

/-- The number of the first rule that matches the cells of a row. -/
def firstMatch? (l : DecisionList) (cell : Nat → Cell) : Option Nat := l.rules.findIdx? (·.holds cell)

/-- The list in a few words. -/
def summary (l : DecisionList) : String :=
  "DecisionList(" ++ l.size.repr ++ " rules, default '" ++ l.defaultRule.label.render ++ "')"

/-- Rules with the lines they stand on make a list if the last of them is a default rule and no other is. A default rule that
stands too early is named first, by its line; a list without one is refused on the line of its last rule, and an empty one on
the first line. -/
def ofNumbered (rules : List (Nat × Rule)) : Except GrammarError DecisionList :=
  if hne : rules = [] then .error ⟨1, .emptyList⟩
  else
    match hearly : rules.dropLast.find? (·.2.isDefault) with
    | some (line, _) => .error ⟨line, .defaultNotLast⟩
    | none =>
      if hlast : (rules.getLast hne).2.isDefault = true then
        .ok {
          rules := rules.map (·.2)
          ends := {
            ne_nil := by simpa using hne
            last_default := by rwa [List.getLast_map]
            only_last := by
              intro r hr
              rw [← List.map_dropLast] at hr
              obtain ⟨p, hp, rfl⟩ := List.mem_map.1 hr
              simpa using List.find?_eq_none.1 hearly p hp } }
      else .error ⟨(rules.getLast hne).1, .missingDefault⟩

theorem holds_of_isDefault {r : Rule} (h : r.isDefault = true) (cell : Nat → Cell) : r.holds cell = true := by
  have : r.conditions = [] := by simpa [Rule.isDefault] using h
  simp [Rule.holds, this]

/-- Every row belongs to a rule of the list. -/
theorem exists_firstMatch (l : DecisionList) (cell : Nat → Cell) : ∃ i, l.firstMatch? cell = some i ∧ i < l.size := by
  cases h : l.firstMatch? cell with
  | none =>
    have := List.findIdx?_eq_none_iff.1 h _ (List.getLast_mem l.ends.ne_nil)
    rw [holds_of_isDefault l.ends.last_default] at this
    cases this
  | some i => exact ⟨i, rfl, (List.findIdx?_eq_some_iff_getElem.1 h).1⟩

end DecisionList

end FirstMatch
