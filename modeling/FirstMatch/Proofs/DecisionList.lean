import FirstMatch.Proofs.Value
import FirstMatch.RuleText.List

/-!
# Accepted lists

A decision list is accepted when it is read from a text or made of drafts, against a catalog. Either way each of its rules was
resolved from a draft, so each fits the catalog (`DecisionList.Accepted.fits`). A text that is not accepted is refused for its
grammar or against the catalog (`DecisionList.read_ne_structural`).
-/

namespace FirstMatch

/-- Two checks in a row succeed when the first does, and the second does on what the first gave. -/
theorem bind_eq_ok {ε α β : Type} {x : Except ε α} {f : α → Except ε β} {b : β} :
    (x >>= f) = .ok b ↔ ∃ a, x = .ok a ∧ f a = .ok b := by
  cases x with
  | error e =>
    constructor
    · intro h
      cases h
    · rintro ⟨a, ha, -⟩
      cases ha
  | ok a =>
    constructor
    · intro h
      exact ⟨a, rfl, h⟩
    · rintro ⟨a', ha, h⟩
      cases ha
      exact h

/-- Two checks in a row fail when the first does, or when the second does on what the first gave. -/
theorem bind_eq_error {ε α β : Type} {x : Except ε α} {f : α → Except ε β} {e : ε} :
    (x >>= f) = .error e ↔ x = .error e ∨ ∃ a, x = .ok a ∧ f a = .error e := by
  cases x with
  | error e' =>
    constructor
    · intro h
      cases h
      exact Or.inl rfl
    · rintro (h | ⟨a, ha, -⟩)
      · cases h
        rfl
      · cases ha
  | ok a =>
    constructor
    · intro h
      exact Or.inr ⟨a, rfl, h⟩
    · rintro (h | ⟨a', ha, h⟩)
      · cases h
      · cases ha
        exact h

/-! ## Rules that fit a catalog -/

/-- A condition tests a column of the catalog other than the label, and orders only numbers. -/
structure Condition.Fits (c : Catalog) (x : Condition) : Prop where
  lt_size : x.feature < c.size
  ne_label : x.feature ≠ c.label
  ordered : x.op.isOrdering = true → c.isNumeric x.feature = true ∧ x.value.isNumber = true

/-- A rule predicts a label seen in the label column, and its conditions fit and test a column each. -/
structure Rule.Fits (c : Catalog) (r : Rule) : Prop where
  label_seen : c.labelFeature.contains r.label = true
  conditions_fit : ∀ x ∈ r.conditions, x.Fits c
  distinct : (r.conditions.map (·.feature)).Nodup

/-- A label seen equals itself. -/
theorem Rule.Fits.label_beq_self {c : Catalog} {r : Rule} (h : r.Fits c) : (r.label == r.label) = true := by
  obtain ⟨v, -, hv⟩ := List.contains_iff_exists_mem_beq.1 h.label_seen
  exact Value.beq_self_of_beq hv

/-- Rules that fit have labels that equal themselves. -/
theorem labels_beq_self {c : Catalog} {rules : List Rule} (fits : ∀ r ∈ rules, r.Fits c) :
    ∀ r ∈ rules, (r.label == r.label) = true := fun r hr => (fits r hr).label_beq_self

/-- The condition on a column is on that column. -/
theorem Rule.feature_of_conditionOn {r : Rule} {i : Nat} {x : Condition} (h : r.conditionOn? i = some x) : x.feature = i := by
  simpa using List.find?_some h

/-- Where each condition is on a column of its own, each is the condition on its column. -/
theorem Rule.conditionOn_eq_some {r : Rule} (distinct : (r.conditions.map (·.feature)).Nodup) {x : Condition}
    (hx : x ∈ r.conditions) : r.conditionOn? x.feature = some x := by
  cases hf : r.conditionOn? x.feature with
  | none => simpa using List.find?_eq_none.1 hf x hx
  | some y =>
    have hy : y ∈ r.conditions := List.mem_of_find?_eq_some hf
    rw [List.inj_on_of_nodup_map distinct hy hx (feature_of_conditionOn hf)]

theorem column_lt {c : Catalog} {name : String} {i : Nat} (h : c.column? name = some i) : i < c.size :=
  (List.findIdx?_eq_some_iff_getElem.1 h).1

/-! ## Resolved drafts -/

/-- A condition resolved fits, and its column was not tested before. -/
theorem ConditionDraft.resolve_ok {d : ConditionDraft} {c : Catalog} {line : Nat} {tested : List Nat} {x : Condition}
    (h : d.resolve c line tested = .ok x) : x.Fits c ∧ x.feature ∉ tested := by
  rw [ConditionDraft.resolve] at h
  cases hi : c.column? d.feature with
  | none =>
    rw [hi] at h
    cases h
  | some i =>
    simp only [hi] at h
    split_ifs at h with hlabel htested horder
    cases h
    refine ⟨⟨column_lt hi, hlabel, fun hop => ?_⟩, htested⟩
    simpa [hop] using horder

/-- Conditions resolved fit, and test different columns, none of which was tested before. -/
theorem resolveConditions_ok {c : Catalog} {line : Nat} {drafts : List ConditionDraft} {tested : List Nat}
    {xs : List Condition} (h : resolveConditions c line tested drafts = .ok xs) :
    (∀ x ∈ xs, x.Fits c ∧ x.feature ∉ tested) ∧ (xs.map (·.feature)).Nodup := by
  induction drafts generalizing tested xs with
  | nil =>
    cases h
    exact ⟨by simp, List.nodup_nil⟩
  | cons d rest ih =>
    obtain ⟨x, hx, h⟩ := bind_eq_ok.1 h
    obtain ⟨others, hothers, h⟩ := bind_eq_ok.1 h
    cases h
    obtain ⟨hfit, hnew⟩ := ConditionDraft.resolve_ok hx
    obtain ⟨hfits, hnodup⟩ := ih hothers
    constructor
    · intro y hy
      rcases List.mem_cons.1 hy with rfl | hy
      · exact ⟨hfit, hnew⟩
      · exact ⟨(hfits y hy).1, fun ht => (hfits y hy).2 (List.mem_cons_of_mem _ ht)⟩
    · rw [List.map_cons, List.nodup_cons]
      refine ⟨fun hmem => ?_, hnodup⟩
      obtain ⟨y, hy, hxy⟩ := List.mem_map.1 hmem
      exact (hfits y hy).2 (by rw [hxy]; exact List.mem_cons_self)

/-- The rule of a draft fits the catalog that the draft was resolved against. -/
theorem RuleDraft.resolve_ok {d : RuleDraft} {c : Catalog} {line : Nat} {r : Rule} (h : d.resolve c line = .ok r) :
    r.Fits c := by
  rw [RuleDraft.resolve] at h
  cases hlabel : d.label? with
  | none =>
    rw [hlabel] at h
    cases h
  | some label =>
    simp only [hlabel] at h
    split_ifs at h with hseen
    obtain ⟨xs, hxs, h⟩ := bind_eq_ok.1 h
    cases h
    obtain ⟨hfits, hnodup⟩ := resolveConditions_ok hxs
    exact ⟨hseen, fun x hx => (hfits x hx).1, hnodup⟩

/-! ## Lists -/

namespace DecisionList

/-- A list is read from a text, or made of drafts, against a catalog. -/
inductive Accepted (c : Catalog) (l : DecisionList) : Prop where
  | read (text : String) : DecisionList.read text c = .ok l → Accepted c l
  | ofDrafts (drafts : List RuleDraft) : DecisionList.ofDrafts c drafts = .ok l → Accepted c l

/-- A list made of rules has these rules. -/
theorem ofRules_ok {rules : List (Nat × Rule)} {l : DecisionList} (h : ofRules rules = .ok l) :
    l.rules = rules.map (·.2) := by
  rw [ofRules] at h
  cases hn : ofNumbered rules with
  | error e =>
    rw [hn] at h
    cases h
  | ok l' =>
    rw [hn] at h
    cases h
    rw [ofNumbered] at hn
    split at hn
    · cases hn
    · split at hn
      · cases hn
      · split at hn
        · cases hn
          rfl
        · cases hn

/-- The rules resolved from drafts fit. -/
theorem resolveFrom_ok {c : Catalog} {drafts : List RuleDraft} {n : Nat} {rules : List (Nat × Rule)}
    (h : resolveFrom c n drafts = .ok rules) : ∀ r ∈ rules.map (·.2), r.Fits c := by
  induction drafts generalizing n rules with
  | nil =>
    cases h
    simp
  | cons d rest ih =>
    obtain ⟨r, hr, h⟩ := bind_eq_ok.1 h
    obtain ⟨others, hothers, h⟩ := bind_eq_ok.1 h
    cases h
    intro q hq
    rcases List.mem_cons.1 hq with rfl | hq
    · exact RuleDraft.resolve_ok hr
    · exact ih hothers q hq

/-- The rules read from lines fit. -/
theorem rulesOf_ok {c : Catalog} {lines : List (Nat × List Char)} {rules : List (Nat × Rule)}
    (h : RuleText.rulesOf c lines = .ok rules) : ∀ r ∈ rules.map (·.2), r.Fits c := by
  induction lines generalizing rules with
  | nil =>
    cases h
    simp
  | cons line rest ih =>
    obtain ⟨draft, -, h⟩ := bind_eq_ok.1 h
    obtain ⟨r, hr, h⟩ := bind_eq_ok.1 h
    obtain ⟨others, hothers, h⟩ := bind_eq_ok.1 h
    cases h
    intro q hq
    rcases List.mem_cons.1 hq with rfl | hq
    · exact RuleDraft.resolve_ok hr
    · exact ih hothers q hq

/-- Every rule of an accepted list fits the catalog. -/
theorem Accepted.fits {c : Catalog} {l : DecisionList} (h : l.Accepted c) : ∀ r ∈ l.rules, r.Fits c := by
  cases h with
  | read text h =>
    obtain ⟨rules, hrules, h⟩ := bind_eq_ok.1 h
    rw [ofRules_ok h]
    exact rulesOf_ok hrules
  | ofDrafts drafts h =>
    obtain ⟨rules, hrules, h⟩ := bind_eq_ok.1 h
    rw [ofRules_ok h]
    exact resolveFrom_ok hrules

/-- The rule of a list that a row belongs to holds, and none before it does. -/
theorem firstMatch_eq_some {l : DecisionList} {cell : Nat → Cell} {i : Nat} (h : l.firstMatch? cell = some i) :
    ∃ r, l.rules[i]? = some r ∧ r.holds cell = true ∧ ∀ k q, k < i → l.rules[k]? = some q → q.holds cell = false := by
  obtain ⟨hi, hholds, hfirst⟩ := List.findIdx?_eq_some_iff_getElem.1 h
  refine ⟨l.rules[i], List.getElem?_eq_getElem hi, hholds, fun k q hk hq => ?_⟩
  obtain ⟨hlt, rfl⟩ := List.getElem?_eq_some_iff.1 hq
  simpa using hfirst k hk

end DecisionList

/-! ## Refused texts -/

section Refusals

variable {c : Catalog} {s : StructuralError}

/-- Resolving a condition reports no structural error. -/
theorem ConditionDraft.resolve_ne_structural (d : ConditionDraft) (line : Nat) (tested : List Nat) :
    d.resolve c line tested ≠ .error (.structural s) := by
  rw [resolve]
  split
  · simp
  · split_ifs <;> simp

theorem resolveConditions_ne_structural (line : Nat) (tested : List Nat) (drafts : List ConditionDraft) :
    resolveConditions c line tested drafts ≠ .error (.structural s) := by
  induction drafts generalizing tested with
  | nil => simp [resolveConditions]
  | cons d rest ih =>
    intro h
    rcases bind_eq_error.1 h with h | ⟨x, -, h⟩
    · exact d.resolve_ne_structural line tested h
    · rcases bind_eq_error.1 h with h | ⟨others, -, h⟩
      · exact ih _ h
      · cases h

theorem RuleDraft.resolve_ne_structural (d : RuleDraft) (line : Nat) : d.resolve c line ≠ .error (.structural s) := by
  rw [resolve]
  split
  · simp
  · split
    · intro h
      rcases bind_eq_error.1 h with h | ⟨conditions, -, h⟩
      · exact resolveConditions_ne_structural line [] d.conditions h
      · cases h
    · simp

/-- Reading rules from lines reports no structural error. -/
theorem RuleText.rulesOf_ne_structural (lines : List (Nat × List Char)) : rulesOf c lines ≠ .error (.structural s) := by
  induction lines with
  | nil => simp [rulesOf]
  | cons line rest ih =>
    intro h
    rcases bind_eq_error.1 h with h | ⟨draft, -, h⟩
    · rw [draftOf] at h
      split at h <;> cases h
    · rcases bind_eq_error.1 h with h | ⟨r, -, h⟩
      · exact draft.resolve_ne_structural line.1 h
      · rcases bind_eq_error.1 h with h | ⟨others, -, h⟩
        · exact ih h
        · cases h

/-- A text of rules is refused for its grammar or against the catalog, but not for its graph. -/
theorem DecisionList.read_ne_structural (text : String) : DecisionList.read text c ≠ .error (.structural s) := by
  intro h
  rcases bind_eq_error.1 h with h | ⟨rules, -, h⟩
  · exact RuleText.rulesOf_ne_structural _ h
  · rw [ofRules] at h
    split at h <;> cases h

end Refusals

end FirstMatch
