import FirstMatch.Proofs.DecisionList
import FirstMatch.Proofs.Graph.Chain
import FirstMatch.Ranking

/-!
# The ranked columns

The ranking of a list holds each column that a rule tests once, and the label, which no rule of an accepted list tests. So its
columns are an order without repeats that covers the rules (`DecisionList.Accepted.nodup_ranking`, `covers_ranking`).
-/

namespace FirstMatch.Ranking

/-- The columns of ranked features. -/
def columns (ranked : List RankedFeature) : List Nat := ranked.map (·.feature)

/-- Crediting a column adds it unless it is there. -/
theorem columns_credit (c : Catalog) (strength : Float) (ranked : List RankedFeature) (f : Nat) :
    columns (credit c strength ranked f) = if f ∈ columns ranked then columns ranked else columns ranked ++ [f] := by
  have hany : ranked.any (·.feature = f) = true ↔ f ∈ columns ranked := by
    simp [columns]
  unfold credit
  by_cases h : f ∈ columns ranked
  · rw [if_pos (hany.2 h), if_pos h, columns, List.map_map]
    refine List.map_congr_left fun r _ => ?_
    simp only [Function.comp_apply]
    split <;> rfl
  · rw [if_neg (mt hany.1 h), if_neg h]
    simp [columns]

theorem mem_columns_credit {c : Catalog} {strength : Float} {ranked : List RankedFeature} {f g : Nat} :
    g ∈ columns (credit c strength ranked f) ↔ g ∈ columns ranked ∨ g = f := by
  rw [columns_credit]
  split
  · next h => exact ⟨Or.inl, fun hg => hg.elim id fun he => he ▸ h⟩
  · simp

/-- Crediting a column adds none twice. -/
theorem nodup_columns_credit {c : Catalog} {strength : Float} {ranked : List RankedFeature} {f : Nat}
    (h : (columns ranked).Nodup) : (columns (credit c strength ranked f)).Nodup := by
  rw [columns_credit]
  split
  · exact h
  · next hf =>
    refine List.nodup_append.2 ⟨h, List.nodup_singleton f, fun a ha b hb hab => hf ?_⟩
    rwa [← List.mem_singleton.1 hb, ← hab]

/-! ## Rules -/

/-- A rule adds the columns it tests. -/
theorem mem_columns_creditRule {c : Catalog} {r : Rule} {ranked : List RankedFeature} {g : Nat} :
    g ∈ columns (creditRule c ranked r) ↔ g ∈ columns ranked ∨ g ∈ r.conditions.map (·.feature) := by
  unfold creditRule
  induction r.conditions.map (·.feature) generalizing ranked with
  | nil => simp
  | cons f rest ih => rw [List.foldl_cons, ih, mem_columns_credit, List.mem_cons, or_assoc]

theorem nodup_columns_creditRule {c : Catalog} {r : Rule} {ranked : List RankedFeature} (h : (columns ranked).Nodup) :
    (columns (creditRule c ranked r)).Nodup := by
  unfold creditRule
  induction r.conditions.map (·.feature) generalizing ranked with
  | nil => exact h
  | cons f rest ih => exact ih (nodup_columns_credit h)

/-- The columns tested are those of the conditions of the rules. -/
theorem mem_columns_tested {l : DecisionList} {c : Catalog} {g : Nat} :
    g ∈ columns (tested l c) ↔ ∃ r ∈ l.rules, g ∈ r.conditions.map (·.feature) := by
  have hfold : ∀ (rules : List Rule) (ranked : List RankedFeature), g ∈ columns (rules.foldl (creditRule c) ranked) ↔
      g ∈ columns ranked ∨ ∃ r ∈ rules, g ∈ r.conditions.map (·.feature) := by
    intro rules
    induction rules with
    | nil => simp
    | cons r rest ih =>
      intro ranked
      rw [List.foldl_cons, ih, mem_columns_creditRule, or_assoc, List.exists_mem_cons_iff]
  rw [tested, hfold]
  simp [columns]

/-- No column tested is ranked twice. -/
theorem nodup_columns_tested (l : DecisionList) (c : Catalog) : (columns (tested l c)).Nodup := by
  have hfold : ∀ (rules : List Rule) (ranked : List RankedFeature), (columns ranked).Nodup →
      (columns (rules.foldl (creditRule c) ranked)).Nodup := by
    intro rules
    induction rules with
    | nil => exact fun ranked h => h
    | cons r rest ih => exact fun ranked h => ih _ (nodup_columns_creditRule h)
  exact hfold l.rules [] List.nodup_nil

end FirstMatch.Ranking

namespace FirstMatch.DecisionList

open Ranking

/-- The ranked columns are those tested, in some order, and the label. -/
theorem perm_columns_ranking (l : DecisionList) (c : Catalog) :
    (columns (l.ranking c)).Perm (columns (tested l c) ++ [c.label]) := by
  unfold ranking
  rw [columns, List.map_append]
  exact ((List.mergeSort_perm (tested l c) precedes).map _).append_right _

/-- The ranked columns cover the rules. -/
theorem covers_ranking (l : DecisionList) (c : Catalog) : Graph.Covers (columns (l.ranking c)) l.rules := by
  intro r hr x hx
  refine (perm_columns_ranking l c).mem_iff.2 (List.mem_append_left _ ?_)
  exact mem_columns_tested.2 ⟨r, hr, List.mem_map_of_mem hx⟩

/-- The ranked columns of an accepted list do not repeat. -/
theorem Accepted.nodup_ranking {l : DecisionList} {c : Catalog} (h : l.Accepted c) : (columns (l.ranking c)).Nodup := by
  refine (perm_columns_ranking l c).nodup_iff.2 (List.nodup_append.2 ⟨nodup_columns_tested l c, List.nodup_singleton _, ?_⟩)
  intro f hf g hg
  obtain ⟨r, hr, hmem⟩ := mem_columns_tested.1 hf
  obtain ⟨x, hx, rfl⟩ := List.mem_map.1 hmem
  rw [List.mem_singleton.1 hg]
  exact ((h.fits r hr).conditions_fit x hx).ne_label

end FirstMatch.DecisionList
