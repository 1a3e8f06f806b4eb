import FirstMatch.Proofs.Graph.Walk
import FirstMatch.Proofs.Ranking

/-!
# The meaning of a compiled graph

A decision list is tried rule by rule, its graph is walked test by test, and both predict the same label for every row.
-/

namespace FirstMatch.DecisionList

open FirstMatch.Graph

/-- A compiled graph means the same as its list, in two parts.
1. The ranked columns of an accepted list are an order without repeats that covers its rules.
2. In every such order, and against any catalog, the list compiles, and the cells of every row walk the graph from the root to an
   outcome, which predicts the label of the first rule that matches them. -/
theorem walk_compile_eq_firstMatch {c : Catalog} {l : DecisionList} (accepted : l.Accepted c) :
    (((l.ranking c).map (·.feature)).Nodup ∧ Covers ((l.ranking c).map (·.feature)) l.rules) ∧
    ∀ (c' : Catalog) (order : List Nat), order.Nodup → Covers order l.rules →
      ∃ g, l.compile c' order = .ok g ∧ ∀ cell : Nat → Cell, ∃ i r n,
        l.firstMatch? cell = some i ∧ l.rules[i]? = some r ∧
          g.walk cell = some n ∧ n.isOutcome = true ∧ (n.value == r.label) = true := by
  refine ⟨⟨accepted.nodup_ranking, l.covers_ranking c⟩, fun c' order horder covered => ?_⟩
  have fits := accepted.fits
  obtain ⟨nodes, heads, hcompile, hnodes⟩ := compile_represents l.ends horder covered (labels_beq_self fits) c'
  refine ⟨ofNodes nodes, hcompile, fun cell => ?_⟩
  obtain ⟨i, hi, -⟩ := l.exists_firstMatch cell
  obtain ⟨r, hr, hholds, hfirst⟩ := firstMatch_eq_some hi
  obtain ⟨n, hn, hp⟩ := hnodes.walkFrom_firstHolds covered (fun q hq => (fits q hq).distinct) hr hholds hfirst
  obtain ⟨ho, hv⟩ := Bool.and_eq_true_iff.1 hp
  exact ⟨i, r, n, hi, hr, hn, ho, hv⟩

/-- Two columns to test, and a label: whether to play. -/
def weather : Catalog where
  features := [⟨"outlook", false, [.text "sunny", .text "rain"], false, none, none⟩,
    ⟨"wind", false, [.text "weak", .text "strong"], false, none, none⟩,
    ⟨"play", true, [.text "yes", .text "no"], false, none, none⟩]
  label := 2
  label_lt := by decide

/-- The drafts of two rules and a default rule about the weather. -/
def weatherDrafts : List RuleDraft :=
  [⟨[⟨"wind", .eq, .text "strong"⟩, ⟨"outlook", .ne, .text "sunny"⟩], some (.text "no"), ⟨3, 1⟩⟩,
    ⟨[⟨"outlook", .eq, .text "rain"⟩], some (.text "yes"), ⟨2, 2⟩⟩, ⟨[], some (.text "yes"), ⟨5, 0⟩⟩]

/-- Whatever the weather, the walk through the graph of its rules ends in the label of the first match. -/
theorem walk_compile_weather : ∃ l, ofDrafts weather weatherDrafts = .ok l ∧ [0, 1].Nodup ∧ Covers [0, 1] l.rules ∧
    ∃ g, l.compile weather [0, 1] = .ok g ∧ ∀ cell : Nat → Cell, ∃ i r n,
      l.firstMatch? cell = some i ∧ l.rules[i]? = some r ∧
        g.walk cell = some n ∧ n.isOutcome = true ∧ (n.value == r.label) = true := by
  obtain ⟨l, hl, horder, hcovers⟩ : ∃ l, ofDrafts weather weatherDrafts = .ok l ∧ [0, 1].Nodup ∧ Covers [0, 1] l.rules :=
    ⟨_, rfl, by decide, by decide⟩
  exact ⟨l, hl, horder, hcovers, (walk_compile_eq_firstMatch (.ofDrafts weatherDrafts hl)).2 weather [0, 1] horder hcovers⟩

end FirstMatch.DecisionList
