import FirstMatch.Graph.Walk
import FirstMatch.Proofs.Graph.Layout

/-!
# Walks along the chains of rules

A walk that enters the chain of a rule leaves it at the rule's outcome if the cells meet the rule, and at the chain of the next
rule if they do not. So a walk through nodes that represent rules, from the root on, arrives at the label of the first rule that
holds (`walkFrom_firstHolds`).
-/

namespace FirstMatch.Graph

section Steps

variable {nodes : List Node} {cell : Nat → Cell}

/-- A walk ends at an outcome. -/
theorem walkFrom_outcome {fuel i : Nat} {n : Node} (hn : nodes[i]? = some n) (ho : n.isOutcome = true) :
    walkFrom nodes cell (fuel + 1) i = some n := by
  have hk : n.kind = .outcome := by simpa [Node.isOutcome] using ho
  simp [walkFrom, hn, hk]

/-- A walk goes on from a test to where it leads when it holds or fails. -/
theorem walkFrom_test {fuel i rule : Nat} {c : Condition} {n : Node} (hn : nodes[i]? = some n) (ht : TestOf rule c n) :
    walkFrom nodes cell (fuel + 1) i =
      (if c.meets (cell c.feature) then n.onTrue? else n.onFalse?).bind (walkFrom nodes cell fuel) := by
  have hc : Condition.mk n.feature c.op n.value = c := by rw [ht.feature_eq, ht.value_eq]
  have honward : n.onward? c.op cell = if c.meets (cell c.feature) then n.onTrue? else n.onFalse? := by
    rw [Node.onward?, hc, ht.feature_eq]
  rw [walkFrom, hn, Option.bind_some, ht.kind_eq, ← honward]

/-- At a node among the nodes there is fuel left. -/
theorem exists_fuel {fuel i : Nat} {n : Node} (hn : nodes[i]? = some n) (hfuel : nodes.length ≤ fuel + i) :
    ∃ k, fuel = k + 1 := by
  have hi := (List.getElem?_eq_some_iff.1 hn).1
  exact ⟨fuel - 1, by omega⟩

end Steps

/-! ## One chain -/

section Chain

variable {nodes : List Node} {cell : Nat → Cell} (ascending : ∀ i j, Edge nodes i j → i < j)

include ascending

/-- Cells that meet the conditions of a chain walk to its outcome. -/
theorem walkFrom_of_meets {rule : Nat} {next? : Option Nat} {label : Value} {cs : List Condition} {fuel i : Nat}
    (h : Chained nodes rule next? label cs i) (hcs : ∀ c ∈ cs, c.meets (cell c.feature) = true)
    (hfuel : nodes.length ≤ fuel + i) : ∃ n, walkFrom nodes cell fuel i = some n ∧ n.predicts label = true := by
  induction cs generalizing fuel i with
  | nil =>
    obtain ⟨n, hn, hp⟩ := h
    obtain ⟨fuel, rfl⟩ := exists_fuel hn hfuel
    exact ⟨n, walkFrom_outcome hn (Bool.and_eq_true_iff.1 hp).1, hp⟩
  | cons c rest ih =>
    obtain ⟨n, j, hn, ht, -, hj, hrest⟩ := h
    obtain ⟨fuel, rfl⟩ := exists_fuel hn hfuel
    have hlt := ascending i j (edge_iff.2 ⟨n, hn, Or.inl hj⟩)
    rw [walkFrom_test hn ht, if_pos (hcs c List.mem_cons_self), hj, Option.bind_some]
    exact ih hrest (fun d hd => hcs d (List.mem_cons_of_mem c hd)) (by omega)

/-- Cells that miss a condition of a chain walk to where its tests fail to. -/
theorem walkFrom_of_misses {rule next : Nat} {label : Value} {cs : List Condition} {fuel i : Nat}
    (h : Chained nodes rule (some next) label cs i) (hcs : ∃ c ∈ cs, c.meets (cell c.feature) = false)
    (hfuel : nodes.length ≤ fuel + i) :
    ∃ fuel', nodes.length ≤ fuel' + next ∧ walkFrom nodes cell fuel i = walkFrom nodes cell fuel' next := by
  induction cs generalizing fuel i with
  | nil => simp at hcs
  | cons c rest ih =>
    obtain ⟨n, j, hn, ht, hf, hj, hrest⟩ := h
    obtain ⟨fuel, rfl⟩ := exists_fuel hn hfuel
    rw [walkFrom_test hn ht]
    cases hm : c.meets (cell c.feature) with
    | true =>
      have hlt := ascending i j (edge_iff.2 ⟨n, hn, Or.inl hj⟩)
      have hrest' : ∃ d ∈ rest, d.meets (cell d.feature) = false := by
        obtain ⟨d, hd, hfail⟩ := hcs
        rcases List.mem_cons.1 hd with rfl | hd
        · rw [hm] at hfail
          cases hfail
        · exact ⟨d, hd, hfail⟩
      rw [if_pos rfl, hj, Option.bind_some]
      exact ih hrest hrest' (by omega)
    | false =>
      have hlt := ascending i next (edge_iff.2 ⟨n, hn, Or.inr hf⟩)
      refine ⟨fuel, by omega, ?_⟩
      rw [if_neg (by simp), hf, Option.bind_some]

end Chain

/-! ## All chains -/

section Chains

variable {order : List Nat} {rules : List Rule} {nodes : List Node} {heads : List Nat}

/-- From the chain of a rule on, a walk arrives at the label of the first rule from there that holds. -/
theorem Represents.walkFrom_head (h : Represents order rules nodes heads) (covered : Covers order rules)
    (once : ∀ r ∈ rules, (r.conditions.map (·.feature)).Nodup) {cell : Nat → Cell} {m : Nat} {r : Rule}
    (hr : rules[m]? = some r) (hholds : r.holds cell = true)
    (hfirst : ∀ k q, k < m → rules[k]? = some q → q.holds cell = false) (d : Nat) :
    ∀ k i fuel, k + d = m → heads[k]? = some i → nodes.length ≤ fuel + i →
      ∃ n, walkFrom nodes cell fuel i = some n ∧ n.predicts r.label = true := by
  induction d with
  | zero =>
    intro k i fuel hk hi hfuel
    obtain rfl : k = m := hk
    refine walkFrom_of_meets h.ascending (h.chained k r i hr hi) (fun c hc => ?_) hfuel
    have hmem := List.mem_of_getElem? hr
    exact List.all_eq_true.1 hholds c ((mem_ordered covered hmem (once r hmem)).1 hc)
  | succ d ih =>
    intro k i fuel hk hi hfuel
    have hm := (List.getElem?_eq_some_iff.1 hr).1
    obtain ⟨q, hq⟩ : ∃ q, rules[k]? = some q := ⟨_, List.getElem?_eq_getElem (by omega)⟩
    obtain ⟨j, hj⟩ : ∃ j, heads[k + 1]? = some j := ⟨_, List.getElem?_eq_getElem (by rw [h.heads_length]; omega)⟩
    have hc := h.chained k q i hq hi
    rw [hj] at hc
    have hmem := List.mem_of_getElem? hq
    have hmisses : ∃ c ∈ ordered order q, c.meets (cell c.feature) = false := by
      obtain ⟨c, hc, hfail⟩ := List.all_eq_false.1 (hfirst k q (by omega) hq)
      exact ⟨c, (mem_ordered covered hmem (once q hmem)).2 hc, by simpa using hfail⟩
    obtain ⟨fuel', hfuel', heq⟩ := walkFrom_of_misses h.ascending hc hmisses hfuel
    rw [heq]
    exact ih (k + 1) j fuel' (by omega) hj hfuel'

/-- From the root on, a walk arrives at the label of the first rule that holds. -/
theorem Represents.walkFrom_firstHolds (h : Represents order rules nodes heads) (covered : Covers order rules)
    (once : ∀ r ∈ rules, (r.conditions.map (·.feature)).Nodup) {cell : Nat → Cell} {m : Nat} {r : Rule}
    (hr : rules[m]? = some r) (hholds : r.holds cell = true)
    (hfirst : ∀ k q, k < m → rules[k]? = some q → q.holds cell = false) :
    ∃ n, walkFrom nodes cell nodes.length 0 = some n ∧ n.predicts r.label = true :=
  h.walkFrom_head covered once hr hholds hfirst m 0 0 nodes.length (Nat.zero_add m) h.root (Nat.le_refl _)

end Chains

end FirstMatch.Graph
