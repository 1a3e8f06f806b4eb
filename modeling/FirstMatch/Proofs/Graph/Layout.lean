import FirstMatch.Proofs.Graph.Chain

/-!
# The graph of all rules

Statements about `build` and `compile` in an order of columns without repeats that covers the rules. `Laid` is what the nodes
satisfy after the chains of some rules; adding one more chain keeps it (`Laid.snoc`), so it holds when every chain is built
(`build_laid`). It leaves no cycle, and no edge into the first node, so the nodes can be sorted and the first rule stays in front
(`compile_represents`).
-/

namespace FirstMatch.Graph

/-- The most nodes that the chains of some rules take. -/
def room (order : List Nat) (rules : List Rule) : Nat := (rules.map fun r => (ordered order r).length + 1).sum

theorem room_append (order : List Nat) (rules rest : List Rule) :
    room order (rules ++ rest) = room order rules + room order rest := by
  simp [room]

theorem room_cons (order : List Nat) (r : Rule) (rest : List Rule) :
    room order (r :: rest) = (ordered order r).length + 1 + room order rest := by
  simp [room]

/-- The bound on the nodes leaves room for every chain. -/
theorem room_le_bound (order : List Nat) (rules : List Rule) : room order rules ≤ bound rules order := by
  unfold bound
  induction rules with
  | nil => simp [room]
  | cons r rest ih =>
    have hr := length_ordered_le order r
    rw [room_cons, List.length_cons, Nat.succ_mul]
    omega

/-! ## Linking failures -/

/-- The nodes visited fail to the target, and all others stay as they are. -/
theorem getElem?_linkFailures (nodes : List Node) (visited : List Nat) (target i : Nat) :
    (linkFailures nodes visited target)[i]? =
      (nodes[i]?).map fun n => if i ∈ visited then { n with onFalse? := some target } else n := by
  unfold linkFailures
  induction visited generalizing nodes with
  | nil => simp
  | cons j visited ih =>
    rw [List.foldl_cons, ih, List.getElem?_modify, Option.map_eq_map, Option.map_map]
    congr 1
    funext n
    by_cases hj : j = i
    · subst hj
      by_cases hm : j ∈ visited <;> simp [hm]
    · simp [hj, Ne.symm hj]

theorem length_linkFailures (nodes : List Node) (visited : List Nat) (target : Nat) :
    (linkFailures nodes visited target).length = nodes.length := by
  unfold linkFailures
  induction visited generalizing nodes with
  | nil => rfl
  | cons j visited ih => rw [List.foldl_cons, ih, List.length_modify]

/-! ## Ranks along edges -/

/-- Outcomes lead nowhere, and every other edge leads to an outcome or to a node of higher rank. -/
structure Onward (rank : Nat → Nat) (nodes : List Node) : Prop where
  outcome_leaf : ∀ n ∈ nodes, n.isOutcome = true → n.onTrue? = none ∧ n.onFalse? = none
  forward : ∀ i j, Edge nodes i j → ∃ m, nodes[j]? = some m ∧ (m.isOutcome = true ∨ rank i < rank j)

namespace Onward

variable {rank : Nat → Nat} {nodes : List Node}

/-- A node that an edge leaves is no outcome. -/
theorem isOutcome_of_edge (h : Onward rank nodes) {i j : Nat} (he : Edge nodes i j) {n : Node}
    (hn : nodes[i]? = some n) : n.isOutcome = false := by
  obtain ⟨m, hm, hj⟩ := edge_iff.1 he
  obtain rfl := Option.some.inj (hn.symm.trans hm)
  cases ho : n.isOutcome with
  | false => rfl
  | true =>
    obtain ⟨h1, h2⟩ := h.outcome_leaf n (List.mem_of_getElem? hn) ho
    simp [h1, h2] at hj

/-- A way along edges leads to an outcome or to a higher rank. -/
theorem forward_of_transGen (h : Onward rank nodes) {i j : Nat} (hij : Relation.TransGen (Edge nodes) i j) :
    ∃ m, nodes[j]? = some m ∧ (m.isOutcome = true ∨ rank i < rank j) := by
  induction hij with
  | single he => exact h.forward i _ he
  | tail _ he ih =>
    obtain ⟨m, hm, hlt⟩ := ih
    obtain ⟨n, hn, hlt'⟩ := h.forward _ _ he
    have hi := hlt.resolve_left (by simp [h.isOutcome_of_edge he hm])
    exact ⟨n, hn, hlt'.imp_right fun hj => Nat.lt_trans hi hj⟩

/-- Edges lead to nodes if they lead onward. -/
theorem closed (h : Onward rank nodes) : Closed nodes := by
  intro i j he
  obtain ⟨m, hm, -⟩ := h.forward i j he
  exact (List.getElem?_eq_some_iff.1 hm).1

/-- No way leads back if every edge leads onward. -/
theorem acyclic (h : Onward rank nodes) : Acyclic nodes := by
  intro i hi
  obtain ⟨m, hm, hlt⟩ := h.forward_of_transGen hi
  obtain ⟨j, he, -⟩ := Relation.TransGen.head'_iff.1 hi
  rw [h.isOutcome_of_edge he hm] at hlt
  simp at hlt

end Onward

/-! ## The invariant -/

/-- The chains of some rules stand in the nodes, and begin at `heads`. The tests of a rule fail to where the next chain begins;
those of the last rule are `waiting` for that. Outcomes lead nowhere, and every other edge leads to an outcome or onward. -/
structure Laid (order : List Nat) (rules : List Rule) (nodes : List Node) (waiting heads : List Nat) : Prop where
  size : nodes.length ≤ room order rules
  heads_length : heads.length = rules.length
  chained : ∀ k r h, rules[k]? = some r → heads[k]? = some h → Chained nodes k heads[k + 1]? r.label (ordered order r) h
  waiting_iff : ∀ i, i ∈ waiting ↔ ∃ n, nodes[i]? = some n ∧ n.isOutcome = false ∧ n.rule + 1 = rules.length
  rule_lt : ∀ n ∈ nodes, n.isOutcome = false → n.rule < rules.length
  outcome_leaf : ∀ n ∈ nodes, n.isOutcome = true → n.onTrue? = none ∧ n.onFalse? = none
  forward : ∀ i j, Edge nodes i j → ∃ m, nodes[j]? = some m ∧ (m.isOutcome = true ∨ i < j)
  root : heads = [] ∨ heads[0]? = some 0

theorem laid_nil (order : List Nat) : Laid order [] [] [] [] where
  size := Nat.le_refl _
  heads_length := rfl
  chained := by simp
  waiting_iff := by simp
  rule_lt := by simp
  outcome_leaf := by simp
  forward i j h := by simp [Edge, childrenAt] at h
  root := Or.inl rfl

/-- The nodes after the chain of one more rule, to which the waiting tests now fail. -/
def withNext (labelColumn : Nat) (order : List Nat) (rules : List Rule) (nodes : List Node) (waiting : List Nat) (r : Rule) :
    List Node :=
  linkFailures (withChain labelColumn order nodes rules.length r) waiting (headPlace order nodes r)

/-- An old node fails to the next chain if it waits, and is otherwise as it was. -/
theorem getElem?_withNext_old {labelColumn : Nat} {order : List Nat} {rules : List Rule} {nodes : List Node}
    {waiting : List Nat} {r : Rule} {i : Nat} {n : Node} (hn : nodes[i]? = some n) :
    (withNext labelColumn order rules nodes waiting r)[i]? =
      some (if i ∈ waiting then { n with onFalse? := some (headPlace order nodes r) } else n) := by
  rw [withNext, getElem?_linkFailures, getElem?_withChain_of_lt (List.getElem?_eq_some_iff.1 hn).1, hn, Option.map_some]

namespace Laid

variable {order : List Nat} {rules : List Rule} {nodes : List Node} {waiting heads : List Nat}

theorem waiting_lt (h : Laid order rules nodes waiting heads) {i : Nat} (hi : i ∈ waiting) : i < nodes.length := by
  obtain ⟨n, hn, -⟩ := (h.waiting_iff i).1 hi
  exact (List.getElem?_eq_some_iff.1 hn).1

/-- An outcome does not wait. -/
theorem not_mem_waiting (h : Laid order rules nodes waiting heads) {i : Nat} {n : Node} (hn : nodes[i]? = some n)
    (ho : n.isOutcome = true) : i ∉ waiting := by
  intro hm
  obtain ⟨m, hm, hf, -⟩ := (h.waiting_iff i).1 hm
  obtain rfl := Option.some.inj (hn.symm.trans hm)
  rw [ho] at hf
  cases hf

/-! ## One more chain -/

section Next

variable {labelColumn : Nat} {r : Rule}

/-- The nodes of the next chain stand as they were made. -/
theorem getElem?_withNext_new (h : Laid order rules nodes waiting heads) {i : Nat} {n : Node} (hi : nodes.length ≤ i)
    (hn : (withChain labelColumn order nodes rules.length r)[i]? = some n) :
    (withNext labelColumn order rules nodes waiting r)[i]? = some n := by
  have hw : i ∉ waiting := fun hm => absurd (h.waiting_lt hm) (by omega)
  rw [withNext, getElem?_linkFailures, hn, Option.map_some, if_neg hw]

/-- A node is an old one, perhaps with a place to fail to, one in the row of tests, or a new outcome. -/
theorem withNext_cases (h : Laid order rules nodes waiting heads) {i : Nat} {n : Node}
    (hn : (withNext labelColumn order rules nodes waiting r)[i]? = some n) :
    (∃ m, nodes[i]? = some m ∧ n = if i ∈ waiting then { m with onFalse? := some (headPlace order nodes r) } else m) ∨
      (∃ j, i = nodes.length + j ∧ (testNodes rules.length (some (outcomePlace nodes (ordered order r).length r.label))
        nodes.length (ordered order r))[j]? = some n) ∨
      (i = outcomePlace nodes (ordered order r).length r.label ∧ n.rule = rules.length ∧ n.isOutcome = true ∧
        n.onTrue? = none ∧ n.onFalse? = none) := by
  rw [withNext, getElem?_linkFailures, Option.map_eq_some_iff] at hn
  obtain ⟨m, hm, rfl⟩ := hn
  rcases withChain_cases hm with hm | ⟨j, rfl, hj⟩ | ⟨hi, hm⟩
  · exact Or.inl ⟨m, hm, rfl⟩
  · have hw : nodes.length + j ∉ waiting := fun hm => absurd (h.waiting_lt hm) (by omega)
    rw [if_neg hw]
    exact Or.inr (Or.inl ⟨j, rfl, hj⟩)
  · have hw : i ∉ waiting := fun hm => absurd (h.waiting_lt hm) (by omega)
    rw [if_neg hw]
    exact Or.inr (Or.inr hm)

/-- The next chain ends in an outcome of its label. -/
theorem withNext_outcome (labelColumn : Nat) (h : Laid order rules nodes waiting heads) (hlabel : (r.label == r.label) = true) :
    ∃ n, (withNext labelColumn order rules nodes waiting r)[outcomePlace nodes (ordered order r).length r.label]? = some n ∧
      n.predicts r.label = true := by
  obtain ⟨n, hn, hp⟩ : ∃ n, (withChain labelColumn order nodes rules.length r)[outcomePlace nodes (ordered order r).length
      r.label]? = some n ∧ n.predicts r.label = true := getElem?_withChain_outcome hlabel
  refine ⟨n, ?_, hp⟩
  by_cases hi : outcomePlace nodes (ordered order r).length r.label < nodes.length
  · rw [getElem?_withChain_of_lt hi] at hn
    rw [getElem?_withNext_old hn, if_neg (h.not_mem_waiting hn (Bool.and_eq_true_iff.1 hp).1)]
  · exact h.getElem?_withNext_new (by omega) hn

/-- The chain of the rule stands in the nodes. -/
theorem chained_withNext_new (h : Laid order rules nodes waiting heads) (hlabel : (r.label == r.label) = true) :
    Chained (withNext labelColumn order rules nodes waiting r) rules.length none r.label (ordered order r)
      (headPlace order nodes r) :=
  chained_testNodes (h.withNext_outcome labelColumn hlabel) fun i _ hn =>
    h.getElem?_withNext_new (Nat.le_add_right _ i) (getElem?_withChain_test hn)

/-- The chains before still stand, the last one with a place to fail to. -/
theorem chained_withNext_old (h : Laid order rules nodes waiting heads) {k i : Nat} {q : Rule} (hk : k < rules.length)
    (hc : Chained nodes k heads[k + 1]? q.label (ordered order q) i) :
    Chained (withNext labelColumn order rules nodes waiting r) k (heads ++ [headPlace order nodes r])[k + 1]? q.label
      (ordered order q) i := by
  refine hc.mono (fun i n hn ho => ?_) fun i n hn ho hrule hf => ?_
  · rw [getElem?_withNext_old hn, if_neg (h.not_mem_waiting hn ho)]
  · have hw : i ∈ waiting ↔ k + 1 = rules.length := by
      rw [h.waiting_iff]
      constructor
      · rintro ⟨m, hm, -, he⟩
        obtain rfl := Option.some.inj (hn.symm.trans hm)
        rwa [hrule] at he
      · exact fun he => ⟨n, hn, ho, by rwa [hrule]⟩
    rw [getElem?_withNext_old hn]
    by_cases he : k + 1 = rules.length
    · rw [if_pos (hw.2 he), he, ← h.heads_length, List.getElem?_concat_length]
    · rw [if_neg fun hm => he (hw.1 hm), List.getElem?_append_left (by rw [h.heads_length]; omega), ← hf]

/-- Every edge still leads to an outcome or onward. -/
theorem forward_withNext (h : Laid order rules nodes waiting heads) (hlabel : (r.label == r.label) = true) {i j : Nat}
    (he : Edge (withNext labelColumn order rules nodes waiting r) i j) :
    ∃ m, (withNext labelColumn order rules nodes waiting r)[j]? = some m ∧ (m.isOutcome = true ∨ i < j) := by
  have hold : ∀ j, (∃ m, nodes[j]? = some m ∧ (m.isOutcome = true ∨ i < j)) →
      ∃ m, (withNext labelColumn order rules nodes waiting r)[j]? = some m ∧ (m.isOutcome = true ∨ i < j) := by
    rintro j ⟨m, hm, hlt⟩
    refine ⟨_, getElem?_withNext_old hm, ?_⟩
    split
    · exact hlt
    · exact hlt
  have hrow : ∀ t, t < (ordered order r).length →
      ∃ m, (withNext labelColumn order rules nodes waiting r)[nodes.length + t]? = some m := by
    intro t ht
    obtain ⟨m, hm⟩ : ∃ m, (testNodes rules.length (some (outcomePlace nodes (ordered order r).length r.label))
        nodes.length (ordered order r))[t]? = some m := ⟨_, List.getElem?_eq_getElem (by simpa using ht)⟩
    exact ⟨m, h.getElem?_withNext_new (by omega) (getElem?_withChain_test hm)⟩
  obtain ⟨o, ho, hp⟩ := h.withNext_outcome labelColumn hlabel
  have hout : o.isOutcome = true := (Bool.and_eq_true_iff.1 hp).1
  obtain ⟨n, hn, hj⟩ := edge_iff.1 he
  rcases h.withNext_cases hn with ⟨m, hm, rfl⟩ | ⟨t, rfl, ht⟩ | ⟨-, -, -, h1, h2⟩
  · have hi := (List.getElem?_eq_some_iff.1 hm).1
    by_cases hw : i ∈ waiting
    · rw [if_pos hw] at hj
      rcases hj with hj | hj
      · exact hold j (h.forward i j (edge_iff.2 ⟨m, hm, Or.inl hj⟩))
      · obtain rfl := Option.some.inj hj
        unfold headPlace
        cases hcs : (ordered order r).isEmpty with
        | true => exact ⟨o, ho, Or.inl hout⟩
        | false =>
          obtain ⟨m', hm'⟩ := hrow 0 (by simpa [List.length_pos_iff] using hcs)
          exact ⟨m', hm', Or.inr hi⟩
    · rw [if_neg hw] at hj
      exact hold j (h.forward i j (edge_iff.2 ⟨m, hm, hj⟩))
  · obtain ⟨hf, hto⟩ := edges_testNodes ht
    have htl : t < (ordered order r).length := by simpa using (List.getElem?_eq_some_iff.1 ht).1
    rw [hf, hto] at hj
    split at hj
    · obtain rfl : outcomePlace nodes (ordered order r).length r.label = j := by simpa using hj
      exact ⟨o, ho, Or.inl hout⟩
    · obtain rfl : nodes.length + t + 1 = j := by simpa using hj
      obtain ⟨m, hm⟩ := hrow (t + 1) (by omega)
      exact ⟨m, hm, Or.inr (by omega)⟩
  · rw [h1, h2] at hj
    simp at hj

/-- The tests for the rule are those of its row. -/
theorem mem_row_iff (labelColumn : Nat) (r : Rule) (h : Laid order rules nodes waiting heads) (i : Nat) :
    i ∈ List.range' nodes.length (ordered order r).length ↔
      ∃ n, (withNext labelColumn order rules nodes waiting r)[i]? = some n ∧ n.isOutcome = false ∧ n.rule = rules.length := by
  rw [List.mem_range'_1]
  constructor
  · rintro ⟨hle, hlt⟩
    obtain ⟨j, rfl⟩ : ∃ j, i = nodes.length + j := ⟨i - nodes.length, by omega⟩
    obtain ⟨n, hn⟩ : ∃ n, (testNodes rules.length (some (outcomePlace nodes (ordered order r).length r.label))
      nodes.length (ordered order r))[j]? = some n := ⟨_, List.getElem?_eq_getElem (by simp; omega)⟩
    obtain ⟨h1, h2, -⟩ := mem_testNodes (List.mem_of_getElem? hn)
    exact ⟨n, h.getElem?_withNext_new hle (getElem?_withChain_test hn), h1, h2⟩
  · rintro ⟨n, hn, ho, hrule⟩
    rcases h.withNext_cases hn with ⟨m, hm, rfl⟩ | ⟨j, rfl, hj⟩ | ⟨-, -, hout, -⟩
    · have hlt := h.rule_lt m (List.mem_of_getElem? hm) (by split at ho <;> exact ho)
      have hm : m.rule = rules.length := by split at hrule <;> exact hrule
      omega
    · have hlt := (List.getElem?_eq_some_iff.1 hj).1
      rw [length_testNodes] at hlt
      omega
    · rw [hout] at ho
      cases ho

/-- The tests are those of the rules so far and of the next. -/
theorem rule_le_withNext (h : Laid order rules nodes waiting heads) {n : Node}
    (hn : n ∈ withNext labelColumn order rules nodes waiting r) (ho : n.isOutcome = false) : n.rule ≤ rules.length := by
  obtain ⟨i, hi⟩ := List.getElem?_of_mem hn
  rcases h.withNext_cases hi with ⟨m, hm, rfl⟩ | ⟨j, -, hj⟩ | ⟨-, -, hout, -⟩
  · have hlt := h.rule_lt m (List.mem_of_getElem? hm) (by split at ho <;> exact ho)
    split <;> exact Nat.le_of_lt hlt
  · exact Nat.le_of_eq (mem_testNodes (List.mem_of_getElem? hj)).2.1
  · rw [hout] at ho
    cases ho

/-- Outcomes still lead nowhere after the next chain. -/
theorem leaf_withNext (h : Laid order rules nodes waiting heads) {n : Node}
    (hn : n ∈ withNext labelColumn order rules nodes waiting r) (ho : n.isOutcome = true) :
    n.onTrue? = none ∧ n.onFalse? = none := by
  obtain ⟨i, hi⟩ := List.getElem?_of_mem hn
  rcases h.withNext_cases hi with ⟨m, hm, rfl⟩ | ⟨j, -, hj⟩ | ⟨-, -, -, hleaf⟩
  · have hom : m.isOutcome = true := by split at ho <;> exact ho
    rw [if_neg (h.not_mem_waiting hm hom)]
    exact h.outcome_leaf m (List.mem_of_getElem? hm) hom
  · rw [(mem_testNodes (List.mem_of_getElem? hj)).1] at ho
    cases ho
  · exact hleaf

/-- After the next chain the first still begins at the first node. -/
theorem root_withNext (h : Laid order rules nodes waiting heads) : (heads ++ [headPlace order nodes r])[0]? = some 0 := by
  cases hheads : heads with
  | nil =>
    have hrules : rules = [] := List.eq_nil_of_length_eq_zero (by rw [← h.heads_length, hheads]; rfl)
    have hsize := h.size
    rw [hrules] at hsize
    obtain rfl : nodes = [] := List.eq_nil_of_length_eq_zero (Nat.le_zero.1 hsize)
    cases hcs : ordered order r <;> simp [headPlace, outcomePlace, hcs]
  | cons i rest =>
    have hroot := h.root.resolve_left (by simp [hheads])
    rw [hheads] at hroot
    exact hroot

/-- The chain of one more rule can be laid after the others. -/
theorem snoc (labelColumn : Nat) (h : Laid order rules nodes waiting heads) (hlabel : (r.label == r.label) = true) :
    Laid order (rules ++ [r]) (withNext labelColumn order rules nodes waiting r)
      (List.range' nodes.length (ordered order r).length) (heads ++ [headPlace order nodes r]) where
  size := by
    have h1 := h.size
    have h2 : (withChain labelColumn order nodes rules.length r).length ≤ _ := length_withChain_le
    rw [withNext, length_linkFailures, room_append, room_cons]
    omega
  heads_length := by simp [h.heads_length]
  chained := by
    intro k q i hq hi
    by_cases hk : k < rules.length
    · rw [List.getElem?_append_left hk] at hq
      rw [List.getElem?_append_left (by rwa [h.heads_length])] at hi
      exact h.chained_withNext_old hk (h.chained k q i hq hi)
    · obtain rfl : k = rules.length := by
        have hlt := (List.getElem?_eq_some_iff.1 hq).1
        rw [List.length_append, List.length_singleton] at hlt
        omega
      rw [List.getElem?_concat_length, Option.some.injEq] at hq
      rw [← h.heads_length, List.getElem?_concat_length, Option.some.injEq] at hi
      subst hq hi
      rw [List.getElem?_eq_none (by simp [h.heads_length])]
      exact h.chained_withNext_new hlabel
  waiting_iff i := by
    rw [h.mem_row_iff labelColumn, List.length_append, List.length_singleton]
    simp only [Nat.add_right_cancel_iff]
  rule_lt n hn ho := by
    rw [List.length_append, List.length_singleton]
    exact Nat.lt_succ_of_le (h.rule_le_withNext hn ho)
  outcome_leaf _ hn ho := h.leaf_withNext hn ho
  forward _ _ he := h.forward_withNext hlabel he
  root := Or.inr h.root_withNext

end Next

/-! ## No cycle, and nothing before the first node -/

/-- The places themselves are ranks that rise along the edges. -/
theorem onward (h : Laid order rules nodes waiting heads) : Onward id nodes := ⟨h.outcome_leaf, h.forward⟩

/-- Every edge of the chains leads to a node. -/
theorem closed (h : Laid order rules nodes waiting heads) : Closed nodes := h.onward.closed

/-- No way along the chains leads back to where it began. -/
theorem acyclic (h : Laid order rules nodes waiting heads) : Acyclic nodes := h.onward.acyclic

/-- In a list that ends in a default rule, the first chain begins at the first node. -/
theorem root_of_ends (h : Laid order rules nodes waiting heads) (ends : EndsInDefault rules) : heads[0]? = some 0 := by
  refine h.root.resolve_left fun hnil => ends.ne_nil (List.eq_nil_of_length_eq_zero ?_)
  rw [← h.heads_length, hnil]
  rfl

/-- No edge leads to the first node of the first rule. -/
theorem no_edge_zero (h : Laid order rules nodes waiting heads) (ends : EndsInDefault rules) (covered : Covers order rules)
    (i : Nat) : ¬Edge nodes i 0 := by
  intro he
  obtain ⟨m, hm, hlt⟩ := h.forward i 0 he
  have ho : m.isOutcome = true := hlt.resolve_right (Nat.not_lt_zero i)
  obtain ⟨r, rest, hrules⟩ := List.exists_cons_of_ne_nil ends.ne_nil
  have hc := h.chained 0 r 0 (by rw [hrules]; rfl) (h.root_of_ends ends)
  cases hcs : ordered order r with
  | cons c cs =>
    rw [hcs] at hc
    obtain ⟨n, -, hn, ht, -⟩ := hc
    obtain rfl := Option.some.inj (hn.symm.trans hm)
    rw [ht.isOutcome] at ho
    cases ho
  | nil =>
    have hd : r.isDefault = true := isDefault_of_ordered covered (by simp [hrules]) hcs
    cases rest with
    | cons q rest =>
      have hnd := ends.only_last r (by simp [hrules])
      rw [hd] at hnd
      cases hnd
    | nil =>
      have hsize := h.size
      rw [hrules, room_cons, hcs] at hsize
      obtain rfl : i = 0 := by
        have hi := lt_of_edge he
        simp only [List.length_nil, room, List.map_nil, List.sum_nil] at hsize
        omega
      rw [h.onward.isOutcome_of_edge he hm] at ho
      cases ho

end Laid

/-! ## Every chain -/

/-- Laying every chain keeps what laying one more chain keeps. -/
theorem chains_laid {limit labelColumn : Nat} {order : List Nat} (horder : order.Nodup)
    {P : List Rule → List Node → List Nat → Prop}
    (hstep : ∀ {rules nodes waiting heads r}, Laid order rules nodes waiting heads → (r.label == r.label) = true →
      P rules nodes heads →
      P (rules ++ [r]) (withNext labelColumn order rules nodes waiting r) (heads ++ [headPlace order nodes r]))
    (rest : List Rule) :
    ∀ (rules : List Rule) (nodes : List Node) (waiting heads : List Nat), Laid order rules nodes waiting heads →
      P rules nodes heads → (∀ r ∈ rest, (r.label == r.label) = true) → room order (rules ++ rest) ≤ limit →
      ∃ nodes' waiting' heads', chains limit labelColumn order nodes waiting rules.length rest = .ok nodes' ∧
        Laid order (rules ++ rest) nodes' waiting' heads' ∧ P (rules ++ rest) nodes' heads' := by
  induction rest with
  | nil =>
    intro rules nodes waiting heads h hP _ _
    rw [List.append_nil]
    exact ⟨nodes, waiting, heads, rfl, h, hP⟩
  | cons r rest ih =>
    intro rules nodes waiting heads h hP hlabels hroom
    have hb : nodes.length + (ordered order r).length < limit := by
      have hsize := h.size
      rw [room_append, room_cons] at hroom
      omega
    have hrule : ∀ n ∈ nodes, n.isOutcome = false → n.rule ≠ rules.length :=
      fun n hn ho => Nat.ne_of_lt (h.rule_lt n hn ho)
    have hlabel := hlabels r List.mem_cons_self
    have hnext := h.snoc labelColumn hlabel
    rw [List.append_cons] at hroom ⊢
    obtain ⟨nodes', waiting', heads', hbuilt, hlaid⟩ :=
      ih _ _ _ _ hnext (hstep h hlabel hP) (fun q hq => hlabels q (List.mem_cons_of_mem r hq)) hroom
    refine ⟨nodes', waiting', heads', ?_, hlaid⟩
    rw [chains, chain_eq horder hb hrule, ← hbuilt, List.length_append, List.length_singleton]
    rfl

/-- Building never exceeds the bound, and lays the chain of every rule. -/
theorem build_laid (labelColumn : Nat) {order : List Nat} {rules : List Rule} (horder : order.Nodup)
    (hlabels : ∀ r ∈ rules, (r.label == r.label) = true) :
    ∃ nodes waiting heads, build rules labelColumn order = .ok nodes ∧ Laid order rules nodes waiting heads := by
  obtain ⟨nodes, waiting, heads, hbuild, hlaid, -⟩ := chains_laid horder (P := fun _ _ _ => True)
    (fun _ _ _ => trivial) rules [] [] [] [] (laid_nil order) trivial hlabels (room_le_bound order rules)
  exact ⟨nodes, waiting, heads, hbuild, hlaid⟩

/-! ## The compiled graph -/

/-- The chains of the rules stand in the nodes and begin at `heads`, the first at place zero. The tests of a rule fail to where
the next chain begins, and every edge leads onward. -/
structure Represents (order : List Nat) (rules : List Rule) (nodes : List Node) (heads : List Nat) : Prop where
  heads_length : heads.length = rules.length
  root : heads[0]? = some 0
  chained : ∀ k r h, rules[k]? = some r → heads[k]? = some h → Chained nodes k heads[k + 1]? r.label (ordered order r) h
  ascending : ∀ i j, Edge nodes i j → i < j

/-- No column of a rule is missing in an order that covers the rules. -/
theorem unranked_eq_none {rules : List Rule} {order : List Nat} (covered : Covers order rules) (c : Catalog) :
    unranked? rules c order = none := by
  rw [unranked?, List.findSome?_eq_none_iff]
  rintro ⟨r, i⟩ hr
  rw [Option.map_eq_none_iff, List.find?_eq_none]
  intro x hx
  simpa using covered r (List.fst_mem_of_mem_zipIdx hr) x hx

/-- Sorting the nodes in which the chains stand keeps the chains, the first of them in front. -/
theorem Laid.represents {order : List Nat} {rules : List Rule} {nodes sorted : List Node} {waiting heads : List Nat}
    {place : Nat → Nat} (h : Laid order rules nodes waiting heads) (hs : Sorted nodes sorted place)
    (ends : EndsInDefault rules) (covered : Covers order rules) : Represents order rules sorted (heads.map place) where
  heads_length := by rw [List.length_map, h.heads_length]
  root := by
    rw [List.getElem?_map, h.root_of_ends ends, Option.map_some, hs.place_zero (h.no_edge_zero ends covered)]
  chained k r i hr hi := by
    rw [List.getElem?_map, Option.map_eq_some_iff] at hi
    obtain ⟨j, hj, rfl⟩ := hi
    rw [List.getElem?_map]
    exact (h.chained k r j hr hj).relocate hs
  ascending _ _ he := hs.lt_of_edge he

/-- The rules compile into their nodes in topological order. -/
theorem compile_eq {rules : List Rule} {order : List Nat} {c : Catalog} {nodes sorted : List Node} (hne : rules ≠ [])
    (covered : Covers order rules) (hbuild : build rules c.label order = .ok nodes)
    (hsort : topologicalSort nodes = .ok sorted) : compile rules c order = .ok (ofNodes sorted) := by
  rw [compile, if_neg hne, unranked_eq_none covered]
  show (build rules c.label order >>= fun nodes => _) = _
  rw [hbuild]
  show (topologicalSort nodes >>= fun sorted => _) = _
  rw [hsort]
  rfl

/-- Rules that end in a default rule compile, against any catalog, into nodes that represent them. -/
theorem compile_represents {rules : List Rule} {order : List Nat} (ends : EndsInDefault rules) (horder : order.Nodup)
    (covered : Covers order rules) (hlabels : ∀ r ∈ rules, (r.label == r.label) = true) (c : Catalog) :
    ∃ nodes heads, compile rules c order = .ok (ofNodes nodes) ∧ Represents order rules nodes heads := by
  obtain ⟨nodes, waiting, heads, hbuild, hlaid⟩ := build_laid c.label horder hlabels
  obtain ⟨sorted, hsort, hs⟩ := topologicalSort_of_acyclic hlaid.closed hlaid.acyclic
  exact ⟨sorted, _, compile_eq ends.ne_nil covered hbuild hsort, hlaid.represents hs ends covered⟩

end FirstMatch.Graph
