import FirstMatch.Proofs.Graph.AnyOrder
import FirstMatch.Proofs.Graph.Columns

/-!
# Orders with repeats

Whether the repeats in an order of columns can be left out. They can where they leave the columns of every rule straight
(`compile_eraseDups`), and only there (`straight_of_compile_eq`): elsewhere a test leads past others, and a walk skips conditions.
-/

namespace FirstMatch.Graph

/-! ## Columns that may repeat -/

/-- After the last occurrence of each column comes the column that comes after its first when all but the first occurrences are
left out. -/
def Straight (columns : List Nat) : Prop := ∀ f ∈ columns, after? columns f = after? columns.eraseDups f

instance (columns : List Nat) : Decidable (Straight columns) :=
  inferInstanceAs (Decidable (∀ f ∈ columns, after? columns f = after? columns.eraseDups f))

theorem columnPlace_eraseDups (start : Nat) (columns : List Nat) :
    columnPlace start columns.eraseDups = columnPlace start columns := by
  funext f
  rw [columnPlace, columnPlace, eraseDups_of_nodup (nodup_eraseDups columns)]

/-- Straight columns have the same tests when repeats are left out. -/
theorem relinked_eraseDups {rule start target : Nat} {cond : Nat → Condition} {columns : List Nat} (h : Straight columns) :
    relinked rule cond start target columns = relinked rule cond start target columns.eraseDups := by
  have hdups := eraseDups_of_nodup (nodup_eraseDups columns)
  rw [relinked, relinked, hdups]
  refine List.map_congr_left fun f hf => ?_
  rw [relink, relink, h f (List.mem_eraseDups.1 hf), columnPlace_eraseDups]

theorem head_eraseDups (columns : List Nat) : columns.eraseDups.head? = columns.head? := by
  cases columns with
  | nil => rfl
  | cons f rest => rw [List.eraseDups_cons]; rfl

/-- The chain of a rule whose columns are straight is the one without repeats, though its tests may be visited more often. -/
theorem columnChain_eraseDups {order : List Nat} {r : Rule} (h : Straight (testedColumns order r)) (labelColumn : Nat)
    (base : List Node) (rule : Nat) :
    (columnChain labelColumn order base rule r).nodes = (columnChain labelColumn order.eraseDups base rule r).nodes ∧
      (columnChain labelColumn order base rule r).head = (columnChain labelColumn order.eraseDups base rule r).head ∧
      ∀ i, i ∈ (columnChain labelColumn order base rule r).tests ↔
        i ∈ (columnChain labelColumn order.eraseDups base rule r).tests := by
  have hdups := eraseDups_of_nodup (nodup_eraseDups (testedColumns order r))
  simp only [columnChain, testedColumns_eraseDups, hdups, relinked_eraseDups h, head_eraseDups, columnPlace_eraseDups,
    List.mem_map, List.mem_eraseDups, true_and, implies_true]

/-- Which tests fail to a target turns on the places visited, not on how often they are. -/
theorem linkFailures_congr {visited visited' : List Nat} (h : ∀ i, i ∈ visited ↔ i ∈ visited') (nodes : List Node)
    (target : Nat) : linkFailures nodes visited target = linkFailures nodes visited' target := by
  apply List.ext_getElem?
  intro i
  rw [getElem?_linkFailures, getElem?_linkFailures]
  simp only [h i]

theorem length_eraseDups_le (xs : List Nat) : xs.eraseDups.length ≤ xs.length :=
  ((nodup_eraseDups xs).subperm fun _ hx => List.mem_eraseDups.1 hx).length_le

/-- Where the columns of every rule are straight, the chains without repeats are the same. -/
theorem chains_eraseDups {limit limit' labelColumn : Nat} {order : List Nat} (rest : List Rule) :
    ∀ {count : Nat} {nodes : List Node} {waiting waiting' : List Nat} {rank : Nat → Nat} {top : Nat},
      Grown order.eraseDups count nodes waiting' rank top → (∀ i, i ∈ waiting ↔ i ∈ waiting') →
      (∀ r ∈ rest, ∀ x ∈ r.conditions, (x.value == x.value) = true) → (∀ r ∈ rest, Straight (testedColumns order r)) →
      (count + rest.length) * (order.eraseDups.length + 1) ≤ limit' → limit' ≤ limit →
      chains limit labelColumn order nodes waiting count rest =
        chains limit' labelColumn order.eraseDups nodes waiting' count rest := by
  induction rest with
  | nil => intros; rfl
  | cons r rest ih =>
    intro count nodes waiting waiting' rank top h hwaiting hself straight hroom hlimit
    rw [List.length_cons, Nat.add_comm rest.length, ← Nat.add_assoc] at hroom
    have hb := h.room_lt hroom
    have htested : (testedColumns order r).eraseDups.length ≤ order.eraseDups.length := by
      rw [← testedColumns_eraseDups]
      exact List.length_filter_le _ _
    have hrule : ∀ n ∈ nodes, n.isOutcome = false → n.rule ≠ count := fun n hn ho => Nat.ne_of_lt (h.rule_lt n hn ho)
    have hchain := chain_columns (by omega : nodes.length + (testedColumns order r).eraseDups.length < limit) hrule
      (hself r List.mem_cons_self) labelColumn
    obtain ⟨built, hbuilt, added, hsize⟩ := exists_chain hrule labelColumn order.eraseDups r hb
    have hchain' : chain limit' labelColumn order.eraseDups nodes count r =
        .ok (columnChain labelColumn order.eraseDups nodes count r) := by
      refine chain_columns ?_ hrule (hself r List.mem_cons_self) labelColumn
      rw [testedColumns_eraseDups, eraseDups_of_nodup (nodup_eraseDups _)]
      omega
    obtain rfl := Except.ok.inj (hchain'.symm.trans hbuilt)
    obtain ⟨hnodes, hhead, htests⟩ := columnChain_eraseDups (straight r List.mem_cons_self) labelColumn nodes count
    rw [chains, chains, hchain, hchain']
    show chains _ _ _ (linkFailures _ _ _) _ _ _ = chains _ _ _ (linkFailures _ _ _) _ _ _
    rw [hnodes, hhead, linkFailures_congr hwaiting]
    exact ih (h.next added hsize) htests (fun q hq => hself q (List.mem_cons_of_mem r hq))
      (fun q hq => straight q (List.mem_cons_of_mem r hq)) hroom hlimit

/-- Straight columns build the nodes that they build without repeats. -/
theorem build_eraseDups {order : List Nat} {rules : List Rule} (labelColumn : Nat)
    (hself : ∀ r ∈ rules, ∀ x ∈ r.conditions, (x.value == x.value) = true)
    (straight : ∀ r ∈ rules, Straight (testedColumns order r)) :
    build rules labelColumn order = build rules labelColumn order.eraseDups :=
  chains_eraseDups rules (grown_nil order.eraseDups) (fun _ => Iff.rfl) hself straight
    (by rw [Nat.zero_add, bound]) (Nat.mul_le_mul_left _ (Nat.succ_le_succ (length_eraseDups_le order)))

/-! ## Where the tests lead -/

/-- A node is the test of a rule on a column, or, for no column, an outcome. -/
def Stands (rule : Nat) : Option Nat → Node → Prop
  | some f, n => n.isOutcome = false ∧ n.rule = rule ∧ n.feature = f
  | none, n => n.isOutcome = true

/-- A node stands for one column of a rule, or for none. -/
theorem stands_unique {rule : Nat} {f? g? : Option Nat} {n : Node} (hf : Stands rule f? n) (hg : Stands rule g? n) : f? = g? := by
  cases f? with
  | none =>
    cases g? with
    | none => rfl
    | some g => exact absurd (hf.symm.trans hg.1) (by simp)
  | some f =>
    cases g? with
    | none => exact absurd (hg.symm.trans hf.1) (by simp)
    | some g => rw [← hf.2.2, hg.2.2]

/-- Each rule has one test for each column that it tests, and this leads to its test on the column that follows the last
occurrence, or to an outcome where none follows. -/
structure Wired (order : List Nat) (rules : List Rule) (nodes : List Node) : Prop where
  leads : ∀ k r, rules[k]? = some r → ∀ f ∈ testedColumns order r, ∃ (i j : Nat) (n m : Node),
    nodes[i]? = some n ∧ Stands k (some f) n ∧ n.onTrue? = some j ∧
      nodes[j]? = some m ∧ Stands k (after? (testedColumns order r) f) m
  once : ∀ (k f i j : Nat) (n m : Node), nodes[i]? = some n → nodes[j]? = some m →
    Stands k (some f) n → Stands k (some f) m → i = j

theorem wired_nil (order : List Nat) : Wired order [] [] := ⟨by simp, by simp⟩

/-- Where tests lead when they hold does not turn on where they fail to. -/
theorem Wired.linkFailures {order : List Nat} {rules : List Rule} {nodes : List Node} (h : Wired order rules nodes)
    (waiting : List Nat) (target : Nat) : Wired order rules (linkFailures nodes waiting target) := by
  have hnew : ∀ {i : Nat} {n : Node}, nodes[i]? = some n → ∃ n', (Graph.linkFailures nodes waiting target)[i]? = some n' ∧
      n'.onTrue? = n.onTrue? ∧ ∀ k f?, Stands k f? n → Stands k f? n' := fun {i n} hn => by
    rw [getElem?_linkFailures, hn, Option.map_some]
    refine ⟨_, rfl, by split <;> rfl, fun k f? hs => ?_⟩
    split <;> cases f? <;> exact hs
  constructor
  case leads =>
    intro k r hr f hf
    obtain ⟨i, j, n, m, hn, hs, hj, hm, hs'⟩ := h.leads k r hr f hf
    obtain ⟨n', hn', htrue, hstands⟩ := hnew hn
    obtain ⟨m', hm', -, hstands'⟩ := hnew hm
    exact ⟨i, j, n', m', hn', hstands k _ hs, htrue.trans hj, hm', hstands' k _ hs'⟩
  case once =>
    have hold : ∀ {k f i : Nat} {n : Node}, (Graph.linkFailures nodes waiting target)[i]? = some n → Stands k (some f) n →
        ∃ m, nodes[i]? = some m ∧ Stands k (some f) m := fun {k f i n} hn hs => by
      rw [getElem?_linkFailures, Option.map_eq_some_iff] at hn
      obtain ⟨m, hm, rfl⟩ := hn
      refine ⟨m, hm, ?_⟩
      split at hs <;> exact hs
    intro k f i j n m hn hm hs hs'
    obtain ⟨n', hn', hs⟩ := hold hn hs
    obtain ⟨m', hm', hs'⟩ := hold hm hs'
    exact h.once k f i j n' m' hn' hm' hs hs'

section ColumnChain

variable {labelColumn rule : Nat} {order : List Nat} {base : List Node} {r : Rule}

theorem getElem?_columnChain_of_lt {i : Nat} (hi : i < base.length) :
    (columnChain labelColumn order base rule r).nodes[i]? = base[i]? := by
  rw [columnChain, List.append_assoc, List.getElem?_append_left hi]

/-- The test on a column stands at the place of the column. -/
theorem getElem?_columnChain_test {f : Nat} (hf : f ∈ testedColumns order r) :
    (columnChain labelColumn order base rule r).nodes[columnPlace base.length (testedColumns order r) f]? =
      some (relink rule (testOn r) base.length (outcomePlace base (testedColumns order r).eraseDups.length r.label)
        (testedColumns order r) f) := by
  have hf' := List.mem_eraseDups.2 hf
  have hidx := List.idxOf_lt_length_of_mem hf'
  rw [columnChain, columnPlace, List.append_assoc, List.getElem?_append_right (Nat.le_add_right _ _), Nat.add_sub_cancel_left,
    List.getElem?_append_left (by rwa [relinked, List.length_map]), relinked, List.getElem?_map, List.getElem?_idxOf hf',
    Option.map_some]

/-- The chain of a rule ends in an outcome. -/
theorem exists_columnChain_outcome (labelColumn rule : Nat) (order : List Nat) (base : List Node) (r : Rule) :
    ∃ n, (columnChain labelColumn order base rule r).nodes[outcomePlace base (testedColumns order r).eraseDups.length r.label]? =
      some n ∧ n.isOutcome = true := by
  cases hf : base.findIdx? (Node.predicts r.label) with
  | some i =>
    obtain ⟨hi, hp, -⟩ := List.findIdx?_eq_some_iff_getElem.1 hf
    refine ⟨base[i], ?_, (Bool.and_eq_true_iff.1 hp).1⟩
    rw [outcomePlace, hf, Option.getD_some, getElem?_columnChain_of_lt hi, List.getElem?_eq_getElem hi]
  | none =>
    refine ⟨_, ?_, show Node.isOutcome { Node.ofLabel rule labelColumn r.label with
      id := base.length + (testedColumns order r).eraseDups.length } = true from rfl⟩
    rw [columnChain, outcomePlace, newOutcome, hf, List.getElem?_append_right (by simp [relinked])]
    simp [relinked]

/-- The test on a column leads to the test on the column after it, or to an outcome. -/
theorem exists_relinked (labelColumn rule : Nat) (order : List Nat) (base : List Node) (r : Rule) (f : Nat) :
    ∃ j m, (relink rule (testOn r) base.length (outcomePlace base (testedColumns order r).eraseDups.length r.label)
        (testedColumns order r) f).onTrue? = some j ∧
      (columnChain labelColumn order base rule r).nodes[j]? = some m ∧ Stands rule (after? (testedColumns order r) f) m := by
  cases hafter : after? (testedColumns order r) f with
  | some g =>
    refine ⟨_, _, ?_, getElem?_columnChain_test (mem_of_after hafter), rfl, rfl, feature_testOn r g⟩
    rw [relink, hafter]
    rfl
  | none =>
    obtain ⟨o, ho, hout⟩ := exists_columnChain_outcome labelColumn rule order base r
    refine ⟨_, o, ?_, ho, hout⟩
    rw [relink, hafter]
    rfl

/-- A node is an old one, the test on one of the columns, or an outcome. -/
theorem columnChain_cases {i : Nat} {n : Node} (hn : (columnChain labelColumn order base rule r).nodes[i]? = some n) :
    base[i]? = some n ∨ (∃ f ∈ testedColumns order r, i = columnPlace base.length (testedColumns order r) f ∧
      Stands rule (some f) n) ∨ n.isOutcome = true := by
  by_cases hi : i < base.length
  · rw [getElem?_columnChain_of_lt hi] at hn
    exact Or.inl hn
  · right
    obtain ⟨j, rfl⟩ : ∃ j, i = base.length + j := ⟨i - base.length, by omega⟩
    rw [columnChain, List.append_assoc, List.getElem?_append_right (Nat.le_add_right _ _), Nat.add_sub_cancel_left,
      List.getElem?_append] at hn
    split at hn
    · rw [relinked, List.getElem?_map, Option.map_eq_some_iff] at hn
      obtain ⟨f, hf, rfl⟩ := hn
      obtain ⟨hj, rfl⟩ := List.getElem?_eq_some_iff.1 hf
      refine Or.inl ⟨_, List.mem_eraseDups.1 (List.getElem_mem hj), ?_, rfl, rfl, feature_testOn r _⟩
      rw [columnPlace, (nodup_eraseDups _).idxOf_getElem j hj]
    · unfold newOutcome at hn
      split at hn
      · simp at hn
      · obtain ⟨-, rfl⟩ := List.getElem?_eq_some_iff.1 hn
        rw [List.getElem_singleton]
        exact Or.inr rfl

end ColumnChain

/-- The chain of one more rule is wired like the others. -/
theorem Wired.snoc {order : List Nat} {rules : List Rule} {base : List Node} (h : Wired order rules base)
    (hrule : ∀ n ∈ base, n.isOutcome = false → n.rule < rules.length) (labelColumn : Nat) (r : Rule) :
    Wired order (rules ++ [r]) (columnChain labelColumn order base rules.length r).nodes := by
  have hold : ∀ {i : Nat} {n : Node}, base[i]? = some n →
      (columnChain labelColumn order base rules.length r).nodes[i]? = some n := fun {i n} hn => by
    rw [getElem?_columnChain_of_lt (List.getElem?_eq_some_iff.1 hn).1, hn]
  constructor
  case leads =>
    intro k q hq f hf
    by_cases hk : k < rules.length
    · rw [List.getElem?_append_left hk] at hq
      obtain ⟨i, j, n, m, hn, hs, hj, hm, hs'⟩ := h.leads k q hq f hf
      exact ⟨i, j, n, m, hold hn, hs, hj, hold hm, hs'⟩
    · obtain rfl : k = rules.length := by
        have hlt := (List.getElem?_eq_some_iff.1 hq).1
        rw [List.length_append, List.length_singleton] at hlt
        omega
      rw [List.getElem?_concat_length, Option.some.injEq] at hq
      subst hq
      obtain ⟨j, m, hj, hm, hs⟩ := exists_relinked labelColumn rules.length order base r f
      exact ⟨_, j, _, m, getElem?_columnChain_test hf, ⟨rfl, rfl, feature_testOn r f⟩, hj, hm, hs⟩
  case once =>
    intro k f i j n m hn hm hs hs'
    rcases columnChain_cases hn with hn | ⟨g, -, rfl, hg⟩ | ho
    · rcases columnChain_cases hm with hm | ⟨g, -, -, hg⟩ | ho
      · exact h.once k f i j n m hn hm hs hs'
      · have hlt := hrule n (List.mem_of_getElem? hn) hs.1
        have heq := hs'.2.1.symm.trans hg.2.1
        have := hs.2.1
        omega
      · exact absurd (hs'.1.symm.trans ho) (by simp)
    · rcases columnChain_cases hm with hm | ⟨g', -, rfl, hg'⟩ | ho
      · have hlt := hrule m (List.mem_of_getElem? hm) hs'.1
        have heq := hs.2.1.symm.trans hg.2.1
        have := hs'.2.1
        omega
      · rw [← hg.2.2, ← hg'.2.2, hs.2.2, hs'.2.2]
      · exact absurd (hs'.1.symm.trans ho) (by simp)
    · exact absurd (hs.1.symm.trans ho) (by simp)

/-- Adding the chains of some more rules, whose literals equal themselves, wires them too. -/
theorem chains_wired (limit labelColumn : Nat) {order : List Nat} (rest : List Rule) :
    ∀ {rules : List Rule} {nodes : List Node} {waiting : List Nat} {rank : Nat → Nat} {top : Nat},
      Grown order rules.length nodes waiting rank top → Wired order rules nodes →
      (∀ r ∈ rest, ∀ x ∈ r.conditions, (x.value == x.value) = true) →
      (rules.length + rest.length) * (order.length + 1) ≤ limit →
      ∃ nodes', chains limit labelColumn order nodes waiting rules.length rest = .ok nodes' ∧
        Wired order (rules ++ rest) nodes' := by
  induction rest with
  | nil =>
    intro rules nodes waiting rank top _ h _ _
    rw [List.append_nil]
    exact ⟨nodes, rfl, h⟩
  | cons r rest ih =>
    intro rules nodes waiting rank top grown h hself hroom
    rw [List.length_cons, Nat.add_comm rest.length, ← Nat.add_assoc] at hroom
    have hb := grown.room_lt hroom
    have hrule : ∀ n ∈ nodes, n.isOutcome = false → n.rule ≠ rules.length :=
      fun n hn ho => Nat.ne_of_lt (grown.rule_lt n hn ho)
    have htested : (testedColumns order r).eraseDups.length ≤ order.length :=
      Nat.le_trans (length_eraseDups_le _) (List.length_filter_le _ _)
    have hchain := chain_columns (by omega : nodes.length + (testedColumns order r).eraseDups.length < limit) hrule
      (hself r List.mem_cons_self) labelColumn
    obtain ⟨built, hbuilt, added, hsize⟩ := exists_chain hrule labelColumn order r hb
    obtain rfl := Except.ok.inj (hchain.symm.trans hbuilt)
    have hnext := grown.next added hsize
    have hlength : (rules ++ [r]).length = rules.length + 1 := by simp
    rw [← hlength] at hnext hroom
    obtain ⟨nodes', hchains, hwired⟩ := ih hnext ((h.snoc grown.rule_lt labelColumn r).linkFailures waiting _)
      (fun q hq => hself q (List.mem_cons_of_mem r hq)) hroom
    refine ⟨nodes', ?_, by rwa [List.append_cons]⟩
    rw [chains, hchain, ← hchains, hlength]
    rfl

/-- Building wires the tests of every rule. -/
theorem build_wired {rules : List Rule} {labelColumn : Nat} {order : List Nat} {nodes : List Node}
    (hself : ∀ r ∈ rules, ∀ x ∈ r.conditions, (x.value == x.value) = true) (h : build rules labelColumn order = .ok nodes) :
    Wired order rules nodes := by
  have grown : Grown order ([] : List Rule).length [] [] (fun _ => 0) 1 := grown_nil order
  obtain ⟨nodes', hbuild, hwired⟩ := chains_wired (bound rules order) labelColumn rules grown (wired_nil order) hself
    (by rw [List.length_nil, Nat.zero_add, bound])
  obtain rfl := Except.ok.inj (h.symm.trans hbuild)
  exact hwired

/-- Sorting moves the tests and where they lead. -/
theorem Wired.relocate {order : List Nat} {rules : List Rule} {nodes sorted : List Node} {place : Nat → Nat}
    (h : Wired order rules nodes) (hs : Sorted nodes sorted place) : Wired order rules sorted where
  leads k r hr f hf := by
    obtain ⟨i, j, n, m, hn, hstands, hj, hm, hstands'⟩ := h.leads k r hr f hf
    refine ⟨place i, place j, _, _, hs.getElem_place i n hn, hstands, by simp [Node.relocate, hj], hs.getElem_place j m hm, ?_⟩
    cases hafter : after? (testedColumns order r) f <;> rw [hafter] at hstands' <;> exact hstands'
  once k f p q n m hn hm hstands hstands' := by
    obtain ⟨i, n, hi, rfl, rfl⟩ := hs.exists_moved hn
    obtain ⟨j, m, hj, rfl, rfl⟩ := hs.exists_moved hm
    rw [h.once k f i j n m hi hj hstands hstands']

/-- Nodes wired for an order with and without repeats are those of rules whose columns are straight. -/
theorem straight_of_wired {order : List Nat} {rules : List Rule} {nodes : List Node} (h : Wired order rules nodes)
    (h' : Wired order.eraseDups rules nodes) {r : Rule} (hr : r ∈ rules) : Straight (testedColumns order r) := by
  intro f hf
  obtain ⟨k, hk⟩ := List.getElem?_of_mem hr
  obtain ⟨i, j, n, m, hn, hs, hj, hm, hs'⟩ := h.leads k r hk f hf
  have hf' : f ∈ testedColumns order.eraseDups r := by
    rw [testedColumns_eraseDups]
    exact List.mem_eraseDups.2 hf
  obtain ⟨i', j', n', m', hn', ht, hj', hm', ht'⟩ := h'.leads k r hk f hf'
  obtain rfl := h.once k f i i' n n' hn hn' hs ht
  obtain rfl := Option.some.inj (hn.symm.trans hn')
  obtain rfl := Option.some.inj (hj.symm.trans hj')
  obtain rfl := Option.some.inj (hm.symm.trans hm')
  rw [← testedColumns_eraseDups]
  exact stands_unique hs' ht'

/-! ## With and without repeats -/

theorem covers_eraseDups {order : List Nat} {rules : List Rule} : Covers order.eraseDups rules ↔ Covers order rules := by
  simp only [Covers, List.mem_eraseDups]

/-- Rules compile into sorted nodes, which are wired when their literals equal themselves. -/
theorem exists_compile_wired {rules : List Rule} (hne : rules ≠ []) (c : Catalog) {order : List Nat}
    (covered : Covers order rules) (hself : ∀ r ∈ rules, ∀ x ∈ r.conditions, (x.value == x.value) = true) :
    ∃ nodes, compile rules c order = .ok (ofNodes nodes) ∧ Wired order rules nodes := by
  obtain ⟨nodes, rank, hbuild, honward⟩ := exists_build rules c.label order
  obtain ⟨sorted, hsort, hs⟩ := topologicalSort_of_acyclic honward.closed honward.acyclic
  exact ⟨sorted, compile_eq hne covered hbuild hsort, (build_wired hself hbuild).relocate hs⟩

/-- Where the columns of every rule are straight, an order compiles as it does without its repeats. -/
theorem compile_eraseDups {rules : List Rule} {order : List Nat} (c : Catalog) (covered : Covers order rules)
    (hself : ∀ r ∈ rules, ∀ x ∈ r.conditions, (x.value == x.value) = true)
    (straight : ∀ r ∈ rules, Straight (testedColumns order r)) :
    compile rules c order = compile rules c order.eraseDups := by
  rw [compile, compile, unranked_eq_none covered, unranked_eq_none (covers_eraseDups.2 covered),
    build_eraseDups c.label hself straight]

/-- Rules that compile alike with and without repeats have straight columns. -/
theorem straight_of_compile_eq {rules : List Rule} {order : List Nat} (hne : rules ≠ []) (c : Catalog)
    (covered : Covers order rules) (hself : ∀ r ∈ rules, ∀ x ∈ r.conditions, (x.value == x.value) = true)
    (h : compile rules c order = compile rules c order.eraseDups) : ∀ r ∈ rules, Straight (testedColumns order r) := by
  intro r hr
  obtain ⟨nodes, hcompile, hwired⟩ := exists_compile_wired hne c covered hself
  obtain ⟨nodes', hcompile', hwired'⟩ := exists_compile_wired hne c (covers_eraseDups.2 covered) hself
  rw [hcompile, hcompile'] at h
  obtain rfl : nodes = nodes' := congrArg Graph.nodes (Except.ok.inj h)
  exact straight_of_wired hwired hwired' hr

end FirstMatch.Graph

namespace FirstMatch.DecisionList

open FirstMatch.Graph

/-- Repeats in an order of columns change nothing exactly where they leave the columns of every rule straight, in two parts. The
literals of the list equal themselves.
1. A list compiles into the same graph with and without the repeats if and only if each rule's columns are straight.
2. Then every row walks the graph to an outcome that predicts the label of the first rule that matches it. -/
theorem compile_eraseDups_iff {c : Catalog} {l : DecisionList} (accepted : l.Accepted c)
    (literals : ∀ r ∈ l.rules, ∀ x ∈ r.conditions, (x.value == x.value) = true) {order : List Nat}
    (covered : Covers order l.rules) :
    (l.compile c order = l.compile c order.eraseDups ↔ ∀ r ∈ l.rules, Straight (testedColumns order r)) ∧
    ((∀ r ∈ l.rules, Straight (testedColumns order r)) → ∃ g, l.compile c order = .ok g ∧ ∀ cell : Nat → Cell, ∃ i r n,
      l.firstMatch? cell = some i ∧ l.rules[i]? = some r ∧
        g.walk cell = some n ∧ n.isOutcome = true ∧ (n.value == r.label) = true) := by
  have hiff : l.compile c order = l.compile c order.eraseDups ↔ ∀ r ∈ l.rules, Straight (testedColumns order r) :=
    ⟨straight_of_compile_eq l.ends.ne_nil c covered literals, compile_eraseDups c covered literals⟩
  refine ⟨hiff, fun straight => ?_⟩
  have fits := accepted.fits
  have hcovered := covers_eraseDups.2 covered
  obtain ⟨nodes, heads, hcompile, hnodes⟩ :=
    compile_represents l.ends (nodup_eraseDups order) hcovered (labels_beq_self fits) c
  refine ⟨ofNodes nodes, (hiff.2 straight).trans hcompile, fun cell => ?_⟩
  obtain ⟨i, hi, -⟩ := l.exists_firstMatch cell
  obtain ⟨r, hr, hholds, hfirst⟩ := firstMatch_eq_some hi
  obtain ⟨n, hn, hp⟩ := hnodes.walkFrom_firstHolds hcovered (fun q hq => (fits q hq).distinct) hr hholds hfirst
  obtain ⟨ho, hv⟩ := Bool.and_eq_true_iff.1 hp
  exact ⟨i, r, n, hi, hr, hn, ho, hv⟩

/-- The drafts of two rules and a default rule; the second rule has two conditions. -/
def stormDrafts : List RuleDraft :=
  [⟨[⟨"outlook", .eq, .text "rain"⟩], some (.text "yes"), ⟨1, 0⟩⟩,
    ⟨[⟨"wind", .eq, .text "strong"⟩, ⟨"outlook", .ne, .text "sunny"⟩], some (.text "no"), ⟨1, 0⟩⟩,
    ⟨[], some (.text "yes"), ⟨2, 0⟩⟩]

/-- An order that tests both columns again in the same sequence leaves the columns of these rules straight. -/
theorem compile_eraseDups_iff_storm : ∃ l, ofDrafts weather stormDrafts = .ok l ∧
    l.compile weather [1, 0, 1, 0] = l.compile weather [1, 0, 1, 0].eraseDups ∧
    ∃ g, l.compile weather [1, 0, 1, 0] = .ok g ∧ ∀ cell : Nat → Cell, ∃ i r n,
      l.firstMatch? cell = some i ∧ l.rules[i]? = some r ∧
        g.walk cell = some n ∧ n.isOutcome = true ∧ (n.value == r.label) = true := by
  obtain ⟨l, hl, hliterals, hcovers, hstraight⟩ : ∃ l, ofDrafts weather stormDrafts = .ok l ∧
      (∀ r ∈ l.rules, ∀ x ∈ r.conditions, (x.value == x.value) = true) ∧ Covers [1, 0, 1, 0] l.rules ∧
      ∀ r ∈ l.rules, Straight (testedColumns [1, 0, 1, 0] r) := ⟨_, rfl, by decide, by decide, by decide⟩
  have h := compile_eraseDups_iff (.ofDrafts stormDrafts hl) hliterals hcovers
  exact ⟨l, hl, h.1.2 hstraight, h.2 hstraight⟩

/-- A row with a sunny outlook and strong wind. -/
def sunnyStorm (column : Nat) : Cell := [Value.text "sunny", .text "strong"][column]?

/-- Where the columns of a rule are not straight, a walk leads past one of its conditions. In an order that tests the wind again
after the outlook, the second rule's test on the wind leads at once to its outcome. So a row with a sunny outlook and strong wind,
which belongs to the default rule, is predicted as if it met the second. -/
theorem compile_repeats_skips : ∃ l g, ofDrafts weather stormDrafts = .ok l ∧ Covers [1, 0, 1] l.rules ∧
    [1, 0, 1].eraseDups = [1, 0] ∧ l.compile weather [1, 0, 1] = .ok g ∧
    l.compile weather [1, 0, 1] ≠ l.compile weather [1, 0] ∧
    (g.walk sunnyStorm).map (·.value) = some (.text "no") ∧
    l.firstMatch? sunnyStorm = some 2 ∧ (l.rules[2]?).map (·.label) = some (.text "yes") := by
  refine ⟨_, _, rfl, by decide, rfl, rfl, fun h => ?_, rfl, rfl, rfl⟩
  have hdepth : some 2 = some 3 := congrArg (fun compiled => compiled.toOption.map Graph.depth) h
  cases hdepth

end FirstMatch.DecisionList
