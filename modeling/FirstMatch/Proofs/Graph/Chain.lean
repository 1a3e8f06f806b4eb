import FirstMatch.Proofs.DecisionList
import FirstMatch.Proofs.Graph.Listing

/-!
# The chain of one rule

Statements about `chain`, which adds the tests of a rule and its outcome to the nodes made before. In an order of columns without
repeats a rule finds no test of its own among them, so its chain is a row of new tests at the end of the nodes (`testNodes`),
followed by a new outcome unless there is one of its label (`withChain`, `chain_eq`). `Chained` says what is left of this when
the nodes are moved: from test to test, and then to the outcome.
-/

namespace FirstMatch.Graph

/-! ## The conditions in order -/

/-- The conditions of a rule in the order in which its chain tests them. -/
def ordered (order : List Nat) (r : Rule) : List Condition := order.filterMap r.conditionOn?

/-- Every column that one of the rules tests stands in the order. -/
def Covers (order : List Nat) (rules : List Rule) : Prop := ∀ r ∈ rules, ∀ c ∈ r.conditions, c.feature ∈ order

instance (order : List Nat) (rules : List Rule) : Decidable (Covers order rules) :=
  inferInstanceAs (Decidable (∀ r ∈ rules, ∀ c ∈ r.conditions, c.feature ∈ order))

/-- A chain tests the columns of the order on which the rule has a condition. -/
theorem map_feature_ordered (order : List Nat) (r : Rule) : (ordered order r).map (·.feature) = order.filter r.references := by
  unfold ordered
  induction order with
  | nil => rfl
  | cons f order ih =>
    cases h : r.conditionOn? f with
    | none => simp [Rule.references, h, ih]
    | some c => simp [Rule.references, h, ih, Rule.feature_of_conditionOn h]

/-- An order without repeats has a rule test no column twice. -/
theorem nodup_ordered {order : List Nat} (h : order.Nodup) (r : Rule) : ((ordered order r).map (·.feature)).Nodup := by
  rw [map_feature_ordered]
  exact h.filter _

theorem length_ordered_le (order : List Nat) (r : Rule) : (ordered order r).length ≤ order.length :=
  List.length_filterMap_le _ _

/-- In an order that covers a rule, the chain tests its conditions and no others. -/
theorem mem_ordered {order : List Nat} {rules : List Rule} {r : Rule} (covered : Covers order rules) (hr : r ∈ rules)
    (distinct : (r.conditions.map (·.feature)).Nodup) {c : Condition} : c ∈ ordered order r ↔ c ∈ r.conditions := by
  rw [ordered, List.mem_filterMap]
  constructor
  · rintro ⟨f, -, hf⟩
    exact List.mem_of_find?_eq_some hf
  · intro hc
    exact ⟨c.feature, covered r hr c hc, Rule.conditionOn_eq_some distinct hc⟩

/-- A chain without tests is that of a default rule. -/
theorem isDefault_of_ordered {order : List Nat} {rules : List Rule} {r : Rule} (covered : Covers order rules) (hr : r ∈ rules)
    (h : ordered order r = []) : r.isDefault = true := by
  have hf := map_feature_ordered order r
  rw [h, List.map_nil, eq_comm, List.filter_eq_nil_iff] at hf
  rw [Rule.isDefault, List.isEmpty_iff, List.eq_nil_iff_forall_not_mem]
  intro c hc
  refine hf c.feature (covered r hr c hc) ?_
  rw [Rule.references, Rule.conditionOn?, List.find?_isSome]
  exact ⟨c, hc, by simp⟩

/-! ## A row of tests -/

/-- The tests of some conditions of a rule, at the places from `start` on: each leads to the next when it holds, and the last to
`last?`. -/
def testNodes (rule : Nat) (last? : Option Nat) : Nat → List Condition → List Node
  | _, [] => []
  | start, c :: rest =>
    { Node.ofCondition rule c with id := start, onTrue? := if rest.isEmpty then last? else some (start + 1) } ::
      testNodes rule last? (start + 1) rest

@[simp] theorem length_testNodes (rule : Nat) (last? : Option Nat) (start : Nat) (cs : List Condition) :
    (testNodes rule last? start cs).length = cs.length := by
  induction cs generalizing start with
  | nil => rfl
  | cons c rest ih => simp [testNodes, ih]

/-- A condition at the end of the row leads to the outcome, and the one before it leads there. -/
theorem testNodes_snoc (rule : Nat) (last? : Option Nat) (start : Nat) (cs : List Condition) (c : Condition) :
    testNodes rule last? start (cs ++ [c]) = testNodes rule (some (start + cs.length)) start cs ++
      [{ Node.ofCondition rule c with id := start + cs.length, onTrue? := last? }] := by
  induction cs generalizing start with
  | nil => rfl
  | cons d rest ih =>
    rw [List.cons_append, testNodes, testNodes, ih, List.length_cons, Nat.add_right_comm start 1, ← Nat.add_assoc]
    cases rest <;> simp

/-- The tests of a row belong to its rule, and stand on the columns of its conditions. -/
theorem mem_testNodes {rule : Nat} {last? : Option Nat} {start : Nat} {cs : List Condition} {n : Node}
    (h : n ∈ testNodes rule last? start cs) : n.isOutcome = false ∧ n.rule = rule ∧ n.feature ∈ cs.map (·.feature) := by
  induction cs generalizing start with
  | nil => simp [testNodes] at h
  | cons c rest ih =>
    rw [testNodes, List.mem_cons] at h
    rcases h with rfl | h
    · simp [Node.ofCondition, Node.isOutcome]
    · obtain ⟨h1, h2, h3⟩ := ih h
      exact ⟨h1, h2, by simp [h3]⟩

/-- A test of the row leads to the next one when it holds, and nowhere yet when it fails. -/
theorem edges_testNodes {rule : Nat} {last? : Option Nat} {start : Nat} {cs : List Condition} {j : Nat} {n : Node}
    (h : (testNodes rule last? start cs)[j]? = some n) :
    n.onFalse? = none ∧ n.onTrue? = if j + 1 = cs.length then last? else some (start + j + 1) := by
  induction cs generalizing start j with
  | nil => simp [testNodes] at h
  | cons c rest ih =>
    cases j with
    | zero =>
      obtain rfl := Option.some.inj h
      refine ⟨rfl, ?_⟩
      cases rest <;> simp
    | succ j =>
      have hrest : (testNodes rule last? (start + 1) rest)[j]? = some n := by simpa [testNodes] using h
      obtain ⟨h1, h2⟩ := ih hrest
      refine ⟨h1, h2.trans ?_⟩
      simp [Nat.add_right_comm, Nat.add_assoc]

/-! ## Building the row -/

/-- A node that is not found is added at the end, if there is room. -/
theorem place_fresh {bound : Nat} {nodes : List Node} {isSought : Node → Bool} (h : ∀ n ∈ nodes, isSought n = false)
    (hb : nodes.length < bound) (n : Node) :
    place bound nodes isSought n = .ok (nodes.length, nodes ++ [{ n with id := nodes.length }]) := by
  have hnone : nodes.findIdx? isSought = none := by
    rw [List.findIdx?_eq_none_iff]
    intro m hm
    rw [h m hm]
  rw [place, hnone, push, if_neg (by omega)]

/-- Conditions are chained some first and then the others. -/
theorem chainTests_append (bound rule : Nat) (nodes : List Node) (visited : List Nat) (cs ds : List Condition) :
    chainTests bound rule nodes visited (cs ++ ds) =
      chainTests bound rule nodes visited cs >>= fun p => chainTests bound rule p.1 p.2 ds := by
  induction cs generalizing nodes visited with
  | nil => rfl
  | cons c rest ih =>
    simp only [List.cons_append, chainTests]
    cases place bound nodes (Node.testsFor rule c) (Node.ofCondition rule c) with
    | error e => rfl
    | ok p => exact ih _ _

theorem modify_append_cons {α : Type} (f : α → α) (l r : List α) (x : α) {i : Nat} (hi : l.length = i) :
    (l ++ x :: r).modify i f = l ++ f x :: r := by
  subst hi
  induction l with
  | nil => rfl
  | cons y l ih => simpa using ih

/-- Linking the last test visited of a row whose last test leads nowhere. -/
theorem linkLast_testNodes (nodes more : List Node) (rule target : Nat) (cs : List Condition) :
    linkLast (nodes ++ testNodes rule none nodes.length cs ++ more) (List.range' nodes.length cs.length) target =
      nodes ++ testNodes rule (some target) nodes.length cs ++ more := by
  cases cs using List.reverseRecOn with
  | nil => rfl
  | append_singleton cs c =>
    have hlen : (nodes ++ testNodes rule (some (nodes.length + cs.length)) nodes.length cs).length =
        nodes.length + cs.length := by simp
    rw [testNodes_snoc, testNodes_snoc, List.length_append, List.length_singleton, List.range'_1_concat, linkLast,
      List.getLast?_concat]
    simp only
    rw [← List.append_assoc, List.append_assoc _ [_] more, List.singleton_append, modify_append_cons _ _ _ _ hlen]
    simp

/-- Where no node tests for the rule, its conditions on different columns become a row of tests. -/
theorem chainTests_eq {bound rule : Nat} {nodes : List Node} {cs : List Condition}
    (hb : nodes.length + cs.length ≤ bound) (hrule : ∀ n ∈ nodes, n.isOutcome = false → n.rule ≠ rule)
    (hcs : (cs.map (·.feature)).Nodup) :
    chainTests bound rule nodes [] cs =
      .ok (nodes ++ testNodes rule none nodes.length cs, List.range' nodes.length cs.length) := by
  -- the row grows at its end, so the induction takes the conditions from the end
  induction cs using List.reverseRecOn with
  | nil => simp [chainTests, testNodes]
  | append_singleton cs c ih =>
    rw [List.map_append, List.map_singleton, List.nodup_append] at hcs
    rw [List.length_append, List.length_singleton] at hb
    have hfresh : ∀ n ∈ nodes ++ testNodes rule none nodes.length cs, Node.testsFor rule c n = false := by
      intro n hn
      rw [Node.testsFor]
      rcases List.mem_append.1 hn with hn | hn
      · cases ho : n.isOutcome with
        | true => rfl
        | false => simp [hrule n hn ho]
      · have hf : n.feature ≠ c.feature := hcs.2.2 _ (mem_testNodes hn).2.2 _ (List.mem_singleton_self _)
        simp [hf]
    rw [chainTests_append, ih (by omega) hcs.1]
    show chainTests bound rule _ _ [c] = _
    rw [chainTests, place_fresh hfresh (by simp; omega)]
    show Except.ok (_, _) = _
    rw [linkLast_testNodes, testNodes_snoc]
    simp [List.range'_1_concat, Node.ofCondition]

/-! ## The whole chain -/

/-- The place of the outcome that ends a chain of `k` tests after some nodes. -/
def outcomePlace (nodes : List Node) (k : Nat) (label : Value) : Nat :=
  (nodes.findIdx? (Node.predicts label)).getD (nodes.length + k)

/-- The outcome that ends a chain of `k` tests, unless the nodes have one of its label. -/
def newOutcome (rule labelColumn : Nat) (nodes : List Node) (k : Nat) (label : Value) : List Node :=
  if (nodes.findIdx? (Node.predicts label)).isSome then []
  else [{ Node.ofLabel rule labelColumn label with id := nodes.length + k }]

/-- Nodes and after them the chain of a rule. -/
def withChain (labelColumn : Nat) (order : List Nat) (nodes : List Node) (rule : Nat) (r : Rule) : List Node :=
  nodes ++ testNodes rule (some (outcomePlace nodes (ordered order r).length r.label)) nodes.length (ordered order r) ++
    newOutcome rule labelColumn nodes (ordered order r).length r.label

/-- The place where the chain of a rule begins. -/
def headPlace (order : List Nat) (nodes : List Node) (r : Rule) : Nat :=
  if (ordered order r).isEmpty then outcomePlace nodes (ordered order r).length r.label else nodes.length

/-- What `chain` makes of a rule for which no node tests yet. -/
theorem chain_eq {bound labelColumn rule : Nat} {order : List Nat} {nodes : List Node} {r : Rule} (horder : order.Nodup)
    (hb : nodes.length + (ordered order r).length < bound) (hrule : ∀ n ∈ nodes, n.isOutcome = false → n.rule ≠ rule) :
    chain bound labelColumn order nodes rule r = .ok {
      nodes := withChain labelColumn order nodes rule r
      head := headPlace order nodes r
      tests := List.range' nodes.length (ordered order r).length } := by
  have htests := chainTests_eq (Nat.le_of_lt hb) hrule (nodup_ordered horder r)
  have hfind : (nodes ++ testNodes rule none nodes.length (ordered order r)).findIdx? (Node.predicts r.label) =
      nodes.findIdx? (Node.predicts r.label) := by
    have hnone : (testNodes rule none nodes.length (ordered order r)).findIdx? (Node.predicts r.label) = none := by
      rw [List.findIdx?_eq_none_iff]
      intro n hn
      simp [Node.predicts, (mem_testNodes hn).1]
    rw [List.findIdx?_append, hnone]
    simp
  have hplace : place bound (nodes ++ testNodes rule none nodes.length (ordered order r)) (Node.predicts r.label)
      (Node.ofLabel rule labelColumn r.label) =
      .ok (outcomePlace nodes (ordered order r).length r.label,
        nodes ++ testNodes rule none nodes.length (ordered order r) ++
          newOutcome rule labelColumn nodes (ordered order r).length r.label) := by
    rw [place, hfind, outcomePlace, newOutcome]
    cases nodes.findIdx? (Node.predicts r.label) with
    | some i => simp
    | none => simp [push]; omega
  rw [chain]
  show (chainTests bound rule nodes [] (ordered order r) >>= _) = _
  rw [htests]
  show (place bound _ _ _ >>= _) = _
  rw [hplace]
  show Except.ok (Chain.mk (linkLast _ _ _) _ _) = _
  rw [linkLast_testNodes, withChain, headPlace]
  cases ordered order r <;> simp [List.range'_succ]

section WithChain

variable {labelColumn rule : Nat} {order : List Nat} {nodes : List Node} {r : Rule}

theorem getElem?_withChain_of_lt {i : Nat} (hi : i < nodes.length) :
    (withChain labelColumn order nodes rule r)[i]? = nodes[i]? := by
  rw [withChain, List.append_assoc, List.getElem?_append_left hi]

/-- The tests of a chain stand behind the nodes before it. -/
theorem getElem?_withChain_test {j : Nat} {n : Node}
    (h : (testNodes rule (some (outcomePlace nodes (ordered order r).length r.label)) nodes.length (ordered order r))[j]? =
      some n) : (withChain labelColumn order nodes rule r)[nodes.length + j]? = some n := by
  have hj := (List.getElem?_eq_some_iff.1 h).1
  rw [withChain, List.getElem?_append_left (by simpa using hj), List.getElem?_append_right (by simp),
    Nat.add_sub_cancel_left, h]

/-- A label equal to itself is predicted where the chain ends. -/
theorem getElem?_withChain_outcome (hlabel : (r.label == r.label) = true) :
    ∃ n, (withChain labelColumn order nodes rule r)[outcomePlace nodes (ordered order r).length r.label]? = some n ∧
      n.predicts r.label = true := by
  cases hf : nodes.findIdx? (Node.predicts r.label) with
  | some i =>
    obtain ⟨hi, hp, -⟩ := List.findIdx?_eq_some_iff_getElem.1 hf
    refine ⟨nodes[i], ?_, hp⟩
    simp only [outcomePlace, hf, Option.getD_some]
    rw [getElem?_withChain_of_lt hi, List.getElem?_eq_getElem hi]
  | none =>
    refine ⟨{ Node.ofLabel rule labelColumn r.label with id := nodes.length + (ordered order r).length }, ?_, ?_⟩
    · rw [withChain, outcomePlace, newOutcome, hf, List.getElem?_append_right (by simp)]
      simp
    · simp [Node.predicts, Node.isOutcome, Node.ofLabel, hlabel]

/-- A place is an old one, one in the row of tests, or that of a new outcome. -/
theorem withChain_cases {i : Nat} {n : Node} (h : (withChain labelColumn order nodes rule r)[i]? = some n) :
    nodes[i]? = some n ∨
      (∃ j, i = nodes.length + j ∧ (testNodes rule (some (outcomePlace nodes (ordered order r).length r.label)) nodes.length
        (ordered order r))[j]? = some n) ∨
      (nodes.length ≤ i ∧ i = outcomePlace nodes (ordered order r).length r.label ∧ n.rule = rule ∧
        n.isOutcome = true ∧ n.onTrue? = none ∧ n.onFalse? = none) := by
  by_cases hi : i < nodes.length
  · rw [getElem?_withChain_of_lt hi] at h
    exact Or.inl h
  · right
    obtain ⟨j, rfl⟩ : ∃ j, i = nodes.length + j := ⟨i - nodes.length, by omega⟩
    rw [withChain, List.append_assoc, List.getElem?_append_right (by simp), Nat.add_sub_cancel_left,
      List.getElem?_append] at h
    split at h
    · exact Or.inl ⟨j, rfl, h⟩
    · next hj =>
      right
      rw [length_testNodes] at hj h
      unfold newOutcome at h
      split at h
      · simp at h
      · next hnone =>
        obtain ⟨hj', rfl⟩ := List.getElem?_eq_some_iff.1 h
        rw [List.length_singleton] at hj'
        have hplace : nodes.length + j = outcomePlace nodes (ordered order r).length r.label := by
          rw [outcomePlace, Option.not_isSome_iff_eq_none.1 hnone, Option.getD_none]
          omega
        rw [List.getElem_singleton]
        exact ⟨by simp, hplace, rfl, rfl, rfl, rfl⟩

/-- A chain adds its tests and at most one outcome. -/
theorem length_withChain_le :
    (withChain labelColumn order nodes rule r).length ≤ nodes.length + ((ordered order r).length + 1) := by
  unfold withChain newOutcome
  split <;> simp

end WithChain

/-! ## Chains among nodes -/

/-- A node tests a condition for a rule. -/
structure TestOf (rule : Nat) (c : Condition) (n : Node) : Prop where
  rule_eq : n.rule = rule
  feature_eq : n.feature = c.feature
  value_eq : n.value = c.value
  kind_eq : n.kind = .test c.op

theorem TestOf.isOutcome {rule : Nat} {c : Condition} {n : Node} (h : TestOf rule c n) : n.isOutcome = false := by
  simp [Node.isOutcome, h.kind_eq]

/-- From a place on, tests of some conditions follow one another along the edges of holding tests, each leads to `next?` when it
fails, and after the last comes an outcome of a label. -/
def Chained (nodes : List Node) (rule : Nat) (next? : Option Nat) (label : Value) : List Condition → Nat → Prop
  | [], i => ∃ n, nodes[i]? = some n ∧ n.predicts label = true
  | c :: rest, i => ∃ n j, nodes[i]? = some n ∧ TestOf rule c n ∧ n.onFalse? = next? ∧ n.onTrue? = some j ∧
      Chained nodes rule next? label rest j

/-- A chain stays one among other nodes that keep its outcomes and, but for where they fail to, its tests. -/
theorem Chained.mono {nodes nodes' : List Node} {rule : Nat} {next? next'? : Option Nat} {label : Value}
    (houtcome : ∀ (i : Nat) (n : Node), nodes[i]? = some n → n.isOutcome = true → nodes'[i]? = some n)
    (htest : ∀ (i : Nat) (n : Node), nodes[i]? = some n → n.isOutcome = false → n.rule = rule → n.onFalse? = next? →
      nodes'[i]? = some { n with onFalse? := next'? })
    {cs : List Condition} {i : Nat} (h : Chained nodes rule next? label cs i) : Chained nodes' rule next'? label cs i := by
  induction cs generalizing i with
  | nil =>
    obtain ⟨n, hn, hp⟩ := h
    exact ⟨n, houtcome i n hn (Bool.and_eq_true_iff.1 hp).1, hp⟩
  | cons c rest ih =>
    obtain ⟨n, j, hn, ht, hf, hj, hrest⟩ := h
    refine ⟨_, j, htest i n hn ht.isOutcome ht.rule_eq hf, ?_, rfl, hj, ih hrest⟩
    exact ⟨ht.rule_eq, ht.feature_eq, ht.value_eq, ht.kind_eq⟩

/-- A row of tests and the outcome it leads to are a chain. -/
theorem chained_testNodes {nodes : List Node} {rule target start : Nat} {label : Value} {cs : List Condition}
    (htarget : ∃ n, nodes[target]? = some n ∧ n.predicts label = true)
    (hrow : ∀ i n, (testNodes rule (some target) start cs)[i]? = some n → nodes[start + i]? = some n) :
    Chained nodes rule none label cs (if cs.isEmpty then target else start) := by
  induction cs generalizing start with
  | nil => exact htarget
  | cons c rest ih =>
    refine ⟨_, if rest.isEmpty then target else start + 1, hrow 0 _ rfl, ⟨rfl, rfl, rfl, rfl⟩, rfl, ?_, ?_⟩
    · cases rest <;> rfl
    · refine ih fun i n hn => ?_
      rw [Nat.add_assoc, Nat.add_comm 1]
      exact hrow (i + 1) n hn

/-- Sorting the nodes moves a chain. -/
theorem Chained.relocate {nodes sorted : List Node} {place : Nat → Nat} (hs : Sorted nodes sorted place) {rule : Nat}
    {next? : Option Nat} {label : Value} {cs : List Condition} {i : Nat} (h : Chained nodes rule next? label cs i) :
    Chained sorted rule (next?.map place) label cs (place i) := by
  induction cs generalizing i with
  | nil =>
    obtain ⟨n, hn, hp⟩ := h
    exact ⟨_, hs.getElem_place i n hn, hp⟩
  | cons c rest ih =>
    obtain ⟨n, j, hn, ht, hf, hj, hrest⟩ := h
    refine ⟨_, place j, hs.getElem_place i n hn, ⟨ht.rule_eq, ht.feature_eq, ht.value_eq, ht.kind_eq⟩, ?_, ?_, ih hrest⟩
    · simp [Node.relocate, hf]
    · simp [Node.relocate, hj]

end FirstMatch.Graph
