import FirstMatch.Proofs.Graph.Meaning

/-!
# The shape of a compiled graph

Each chain adds a test for every condition of its rule, and an outcome if its label is new; `Stocked` counts them, and keeps track
of the rule that each node was made for. Laying one more chain keeps this (`Stocked.snoc`), and sorting the nodes moves it
(`Stocked.of_sorted`). So a compiled graph has the tests of each rule in a row, the failing ones leading to the next rule, and one
outcome for each label (`Shaped`, `compile_shaped`).
-/

namespace FirstMatch.Graph

/-! ## Different labels -/

/-- The different labels that rules predict. -/
def distinctLabels (rules : List Rule) : List Value := (rules.map (·.label)).eraseDups

/-- The label of one more rule is new if no rule before predicts it. -/
theorem distinctLabels_concat (rules : List Rule) (r : Rule) :
    distinctLabels (rules ++ [r]) = distinctLabels rules ++ if rules.any (·.label == r.label) then [] else [r.label] := by
  rw [distinctLabels, List.map_append, List.map_singleton, eraseDups_concat, List.any_map]
  rfl

/-! ## What one more chain adds -/

section Next

variable {labelColumn : Nat} {order : List Nat} {rules : List Rule} {nodes : List Node} {waiting : List Nat} {r : Rule}

/-- Linking failures changes nothing else of the nodes. -/
theorem countP_linkFailures {p : Node → Bool} (hp : ∀ (n : Node) (t : Nat), p { n with onFalse? := some t } = p n)
    (nodes : List Node) (visited : List Nat) (target : Nat) : (linkFailures nodes visited target).countP p = nodes.countP p := by
  have hmap : (linkFailures nodes visited target).map p = nodes.map p := by
    apply List.ext_getElem?
    intro i
    rw [List.getElem?_map, List.getElem?_map, getElem?_linkFailures, Option.map_map]
    congr 1
    funext n
    by_cases hi : i ∈ visited
    · simp [hi, hp]
    · simp [hi]
  have hcount : ∀ l : List Node, l.countP p = (l.map p).countP id := fun l => (List.countP_map (p := id) (f := p)).symm
  rw [hcount, hcount, hmap]

/-- The nodes after one more chain are those before, the tests of its rule, and its outcome if that is new. -/
theorem countP_withNext {p : Node → Bool} (hp : ∀ (n : Node) (t : Nat), p { n with onFalse? := some t } = p n) :
    (withNext labelColumn order rules nodes waiting r).countP p = nodes.countP p +
      (testNodes rules.length (some (outcomePlace nodes (ordered order r).length r.label)) nodes.length
        (ordered order r)).countP p +
      (newOutcome rules.length labelColumn nodes (ordered order r).length r.label).countP p := by
  rw [withNext, countP_linkFailures hp, withChain, List.countP_append, List.countP_append]

theorem isOutcome_of_predicts {v : Value} {n : Node} (h : n.predicts v = true) : n.isOutcome = true :=
  (Bool.and_eq_true_iff.1 h).1

/-- No test counts as an outcome. -/
theorem countP_testNodes_outcome {p : Node → Bool} (hp : ∀ n, p n = true → n.isOutcome = true) (rule : Nat)
    (last? : Option Nat) (start : Nat) (cs : List Condition) : (testNodes rule last? start cs).countP p = 0 := by
  rw [List.countP_eq_zero]
  intro n hn hpn
  have ho := (mem_testNodes hn).1
  rw [hp n hpn] at ho
  cases ho

/-- The tests of a row are as many as its conditions. -/
theorem countP_testNodes_test (rule : Nat) (last? : Option Nat) (start : Nat) (cs : List Condition) :
    (testNodes rule last? start cs).countP (fun n => !n.isOutcome) = cs.length := by
  rw [← length_testNodes rule last? start cs, List.countP_eq_length]
  intro n hn
  rw [(mem_testNodes hn).1]
  rfl

/-- A new outcome is one for its label. -/
theorem countP_newOutcome (rule labelColumn : Nat) (nodes : List Node) (k : Nat) (label v : Value) :
    (newOutcome rule labelColumn nodes k label).countP (Node.predicts v) =
      if nodes.any (Node.predicts label) then 0 else if label == v then 1 else 0 := by
  rw [newOutcome, List.findIdx?_isSome]
  split
  · rfl
  · rw [List.countP_singleton]
    rfl

/-- A chain brings an outcome of its own if no node predicts its label. -/
theorem newOutcome_eq (rule labelColumn : Nat) (nodes : List Node) (k : Nat) (label : Value) :
    newOutcome rule labelColumn nodes k label =
      if nodes.any (Node.predicts label) then [] else [{ Node.ofLabel rule labelColumn label with id := nodes.length + k }] := by
  rw [newOutcome, List.findIdx?_isSome]

end Next

/-! ## The invariant -/

/-- A place leads to another along the edge of a holding test. -/
def TrueEdge (nodes : List Node) (i j : Nat) : Prop := ∃ n, nodes[i]? = some n ∧ n.onTrue? = some j

theorem TrueEdge.edge {nodes : List Node} {i j : Nat} (h : TrueEdge nodes i j) : Edge nodes i j := by
  obtain ⟨n, hn, hj⟩ := h
  exact edge_iff.2 ⟨n, hn, Or.inl hj⟩

/-- An outcome stands on the label column and was made for the first rule that predicts its label. -/
def FirstPredicted (labelColumn : Nat) (rules : List Rule) (n : Node) : Prop :=
  n.feature = labelColumn ∧ ∃ r, rules[n.rule]? = some r ∧ n.value = r.label ∧
    ∀ q ∈ rules.take n.rule, (q.label == r.label) = false

/-- There is a test for each condition, and one outcome for each label. Each node is reached from where the chain of its rule
begins, along edges of holding tests. -/
structure Stocked (labelColumn : Nat) (order : List Nat) (rules : List Rule) (nodes : List Node) (heads : List Nat) : Prop where
  tests : nodes.countP (fun n => !n.isOutcome) = (rules.map fun r => (ordered order r).length).sum
  outcomes : nodes.countP (·.isOutcome) = (distinctLabels rules).length
  once : ∀ v, nodes.countP (Node.predicts v) = if rules.any (·.label == v) then 1 else 0
  first : ∀ n ∈ nodes, n.isOutcome = true → FirstPredicted labelColumn rules n
  owned : ∀ i n, nodes[i]? = some n → ∃ h, heads[n.rule]? = some h ∧ Relation.ReflTransGen (TrueEdge nodes) h i

theorem stocked_nil (labelColumn : Nat) (order : List Nat) : Stocked labelColumn order [] [] [] where
  tests := rfl
  outcomes := rfl
  once := by simp
  first := by simp
  owned := by simp

namespace Stocked

variable {labelColumn : Nat} {order : List Nat} {rules : List Rule} {nodes : List Node} {waiting heads : List Nat} {r : Rule}

/-- A label has an outcome if a rule predicts it. -/
theorem any_predicts (h : Stocked labelColumn order rules nodes heads) (v : Value) :
    nodes.any (Node.predicts v) = rules.any (·.label == v) := by
  have honce := h.once v
  cases hr : rules.any (·.label == v) with
  | true =>
    rw [hr, if_pos rfl] at honce
    obtain ⟨n, hn, hp⟩ := List.countP_pos_iff.1 (show 0 < nodes.countP (Node.predicts v) by omega)
    exact List.any_eq_true.2 ⟨n, hn, hp⟩
  | false =>
    rw [hr, if_neg (by simp), List.countP_eq_zero] at honce
    rw [List.any_eq_false]
    exact honce

/-! ### One more chain -/

/-- An outcome was there before the chain, or is its own. -/
theorem mem_withNext_outcome {n : Node} (hn : n ∈ withNext labelColumn order rules nodes waiting r)
    (ho : n.isOutcome = true) :
    ∃ m, (m ∈ nodes ∨ m ∈ newOutcome rules.length labelColumn nodes (ordered order r).length r.label) ∧
      m.isOutcome = true ∧ n.rule = m.rule ∧ n.feature = m.feature ∧ n.value = m.value := by
  obtain ⟨i, hi⟩ := List.getElem?_of_mem hn
  rw [withNext, getElem?_linkFailures, Option.map_eq_some_iff] at hi
  obtain ⟨m, hm, rfl⟩ := hi
  have hom : m.isOutcome = true := by split at ho <;> exact ho
  refine ⟨m, ?_, hom, by split <;> rfl, by split <;> rfl, by split <;> rfl⟩
  have hmem := List.mem_of_getElem? hm
  rw [withChain, List.mem_append, List.mem_append] at hmem
  rcases hmem with (hmem | hmem) | hmem
  · exact Or.inl hmem
  · rw [(mem_testNodes hmem).1] at hom
    cases hom
  · exact Or.inr hmem

/-- After the next chain, outcomes are still made for the first rules that predict their labels. -/
theorem first_withNext (h : Stocked labelColumn order rules nodes heads) {n : Node}
    (hn : n ∈ withNext labelColumn order rules nodes waiting r) (ho : n.isOutcome = true) :
    FirstPredicted labelColumn (rules ++ [r]) n := by
  obtain ⟨m, hm, hom, hrule, hfeature, hvalue⟩ := mem_withNext_outcome hn ho
  rw [FirstPredicted, hrule, hfeature, hvalue]
  rcases hm with hm | hm
  · obtain ⟨hcolumn, q, hq, hlabel, hbefore⟩ := h.first m hm hom
    have hlt := (List.getElem?_eq_some_iff.1 hq).1
    rw [List.getElem?_append_left hlt, List.take_append_of_le_length (Nat.le_of_lt hlt)]
    exact ⟨hcolumn, q, hq, hlabel, hbefore⟩
  · rw [newOutcome_eq, h.any_predicts] at hm
    split at hm
    · cases hm
    · next hnew =>
      obtain rfl := List.mem_singleton.1 hm
      refine ⟨rfl, r, List.getElem?_concat_length, rfl, fun q hq => ?_⟩
      have hq' : q ∈ rules := by simpa [Node.ofLabel] using hq
      simpa using List.any_eq_false.1 (Bool.not_eq_true _ ▸ hnew) q hq'

/-- The edges of holding tests stay when the next chain comes. -/
theorem trueEdge_withNext {i j : Nat} (h : TrueEdge nodes i j) :
    TrueEdge (withNext labelColumn order rules nodes waiting r) i j := by
  obtain ⟨n, hn, hj⟩ := h
  refine ⟨_, getElem?_withNext_old hn, ?_⟩
  split <;> exact hj

section Row

variable (hlaid : Laid order rules nodes waiting heads)

include hlaid

/-- A test of the new row leads onward when it holds. -/
theorem trueEdge_row (labelColumn : Nat) {j : Nat} (hj : j < (ordered order r).length) :
    TrueEdge (withNext labelColumn order rules nodes waiting r) (nodes.length + j)
      (if j + 1 = (ordered order r).length then outcomePlace nodes (ordered order r).length r.label
        else nodes.length + j + 1) := by
  obtain ⟨n, hn⟩ : ∃ n, (testNodes rules.length (some (outcomePlace nodes (ordered order r).length r.label)) nodes.length
    (ordered order r))[j]? = some n := ⟨_, List.getElem?_eq_getElem (by simpa using hj)⟩
  refine ⟨n, hlaid.getElem?_withNext_new (Nat.le_add_right _ _) (getElem?_withChain_test hn), ?_⟩
  rw [(edges_testNodes hn).2]
  split <;> rfl

/-- Each test of the new row is reached from the first. -/
theorem row_reached (labelColumn : Nat) {j : Nat} (hj : j < (ordered order r).length) :
    Relation.ReflTransGen (TrueEdge (withNext labelColumn order rules nodes waiting r)) nodes.length (nodes.length + j) := by
  induction j with
  | zero => exact Relation.ReflTransGen.refl
  | succ j ih =>
    have hedge := trueEdge_row hlaid labelColumn (show j < (ordered order r).length by omega)
    rw [if_neg (by omega)] at hedge
    exact (ih (by omega)).tail hedge

/-- The outcome of the new chain is reached from where the chain begins. -/
theorem outcome_reached (labelColumn : Nat) (r : Rule) :
    Relation.ReflTransGen (TrueEdge (withNext labelColumn order rules nodes waiting r)) (headPlace order nodes r)
      (outcomePlace nodes (ordered order r).length r.label) := by
  unfold headPlace
  cases hcs : (ordered order r).isEmpty with
  | true =>
    rw [if_pos rfl]
  | false =>
    have hpos : 0 < (ordered order r).length := by simpa [List.length_pos_iff] using hcs
    have hlast : (ordered order r).length - 1 < (ordered order r).length := by omega
    have hedge := trueEdge_row hlaid labelColumn hlast
    rw [if_pos (by omega)] at hedge
    rw [if_neg (by simp)]
    exact (row_reached hlaid labelColumn hlast).tail hedge

/-- Every node is reached from where the chain of its rule begins. -/
theorem owned_withNext (h : Stocked labelColumn order rules nodes heads) {i : Nat} {n : Node}
    (hn : (withNext labelColumn order rules nodes waiting r)[i]? = some n) :
    ∃ k, (heads ++ [headPlace order nodes r])[n.rule]? = some k ∧
      Relation.ReflTransGen (TrueEdge (withNext labelColumn order rules nodes waiting r)) k i := by
  have hnew : (heads ++ [headPlace order nodes r])[rules.length]? = some (headPlace order nodes r) := by
    rw [← hlaid.heads_length, List.getElem?_concat_length]
  rcases hlaid.withNext_cases hn with ⟨m, hm, hnm⟩ | ⟨j, rfl, hj⟩ | ⟨rfl, hrule, -⟩
  · obtain ⟨k, hk, hpath⟩ := h.owned i m hm
    have hrule : n.rule = m.rule := by
      rw [hnm]
      split <;> rfl
    have hlt := (List.getElem?_eq_some_iff.1 hk).1
    rw [hrule, List.getElem?_append_left hlt]
    exact ⟨k, hk, hpath.lift id fun _ _ => trueEdge_withNext⟩
  · have hlt : j < (ordered order r).length := by simpa using (List.getElem?_eq_some_iff.1 hj).1
    have hne : (ordered order r).isEmpty = false := by
      cases hcs : ordered order r with
      | nil => simp [hcs] at hlt
      | cons c cs => rfl
    rw [(mem_testNodes (List.mem_of_getElem? hj)).2.1]
    refine ⟨_, hnew, ?_⟩
    rw [headPlace, hne, if_neg (by simp)]
    exact row_reached hlaid labelColumn hlt
  · rw [hrule]
    exact ⟨_, hnew, outcome_reached hlaid labelColumn r⟩

/-- One more chain adds a test for each condition of its rule, and an outcome if its label is new. -/
theorem snoc (h : Stocked labelColumn order rules nodes heads) :
    Stocked labelColumn order (rules ++ [r]) (withNext labelColumn order rules nodes waiting r)
      (heads ++ [headPlace order nodes r]) where
  tests := by
    have hnone : (newOutcome rules.length labelColumn nodes (ordered order r).length r.label).countP
        (fun n => !n.isOutcome) = 0 := by
      unfold newOutcome
      split <;> rfl
    rw [countP_withNext fun _ _ => rfl, h.tests, countP_testNodes_test, hnone]
    simp
  outcomes := by
    rw [countP_withNext fun _ _ => rfl, h.outcomes, countP_testNodes_outcome fun _ ho => ho, newOutcome_eq, h.any_predicts,
      distinctLabels_concat, List.length_append]
    split <;> rfl
  once v := by
    have hp : ∀ (n : Node) (t : Nat), Node.predicts v { n with onFalse? := some t } = Node.predicts v n := fun _ _ => rfl
    rw [countP_withNext hp, countP_testNodes_outcome fun _ => isOutcome_of_predicts, countP_newOutcome, h.once,
      h.any_predicts, List.any_append]
    cases hv : r.label == v with
    | true =>
      have hsame : rules.any (·.label == r.label) = rules.any (·.label == v) := by
        congr 1
        funext q
        rw [Bool.eq_iff_iff]
        exact ⟨fun hq => PartialEquivBEq.trans hq hv, fun hq => PartialEquivBEq.trans hq (PartialEquivBEq.symm hv)⟩
      rw [hsame]
      cases rules.any (·.label == v) <;> simp [hv]
    | false =>
      cases rules.any (·.label == v) <;> simp [hv]
  first _ hn ho := h.first_withNext hn ho
  owned _ _ hn := owned_withNext hlaid h hn

end Row

end Stocked

/-- Building lays the chain of every rule, and stocks the nodes. -/
theorem build_stocked (labelColumn : Nat) {order : List Nat} {rules : List Rule} (horder : order.Nodup)
    (hlabels : ∀ r ∈ rules, (r.label == r.label) = true) :
    ∃ nodes waiting heads, build rules labelColumn order = .ok nodes ∧ Laid order rules nodes waiting heads ∧
      Stocked labelColumn order rules nodes heads :=
  chains_laid horder (fun hlaid _ h => h.snoc hlaid) rules [] [] [] [] (laid_nil order) (stocked_nil labelColumn order) hlabels
    (room_le_bound order rules)

/-! ## Sorting -/

section Sorting

variable {nodes sorted : List Node} {place : Nat → Nat}

/-- A sorted node is one that was moved to its place. -/
theorem TrueEdge.relocate (hs : Sorted nodes sorted place) {i j : Nat} (h : TrueEdge nodes i j) :
    TrueEdge sorted (place i) (place j) := by
  obtain ⟨n, hn, hj⟩ := h
  exact ⟨_, hs.getElem_place i n hn, by simp [Node.relocate, hj]⟩

/-- Sorting keeps how many nodes have a property that does not turn on their places. -/
theorem countP_of_topologicalSort (closed : Closed nodes) (hsort : topologicalSort nodes = .ok sorted) {p : Node → Bool}
    (hp : ∀ place id n, p (Node.relocate place id n) = p n) : sorted.countP p = nodes.countP p := by
  have hcount : ∀ l : List Node, l.countP p = (l.map p).countP id := fun l => (List.countP_map (p := id) (f := p)).symm
  rw [hcount, hcount]
  exact (perm_map_of_topologicalSort hp closed hsort).countP_eq id

/-- Sorted nodes are stocked as they were. -/
theorem Stocked.of_sorted {labelColumn : Nat} {order : List Nat} {rules : List Rule} {heads : List Nat}
    (h : Stocked labelColumn order rules nodes heads) (closed : Closed nodes) (hsort : topologicalSort nodes = .ok sorted)
    (hs : Sorted nodes sorted place) : Stocked labelColumn order rules sorted (heads.map place) where
  tests := by rw [countP_of_topologicalSort closed hsort fun _ _ _ => rfl, h.tests]
  outcomes := by rw [countP_of_topologicalSort closed hsort fun _ _ _ => rfl, h.outcomes]
  once v := by
    have hp : ∀ place id n, Node.predicts v (Node.relocate place id n) = Node.predicts v n := fun _ _ _ => rfl
    rw [countP_of_topologicalSort closed hsort hp, h.once]
  first n hn ho := by
    obtain ⟨p, hp⟩ := List.getElem?_of_mem hn
    obtain ⟨v, m, hm, -, rfl⟩ := hs.exists_moved hp
    exact h.first m (List.mem_of_getElem? hm) ho
  owned i n hn := by
    obtain ⟨v, m, hm, rfl, rfl⟩ := hs.exists_moved hn
    obtain ⟨k, hk, hpath⟩ := h.owned v m hm
    have hk' : (heads.map place)[m.rule]? = some (place k) := by rw [List.getElem?_map, hk, Option.map_some]
    exact ⟨place k, hk', hpath.lift place fun _ _ => TrueEdge.relocate hs⟩

end Sorting

/-! ## Following edges -/

/-- Outcomes lead nowhere. -/
def Leaves (nodes : List Node) : Prop := ∀ n ∈ nodes, n.isOutcome = true → n.onTrue? = none ∧ n.onFalse? = none

theorem follow_none (edge : Node → Option Nat) (nodes : List Node) (fuel : Nat) : follow edge nodes fuel none = [] := by
  cases fuel <;> rfl

theorem follow_some (edge : Node → Option Nat) {nodes : List Node} {fuel i : Nat} {n : Node} (hn : nodes[i]? = some n) :
    follow edge nodes (fuel + 1) (some i) = i :: follow edge nodes fuel (edge n) := by
  rw [follow, hn, Option.bind_some]

section Following

variable {nodes : List Node} (ascending : ∀ i j, Edge nodes i j → i < j) (leaves : Leaves nodes)

include ascending leaves

/-- Along holding tests a chain is followed through all its tests to its outcome. -/
theorem length_follow_chain {rule : Nat} {next? : Option Nat} {label : Value} {cs : List Condition} {fuel i : Nat}
    (h : Chained nodes rule next? label cs i) (hfuel : nodes.length ≤ fuel + i) :
    (follow Node.onTrue? nodes fuel (some i)).length = cs.length + 1 := by
  induction cs generalizing fuel i with
  | nil =>
    obtain ⟨n, hn, hp⟩ := h
    obtain ⟨fuel, rfl⟩ := exists_fuel hn hfuel
    have hleaf := leaves n (List.mem_of_getElem? hn) (isOutcome_of_predicts hp)
    rw [follow_some _ hn, hleaf.1, follow_none]
    rfl
  | cons c rest ih =>
    obtain ⟨n, j, hn, ht, -, hj, hrest⟩ := h
    obtain ⟨fuel, rfl⟩ := exists_fuel hn hfuel
    have hlt := ascending i j (edge_iff.2 ⟨n, hn, Or.inl hj⟩)
    rw [follow_some _ hn, hj, List.length_cons, ih hrest (by omega), List.length_cons]

omit ascending in
/-- What is reached along holding tests from the beginning of a chain begins a part of the chain. -/
theorem chained_of_reached {rule : Nat} {next? : Option Nat} {label : Value} {cs : List Condition} {i j : Nat}
    (h : Chained nodes rule next? label cs i) (hij : Relation.ReflTransGen (TrueEdge nodes) i j) :
    ∃ rest, rest <:+ cs ∧ Chained nodes rule next? label rest j := by
  induction hij with
  | refl => exact ⟨cs, List.suffix_refl cs, h⟩
  | tail _ he ih =>
    obtain ⟨rest, hsuffix, hrest⟩ := ih
    obtain ⟨n, hn, hj⟩ := he
    cases rest with
    | nil =>
      obtain ⟨m, hm, hp⟩ := hrest
      obtain rfl := Option.some.inj (hn.symm.trans hm)
      rw [(leaves n (List.mem_of_getElem? hn) (isOutcome_of_predicts hp)).1] at hj
      cases hj
    | cons c rest =>
      obtain ⟨m, k, hm, -, -, hk, hrest⟩ := hrest
      obtain rfl := Option.some.inj (hn.symm.trans hm)
      obtain rfl := Option.some.inj (hk.symm.trans hj)
      exact ⟨rest, (List.suffix_cons c rest).trans hsuffix, hrest⟩

end Following

/-! ## The chains of all rules -/

theorem ordered_of_isDefault (order : List Nat) {r : Rule} (h : r.isDefault = true) : ordered order r = [] := by
  rw [Rule.isDefault, List.isEmpty_iff] at h
  simp [ordered, Rule.conditionOn?, h]

/-- The last rule is the one without tests. -/
theorem ordered_eq_nil_iff {order : List Nat} {rules : List Rule} (ends : EndsInDefault rules) (covered : Covers order rules)
    {k : Nat} {r : Rule} (hr : rules[k]? = some r) : ordered order r = [] ↔ k + 1 = rules.length := by
  obtain ⟨hk, rfl⟩ := List.getElem?_eq_some_iff.1 hr
  constructor
  · intro hnil
    have hd := isDefault_of_ordered covered (List.getElem_mem hk) hnil
    by_contra hne
    have hk' : k < rules.dropLast.length := by
      rw [List.length_dropLast]
      omega
    have hmem := List.getElem_mem hk'
    rw [List.getElem_dropLast] at hmem
    rw [ends.only_last _ hmem] at hd
    cases hd
  · intro hlast
    have hlast' : rules[k] = rules.getLast ends.ne_nil := by
      rw [List.getLast_eq_getElem]
      congr 1
      omega
    rw [hlast']
    exact ordered_of_isDefault order ends.last_default

namespace Represents

variable {order : List Nat} {rules : List Rule} {nodes : List Node} {heads : List Nat} (h : Represents order rules nodes heads)

include h

theorem exists_rule {k i : Nat} (hi : heads[k]? = some i) : ∃ r, rules[k]? = some r := by
  have hk := (List.getElem?_eq_some_iff.1 hi).1
  exact ⟨_, List.getElem?_eq_getElem (h.heads_length ▸ hk)⟩

section Ends

variable (leaves : Leaves nodes) (ends : EndsInDefault rules) (covered : Covers order rules)

include leaves ends covered

/-- Where a chain begins, the failing test leads to where the next one begins. -/
theorem onFalse_head {k i : Nat} (hi : heads[k]? = some i) : ∃ n, nodes[i]? = some n ∧ n.onFalse? = heads[k + 1]? := by
  obtain ⟨r, hr⟩ := h.exists_rule hi
  have hc := h.chained k r i hr hi
  cases hcs : ordered order r with
  | nil =>
    rw [hcs] at hc
    obtain ⟨n, hn, hp⟩ := hc
    have hlast := (ordered_eq_nil_iff ends covered hr).1 hcs
    have hnone : heads[k + 1]? = none := by rw [List.getElem?_eq_none_iff, h.heads_length, hlast]
    rw [hnone]
    exact ⟨n, hn, (leaves n (List.mem_of_getElem? hn) (isOutcome_of_predicts hp)).2⟩
  | cons c cs =>
    rw [hcs] at hc
    obtain ⟨n, -, hn, -, hf, -⟩ := hc
    exact ⟨n, hn, hf⟩

/-- Along failing tests the beginnings of the chains are met in order. -/
theorem follow_heads (d : Nat) : ∀ k i fuel, k + d + 1 = heads.length → heads[k]? = some i → nodes.length ≤ fuel + i →
    follow Node.onFalse? nodes fuel (some i) = heads.drop k := by
  induction d with
  | zero =>
    intro k i fuel hk hi hfuel
    obtain ⟨n, hn, hf⟩ := h.onFalse_head leaves ends covered hi
    obtain ⟨fuel, rfl⟩ := exists_fuel hn hfuel
    have hend : heads.length ≤ k + 1 := by omega
    rw [follow_some _ hn, hf, List.getElem?_eq_none hend, follow_none]
    obtain ⟨hk', rfl⟩ := List.getElem?_eq_some_iff.1 hi
    rw [List.drop_eq_getElem_cons hk', List.drop_eq_nil_of_le hend]
  | succ d ih =>
    intro k i fuel hk hi hfuel
    obtain ⟨n, hn, hf⟩ := h.onFalse_head leaves ends covered hi
    obtain ⟨fuel, rfl⟩ := exists_fuel hn hfuel
    obtain ⟨j, hj⟩ : ∃ j, heads[k + 1]? = some j := ⟨_, List.getElem?_eq_getElem (by omega)⟩
    have hlt := h.ascending i j (edge_iff.2 ⟨n, hn, Or.inr (hf.trans hj)⟩)
    rw [follow_some _ hn, hf, hj, ih (k + 1) j fuel (by omega) hj (by omega)]
    obtain ⟨hk', rfl⟩ := List.getElem?_eq_some_iff.1 hi
    exact (List.drop_eq_getElem_cons hk').symm

/-- The roots of the graph are where the chains begin. -/
theorem roots_eq : (ofNodes nodes).roots = heads := by
  have hpos := List.length_pos_iff.2 ends.ne_nil
  have hlen := h.heads_length
  exact h.follow_heads leaves ends covered (heads.length - 1) 0 0 nodes.length (by omega) h.root (Nat.le_refl _)

/-- Every chain begins within reach of the first place. -/
theorem head_reached {k i : Nat} (hi : heads[k]? = some i) : Relation.ReflTransGen (Edge nodes) 0 i := by
  induction k generalizing i with
  | zero =>
    obtain rfl := Option.some.inj (h.root.symm.trans hi)
    exact Relation.ReflTransGen.refl
  | succ k ih =>
    have hk := (List.getElem?_eq_some_iff.1 hi).1
    obtain ⟨j, hj⟩ : ∃ j, heads[k]? = some j := ⟨_, List.getElem?_eq_getElem (Nat.lt_of_succ_lt hk)⟩
    obtain ⟨n, hn, hf⟩ := h.onFalse_head leaves ends covered hj
    exact (ih hj).tail (edge_iff.2 ⟨n, hn, Or.inr (hf.trans hi)⟩)

/-- The longest chain of holding tests has the tests of the longest rule, and an outcome. -/
theorem depth_eq (hlength : ∀ r ∈ rules, (ordered order r).length = r.conditions.length) :
    (ofNodes nodes).depth = 1 + (rules.map (·.conditions.length)).foldl max 0 := by
  have hchains : heads.map (fun i => (follow Node.onTrue? nodes nodes.length (some i)).length) =
      rules.map fun r => 1 + r.conditions.length := by
    apply List.ext_getElem?
    intro k
    rw [List.getElem?_map, List.getElem?_map]
    cases hi : heads[k]? with
    | none =>
      rw [List.getElem?_eq_none_iff, h.heads_length] at hi
      rw [List.getElem?_eq_none hi]
      rfl
    | some i =>
      obtain ⟨r, hr⟩ := h.exists_rule hi
      have hchain := length_follow_chain h.ascending leaves (h.chained k r i hr hi) (Nat.le_add_right _ _)
      rw [hr, Option.map_some, Option.map_some, hchain, hlength r (List.mem_of_getElem? hr), Nat.add_comm]
  show ((ofNodes nodes).roots.map fun i => (follow Node.onTrue? nodes nodes.length (some i)).length).foldl max 0 = _
  rw [h.roots_eq leaves ends covered, hchains]
  obtain ⟨r, rest, hrules⟩ := List.exists_cons_of_ne_nil ends.ne_nil
  have hmax : ∀ (l : List Rule) (m : Nat), (l.map fun r => 1 + r.conditions.length).foldl max (1 + m) =
      1 + (l.map (·.conditions.length)).foldl max m := by
    intro l
    induction l with
    | nil => exact fun m => rfl
    | cons q l ih =>
      intro m
      rw [List.map_cons, List.map_cons, List.foldl_cons, List.foldl_cons, ← ih, Nat.add_max_add_left]
  rw [hrules, List.map_cons, List.map_cons, List.foldl_cons, List.foldl_cons, Nat.zero_max, Nat.zero_max, hmax]

end Ends

end Represents

/-! ## The shape -/

/-- A graph has the shape of rules whose conditions are tested in an order of columns: node `i` has number `i`, every edge leads
onward, and every node is reached from the root, which is that of the first rule. The tests of each rule stand in a row from its
root, fail to the next rule's root, and end in the outcome of its label. Outcomes stand on the label column, one for each label,
made for the first rule that predicts it. -/
structure Shaped (labelColumn : Nat) (order : List Nat) (rules : List Rule) (g : Graph) : Prop where
  numbered : ∀ (i : Nat) (n : Node), g.nodes[i]? = some n → n.id = i
  ascending : ∀ i j, Edge g.nodes i j → i < j
  reachable : ∀ i, i < g.size → Relation.ReflTransGen (Edge g.nodes) g.root i
  roots_length : g.roots.length = rules.length
  roots_head : g.roots[0]? = some g.root
  tests : ∀ r ∈ rules, (ordered order r).Perm r.conditions ∧ ((ordered order r).map (·.feature)).Sublist order
  chained : ∀ k r h, rules[k]? = some r → g.roots[k]? = some h → Chained g.nodes k g.roots[k + 1]? r.label (ordered order r) h
  fails : ∀ n ∈ g.nodes, n.isOutcome = false → ∃ r c h, rules[n.rule]? = some r ∧ c ∈ r.conditions ∧ TestOf n.rule c n ∧
    g.roots[n.rule + 1]? = some h ∧ n.onFalse? = some h
  leaves : Leaves g.nodes
  outcomes : ∀ n ∈ g.nodes, n.isOutcome = true → FirstPredicted labelColumn rules n
  outcome_once : ∀ r ∈ rules, g.nodes.countP (Node.predicts r.label) = 1
  size_eq : g.size = (rules.map (·.conditions.length)).sum + (distinctLabels rules).length
  height_eq : g.height = (distinctLabels rules).length
  depth_eq : g.depth = 1 + (rules.map (·.conditions.length)).foldl max 0

/-- The chain of a rule that tests each column once has its conditions in the order of the columns. -/
theorem perm_ordered {order : List Nat} {rules : List Rule} {r : Rule} (horder : order.Nodup) (covered : Covers order rules)
    (hr : r ∈ rules) (distinct : (r.conditions.map (·.feature)).Nodup) : (ordered order r).Perm r.conditions := by
  rw [List.perm_ext_iff_of_nodup (List.Nodup.of_map _ (nodup_ordered horder r)) (List.Nodup.of_map _ distinct)]
  intro c
  exact mem_ordered covered hr distinct

/-- A test was made for a condition of its rule, and fails to where the next chain begins. -/
theorem Represents.fails {order : List Nat} {rules : List Rule} {nodes : List Node} {heads : List Nat}
    (h : Represents order rules nodes heads) (leaves : Leaves nodes) (ends : EndsInDefault rules) (covered : Covers order rules)
    {i k : Nat} {n : Node} (hn : nodes[i]? = some n) (ho : n.isOutcome = false) (hk : heads[n.rule]? = some k)
    (hpath : Relation.ReflTransGen (TrueEdge nodes) k i) : ∃ r c j, rules[n.rule]? = some r ∧ c ∈ ordered order r ∧
      TestOf n.rule c n ∧ heads[n.rule + 1]? = some j ∧ n.onFalse? = some j := by
  obtain ⟨r, hr⟩ := h.exists_rule hk
  obtain ⟨rest, hsuffix, hrest⟩ := chained_of_reached leaves (h.chained n.rule r k hr hk) hpath
  cases rest with
  | nil =>
    obtain ⟨m, hm, hp⟩ := hrest
    obtain rfl := Option.some.inj (hn.symm.trans hm)
    rw [isOutcome_of_predicts hp] at ho
    cases ho
  | cons c rest =>
    obtain ⟨m, j, hm, ht, hf, -⟩ := hrest
    obtain rfl := Option.some.inj (hn.symm.trans hm)
    have hc : c ∈ ordered order r := hsuffix.subset List.mem_cons_self
    have hnotlast : n.rule + 1 ≠ rules.length := by
      intro hlast
      rw [(ordered_eq_nil_iff ends covered hr).2 hlast] at hc
      cases hc
    have hlt := (List.getElem?_eq_some_iff.1 hr).1
    obtain ⟨j, hj⟩ : ∃ j, heads[n.rule + 1]? = some j := ⟨_, List.getElem?_eq_getElem (by rw [h.heads_length]; omega)⟩
    exact ⟨r, c, j, hr, hc, ht, hj, hf.trans hj⟩

/-- Outcomes still lead nowhere after sorting. -/
theorem Sorted.leaves {nodes sorted : List Node} {place : Nat → Nat} (hs : Sorted nodes sorted place) (h : Leaves nodes) :
    Leaves sorted := by
  intro n hn ho
  obtain ⟨p, hp⟩ := List.getElem?_of_mem hn
  obtain ⟨v, m, hm, -, rfl⟩ := hs.exists_moved hp
  obtain ⟨ht, hf⟩ := h m (List.mem_of_getElem? hm) ho
  simp [Node.relocate, ht, hf]

/-- Sorted nodes are numbered by their places. -/
theorem Sorted.numbered {nodes sorted : List Node} {place : Nat → Nat} (hs : Sorted nodes sorted place) {i : Nat} {n : Node}
    (hn : sorted[i]? = some n) : n.id = i := by
  obtain ⟨v, m, -, -, rfl⟩ := hs.exists_moved hn
  rfl

/-- Nodes that represent rules and are stocked for them make a graph of their shape. -/
theorem shaped_ofNodes {labelColumn : Nat} {order : List Nat} {rules : List Rule} {nodes : List Node} {heads : List Nat}
    (h : Represents order rules nodes heads) (stocked : Stocked labelColumn order rules nodes heads) (leaves : Leaves nodes)
    (numbered : ∀ (i : Nat) (n : Node), nodes[i]? = some n → n.id = i) (ends : EndsInDefault rules) (horder : order.Nodup)
    (covered : Covers order rules) (hlabels : ∀ r ∈ rules, (r.label == r.label) = true)
    (distinct : ∀ r ∈ rules, (r.conditions.map (·.feature)).Nodup) : Shaped labelColumn order rules (ofNodes nodes) := by
  have hroots := h.roots_eq leaves ends covered
  have hperm : ∀ r ∈ rules, (ordered order r).Perm r.conditions := fun r hr => perm_ordered horder covered hr (distinct r hr)
  have hlength : ∀ r ∈ rules, (ordered order r).length = r.conditions.length := fun r hr => (hperm r hr).length_eq
  constructor
  case numbered => exact numbered
  case ascending => exact h.ascending
  case reachable =>
    intro i hi
    obtain ⟨n, hn⟩ : ∃ n, nodes[i]? = some n := ⟨_, List.getElem?_eq_getElem hi⟩
    obtain ⟨k, hk, hpath⟩ := stocked.owned i n hn
    exact (h.head_reached leaves ends covered hk).trans (hpath.lift id fun _ _ => TrueEdge.edge)
  case roots_length => rw [hroots, h.heads_length]
  case roots_head =>
    rw [hroots]
    exact h.root
  case tests =>
    intro r hr
    refine ⟨hperm r hr, ?_⟩
    rw [map_feature_ordered]
    exact List.filter_sublist
  case chained =>
    rw [hroots]
    exact h.chained
  case fails =>
    intro n hn ho
    obtain ⟨i, hi⟩ := List.getElem?_of_mem hn
    obtain ⟨k, hk, hpath⟩ := stocked.owned i n hi
    obtain ⟨r, c, j, hr, hc, ht, hj, hf⟩ := h.fails leaves ends covered hi ho hk hpath
    rw [hroots]
    exact ⟨r, c, j, hr, (hperm r (List.mem_of_getElem? hr)).subset hc, ht, hj, hf⟩
  case leaves => exact leaves
  case outcomes => exact stocked.first
  case outcome_once =>
    intro r hr
    have hany : rules.any (·.label == r.label) = true := List.any_eq_true.2 ⟨r, hr, hlabels r hr⟩
    show nodes.countP _ = 1
    rw [stocked.once, hany, if_pos rfl]
  case size_eq =>
    have hsum : rules.map (·.conditions.length) = rules.map fun r => (ordered order r).length :=
      List.map_congr_left fun r hr => (hlength r hr).symm
    have hsplit := List.length_eq_countP_add_countP (·.isOutcome) (l := nodes)
    show nodes.length = _
    rw [hsum, ← stocked.tests, ← stocked.outcomes, hsplit, Nat.add_comm]
    simp
  case height_eq => exact stocked.outcomes
  case depth_eq => exact h.depth_eq leaves ends covered hlength

end FirstMatch.Graph

namespace FirstMatch.DecisionList

open FirstMatch.Graph

/-- An accepted list compiles, in every order without repeats that covers its rules and against any catalog, into a graph of the
shape of its rules. -/
theorem compile_shaped {c : Catalog} {l : DecisionList} (accepted : l.Accepted c) (c' : Catalog) {order : List Nat}
    (horder : order.Nodup) (covered : Covers order l.rules) :
    ∃ g, l.compile c' order = .ok g ∧ Shaped c'.label order l.rules g := by
  have fits := accepted.fits
  obtain ⟨nodes, waiting, heads, hbuild, hlaid, hstocked⟩ := build_stocked c'.label horder (labels_beq_self fits)
  obtain ⟨sorted, hsort, hs⟩ := topologicalSort_of_acyclic hlaid.closed hlaid.acyclic
  refine ⟨ofNodes sorted, compile_eq l.ends.ne_nil covered hbuild hsort, ?_⟩
  exact shaped_ofNodes (hlaid.represents hs l.ends covered) (hstocked.of_sorted hlaid.closed hsort hs)
    (hs.leaves hlaid.outcome_leaf) (fun _ _ => hs.numbered) l.ends horder covered (labels_beq_self fits)
    fun r hr => (fits r hr).distinct

/-- Three rules about the weather, with three conditions and two labels. -/
theorem compile_shaped_weather : ∃ l, ofDrafts weather weatherDrafts = .ok l ∧ [1, 0].Nodup ∧ Covers [1, 0] l.rules ∧
    ∃ g, l.compile weather [1, 0] = .ok g ∧ Shaped 2 [1, 0] l.rules g := by
  obtain ⟨l, hl, horder, hcovers⟩ : ∃ l, ofDrafts weather weatherDrafts = .ok l ∧ [1, 0].Nodup ∧ Covers [1, 0] l.rules :=
    ⟨_, rfl, by decide, by decide⟩
  exact ⟨l, hl, horder, hcovers, compile_shaped (.ofDrafts weatherDrafts hl) weather horder hcovers⟩

end FirstMatch.DecisionList
