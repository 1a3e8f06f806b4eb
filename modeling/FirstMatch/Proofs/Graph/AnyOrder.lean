import FirstMatch.Proofs.Graph.Meaning
import FirstMatch.Proofs.Graph.Trail
import FirstMatch.Session

/-!
# Compiling in any order

Statements about `build` and `compile` in orders of columns in which some may repeat. Chain by chain the nodes keep an invariant
(`Grown`), by which their edges lead on to higher ranks, so they can always be sorted. All that stops a list is a column that the
order lacks; the first such gap is reported (`FirstGap`).
-/

namespace FirstMatch.Graph

/-! ## The chains of all rules -/

/-- The nodes after the chains of `count` rules, in any order of columns: the tests of the last of them are waiting to fail to the
next chain, and every edge leads to an outcome or to a node of higher rank. -/
structure Grown (order : List Nat) (count : Nat) (nodes : List Node) (waiting : List Nat) (rank : Nat → Nat) (top : Nat) :
    Prop where
  size : nodes.length ≤ count * (order.length + 1)
  rule_lt : ∀ n ∈ nodes, n.isOutcome = false → n.rule < count
  waiting : ∀ i ∈ waiting, ∃ n, nodes[i]? = some n ∧ n.isOutcome = false
  rank_lt : ∀ i, rank i < top
  onward : Onward rank nodes

theorem grown_nil (order : List Nat) : Grown order 0 [] [] (fun _ => 0) 1 where
  size := Nat.zero_le _
  rule_lt := by simp
  waiting := by simp
  rank_lt _ := Nat.one_pos
  onward := ⟨by simp, fun i j h => by simp [Edge, childrenAt] at h⟩

/-- The ranks after one more chain: its tests, by their last visits, come after everything before. -/
def nextRank (base : List Node) (visited : List Nat) (rank : Nat → Nat) (top i : Nat) : Nat :=
  if i < base.length then rank i else top + lastVisit visited i

theorem nextRank_of_lt {base : List Node} {i : Nat} (hi : i < base.length) (visited : List Nat) (rank : Nat → Nat) (top : Nat) :
    nextRank base visited rank top i = rank i := if_pos hi

theorem nextRank_of_le {base : List Node} {i : Nat} (hi : base.length ≤ i) (visited : List Nat) (rank : Nat → Nat) (top : Nat) :
    nextRank base visited rank top i = top + lastVisit visited i := if_neg (Nat.not_lt.2 hi)

namespace Grown

variable {order : List Nat} {count top : Nat} {base : List Node} {waiting : List Nat} {rank : Nat → Nat} {built : Chain}

theorem waiting_lt (h : Grown order count base waiting rank top) {i : Nat} (hi : i ∈ waiting) : i < base.length := by
  obtain ⟨n, hn, -⟩ := h.waiting i hi
  exact (List.getElem?_eq_some_iff.1 hn).1

/-- A bound with room for one more rule has room for its chain. -/
theorem room_lt (h : Grown order count base waiting rank top) {others limit : Nat}
    (hroom : (count + 1 + others) * (order.length + 1) ≤ limit) : base.length + order.length < limit := by
  have hsize := h.size
  have hle : (count + 1) * (order.length + 1) ≤ (count + 1 + others) * (order.length + 1) :=
    Nat.mul_le_mul_right _ (Nat.le_add_right _ _)
  rw [Nat.succ_mul] at hle
  omega

/-- A node is an old one, perhaps with a place to fail to, or one that the chain added. -/
theorem next_cases (h : Grown order count base waiting rank top) (added : Added base count built) {i : Nat} {n : Node}
    (hn : (linkFailures built.nodes waiting built.head)[i]? = some n) :
    (∃ m, base[i]? = some m ∧ n = if i ∈ waiting then { m with onFalse? := some built.head } else m) ∨
      (base.length ≤ i ∧ built.nodes[i]? = some n) := by
  rw [getElem?_linkFailures, Option.map_eq_some_iff] at hn
  obtain ⟨m, hm, rfl⟩ := hn
  by_cases hi : i < base.length
  · exact Or.inl ⟨m, (added.old i hi).symm.trans hm, rfl⟩
  · rw [if_neg fun hw => hi (h.waiting_lt hw)]
    exact Or.inr ⟨Nat.not_lt.1 hi, hm⟩

/-- A node stays an outcome or a test when the waiting tests are linked. -/
theorem exists_next {i : Nat} {n : Node} (waiting : List Nat) (hn : built.nodes[i]? = some n) :
    ∃ m, (linkFailures built.nodes waiting built.head)[i]? = some m ∧ m.isOutcome = n.isOutcome := by
  rw [getElem?_linkFailures, hn, Option.map_some]
  refine ⟨_, rfl, ?_⟩
  split <;> rfl

/-- The tests are those of the rules so far and of the next. -/
theorem rule_le_next (h : Grown order count base waiting rank top) (added : Added base count built) {n : Node}
    (hn : n ∈ linkFailures built.nodes waiting built.head) (ho : n.isOutcome = false) : n.rule ≤ count := by
  obtain ⟨i, hi⟩ := List.getElem?_of_mem hn
  rcases h.next_cases added hi with ⟨m, hm, rfl⟩ | ⟨hle, hm⟩
  · have hlt := h.rule_lt m (List.mem_of_getElem? hm) (by split at ho <;> exact ho)
    split <;> exact Nat.le_of_lt hlt
  · exact Nat.le_of_eq (added.test i n hle hm ho).1

/-- Outcomes still lead nowhere after the next chain. -/
theorem leaf_next (h : Grown order count base waiting rank top) (added : Added base count built) {n : Node}
    (hn : n ∈ linkFailures built.nodes waiting built.head) (ho : n.isOutcome = true) :
    n.onTrue? = none ∧ n.onFalse? = none := by
  obtain ⟨i, hi⟩ := List.getElem?_of_mem hn
  rcases h.next_cases added hi with ⟨m, hm, rfl⟩ | ⟨hle, hm⟩
  · have hom : m.isOutcome = true := by split at ho <;> exact ho
    have hw : i ∉ waiting := fun hw => by
      obtain ⟨n, hn, hf⟩ := h.waiting i hw
      obtain rfl := Option.some.inj (hm.symm.trans hn)
      rw [hom] at hf
      cases hf
    rw [if_neg hw]
    exact h.onward.outcome_leaf m (List.mem_of_getElem? hm) hom
  · exact added.outcome i n hle hm ho

/-- Every edge between the nodes before still leads to an outcome or to a higher rank. -/
theorem forward_old (h : Grown order count base waiting rank top) (added : Added base count built) {i j : Nat}
    (he : Edge base i j) : ∃ m, (linkFailures built.nodes waiting built.head)[j]? = some m ∧
      (m.isOutcome = true ∨ nextRank base built.tests rank top i < nextRank base built.tests rank top j) := by
  obtain ⟨m, hm, hlt⟩ := h.onward.forward i j he
  have hj := (List.getElem?_eq_some_iff.1 hm).1
  obtain ⟨m', hm', ho⟩ := exists_next waiting ((added.old j hj).trans hm)
  refine ⟨m', hm', ?_⟩
  rw [ho, nextRank_of_lt (lt_of_edge he), nextRank_of_lt hj]
  exact hlt

/-- A waiting test fails to the outcome or to the test with which the chain begins. -/
theorem forward_head (h : Grown order count base waiting rank top) (added : Added base count built) {i : Nat}
    (hi : i < base.length) : ∃ m, (linkFailures built.nodes waiting built.head)[built.head]? = some m ∧
      (m.isOutcome = true ∨ nextRank base built.tests rank top i < nextRank base built.tests rank top built.head) := by
  rcases added.head with hhead | ⟨n, hn, ho⟩
  · obtain ⟨hle, n, hn, -⟩ := added.tests _ hhead
    obtain ⟨m, hm, -⟩ := exists_next waiting hn
    have hlt := h.rank_lt i
    refine ⟨m, hm, Or.inr ?_⟩
    rw [nextRank_of_lt hi, nextRank_of_le hle]
    omega
  · obtain ⟨m, hm, hmo⟩ := exists_next waiting hn
    exact ⟨m, hm, Or.inl (hmo.trans ho)⟩

/-- A test of the chain leads to an outcome or to a test visited later. -/
theorem forward_new (added : Added base count built) {i j : Nat} {n : Node} (hi : base.length ≤ i)
    (hn : built.nodes[i]? = some n) (hj : n.onTrue? = some j ∨ n.onFalse? = some j) :
    ∃ m, (linkFailures built.nodes waiting built.head)[j]? = some m ∧
      (m.isOutcome = true ∨ nextRank base built.tests rank top i < nextRank base built.tests rank top j) := by
  cases ho : n.isOutcome with
  | true =>
    obtain ⟨h1, h2⟩ := added.outcome i n hi hn ho
    simp [h1, h2] at hj
  | false =>
    obtain ⟨-, hf, honward⟩ := added.test i n hi hn ho
    rw [hf] at hj
    rcases honward j (hj.resolve_right (by simp)) with ⟨m, hm, hmo⟩ | ⟨hmem, hlt⟩
    · obtain ⟨m', hm', ho'⟩ := exists_next waiting hm
      exact ⟨m', hm', Or.inl (ho'.trans hmo)⟩
    · obtain ⟨hle, m, hm, -⟩ := added.tests j hmem
      obtain ⟨m', hm', -⟩ := exists_next waiting hm
      refine ⟨m', hm', Or.inr ?_⟩
      rw [nextRank_of_le hi, nextRank_of_le hle]
      omega

/-- Edges still lead to outcomes or to nodes of higher rank after the next chain. -/
theorem forward_next (h : Grown order count base waiting rank top) (added : Added base count built) {i j : Nat}
    (he : Edge (linkFailures built.nodes waiting built.head) i j) :
    ∃ m, (linkFailures built.nodes waiting built.head)[j]? = some m ∧
      (m.isOutcome = true ∨ nextRank base built.tests rank top i < nextRank base built.tests rank top j) := by
  obtain ⟨n, hn, hj⟩ := edge_iff.1 he
  rcases h.next_cases added hn with ⟨m, hm, rfl⟩ | ⟨hle, hm⟩
  · by_cases hw : i ∈ waiting
    · rw [if_pos hw] at hj
      rcases hj with hj | hj
      · exact h.forward_old added (edge_iff.2 ⟨m, hm, Or.inl hj⟩)
      · obtain rfl := Option.some.inj hj
        exact h.forward_head added (h.waiting_lt hw)
    · rw [if_neg hw] at hj
      exact h.forward_old added (edge_iff.2 ⟨m, hm, hj⟩)
  · exact forward_new added hle hm hj

/-- Adding the chain of one more rule, to which the waiting tests then fail, keeps the invariant. -/
theorem next (h : Grown order count base waiting rank top) (added : Added base count built)
    (hsize : built.nodes.length ≤ base.length + (order.length + 1)) :
    Grown order (count + 1) (linkFailures built.nodes waiting built.head) built.tests (nextRank base built.tests rank top)
      (top + built.tests.length + 1) where
  size := by
    have hbase := h.size
    rw [length_linkFailures, Nat.succ_mul]
    omega
  rule_lt n hn ho := Nat.lt_succ_of_le (h.rule_le_next added hn ho)
  waiting i hi := by
    obtain ⟨-, n, hn, ho⟩ := added.tests i hi
    obtain ⟨m, hm, hmo⟩ := exists_next waiting hn
    exact ⟨m, hm, hmo.trans ho⟩
  rank_lt i := by
    have hrank := h.rank_lt i
    have hlast := lastVisit_le built.tests i
    unfold nextRank
    split <;> omega
  onward := ⟨fun _ hn ho => h.leaf_next added hn ho, fun _ _ he => h.forward_next added he⟩

end Grown

/-- Adding the chains of some more rules keeps the invariant, and never exceeds the bound. -/
theorem exists_chains (limit labelColumn : Nat) {order : List Nat} (rest : List Rule) :
    ∀ {count : Nat} {nodes : List Node} {waiting : List Nat} {rank : Nat → Nat} {top : Nat},
      Grown order count nodes waiting rank top → (count + rest.length) * (order.length + 1) ≤ limit →
      ∃ nodes' waiting' rank' top', chains limit labelColumn order nodes waiting count rest = .ok nodes' ∧
        Grown order (count + rest.length) nodes' waiting' rank' top' := by
  induction rest with
  | nil => exact fun {_ nodes waiting rank top} h _ => ⟨nodes, waiting, rank, top, rfl, h⟩
  | cons r rest ih =>
    intro count nodes waiting rank top h hroom
    rw [List.length_cons, Nat.add_comm rest.length, ← Nat.add_assoc] at hroom ⊢
    obtain ⟨built, hchain, added, hsize⟩ :=
      exists_chain (fun n hn ho => Nat.ne_of_lt (h.rule_lt n hn ho)) labelColumn order r (h.room_lt hroom)
    obtain ⟨nodes', waiting', rank', top', hbuilt, hgrown⟩ := ih (h.next added hsize) hroom
    refine ⟨nodes', waiting', rank', top', ?_, hgrown⟩
    rw [chains, hchain]
    exact hbuilt

/-- Building succeeds in every order of columns, and no edge of the nodes leads back. -/
theorem exists_build (rules : List Rule) (labelColumn : Nat) (order : List Nat) :
    ∃ nodes rank, build rules labelColumn order = .ok nodes ∧ Onward rank nodes := by
  obtain ⟨nodes, waiting, rank, top, hbuild, h⟩ := exists_chains (bound rules order) labelColumn rules (grown_nil order)
    (by rw [Nat.zero_add, bound])
  exact ⟨nodes, rank, hbuild, h.onward⟩

/-! ## Gaps in an order -/

/-- The first gap in an order of columns: the first rule of a list with a condition on a column that is missing, and the first
such condition in the order written. -/
structure FirstGap (order : List Nat) (rules : List Rule) (i : Nat) (x : Condition) : Prop where
  before : Covers order (rules.take i)
  rule : ∃ r earlier later, rules[i]? = some r ∧ r.conditions = earlier ++ x :: later ∧ ∀ y ∈ earlier, y.feature ∈ order
  missing : x.feature ∉ order

/-- An order that does not cover the rules has a first gap. -/
theorem exists_firstGap {order : List Nat} {rules : List Rule} (h : ¬Covers order rules) : ∃ i x, FirstGap order rules i x := by
  induction rules with
  | nil => exact absurd (by simp [Covers]) h
  | cons r rest ih =>
    cases hfind : r.conditions.find? (·.feature ∉ order) with
    | some x =>
      obtain ⟨hx, earlier, later, hsplit, hearlier⟩ := List.find?_eq_some_iff_append.1 hfind
      have hranked : ∀ y ∈ earlier, y.feature ∈ order := fun y hy => by simpa using hearlier y hy
      exact ⟨0, x, by simp [Covers], ⟨r, earlier, later, rfl, hsplit, hranked⟩, by simpa using hx⟩
    | none =>
      have hr : ∀ x ∈ r.conditions, x.feature ∈ order := fun x hx => by simpa using List.find?_eq_none.1 hfind x hx
      obtain ⟨i, x, hbefore, hrule, hmissing⟩ := ih fun hrest => h (List.forall_mem_cons.2 ⟨hr, hrest⟩)
      exact ⟨i + 1, x, List.forall_mem_cons.2 ⟨hr, hbefore⟩, hrule, hmissing⟩

/-- The first gap is the one that compiling reports. -/
theorem FirstGap.unranked {order : List Nat} {rules : List Rule} {i : Nat} {x : Condition} (h : FirstGap order rules i x)
    (c : Catalog) : unranked? rules c order = some (.unrankedFeature i (c.nameOf x.feature)) := by
  obtain ⟨r, earlier, later, hr, hsplit, hearlier⟩ := h.rule
  obtain ⟨hi, hri⟩ := List.getElem?_eq_some_iff.1 hr
  have hrules : rules = rules.take i ++ r :: rules.drop (i + 1) := by
    rw [← hri, List.getElem_cons_drop, List.take_append_drop]
  have hfind : (r.conditions.find? fun x => !order.contains x.feature) = some x := by
    rw [List.find?_eq_some_iff_append]
    exact ⟨by simpa using h.missing, earlier, later, hsplit, fun y hy => by simpa using hearlier y hy⟩
  have hnone := unranked_eq_none h.before c
  rw [unranked?] at hnone ⊢
  rw [hrules, List.zipIdx_append, List.findSome?_append, hnone, List.zipIdx_cons, List.findSome?_cons]
  simp only [hfind, List.length_take, Nat.min_eq_left (Nat.le_of_lt hi), Nat.zero_add]
  rfl

/-- Rules that an order covers compile, though its columns may repeat. -/
theorem exists_compile {rules : List Rule} (hne : rules ≠ []) (c : Catalog) {order : List Nat} (covered : Covers order rules) :
    ∃ g, compile rules c order = .ok g := by
  obtain ⟨nodes, rank, hbuild, honward⟩ := exists_build rules c.label order
  obtain ⟨sorted, hsort, -⟩ := topologicalSort_of_acyclic honward.closed honward.acyclic
  exact ⟨_, compile_eq hne covered hbuild hsort⟩

/-- Rules with a gap in the order do not compile. -/
theorem FirstGap.compile_eq {order : List Nat} {rules : List Rule} {i : Nat} {x : Condition} (h : FirstGap order rules i x)
    (c : Catalog) : compile rules c order = .error (.unrankedFeature i (c.nameOf x.feature)) := by
  have hne : rules ≠ [] := by
    rintro rfl
    obtain ⟨r, _, _, hr, -⟩ := h.rule
    cases hr
  rw [compile, if_neg hne, h.unranked c]

end FirstMatch.Graph

/-! ## Importing rules -/

namespace FirstMatch

/-- The ranked columns cover every list, so no rules are refused for their graph. -/
theorem Session.importRules_ne_structural (s : Session) (text : String) (e : StructuralError) :
    (s.importRules text).outcome ≠ .error (.structural e) := by
  have hanalyze : ∀ d l, (s.analyze d l).2 ≠ .error (.structural e) := fun d l => by
    obtain ⟨g, hg⟩ : ∃ g, l.compile d.catalog ((l.ranking d.catalog).map (·.feature)) = .ok g :=
      Graph.exists_compile l.ends.ne_nil d.catalog (l.covers_ranking d.catalog)
    simp only [analyze, hg]
    split <;> simp
  have htext : (s.analyzeText text).2 ≠ .error (.structural e) := by
    rw [analyzeText]
    split
    · simp
    · next d _ =>
      simp only
      split
      · next e' hread =>
        rintro h
        cases h
        exact DecisionList.read_ne_structural text hread
      · next l _ => exact hanalyze d l
  rw [importRules]
  split
  · next stages e' hanalysis =>
    rw [hanalysis] at htext
    simpa using htext
  · simp

namespace DecisionList

open FirstMatch.Graph

/-- Compiling fails for a gap in the order of columns and for nothing else, in three parts.
1. An accepted list compiles in an order, in which columns may repeat, be left out, or lie beyond the catalog, if and only if the
   order covers its rules.
2. Otherwise the error names the first rule and the first of its conditions on a column that is missing: it is never a cycle, an
   empty list, or a bound that was exceeded.
3. So no import of rules is refused for the structure of its graph. -/
theorem compile_ok_iff_covers {c : Catalog} {l : DecisionList} (accepted : l.Accepted c) (order : List Nat) :
    ((∃ g, l.compile c order = .ok g) ↔ Covers order l.rules) ∧
    (∀ e, l.compile c order = .error e ↔ ∃ i x f, FirstGap order l.rules i x ∧ c.features[x.feature]? = some f ∧
      e = .unrankedFeature i f.name) ∧
    ∀ (s : Session) (text : String) (e : StructuralError), (s.importRules text).outcome ≠ .error (.structural e) := by
  have hgap : ∀ {i x}, FirstGap order l.rules i x → ∃ f, c.features[x.feature]? = some f ∧
      l.compile c order = .error (.unrankedFeature i f.name) := fun {i x} h => by
    obtain ⟨r, earlier, later, hr, hsplit, -⟩ := h.rule
    have hx : x ∈ r.conditions := by simp [hsplit]
    have hlt : x.feature < c.features.length := ((accepted.fits r (List.mem_of_getElem? hr)).conditions_fit x hx).lt_size
    refine ⟨c.features[x.feature], List.getElem?_eq_getElem hlt, ?_⟩
    rw [DecisionList.compile, h.compile_eq c, Catalog.nameOf, List.getElem?_eq_getElem hlt]
    rfl
  have hok : (∃ g, l.compile c order = .ok g) ↔ Covers order l.rules := by
    refine ⟨fun ⟨g, hg⟩ => ?_, fun covered => exists_compile l.ends.ne_nil c covered⟩
    by_contra hnot
    obtain ⟨i, x, h⟩ := exists_firstGap hnot
    obtain ⟨f, -, herror⟩ := hgap h
    rw [hg] at herror
    cases herror
  refine ⟨hok, fun e => ⟨fun he => ?_, ?_⟩, Session.importRules_ne_structural⟩
  · have hnot : ¬Covers order l.rules := fun covered => by
      obtain ⟨g, hg⟩ := hok.2 covered
      rw [hg] at he
      cases he
    obtain ⟨i, x, h⟩ := exists_firstGap hnot
    obtain ⟨f, hf, herror⟩ := hgap h
    exact ⟨i, x, f, h, hf, Except.error.inj (he.symm.trans herror)⟩
  · rintro ⟨i, x, f, h, hf, rfl⟩
    obtain ⟨f', hf', herror⟩ := hgap h
    obtain rfl := Option.some.inj (hf.symm.trans hf')
    exact herror

/-- An order may repeat columns and go beyond the catalog; without the outlook it has a gap. -/
theorem compile_ok_iff_covers_weather : ∃ l, ofDrafts weather weatherDrafts = .ok l ∧
    (∃ g, l.compile weather [0, 7, 1, 0] = .ok g) ∧ l.compile weather [1, 7, 1] = .error (.unrankedFeature 0 "outlook") := by
  obtain ⟨l, hl, hcovers, hgap⟩ : ∃ l, ofDrafts weather weatherDrafts = .ok l ∧ Covers [0, 7, 1, 0] l.rules ∧
      FirstGap [1, 7, 1] l.rules 0 ⟨0, .ne, .text "sunny"⟩ :=
    ⟨_, rfl, by decide, by decide, ⟨_, [⟨1, .eq, .text "strong"⟩], [], rfl, rfl, by decide⟩, by decide⟩
  have accepted := Accepted.ofDrafts weatherDrafts hl
  exact ⟨l, hl, (compile_ok_iff_covers accepted [0, 7, 1, 0]).1.2 hcovers,
    ((compile_ok_iff_covers accepted [1, 7, 1]).2.1 _).2 ⟨0, _, _, hgap, rfl, rfl⟩⟩

end DecisionList

end FirstMatch
