import FirstMatch.Proofs.Graph.Layout

/-!
# The chain of one rule in any order

In an order of columns that repeats some, a chain comes back to tests it has visited, and each visit links the test anew. Whatever
it overwrites, the link that stays is that of the last visit. So the tests of a rule, ordered by their last visits, lead onward
(`Trail`), and the chain of the rule adds no cycle to the nodes before (`exists_chain`). Literals need not equal themselves here:
a test of one that does not is not found again, and every visit makes it anew.
-/

namespace FirstMatch.Graph

/-! ## Placing and linking -/

/-- Nodes before and after a node was sought among them: it was found at a place or is new there, and nothing else is new. -/
structure Placed (nodes nodes' : List Node) (isSought : Node → Bool) (n : Node) (k : Nat) : Prop where
  length_le : nodes'.length ≤ nodes.length + 1
  old : ∀ (i : Nat) (m : Node), nodes[i]? = some m → nodes'[i]? = some m
  new : ∀ (i : Nat) (m : Node), nodes'[i]? = some m → nodes[i]? = some m ∨ (i = k ∧ m = { n with id := nodes.length })
  found : ∃ m, nodes'[k]? = some m ∧
    ((nodes[k]? = some m ∧ isSought m = true) ∨ (k = nodes.length ∧ m = { n with id := nodes.length }))

/-- Below the bound every node can be placed. -/
theorem exists_placed {bound : Nat} {nodes : List Node} (hb : nodes.length < bound) (isSought : Node → Bool) (n : Node) :
    ∃ k nodes', place bound nodes isSought n = .ok (k, nodes') ∧ Placed nodes nodes' isSought n k := by
  unfold place push
  cases hf : nodes.findIdx? isSought with
  | some k =>
    obtain ⟨hk, hp, -⟩ := List.findIdx?_eq_some_iff_getElem.1 hf
    have hm := List.getElem?_eq_getElem hk
    exact ⟨k, nodes, rfl, Nat.le_succ _, fun _ _ hn => hn, fun _ _ hn => Or.inl hn, nodes[k], hm, Or.inl ⟨hm, hp⟩⟩
  | none =>
    refine ⟨nodes.length, _, if_neg (Nat.not_le.2 hb), by simp, fun i m hm => ?_, fun i m hm => ?_, _,
      List.getElem?_concat_length, Or.inr ⟨rfl, rfl⟩⟩
    · rw [List.getElem?_append_left (List.getElem?_eq_some_iff.1 hm).1, hm]
    · rw [List.getElem?_append] at hm
      split at hm
      · exact Or.inl hm
      · obtain ⟨hi, rfl⟩ := List.getElem?_eq_some_iff.1 hm
        rw [List.length_singleton] at hi
        rw [List.getElem_singleton]
        exact Or.inr ⟨by omega, rfl⟩

/-- The last node visited leads to the target, and all others stay as they are. -/
theorem getElem?_linkLast (nodes : List Node) (visited : List Nat) (target i : Nat) :
    (linkLast nodes visited target)[i]? =
      (nodes[i]?).map fun n => if visited.getLast? = some i then { n with onTrue? := some target } else n := by
  unfold linkLast
  cases visited.getLast? with
  | none => simp
  | some last =>
    simp only [List.getElem?_modify, Option.some.injEq]
    rfl

theorem length_linkLast (nodes : List Node) (visited : List Nat) (target : Nat) :
    (linkLast nodes visited target).length = nodes.length := by
  unfold linkLast
  split
  · rw [List.length_modify]
  · rfl

/-! ## The last visit -/

/-- When a place is visited last: the number of visits up to then, or zero. -/
def lastVisit (visited : List Nat) (i : Nat) : Nat := visited.length - visited.reverse.idxOf i

/-- A visit is the last of its node. -/
theorem lastVisit_snoc (visited : List Nat) (j i : Nat) :
    lastVisit (visited ++ [j]) i = if i = j then visited.length + 1 else lastVisit visited i := by
  unfold lastVisit
  rw [List.reverse_append, List.reverse_singleton, List.singleton_append, List.idxOf_cons, List.length_append,
    List.length_singleton]
  by_cases h : i = j
  · simp [h]
  · have hne : (j == i) = false := by simpa using Ne.symm h
    rw [hne, cond_false, if_neg h]
    omega

/-- A last visit is one of the visits. -/
theorem lastVisit_le (visited : List Nat) (i : Nat) : lastVisit visited i ≤ visited.length := Nat.sub_le _ _

/-! ## The tests of one rule -/

/-- The tests of a rule after some nodes, when some places have been visited for them. There are no more tests than visits, and
none fails to anything yet. Except for the last test visited, a test leads only to tests visited later than itself. -/
structure Trail (base : List Node) (rule : Nat) (nodes : List Node) (visited : List Nat) : Prop where
  size : nodes.length ≤ base.length + visited.length
  old : ∀ i, i < base.length → nodes[i]? = base[i]?
  visited_new : ∀ i ∈ visited, base.length ≤ i ∧ i < nodes.length
  new_visited : ∀ i, base.length ≤ i → i < nodes.length → i ∈ visited
  test : ∀ (i : Nat) (n : Node), base.length ≤ i → nodes[i]? = some n →
    n.isOutcome = false ∧ n.rule = rule ∧ n.onFalse? = none
  onward : ∀ (i j : Nat) (n : Node), base.length ≤ i → nodes[i]? = some n → n.onTrue? = some j →
    visited.getLast? ≠ some i → j ∈ visited ∧ lastVisit visited i < lastVisit visited j

theorem trail_nil (base : List Node) (rule : Nat) : Trail base rule base [] where
  size := Nat.le_refl _
  old _ _ := rfl
  visited_new := by simp
  new_visited i h1 h2 := absurd h2 (Nat.not_lt.2 h1)
  test i n h1 hn := absurd (List.getElem?_eq_some_iff.1 hn).1 (Nat.not_lt.2 h1)
  onward i j n h1 hn := absurd (List.getElem?_eq_some_iff.1 hn).1 (Nat.not_lt.2 h1)

namespace Trail

variable {base nodes : List Node} {rule : Nat} {visited : List Nat}

theorem length_le (h : Trail base rule nodes visited) : base.length ≤ nodes.length := by
  by_contra hlt
  have hlen := h.old nodes.length (by omega)
  rw [List.getElem?_eq_none (Nat.le_refl _), List.getElem?_eq_getElem (by omega)] at hlen
  cases hlen

/-- Visiting a place once more keeps the order of last visits between the places not visited last. -/
theorem lastVisit_lt_snoc {i j : Nat} (hij : lastVisit visited i < lastVisit visited j) {k : Nat} (hi : i ≠ k) :
    lastVisit (visited ++ [k]) i < lastVisit (visited ++ [k]) j := by
  have hle := lastVisit_le visited i
  rw [lastVisit_snoc, lastVisit_snoc, if_neg hi]
  split <;> omega

/-- Visiting an old test or a new one, and linking the test visited before to it, keeps the trail. -/
theorem snoc (h : Trail base rule nodes visited) {nodes' : List Node} {k : Nat} (hle : nodes'.length ≤ nodes.length + 1)
    (hold : ∀ (i : Nat) (n : Node), nodes[i]? = some n → nodes'[i]? = some n)
    (hnew : ∀ (i : Nat) (n : Node), nodes'[i]? = some n → nodes[i]? = some n ∨
      (i = k ∧ n.isOutcome = false ∧ n.rule = rule ∧ n.onFalse? = none))
    (hk : base.length ≤ k ∧ k < nodes'.length) : Trail base rule (linkLast nodes' visited k) (visited ++ [k]) where
  size := by
    have hsize := h.size
    rw [length_linkLast, List.length_append, List.length_singleton]
    omega
  old i hi := by
    have hnot : visited.getLast? ≠ some i := fun hlast => by
      have hmem := h.visited_new i (List.mem_of_getLast? hlast)
      omega
    have hbase := h.old i hi
    rw [List.getElem?_eq_getElem hi] at hbase ⊢
    rw [getElem?_linkLast, hold i _ hbase, Option.map_some, if_neg hnot]
  visited_new i hi := by
    rw [length_linkLast]
    rcases List.mem_append.1 hi with hi | hi
    · obtain ⟨h1, h2⟩ := h.visited_new i hi
      have h3 := (List.getElem?_eq_some_iff.1 (hold i _ (List.getElem?_eq_getElem h2))).1
      exact ⟨h1, h3⟩
    · rw [List.mem_singleton.1 hi]
      exact hk
  new_visited i h1 h2 := by
    rw [length_linkLast] at h2
    rcases hnew i _ (List.getElem?_eq_getElem h2) with hn | ⟨rfl, -⟩
    · exact List.mem_append_left _ (h.new_visited i h1 (List.getElem?_eq_some_iff.1 hn).1)
    · exact List.mem_append_right _ (List.mem_singleton_self _)
  test i n h1 hn := by
    rw [getElem?_linkLast, Option.map_eq_some_iff] at hn
    obtain ⟨m, hm, rfl⟩ := hn
    have hm : m.isOutcome = false ∧ m.rule = rule ∧ m.onFalse? = none :=
      (hnew i m hm).elim (h.test i m h1) And.right
    split <;> exact hm
  onward i j n h1 hn hj hlast := by
    have hik : i ≠ k := by
      rintro rfl
      exact hlast List.getLast?_concat
    rw [getElem?_linkLast, Option.map_eq_some_iff] at hn
    obtain ⟨m, hm, rfl⟩ := hn
    have hm : nodes[i]? = some m := (hnew i m hm).resolve_right fun hi => hik hi.1
    split at hj
    · obtain rfl := Option.some.inj hj
      have hle := lastVisit_le visited i
      refine ⟨List.mem_append_right _ (List.mem_singleton_self _), ?_⟩
      rw [lastVisit_snoc, lastVisit_snoc, if_neg hik, if_pos rfl]
      omega
    · next hprev =>
      obtain ⟨hmem, hlt⟩ := h.onward i j m h1 hm hj hprev
      exact ⟨List.mem_append_left _ hmem, lastVisit_lt_snoc hlt hik⟩

/-- The test of one more condition finds its place, which may be an old one, and keeps the trail. -/
theorem step (h : Trail base rule nodes visited) (hrule : ∀ n ∈ base, n.isOutcome = false → n.rule ≠ rule)
    {bound : Nat} (hb : nodes.length < bound) (c : Condition) :
    ∃ k nodes', place bound nodes (Node.testsFor rule c) (Node.ofCondition rule c) = .ok (k, nodes') ∧
      Trail base rule (linkLast nodes' visited k) (visited ++ [k]) := by
  obtain ⟨k, nodes', hplace, hp⟩ := exists_placed hb (Node.testsFor rule c) (Node.ofCondition rule c)
  refine ⟨k, nodes', hplace, ?_⟩
  have hk : base.length ≤ k := by
    obtain ⟨m, -, ⟨hm, hsought⟩ | ⟨rfl, -⟩⟩ := hp.found
    · by_contra hlt
      rw [h.old k (by omega)] at hm
      simp only [Node.testsFor, Bool.and_eq_true, Bool.not_eq_true', beq_iff_eq] at hsought
      exact hrule m (List.mem_of_getElem? hm) hsought.1.1.1 hsought.1.1.2
    · exact h.length_le
  refine h.snoc hp.length_le hp.old (fun i n hn => ?_) ⟨hk, ?_⟩
  · refine (hp.new i n hn).imp_right ?_
    rintro ⟨rfl, rfl⟩
    exact ⟨rfl, rfl, rfl, rfl⟩
  · obtain ⟨m, hm, -⟩ := hp.found
    exact (List.getElem?_eq_some_iff.1 hm).1

/-- The tests of some conditions, on any columns in any order, keep the trail. -/
theorem exists_chainTests (hrule : ∀ n ∈ base, n.isOutcome = false → n.rule ≠ rule) {bound : Nat} (cs : List Condition) :
    ∀ (nodes : List Node) (visited : List Nat), Trail base rule nodes visited →
      base.length + visited.length + cs.length ≤ bound → ∃ nodes' visited',
        chainTests bound rule nodes visited cs = .ok (nodes', visited') ∧ Trail base rule nodes' visited' ∧
          visited'.length = visited.length + cs.length := by
  induction cs with
  | nil => exact fun nodes visited h _ => ⟨nodes, visited, rfl, h, rfl⟩
  | cons c rest ih =>
    intro nodes visited h hb
    have hsize := h.size
    rw [List.length_cons] at hb
    obtain ⟨k, placed, hplace, hnext⟩ := h.step hrule (by omega : nodes.length < bound) c
    obtain ⟨nodes', visited', htests, htrail, hlen⟩ := ih _ _ hnext (by rw [List.length_append, List.length_singleton]; omega)
    refine ⟨nodes', visited', ?_, htrail, ?_⟩
    · rw [chainTests, hplace]
      exact htests
    · rw [hlen, List.length_append, List.length_singleton, List.length_cons]
      omega

end Trail

/-! ## The chain of one rule -/

/-- What a chain adds to some nodes: tests of its rule, which fail to nothing yet, and perhaps an outcome. A test leads to an
outcome or to a test visited later than itself. -/
structure Added (base : List Node) (rule : Nat) (built : Chain) : Prop where
  old : ∀ i, i < base.length → built.nodes[i]? = base[i]?
  tests : ∀ i ∈ built.tests, base.length ≤ i ∧ ∃ n, built.nodes[i]? = some n ∧ n.isOutcome = false
  head : built.head ∈ built.tests ∨ ∃ n, built.nodes[built.head]? = some n ∧ n.isOutcome = true
  outcome : ∀ (i : Nat) (n : Node), base.length ≤ i → built.nodes[i]? = some n → n.isOutcome = true →
    n.onTrue? = none ∧ n.onFalse? = none
  test : ∀ (i : Nat) (n : Node), base.length ≤ i → built.nodes[i]? = some n → n.isOutcome = false →
    n.rule = rule ∧ n.onFalse? = none ∧ ∀ j, n.onTrue? = some j →
      (∃ m, built.nodes[j]? = some m ∧ m.isOutcome = true) ∨ (j ∈ built.tests ∧ lastVisit built.tests i < lastVisit built.tests j)

/-- The chain that a trail ends in, once the last test visited is linked to an outcome. -/
theorem Trail.added {base nodes nodes' : List Node} {rule : Nat} {visited : List Nat} (h : Trail base rule nodes visited)
    {k : Nat} (hold : ∀ (i : Nat) (n : Node), nodes[i]? = some n → nodes'[i]? = some n)
    (hnew : ∀ (i : Nat) (n : Node), nodes'[i]? = some n → nodes[i]? = some n ∨
      (n.isOutcome = true ∧ n.onTrue? = none ∧ n.onFalse? = none))
    (hk : ∃ n, nodes'[k]? = some n ∧ n.isOutcome = true) :
    Added base rule ⟨linkLast nodes' visited k, visited.head?.getD k, visited⟩ := by
  have hvisited : ∀ i ∈ visited, base.length ≤ i ∧ ∃ n, nodes[i]? = some n ∧ n.isOutcome = false := fun i hi => by
    obtain ⟨h1, h2⟩ := h.visited_new i hi
    have hn := List.getElem?_eq_getElem h2
    exact ⟨h1, _, hn, (h.test i _ h1 hn).1⟩
  have hlinked : ∀ {i : Nat} {n : Node}, nodes'[i]? = some n → (linkLast nodes' visited k)[i]? =
      some (if visited.getLast? = some i then { n with onTrue? := some k } else n) := fun {i n} hn => by
    rw [getElem?_linkLast, hn, Option.map_some]
  have hout : ∃ n, (linkLast nodes' visited k)[k]? = some n ∧ n.isOutcome = true := by
    obtain ⟨n, hn, ho⟩ := hk
    refine ⟨_, hlinked hn, ?_⟩
    split <;> exact ho
  have hmoved : ∀ {i : Nat} {n : Node}, (linkLast nodes' visited k)[i]? = some n → ∃ m, nodes'[i]? = some m ∧
      n = if visited.getLast? = some i then { m with onTrue? := some k } else m := fun {i n} hn => by
    rw [getElem?_linkLast, Option.map_eq_some_iff] at hn
    obtain ⟨m, hm, rfl⟩ := hn
    exact ⟨m, hm, rfl⟩
  constructor
  case old =>
    intro i hi
    have hbase := h.old i hi
    have hnot : visited.getLast? ≠ some i := fun hlast => by
      have hmem := (hvisited i (List.mem_of_getLast? hlast)).1
      omega
    rw [List.getElem?_eq_getElem hi] at hbase ⊢
    rw [hlinked (hold i _ hbase), if_neg hnot]
  case tests =>
    intro i hi
    obtain ⟨h1, n, hn, ho⟩ := hvisited i hi
    refine ⟨h1, _, hlinked (hold i n hn), ?_⟩
    split <;> exact ho
  case head =>
    cases visited with
    | nil => exact Or.inr hout
    | cons i rest => exact Or.inl List.mem_cons_self
  case outcome =>
    intro i n h1 hn ho
    obtain ⟨m, hm, rfl⟩ := hmoved hn
    split at ho
    · next hlast =>
      obtain ⟨-, n, hn, hf⟩ := hvisited i (List.mem_of_getLast? hlast)
      obtain rfl := Option.some.inj (hm.symm.trans (hold i n hn))
      exact absurd ho (by simpa [Node.isOutcome] using hf)
    · next hlast =>
      rw [if_neg hlast]
      refine (hnew i m hm).elim (fun hn => ?_) And.right
      rw [(h.test i m h1 hn).1] at ho
      cases ho
  case test =>
    intro i n h1 hn ho
    obtain ⟨m, hm, rfl⟩ := hmoved hn
    have hm : nodes[i]? = some m := (hnew i m hm).resolve_right fun hleaf => by
      split at ho <;> exact absurd hleaf.1 (by simpa [Node.isOutcome] using ho)
    obtain ⟨-, hrule, hfalse⟩ := h.test i m h1 hm
    by_cases hlast : visited.getLast? = some i
    · rw [if_pos hlast]
      refine ⟨hrule, hfalse, fun j hj => Or.inl ?_⟩
      obtain rfl := Option.some.inj hj
      exact hout
    · rw [if_neg hlast]
      exact ⟨hrule, hfalse, fun j hj => Or.inr (h.onward i j m h1 hm hj hlast)⟩

/-- Within the bound every rule gets a chain, whatever the order of the columns. -/
theorem exists_chain {base : List Node} {rule bound : Nat} (hrule : ∀ n ∈ base, n.isOutcome = false → n.rule ≠ rule)
    (labelColumn : Nat) (order : List Nat) (r : Rule) (hb : base.length + order.length < bound) :
    ∃ built, chain bound labelColumn order base rule r = .ok built ∧ Added base rule built ∧
      built.nodes.length ≤ base.length + (order.length + 1) := by
  have hcs := length_ordered_le order r
  obtain ⟨nodes, visited, htests, htrail, hlen⟩ := Trail.exists_chainTests hrule (ordered order r) base [] (trail_nil base rule)
    (by rw [List.length_nil]; omega : base.length + [].length + (ordered order r).length ≤ bound)
  rw [List.length_nil, Nat.zero_add] at hlen
  have hsize := htrail.size
  obtain ⟨k, nodes', hplace, hp⟩ := exists_placed (by omega : nodes.length < bound) (Node.predicts r.label)
    (Node.ofLabel rule labelColumn r.label)
  refine ⟨⟨linkLast nodes' visited k, visited.head?.getD k, visited⟩, ?_, ?_, ?_⟩
  · rw [chain]
    show (chainTests bound rule base [] (ordered order r) >>= _) = _
    rw [htests]
    show (place bound nodes _ _ >>= _) = _
    rw [hplace]
    rfl
  · refine htrail.added hp.old (fun i n hn => ?_) ?_
    · refine (hp.new i n hn).imp_right ?_
      rintro ⟨-, rfl⟩
      exact ⟨rfl, rfl, rfl⟩
    · obtain ⟨m, hm, ⟨-, hsought⟩ | ⟨-, rfl⟩⟩ := hp.found
      · exact ⟨m, hm, (Bool.and_eq_true_iff.1 hsought).1⟩
      · exact ⟨_, hm, rfl⟩
  · have hle := hp.length_le
    show (linkLast nodes' visited k).length ≤ _
    rw [length_linkLast]
    omega

end FirstMatch.Graph
