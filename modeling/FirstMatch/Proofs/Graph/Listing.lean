import FirstMatch.Graph
import FirstMatch.Proofs.Counting

/-!
# The topological listing

Statements about `listing` and `topologicalSort` on any nodes whose edges lead to nodes (`Closed`). While nodes are listed, the
count kept for a node is the number of edges into it from nodes not listed yet (`Balanced`). So a node is listed after every node
with an edge into it (`Precedes`), and on a graph without cycles every node is listed (`mem_listing_of_acyclic`): then the sort
succeeds, and each edge leads to a later place (`topologicalSort_of_acyclic`).
-/

namespace FirstMatch

/-- Moving a node moves where its edges lead. -/
theorem Node.children_relocate (place : Nat → Nat) (id : Nat) (n : Node) :
    (n.relocate place id).children = n.children.map place := by
  cases ht : n.onTrue? <;> cases hf : n.onFalse? <;> simp [Node.children, Node.relocate, ht, hf]

namespace Graph

/-! ## Edges -/

/-- The places that the edges of a node lead to; beyond the last node there are none. -/
def childrenAt (nodes : List Node) (i : Nat) : List Nat := ((nodes[i]?).map Node.children).getD []

/-- An edge leads from one place to another. -/
def Edge (nodes : List Node) (i j : Nat) : Prop := j ∈ childrenAt nodes i

/-- An edge is that of a holding or of a failing test. -/
theorem edge_iff {nodes : List Node} {i j : Nat} :
    Edge nodes i j ↔ ∃ n, nodes[i]? = some n ∧ (n.onTrue? = some j ∨ n.onFalse? = some j) := by
  unfold Edge childrenAt
  cases nodes[i]? with
  | none => simp
  | some n => simp [Node.children]

theorem lt_of_edge {nodes : List Node} {i j : Nat} (h : Edge nodes i j) : i < nodes.length := by
  obtain ⟨n, hn, -⟩ := edge_iff.1 h
  exact (List.getElem?_eq_some_iff.1 hn).1

/-- Every edge leads to a node. -/
def Closed (nodes : List Node) : Prop := ∀ i j, Edge nodes i j → j < nodes.length

/-- No way along edges leads back to where it began. -/
def Acyclic (nodes : List Node) : Prop := ∀ i, ¬Relation.TransGen (Edge nodes) i i

/-- Where the edges lead that leave the nodes not done yet. -/
def edgesLeft (nodes : List Node) (done : List Nat) : List Nat :=
  ((List.range nodes.length).filter (· ∉ done)).flatMap (childrenAt nodes)

/-- An edge is left where the node that it leaves is not done. -/
theorem mem_edgesLeft {nodes : List Node} {done : List Nat} {v : Nat} :
    v ∈ edgesLeft nodes done ↔ ∃ u, u < nodes.length ∧ u ∉ done ∧ Edge nodes u v := by
  simp [edgesLeft, Edge, and_assoc]

/-- One more node done takes its edges away. -/
theorem count_edgesLeft {nodes : List Node} {done : List Nat} {i : Nat} (hi : i < nodes.length) (hd : i ∉ done) (v : Nat) :
    (edgesLeft nodes done).count v = (edgesLeft nodes (done ++ [i])).count v + (childrenAt nodes i).count v := by
  have hp : ((List.range nodes.length).filter (· ∉ done)).Perm
      (i :: (List.range nodes.length).filter (· ∉ done ++ [i])) := by
    rw [List.perm_ext_iff_of_nodup (List.nodup_range.filter _)
      (List.nodup_cons.2 ⟨by simp, List.nodup_range.filter _⟩)]
    intro j
    by_cases hj : j = i
    · subst hj
      simp [hi, hd]
    · simp [hj]
  unfold edgesLeft
  rw [(hp.flatMap_right _).count_eq v, List.flatMap_cons, List.count_append, Nat.add_comm]

/-! ## Counting edges -/

theorem inDegrees_eq (nodes : List Node) :
    inDegrees nodes = countUp (List.replicate nodes.length 0) (nodes.flatMap Node.children) := rfl

theorem length_inDegrees (nodes : List Node) : (inDegrees nodes).length = nodes.length := by
  rw [inDegrees_eq, length_countUp, List.length_replicate]

/-- Before anything is done, all edges are left. -/
theorem flatMap_children (nodes : List Node) : nodes.flatMap Node.children = edgesLeft nodes [] := by
  have h : nodes.map Node.children = (List.range nodes.length).map (childrenAt nodes) := by
    apply List.ext_getElem
    · simp
    · intro i h1 h2
      rw [List.length_map] at h1
      simp [childrenAt, h1]
  simp [edgesLeft, List.flatMap, h]

/-- The count of a node is the number of edges into it. -/
theorem getElem?_inDegrees {nodes : List Node} {v : Nat} (hv : v < nodes.length) :
    (inDegrees nodes)[v]? = some ((edgesLeft nodes []).count v) := by
  rw [inDegrees_eq, getElem_countUp, flatMap_children]
  simp [hv]

/-! ## The frontier -/

/-- The count of a node is the number of edges into it that are left: those from nodes not done, and those in `pending`, which
are about to be taken away. The nodes done or waiting, no two of them the same, are those without an edge left. -/
structure Balanced (nodes : List Node) (done pending : List Nat) (f : Frontier) : Prop where
  size : f.degrees.length = nodes.length
  degree : ∀ v, v < nodes.length → f.degrees[v]? = some ((edgesLeft nodes done).count v + pending.count v)
  waiting : ∀ v, v ∈ done ∨ v ∈ f.queue ↔ f.degrees[v]? = some 0
  fresh : (done ++ f.queue).Nodup

theorem balanced_start (nodes : List Node) : Balanced nodes [] [] (Frontier.start nodes) where
  size := length_inDegrees nodes
  degree v hv := by simp [Frontier.start, getElem?_inDegrees hv]
  waiting v := by
    simp only [Frontier.start, List.not_mem_nil, false_or, List.mem_filter, List.mem_range, decide_eq_true_eq,
      and_iff_right_iff_imp]
    intro h
    have hlt := (List.getElem?_eq_some_iff.1 h).1
    rwa [length_inDegrees] at hlt
  fresh := by simpa [Frontier.start] using List.nodup_range.filter _

namespace Balanced

variable {nodes : List Node} {done pending : List Nat} {f : Frontier}

theorem lt_of_degree (h : Balanced nodes done pending f) {v d : Nat} (hv : f.degrees[v]? = some d) : v < nodes.length :=
  h.size ▸ (List.getElem?_eq_some_iff.1 hv).1

/-- Taking a pending edge away keeps the counts right; a count is never below one when it is lowered. -/
theorem release {c : Nat} (h : Balanced nodes done (c :: pending) f) (hc : c < nodes.length) :
    Balanced nodes done pending (f.release c) := by
  have hdeg := h.degree c hc
  rw [List.count_cons_self] at hdeg
  have hnot : ¬(c ∈ done ∨ c ∈ f.queue) := by
    rw [h.waiting c, hdeg]
    simp
  have hself : (f.degrees.modify c (· - 1))[c]? = some ((edgesLeft nodes done).count c + pending.count c) := by
    rw [List.getElem?_modify_eq, hdeg]
    simp
  have hother : ∀ v, v ≠ c → (f.degrees.modify c (· - 1))[v]? = f.degrees[v]? := by
    intro v hv
    simp [Ne.symm hv]
  refine ⟨by simp [Frontier.release, h.size], ?_, ?_, ?_⟩
  · intro v hv
    by_cases hvc : v = c
    · subst hvc
      exact hself
    · show (f.degrees.modify c (· - 1))[v]? = _
      rw [hother v hvc, h.degree v hv, List.count_cons_of_ne (Ne.symm hvc)]
  · intro v
    show v ∈ done ∨ v ∈ (if _ then _ else _) ↔ (f.degrees.modify c (· - 1))[v]? = some 0
    by_cases hvc : v = c
    · subst hvc
      split
      · next h0 => simp [h0]
      · next h0 => exact ⟨fun hv => absurd hv hnot, fun hv => absurd hv h0⟩
    · rw [hother v hvc, ← h.waiting v]
      split
      · simp [hvc]
      · rfl
  · show (done ++ (if _ then _ else _)).Nodup
    split
    · rw [← List.append_assoc]
      refine List.nodup_append.2 ⟨h.fresh, List.nodup_singleton c, ?_⟩
      rintro a ha b hb rfl
      rw [List.mem_singleton] at hb
      subst hb
      exact hnot (List.mem_append.1 ha)
    · exact h.fresh

/-- Taking every pending edge away keeps the counts right. -/
theorem foldl_release (h : Balanced nodes done pending f) (hp : ∀ c ∈ pending, c < nodes.length) :
    Balanced nodes done [] (pending.foldl Frontier.release f) := by
  induction pending generalizing f with
  | nil => exact h
  | cons c pending ih =>
    exact ih (h.release (hp c List.mem_cons_self)) fun x hx => hp x (List.mem_cons_of_mem c hx)

theorem not_mem_done (h : Balanced nodes done pending f) {i : Nat} (hi : i ∈ f.queue) : i ∉ done :=
  fun hd => (List.nodup_append.1 h.fresh).2.2 i hd i hi rfl

/-- Listing the first node that waits makes its edges pending. -/
theorem pop {i : Nat} {rest : List Nat} (h : Balanced nodes done [] f) (hq : f.queue = i :: rest) :
    Balanced nodes (done ++ [i]) (childrenAt nodes i) ⟨f.degrees, rest⟩ := by
  have hmem : i ∈ f.queue := by simp [hq]
  have hi : i < nodes.length := h.lt_of_degree ((h.waiting i).1 (Or.inr hmem))
  have hfresh := h.fresh
  rw [hq] at hfresh
  refine ⟨h.size, ?_, ?_, by simpa using hfresh⟩
  · intro v hv
    rw [h.degree v hv, count_edgesLeft hi (h.not_mem_done hmem) v]
    simp
  · intro v
    rw [← h.waiting v, hq]
    simp [or_assoc]

/-- A node with an edge into a node done or waiting is done. -/
theorem mem_done_of_edge (h : Balanced nodes done [] f) {u v : Nat} (hv : v ∈ done ∨ v ∈ f.queue) (he : Edge nodes u v) :
    u ∈ done := by
  have h0 := (h.waiting v).1 hv
  have hdeg := h.degree v (h.lt_of_degree h0)
  by_contra hu
  have hpos := List.count_pos_iff.2 (mem_edgesLeft.2 ⟨u, lt_of_edge he, hu, he⟩)
  rw [h0, List.count_nil, Nat.add_zero, Option.some.injEq] at hdeg
  omega

end Balanced

/-! ## The listing -/

/-- Every node done comes after the nodes with an edge into it, and these are done. -/
def Precedes (nodes : List Node) (done : List Nat) : Prop := ∀ v ∈ done, ∀ u, Edge nodes u v → done.idxOf u < done.idxOf v

/-- A node may be done when those with an edge into it are. -/
theorem Precedes.snoc {nodes : List Node} {done : List Nat} {i : Nat} (h : Precedes nodes done) (hi : i ∉ done)
    (he : ∀ u, Edge nodes u i → u ∈ done) : Precedes nodes (done ++ [i]) := by
  intro v hv u huv
  rcases List.mem_append.1 hv with hv | hv
  · have hlt := h v hv u huv
    have hu : u ∈ done := List.idxOf_lt_length_iff.1 (lt_of_lt_of_le hlt List.idxOf_le_length)
    rwa [List.idxOf_append_of_mem hu, List.idxOf_append_of_mem hv]
  · rw [List.mem_singleton] at hv
    subst hv
    have hu := he u huv
    have hlt := List.idxOf_lt_length_of_mem hu
    rw [List.idxOf_append_of_mem hu, List.idxOf_append_of_notMem hi]
    omega

/-- When as many nodes are done as there are, none waits. -/
theorem queue_eq_nil {nodes : List Node} {done : List Nat} {f : Frontier} (h : Balanced nodes done [] f)
    (hlen : nodes.length ≤ done.length) : f.queue = [] := by
  have hsub : done ++ f.queue ⊆ List.range nodes.length := by
    intro v hv
    rw [List.mem_append] at hv
    exact List.mem_range.2 (h.lt_of_degree ((h.waiting v).1 hv))
  have hle := (h.fresh.subperm hsub).length_le
  rw [List.length_append, List.length_range] at hle
  exact List.eq_nil_of_length_eq_zero (by omega)

/-- With fuel for every node not done, draining ends with no node waiting. -/
theorem drain_balanced {nodes : List Node} (closed : Closed nodes) (fuel : Nat) :
    ∀ (f : Frontier) (done : List Nat), Balanced nodes done [] f → Precedes nodes done → nodes.length ≤ fuel + done.length →
      ∃ f', Balanced nodes (done ++ drain nodes fuel f) [] f' ∧ f'.queue = [] ∧
        Precedes nodes (done ++ drain nodes fuel f) := by
  induction fuel with
  | zero =>
    intro f done hb hp hlen
    rw [drain, List.append_nil]
    exact ⟨f, hb, queue_eq_nil hb (by omega), hp⟩
  | succ fuel ih =>
    intro f done hb hp hlen
    cases hq : f.queue with
    | nil =>
      have hstop : drain nodes (fuel + 1) f = [] := by simp [drain, hq]
      rw [hstop, List.append_nil]
      exact ⟨f, hb, hq, hp⟩
    | cons i rest =>
      have hstep : drain nodes (fuel + 1) f =
          i :: drain nodes fuel ((childrenAt nodes i).foldl Frontier.release ⟨f.degrees, rest⟩) := by
        simp [drain, hq, childrenAt]
      have hi : i ∈ f.queue := by simp [hq]
      have hp' : Precedes nodes (done ++ [i]) :=
        hp.snoc (hb.not_mem_done hi) fun u hu => hb.mem_done_of_edge (Or.inr hi) hu
      have hb' := (hb.pop hq).foldl_release fun c hc => closed i c hc
      rw [hstep, List.append_cons]
      exact ih _ _ hb' hp' (by rw [List.length_append, List.length_singleton]; omega)

section Listing

variable {nodes : List Node} (closed : Closed nodes)

include closed

/-- No node is listed twice, each comes after those with an edge into it, and a node is listed as soon as these are. -/
theorem listing_ordered : (listing nodes).Nodup ∧ Precedes nodes (listing nodes) ∧
    ∀ v, v ∈ listing nodes ↔ v < nodes.length ∧ ∀ u, Edge nodes u v → u ∈ listing nodes := by
  obtain ⟨f, hb, hq, hp⟩ := drain_balanced closed nodes.length (Frontier.start nodes) [] (balanced_start nodes)
    (by simp [Precedes]) (by simp)
  rw [List.nil_append, ← listing] at hb hp
  refine ⟨by simpa [hq] using hb.fresh, hp, fun v => ⟨fun hv => ⟨?_, fun u hu => ?_⟩, fun ⟨hlt, hv⟩ => ?_⟩⟩
  · exact hb.lt_of_degree ((hb.waiting v).1 (Or.inl hv))
  · exact hb.mem_done_of_edge (Or.inl hv) hu
  · have hzero : (edgesLeft nodes (listing nodes)).count v = 0 := by
      rw [List.count_eq_zero, mem_edgesLeft]
      rintro ⟨u, -, hu, he⟩
      exact hu (hv u he)
    have h0 : f.degrees[v]? = some 0 := by
      rw [hb.degree v hlt]
      simpa using hzero
    simpa [hq] using (hb.waiting v).2 h0

/-- Without cycles every node is listed. -/
theorem mem_listing_of_acyclic (acyclic : Acyclic nodes) {v : Nat} (hv : v < nodes.length) : v ∈ listing nodes := by
  have : IsTrans (Fin nodes.length) fun u v => Relation.TransGen (Edge nodes) u v := ⟨fun _ _ _ h h' => h.trans h'⟩
  have : Std.Irrefl fun u v : Fin nodes.length => Relation.TransGen (Edge nodes) u v := ⟨fun u h => acyclic u h⟩
  have hwf : WellFounded fun u v : Fin nodes.length => Relation.TransGen (Edge nodes) u v :=
    Finite.wellFounded_of_trans_of_irrefl _
  -- induction along the edges: a node is listed because the nodes with an edge into it are
  have h : ∀ v : Fin nodes.length, v.1 ∈ listing nodes := by
    intro v
    induction v using hwf.induction with
    | _ v ih =>
      refine ((listing_ordered closed).2.2 v).2 ⟨v.2, fun u hu => ?_⟩
      exact ih ⟨u, lt_of_edge hu⟩ (Relation.TransGen.single hu)
  exact h ⟨v, hv⟩

end Listing

/-- A first node that no edge enters is listed first. -/
theorem idxOf_listing_zero {nodes : List Node} (h : ∀ u, ¬Edge nodes u 0) : (listing nodes).idxOf 0 = 0 := by
  cases hn : nodes.length with
  | zero => simp [listing, hn, drain]
  | succ k =>
    have h0 : (inDegrees nodes)[0]? = some 0 := by
      rw [getElem?_inDegrees (by omega), List.count_eq_zero.2]
      rw [mem_edgesLeft]
      rintro ⟨u, -, -, he⟩
      exact h u he
    obtain ⟨rest, hq⟩ : ∃ rest, (Frontier.start nodes).queue = 0 :: rest := by
      simp [Frontier.start, hn, List.range_succ_eq_map, h0]
    simp [listing, hn, drain, hq]

/-! ## The sorted nodes -/

/-- Nodes moved to other places, in which every edge leads onward. -/
structure Sorted (nodes sorted : List Node) (place : Nat → Nat) : Prop where
  length_eq : sorted.length = nodes.length
  getElem_place : ∀ v n, nodes[v]? = some n → sorted[place v]? = some (n.relocate place (place v))
  surjective : ∀ p, p < nodes.length → ∃ v, v < nodes.length ∧ place v = p
  ascending : ∀ u v, Edge nodes u v → place u < place v
  place_zero : (∀ u, ¬Edge nodes u 0) → place 0 = 0

/-- The nodes listed stand in the order of the listing. -/
theorem getElem?_filterMap_nodes {nodes : List Node} {order : List Nat} (h : ∀ v ∈ order, v < nodes.length) (p : Nat) :
    (order.filterMap (nodes[·]?))[p]? = (order[p]?).bind (nodes[·]?) := by
  induction order generalizing p with
  | nil => simp
  | cons v order ih =>
    obtain ⟨n, hv⟩ : ∃ n, nodes[v]? = some n := ⟨_, List.getElem?_eq_getElem (h v List.mem_cons_self)⟩
    rw [List.filterMap_cons_some hv]
    cases p with
    | zero => simp [hv]
    | succ p => simpa using ih (fun w hw => h w (List.mem_cons_of_mem v hw)) p

/-- The nodes listed in the order of their places are the nodes. -/
theorem filterMap_range_nodes (nodes : List Node) : (List.range nodes.length).filterMap (nodes[·]?) = nodes := by
  apply List.ext_getElem?
  intro p
  rw [getElem?_filterMap_nodes fun v hv => List.mem_range.1 hv]
  by_cases hp : p < nodes.length
  · rw [List.getElem?_range hp, Option.bind_some]
  · rw [List.getElem?_eq_none (by simpa using hp), List.getElem?_eq_none (by simpa using hp), Option.bind_none]

/-- A listing as long as the nodes lists each of them once. -/
theorem perm_listing {nodes : List Node} (closed : Closed nodes) (hlen : (listing nodes).length = nodes.length) :
    (listing nodes).Perm (List.range nodes.length) := by
  obtain ⟨hnodup, -, hmem⟩ := listing_ordered closed
  have hsub : listing nodes ⊆ List.range nodes.length := fun v hv => List.mem_range.2 ((hmem v).1 hv).1
  exact (hnodup.subperm hsub).perm_of_length_le (by rw [List.length_range, hlen])

/-- Sorting neither drops nor repeats a node: what moving leaves of the nodes is that of the nodes before, in another order. -/
theorem perm_map_of_topologicalSort {α : Type} {f : Node → α} (hf : ∀ place id n, f (Node.relocate place id n) = f n)
    {nodes sorted : List Node} (closed : Closed nodes) (h : topologicalSort nodes = .ok sorted) :
    (sorted.map f).Perm (nodes.map f) := by
  simp only [topologicalSort] at h
  split at h
  · next hlen =>
    obtain rfl := Except.ok.inj h
    have hmoved : (((listing nodes).filterMap (nodes[·]?)).mapIdx (Node.relocate (listing nodes).idxOf)).map f =
        ((listing nodes).filterMap (nodes[·]?)).map f := by
      apply List.ext_getElem?
      intro p
      simp only [List.getElem?_map, List.getElem?_mapIdx, Option.map_map]
      congr 1
      funext n
      exact hf _ _ n
    have hperm := ((perm_listing closed hlen).filterMap (nodes[·]?)).map f
    rw [filterMap_range_nodes] at hperm
    rwa [hmoved]
  · cases h

/-- Nodes that could be sorted are moved to their places in the listing. -/
theorem sorted_of_topologicalSort {nodes sorted : List Node} (closed : Closed nodes) (h : topologicalSort nodes = .ok sorted) :
    Sorted nodes sorted (listing nodes).idxOf := by
  obtain ⟨hnodup, hprec, hmem⟩ := listing_ordered closed
  have hlt : ∀ v ∈ listing nodes, v < nodes.length := fun v hv => ((hmem v).1 hv).1
  simp only [topologicalSort] at h
  split at h
  · next hlen =>
    obtain rfl := Except.ok.inj h
    have hall : ∀ v, v < nodes.length → v ∈ listing nodes := fun v hv =>
      (perm_listing closed hlen).mem_iff.2 (List.mem_range.2 hv)
    have hget : ∀ v n, nodes[v]? = some n → ((listing nodes).filterMap (nodes[·]?))[(listing nodes).idxOf v]? = some n := by
      intro v n hv
      have hv' : v ∈ listing nodes := hall v (List.getElem?_eq_some_iff.1 hv).1
      rw [getElem?_filterMap_nodes hlt, List.getElem?_idxOf hv', Option.bind_some, hv]
    refine ⟨?_, ?_, ?_, ?_, idxOf_listing_zero⟩
    · rw [List.length_mapIdx, ← hlen, List.length_filterMap_eq_countP, List.countP_eq_length]
      intro v hv
      simp [hlt v hv]
    · intro v n hv
      rw [List.getElem?_mapIdx, hget v n hv, Option.map_some]
    · intro p hp
      rw [← hlen] at hp
      exact ⟨(listing nodes)[p], hlt _ (List.getElem_mem hp), hnodup.idxOf_getElem p hp⟩
    · intro u v huv
      exact hprec v (hall v (closed u v huv)) u huv
  · cases h

/-- Nodes without cycles can be sorted. -/
theorem topologicalSort_of_acyclic {nodes : List Node} (closed : Closed nodes) (acyclic : Acyclic nodes) :
    ∃ sorted, topologicalSort nodes = .ok sorted ∧ Sorted nodes sorted (listing nodes).idxOf := by
  obtain ⟨hnodup, -, hmem⟩ := listing_ordered closed
  have hperm : (listing nodes).Perm (List.range nodes.length) := by
    refine (List.perm_ext_iff_of_nodup hnodup List.nodup_range).2 fun v => ?_
    rw [List.mem_range]
    exact ⟨fun hv => ((hmem v).1 hv).1, fun hv => mem_listing_of_acyclic closed acyclic hv⟩
  have hlen : (listing nodes).length = nodes.length := by rw [hperm.length_eq, List.length_range]
  have hok : topologicalSort nodes = .ok _ := if_pos hlen
  exact ⟨_, hok, sorted_of_topologicalSort closed hok⟩

/-- Each of the sorted nodes was moved there from its place before. -/
theorem Sorted.exists_moved {nodes sorted : List Node} {place : Nat → Nat} (h : Sorted nodes sorted place) {p : Nat} {n : Node}
    (hn : sorted[p]? = some n) : ∃ v m, nodes[v]? = some m ∧ place v = p ∧ n = m.relocate place p := by
  have hp : p < nodes.length := h.length_eq ▸ (List.getElem?_eq_some_iff.1 hn).1
  obtain ⟨v, hv, rfl⟩ := h.surjective p hp
  have hm := List.getElem?_eq_getElem hv
  rw [h.getElem_place v _ hm] at hn
  exact ⟨v, _, hm, rfl, (Option.some.inj hn).symm⟩

/-- Every edge of sorted nodes leads to a later place. -/
theorem Sorted.lt_of_edge {nodes sorted : List Node} {place : Nat → Nat} (h : Sorted nodes sorted place) {p q : Nat}
    (he : Edge sorted p q) : p < q := by
  have hp : p < nodes.length := h.length_eq ▸ Graph.lt_of_edge he
  obtain ⟨u, hu, rfl⟩ := h.surjective p hp
  have hn := List.getElem?_eq_getElem hu
  rw [Edge, childrenAt, h.getElem_place u _ hn, Option.map_some, Option.getD_some, Node.children_relocate,
    List.mem_map] at he
  obtain ⟨v, hv, rfl⟩ := he
  exact h.ascending u v (by simpa [Edge, childrenAt, hn] using hv)

end Graph

end FirstMatch
