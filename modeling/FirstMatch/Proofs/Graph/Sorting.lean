import FirstMatch.Proofs.Graph.Listing

/-!
# Which graphs can be sorted

Statements about `topologicalSort` on any nodes whose edges lead to nodes: with loops, with both edges to one node, with several
nodes that no edge enters. It succeeds exactly on the graphs without cycles, and then moves the nodes by a permutation of their
places, so that every edge leads onward. While nodes are listed, no count of edges is lowered below zero (`drain?`, which gives up
where one would be), and the listing ends by itself: more fuel lists no more.
-/

namespace FirstMatch.Graph

/-! ## Counts are lowered to zero at most -/

/-- An edge into a node is taken away, unless no edge into it is left. -/
def Frontier.release? (f : Frontier) (child : Nat) : Option Frontier :=
  if (f.degrees[child]?).any (0 < ·) then some (f.release child) else none

/-- The nodes listed from a frontier on, at most `fuel` of them, unless an edge is taken away that is not left. -/
def drain? (nodes : List Node) : Nat → Frontier → Option (List Nat)
  | 0, _ => some []
  | fuel + 1, f =>
    match f.queue with
    | [] => some []
    | i :: rest => ((childrenAt nodes i).foldlM Frontier.release? ⟨f.degrees, rest⟩).bind fun next =>
      (drain? nodes fuel next).map (i :: ·)

namespace Balanced

variable {nodes : List Node} {done pending : List Nat} {f : Frontier}

/-- A pending edge is left. -/
theorem release_eq {c : Nat} (h : Balanced nodes done (c :: pending) f) (hc : c < nodes.length) :
    f.release? c = some (f.release c) := by
  have hdegree := h.degree c hc
  rw [List.count_cons_self] at hdegree
  unfold Frontier.release?
  rw [if_pos]
  rw [hdegree, Option.any_some, decide_eq_true_eq]
  omega

/-- So is each of them, after those before it are taken away. -/
theorem foldlM_release (h : Balanced nodes done pending f) (hp : ∀ c ∈ pending, c < nodes.length) :
    pending.foldlM Frontier.release? f = some (pending.foldl Frontier.release f) := by
  induction pending generalizing f with
  | nil => rfl
  | cons c pending ih =>
    have hc := hp c List.mem_cons_self
    rw [List.foldlM_cons, h.release_eq hc, List.foldl_cons]
    exact ih (h.release hc) fun x hx => hp x (List.mem_cons_of_mem c hx)

end Balanced

/-- With fuel for every node not done, no edge is taken away that is not left, and other fuel lists the same nodes. -/
theorem drain_checked {nodes : List Node} (closed : Closed nodes) (fuel : Nat) :
    ∀ (f : Frontier) (done : List Nat) (fuel' : Nat), Balanced nodes done [] f → nodes.length ≤ fuel + done.length →
      nodes.length ≤ fuel' + done.length → drain? nodes fuel' f = some (drain nodes fuel f) := by
  induction fuel with
  | zero =>
    intro f done fuel' hb hlen _
    have hq := queue_eq_nil hb (by omega)
    cases fuel' with
    | zero => rfl
    | succ fuel' => simp only [drain?, drain, hq]
  | succ fuel ih =>
    intro f done fuel' hb hlen hlen'
    cases hq : f.queue with
    | nil =>
      cases fuel' with
      | zero => simp only [drain?, drain, hq]
      | succ fuel' => simp only [drain?, drain, hq]
    | cons i rest =>
      obtain ⟨fuel', rfl⟩ : ∃ k, fuel' = k + 1 := by
        refine Nat.exists_eq_succ_of_ne_zero fun h0 => ?_
        have hnil := queue_eq_nil hb (by omega)
        rw [hq] at hnil
        cases hnil
      have hchildren : ∀ c ∈ childrenAt nodes i, c < nodes.length := fun c hc => closed i c hc
      have hpop := hb.pop hq
      have hrest := ih _ _ fuel' (hpop.foldl_release hchildren)
        (by rw [List.length_append, List.length_singleton]; omega)
        (by rw [List.length_append, List.length_singleton]; omega)
      simp only [drain?, drain, hq, hpop.foldlM_release hchildren, Option.bind_some, hrest, Option.map_some]
      rfl

/-! ## Sorted nodes -/

/-- Where the edges of each node lead to nodes, every edge does. -/
theorem closed_of_children {nodes : List Node} (h : ∀ n ∈ nodes, ∀ c ∈ n.children, c < nodes.length) : Closed nodes := by
  intro i j hij
  obtain ⟨n, hn, hedge⟩ := edge_iff.1 hij
  refine h n (List.mem_of_getElem? hn) j ?_
  simpa [Node.children] using hedge

/-- Where nodes can be sorted, no way along edges leads back. -/
theorem Sorted.acyclic {nodes sorted : List Node} {place : Nat → Nat} (h : Sorted nodes sorted place) : Acyclic nodes := by
  intro i hi
  have hlt : ∀ u v, Relation.TransGen (Edge nodes) u v → place u < place v := by
    intro u v huv
    induction huv with
    | single huv => exact h.ascending u _ huv
    | tail _ hvw ih => exact ih.trans (h.ascending _ _ hvw)
  exact lt_irrefl _ (hlt i i hi)

/-- Each place is taken by one node. -/
theorem Sorted.bijOn {nodes sorted : List Node} {place : Nat → Nat} (h : Sorted nodes sorted place) :
    Set.BijOn place (Set.Iio nodes.length) (Set.Iio nodes.length) := by
  rw [← Finset.coe_Iio]
  have hmaps : Set.MapsTo place (Finset.Iio nodes.length) (Finset.Iio nodes.length) := by
    intro v hv
    have hmoved := h.getElem_place v _ (List.getElem?_eq_getElem (Finset.mem_Iio.1 hv))
    rw [Finset.mem_coe, Finset.mem_Iio, ← h.length_eq]
    exact (List.getElem?_eq_some_iff.1 hmoved).1
  have hsurj : Set.SurjOn place (Finset.Iio nodes.length) (Finset.Iio nodes.length) := by
    intro p hp
    obtain ⟨v, hv, rfl⟩ := h.surjective p (Finset.mem_Iio.1 hp)
    exact ⟨v, Finset.mem_Iio.2 hv, rfl⟩
  exact ⟨hmaps, Finset.injOn_of_surjOn_of_card_le place hmaps hsurj le_rfl, hsurj⟩

/-- A listing that leaves nodes out is shorter than the nodes. -/
theorem length_listing_le {nodes : List Node} (closed : Closed nodes) : (listing nodes).length ≤ nodes.length := by
  obtain ⟨hnodup, -, hmem⟩ := listing_ordered closed
  have hsub : listing nodes ⊆ List.range nodes.length := fun v hv => List.mem_range.2 ((hmem v).1 hv).1
  simpa using (hnodup.subperm hsub).length_le

/-- What sorting makes of nodes: they take each other's places, keep all that they hold, are numbered by their places, and their
edges lead where the nodes went, to a later place. -/
structure Rearranged (nodes sorted : List Node) (place : Nat → Nat) : Prop where
  length_eq : sorted.length = nodes.length
  permutes : Set.BijOn place (Set.Iio nodes.length) (Set.Iio nodes.length)
  keeps : ∀ v n, nodes[v]? = some n → ∃ m, sorted[place v]? = some m ∧
    m.rule = n.rule ∧ m.feature = n.feature ∧ m.value = n.value ∧ m.kind = n.kind ∧
    m.id = place v ∧ m.onTrue? = n.onTrue?.map place ∧ m.onFalse? = n.onFalse?.map place
  onward : ∀ m ∈ sorted, ∀ c ∈ m.children, m.id < c

theorem Sorted.rearranged {nodes sorted : List Node} {place : Nat → Nat} (h : Sorted nodes sorted place) :
    Rearranged nodes sorted place where
  length_eq := h.length_eq
  permutes := h.bijOn
  keeps v n hv := ⟨_, h.getElem_place v n hv, rfl, rfl, rfl, rfl, rfl, rfl, rfl⟩
  onward := by
    intro m hm c hc
    obtain ⟨p, hp⟩ := List.mem_iff_getElem?.1 hm
    obtain ⟨v, n, -, -, rfl⟩ := h.exists_moved hp
    refine h.lt_of_edge (p := p) ?_
    rw [Edge, childrenAt, hp]
    exact hc

/-- What sorting gives for any nodes whose edges lead to nodes, in four parts.
1. It succeeds exactly where no way along edges leads back to where it began.
2. Then it rearranges the nodes.
3. Otherwise it reports how many nodes could be listed, fewer than there are, and how many there are.
4. The counts of edges are never lowered below zero, and the listing has ended when there is fuel for each node. -/
theorem topologicalSort_ok_iff {nodes : List Node} (hchildren : ∀ n ∈ nodes, ∀ c ∈ n.children, c < nodes.length) :
    ((∃ sorted, topologicalSort nodes = .ok sorted) ↔ Acyclic nodes) ∧
    (∀ sorted, topologicalSort nodes = .ok sorted → ∃ place, Rearranged nodes sorted place) ∧
    (∀ e, topologicalSort nodes = .error e → ∃ ordered, ordered < nodes.length ∧ e = .cycle ordered nodes.length) ∧
    ∀ fuel, nodes.length ≤ fuel → drain? nodes fuel (Frontier.start nodes) = some (listing nodes) := by
  have closed := closed_of_children hchildren
  refine ⟨⟨fun ⟨sorted, h⟩ => (sorted_of_topologicalSort closed h).acyclic, fun acyclic => ?_⟩, fun sorted h => ?_,
    fun e h => ?_, fun fuel hfuel => ?_⟩
  · obtain ⟨sorted, h, -⟩ := topologicalSort_of_acyclic closed acyclic
    exact ⟨sorted, h⟩
  · exact ⟨_, (sorted_of_topologicalSort closed h).rearranged⟩
  · simp only [topologicalSort] at h
    split at h
    · cases h
    · next hne =>
      cases h
      exact ⟨_, Nat.lt_of_le_of_ne (length_listing_le closed) hne, rfl⟩
  · exact drain_checked closed nodes.length _ [] fuel (balanced_start nodes) (by simp) (by simpa using hfuel)

/-- A node that tests something and leads to the nodes given. -/
def leading (onTrue? onFalse? : Option Nat) : Node := ⟨0, 0, 0, .number 1, .test .eq, onTrue?, onFalse?⟩

/-- Four nodes, two of which no edge enters; both edges of the second lead to the first. -/
def twoSources : List Node := [leading none none, leading (some 0) (some 0), leading (some 1) (some 0), leading none (some 1)]

/-- A node that leads to itself, and one that leads to it. -/
def loop : List Node := [leading (some 1) none, leading none (some 1)]

/-- No way leads back among the four nodes, and one does in the loop. -/
theorem topologicalSort_ok_iff_twoSources : Acyclic twoSources ∧ ¬Acyclic loop := by
  have hloop : topologicalSort loop = .error (.cycle 1 2) := by rfl
  constructor
  · exact (topologicalSort_ok_iff (by decide)).1.1 ⟨_, rfl⟩
  · intro acyclic
    obtain ⟨sorted, h⟩ := (topologicalSort_ok_iff (by decide)).1.2 acyclic
    rw [hloop] at h
    cases h

end FirstMatch.Graph
