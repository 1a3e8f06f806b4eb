import FirstMatch.Proofs.Graph.Trail

/-!
# The chain of one rule by its columns

When the literals of a rule equal themselves, its chain has one test for each column that it tests, at the place of the first
visit, however often the order repeats the column. What a test leads to is decided by its last visit: the test on the column
visited next (`relink`). So what `chain` makes of a rule in any order of columns is known (`chain_columns`).
-/

namespace FirstMatch.Graph

/-! ## First and last occurrences -/

theorem nodup_eraseDups (xs : List Nat) : xs.eraseDups.Nodup := by
  induction xs using List.reverseRecOn with
  | nil => simp
  | append_singleton xs x ih =>
    by_cases h : x ∈ xs
    · rwa [eraseDups_concat_of_mem h]
    · rw [eraseDups_concat_of_notMem h]
      refine List.nodup_append.2 ⟨ih, List.nodup_singleton x, fun y hy z hz hyz => h ?_⟩
      rw [← List.mem_singleton.1 hz, ← hyz]
      exact List.mem_eraseDups.1 hy

/-- Repeats may be left out before or after a filter. -/
theorem filter_eraseDups (p : Nat → Bool) (xs : List Nat) : xs.eraseDups.filter p = (xs.filter p).eraseDups := by
  induction xs using List.reverseRecOn with
  | nil => simp
  | append_singleton xs x ih =>
    rw [List.filter_append, List.filter_singleton]
    by_cases h : x ∈ xs
    · rw [eraseDups_concat_of_mem h, ih]
      cases hp : p x with
      | true => rw [cond_true, eraseDups_concat_of_mem (List.mem_filter.2 ⟨h, hp⟩)]
      | false => rw [cond_false, List.append_nil]
    · rw [eraseDups_concat_of_notMem h, List.filter_append, ih, List.filter_singleton]
      cases hp : p x with
      | true => rw [cond_true, eraseDups_concat_of_notMem fun hf => h (List.mem_filter.1 hf).1]
      | false => rw [cond_false, List.append_nil, List.append_nil]

theorem eraseDups_of_nodup {xs : List Nat} (h : xs.Nodup) : xs.eraseDups = xs := by
  induction xs using List.reverseRecOn with
  | nil => simp
  | append_singleton xs x ih =>
    obtain ⟨h1, -, h2⟩ := List.nodup_append.1 h
    rw [eraseDups_concat_of_notMem fun hx => h2 x hx x (List.mem_singleton_self x) rfl, ih h1]

/-- The column that follows the last occurrence of a column. -/
def after? (columns : List Nat) (f : Nat) : Option Nat := (columns.reverse.takeWhile (· ≠ f)).getLast?

/-- The last column follows the last occurrence of a column that nothing follows yet, and nothing follows the last column. -/
theorem after_concat (columns : List Nat) (g f : Nat) :
    after? (columns ++ [g]) f = if f = g then none else some ((after? columns f).getD g) := by
  unfold after?
  rw [List.reverse_append, List.reverse_singleton, List.singleton_append]
  by_cases h : f = g
  · rw [List.takeWhile_cons_of_neg (by simp [h]), if_pos h]
    rfl
  · rw [List.takeWhile_cons_of_pos (by simpa using Ne.symm h), if_neg h, List.getLast?_cons]

/-- What follows a column is one of the columns. -/
theorem mem_of_after {columns : List Nat} {f g : Nat} (h : after? columns f = some g) : g ∈ columns :=
  List.mem_reverse.1 ((List.takeWhile_prefix _).subset (List.mem_of_getLast? h))

theorem findIdx_modify {α : Type} {p : α → Bool} {f : α → α} (hp : ∀ x, p (f x) = p x) (l : List α) (i : Nat) :
    (l.modify i f).findIdx? p = l.findIdx? p := by
  induction l generalizing i with
  | nil => simp
  | cons x l ih =>
    cases i with
    | zero => simp [List.findIdx?_cons, hp]
    | succ i => simp [List.findIdx?_cons, ih]

theorem modify_append_add {α : Type} (f : α → α) (l r : List α) (j : Nat) :
    (l ++ r).modify (l.length + j) f = l ++ r.modify j f := by
  induction l with
  | nil => simp
  | cons x l ih => simpa [Nat.succ_add, Nat.add_right_comm] using ih

/-- Modifying at the place of an element modifies what is made of it. -/
theorem modify_map_idxOf {β : Type} {l : List Nat} (hl : l.Nodup) (g : Nat → β) (f : β → β) (x : Nat) :
    (l.map g).modify (l.idxOf x) f = l.map fun y => if y = x then f (g y) else g y := by
  induction l with
  | nil => simp
  | cons y l ih =>
    rw [List.nodup_cons] at hl
    by_cases hyx : y = x
    · have hrest : l.map (fun z => if z = x then f (g z) else g z) = l.map g := by
        refine List.map_congr_left fun z hz => if_neg ?_
        rintro rfl
        exact hl.1 (hyx ▸ hz)
      simp [hyx, hrest]
    · simp [hyx, ih hl.2]

/-- Linking the last test keeps the first place of a property that does not turn on the link. -/
theorem findIdx_linkLast {p : Node → Bool} (hp : ∀ n target, p { n with onTrue? := some target } = p n) (nodes : List Node)
    (visited : List Nat) (target : Nat) : (linkLast nodes visited target).findIdx? p = nodes.findIdx? p := by
  unfold linkLast
  split
  · exact findIdx_modify (fun n => hp n target) nodes _
  · rfl

/-! ## The tests of a rule by their columns -/

/-- The place of the test on a column, when the columns of a rule are tested from a place on. -/
def columnPlace (start : Nat) (columns : List Nat) (f : Nat) : Nat := start + columns.eraseDups.idxOf f

/-- The test on a column after its visits. It leads to the test on the column that follows its last occurrence, and that on the
last column to `target`. -/
def relink (rule : Nat) (cond : Nat → Condition) (start target : Nat) (columns : List Nat) (f : Nat) : Node :=
  { Node.ofCondition rule (cond f) with
    id := columnPlace start columns f
    onTrue? := some (((after? columns f).map (columnPlace start columns)).getD target) }

/-- The tests on some columns after their visits, each at the place of the first visit. -/
def relinked (rule : Nat) (cond : Nat → Condition) (start target : Nat) (columns : List Nat) : List Node :=
  columns.eraseDups.map (relink rule cond start target columns)

/-- A column keeps its place when another is tested after it. -/
theorem columnPlace_concat {columns : List Nat} {f : Nat} (hf : f ∈ columns) (start g : Nat) :
    columnPlace start (columns ++ [g]) f = columnPlace start columns f := by
  unfold columnPlace
  by_cases hg : g ∈ columns
  · rw [eraseDups_concat_of_mem hg]
  · rw [eraseDups_concat_of_notMem hg, List.idxOf_append_of_mem (List.mem_eraseDups.2 hf)]

/-- A new column is tested at the next place. -/
theorem columnPlace_concat_self {start : Nat} {columns : List Nat} {g : Nat} (hg : g ∉ columns) :
    columnPlace start (columns ++ [g]) g = start + columns.eraseDups.length := by
  unfold columnPlace
  rw [eraseDups_concat_of_notMem hg, List.idxOf_append_of_notMem fun h => hg (List.mem_eraseDups.1 h)]
  simp

section Relink

variable {rule start target : Nat} {cond : Nat → Condition} {columns : List Nat} {f g : Nat}

/-- The test on the last column leads to the target. -/
theorem relink_concat_self : relink rule cond start target (columns ++ [g]) g =
    { Node.ofCondition rule (cond g) with id := columnPlace start (columns ++ [g]) g, onTrue? := some target } := by
  rw [relink, after_concat, if_pos rfl]
  rfl

/-- Visiting a column last changes of the other tests where the one visited before it leads. -/
theorem relink_concat_of_ne (hf : f ∈ columns) (hfg : f ≠ g) : relink rule cond start target (columns ++ [g]) f =
    relink rule cond start (columnPlace start (columns ++ [g]) g) columns f := by
  rw [relink, relink, after_concat, if_neg hfg, columnPlace_concat hf]
  cases h : after? columns f with
  | none => rfl
  | some x => simp [columnPlace_concat (mem_of_after h)]

end Relink

/-- Each column has a place among the tests. -/
theorem columnPlace_lt {columns : List Nat} {f : Nat} (hf : f ∈ columns) (start : Nat) :
    columnPlace start columns f < start + columns.eraseDups.length :=
  Nat.add_lt_add_left (List.idxOf_lt_length_of_mem (List.mem_eraseDups.2 hf)) start

/-- Seeking the test on a column finds it where it was placed at the first visit. -/
theorem findIdx_relinked {rule : Nat} {base : List Node} {cond : Nat → Condition} {columns : List Nat} {g : Nat}
    (hrule : ∀ n ∈ base, n.isOutcome = false → n.rule ≠ rule) (hfeature : ∀ f, (cond f).feature = f)
    (hself : ((cond g).value == (cond g).value) = true) (target : Nat) :
    (base ++ relinked rule cond base.length target columns).findIdx? (Node.testsFor rule (cond g)) =
      if g ∈ columns then some (columnPlace base.length columns g) else none := by
  have hbase : base.findIdx? (Node.testsFor rule (cond g)) = none := by
    rw [List.findIdx?_eq_none_iff]
    intro n hn
    cases ho : n.isOutcome with
    | true => simp [Node.testsFor, ho]
    | false => simp [Node.testsFor, hrule n hn ho]
  have htests : Node.testsFor rule (cond g) ∘ relink rule cond base.length target columns = (· == g) := by
    funext f
    show (true && rule == rule && (cond f).feature == (cond g).feature && (cond f).value == (cond g).value) = (f == g)
    rw [hfeature, hfeature]
    by_cases hfg : f = g
    · simp [hfg, hself]
    · simp [hfg]
  rw [List.findIdx?_append, hbase, Option.none_or, relinked, List.findIdx?_map, htests]
  split
  · next hg =>
    have hfind : columns.eraseDups.findIdx? (· == g) = some (columns.eraseDups.findIdx (· == g)) :=
      List.findIdx?_eq_some_of_exists ⟨g, List.mem_eraseDups.2 hg, by simp⟩
    rw [hfind, Option.map_some, columnPlace, List.idxOf, Nat.add_comm]
  · next hg =>
    have hfind : columns.eraseDups.findIdx? (· == g) = none := by
      rw [List.findIdx?_eq_none_iff]
      intro f hf
      have hfg : f ≠ g := fun h => hg (h ▸ List.mem_eraseDups.1 hf)
      simpa using hfg
    rw [hfind, Option.map_none]

/-- As many tests are added as there are different columns. -/
theorem length_of_linkLast {nodes base : List Node} {rule target : Nat} {cond : Nat → Condition} {visited columns : List Nat}
    (h : linkLast nodes visited target = base ++ relinked rule cond base.length target columns) :
    nodes.length = base.length + columns.eraseDups.length := by
  have hlen := congrArg List.length h
  rwa [length_linkLast, List.length_append, relinked, List.length_map] at hlen

/-- Linking the last visited of some nodes leaves a node behind them as it is. -/
theorem linkLast_append {nodes : List Node} {visited : List Nat} (h : ∀ i ∈ visited, i < nodes.length) (target : Nat)
    (n : Node) : linkLast (nodes ++ [n]) visited target = linkLast nodes visited target ++ [n] := by
  apply List.ext_getElem?
  intro i
  rw [getElem?_linkLast]
  by_cases hi : i < nodes.length
  · rw [List.getElem?_append_left hi, List.getElem?_append_left (by rwa [length_linkLast]), getElem?_linkLast]
  · have hlast : visited.getLast? ≠ some i := fun hlast => hi (h i (List.mem_of_getLast? hlast))
    rw [List.getElem?_append_right (Nat.not_lt.1 hi), List.getElem?_append_right (by rw [length_linkLast]; omega),
      length_linkLast]
    simp [hlast]

/-- Visiting a column that was visited before links the test visited last to its test, and this one to the target. -/
theorem modify_relinked_of_mem {rule target : Nat} {base : List Node} {cond : Nat → Condition} {columns : List Nat} {g : Nat}
    (hg : g ∈ columns) :
    (base ++ relinked rule cond base.length (columnPlace base.length columns g) columns).modify
        (columnPlace base.length columns g) (fun n => { n with onTrue? := some target }) =
      base ++ relinked rule cond base.length target (columns ++ [g]) := by
  have hplace := columnPlace_concat hg base.length g
  rw [relinked, relinked, eraseDups_concat_of_mem hg, columnPlace, modify_append_add, modify_map_idxOf (nodup_eraseDups columns)]
  refine congrArg (base ++ ·) (List.map_congr_left fun f hf => ?_)
  split
  · next hfg =>
    rw [hfg, relink_concat_self, hplace]
    rfl
  · next hfg =>
    rw [relink_concat_of_ne (List.mem_eraseDups.1 hf) hfg, hplace]
    rfl

/-- Visiting a new column links the test visited last to a new test, and this one to the target. -/
theorem relinked_concat_of_notMem {rule target start : Nat} {cond : Nat → Condition} {columns : List Nat} {g : Nat}
    (hg : g ∉ columns) : relinked rule cond start target (columns ++ [g]) =
      relinked rule cond start (start + columns.eraseDups.length) columns ++
        [{ Node.ofCondition rule (cond g) with id := start + columns.eraseDups.length, onTrue? := some target }] := by
  rw [relinked, relinked, eraseDups_concat_of_notMem hg, List.map_append, List.map_singleton, relink_concat_self,
    columnPlace_concat_self hg]
  refine congrArg (· ++ _) (List.map_congr_left fun f hf => ?_)
  have hf := List.mem_eraseDups.1 hf
  have hfg : f ≠ g := by
    rintro rfl
    exact hg hf
  rw [relink_concat_of_ne hf hfg, columnPlace_concat_self hg]

/-- The conditions on some columns, of which some may repeat, become tests that are visited in their order. -/
theorem chainTests_columns {bound rule : Nat} {base : List Node} {cond : Nat → Condition} {columns : List Nat}
    (hb : base.length + columns.eraseDups.length ≤ bound) (hrule : ∀ n ∈ base, n.isOutcome = false → n.rule ≠ rule)
    (hfeature : ∀ f, (cond f).feature = f) (hself : ∀ f ∈ columns, ((cond f).value == (cond f).value) = true) :
    ∃ nodes, chainTests bound rule base [] (columns.map cond) =
        .ok (nodes, columns.map (columnPlace base.length columns)) ∧
      ∀ target, linkLast nodes (columns.map (columnPlace base.length columns)) target =
        base ++ relinked rule cond base.length target columns := by
  induction columns using List.reverseRecOn with
  | nil => exact ⟨base, rfl, by simp [relinked, linkLast]⟩
  | append_singleton columns g ih =>
    have hle : columns.eraseDups.length ≤ (columns ++ [g]).eraseDups.length := by
      by_cases hg : g ∈ columns
      · rw [eraseDups_concat_of_mem hg]
      · rw [eraseDups_concat_of_notMem hg, List.length_append]
        exact Nat.le_add_right _ _
    obtain ⟨nodes, htests, hlink⟩ := ih (by omega) fun f hf => hself f (List.mem_append_left _ hf)
    have hgself := hself g (List.mem_append_right _ (List.mem_singleton_self g))
    have hlength := length_of_linkLast (hlink 0)
    have hfind : nodes.findIdx? (Node.testsFor rule (cond g)) =
        if g ∈ columns then some (columnPlace base.length columns g) else none := by
      rw [← findIdx_relinked hrule hfeature hgself 0, ← hlink 0]
      exact (findIdx_linkLast (fun _ _ => rfl) nodes _ 0).symm
    have hvisited : (columns ++ [g]).map (columnPlace base.length (columns ++ [g])) =
        columns.map (columnPlace base.length columns) ++ [columnPlace base.length (columns ++ [g]) g] := by
      rw [List.map_append, List.map_singleton]
      exact congrArg (· ++ _) (List.map_congr_left fun f hf => columnPlace_concat hf base.length g)
    have hstep : ∀ k placed,
        place bound nodes (Node.testsFor rule (cond g)) (Node.ofCondition rule (cond g)) = .ok (k, placed) →
        chainTests bound rule base [] ((columns ++ [g]).map cond) =
          .ok (linkLast placed (columns.map (columnPlace base.length columns)) k,
            columns.map (columnPlace base.length columns) ++ [k]) := fun k placed hplace => by
      rw [List.map_append, List.map_singleton, chainTests_append, htests]
      show chainTests bound rule nodes _ [cond g] = _
      rw [chainTests, hplace]
      rfl
    rw [hvisited]
    by_cases hg : g ∈ columns
    · rw [if_pos hg] at hfind
      rw [columnPlace_concat hg]
      refine ⟨_, hstep (columnPlace base.length columns g) nodes (by rw [place, hfind]), fun target => ?_⟩
      rw [hlink, linkLast, List.getLast?_concat]
      exact modify_relinked_of_mem hg
    · rw [if_neg hg] at hfind
      rw [eraseDups_concat_of_notMem hg, List.length_append, List.length_singleton] at hb
      have hplace : place bound nodes (Node.testsFor rule (cond g)) (Node.ofCondition rule (cond g)) =
          .ok (nodes.length, nodes ++ [{ Node.ofCondition rule (cond g) with id := nodes.length }]) := by
        rw [place, hfind, push, if_neg (by omega)]
      have hlt : ∀ i ∈ columns.map (columnPlace base.length columns), i < nodes.length := by
        intro i hi
        obtain ⟨f, hf, rfl⟩ := List.mem_map.1 hi
        rw [hlength]
        exact columnPlace_lt hf base.length
      rw [columnPlace_concat_self hg, ← hlength]
      refine ⟨_, hstep _ _ hplace, fun target => ?_⟩
      rw [linkLast_append hlt, hlink, linkLast, List.getLast?_concat, relinked_concat_of_notMem hg, ← List.append_assoc,
        hlength]
      simp only
      rw [modify_append_cons _ _ _ _ (by simp [relinked])]

/-! ## The chain of a rule by its columns -/

/-- The columns that the chain of a rule tests, in their order. -/
def testedColumns (order : List Nat) (r : Rule) : List Nat := order.filter r.references

/-- The condition of a rule on a column that it tests. -/
def testOn (r : Rule) (f : Nat) : Condition := (r.conditionOn? f).getD ⟨f, .eq, .text ""⟩

theorem feature_testOn (r : Rule) (f : Nat) : (testOn r f).feature = f := by
  unfold testOn
  cases h : r.conditionOn? f with
  | none => rfl
  | some c => exact Rule.feature_of_conditionOn h

/-- The conditions in order are those on the columns tested. -/
theorem ordered_eq_map (order : List Nat) (r : Rule) : ordered order r = (testedColumns order r).map (testOn r) := by
  unfold ordered testedColumns
  induction order with
  | nil => rfl
  | cons f order ih => cases h : r.conditionOn? f <;> simp [Rule.references, testOn, h, ih]

/-- In an order without repeats the same columns are tested, each once. -/
theorem testedColumns_eraseDups (order : List Nat) (r : Rule) :
    testedColumns order.eraseDups r = (testedColumns order r).eraseDups := filter_eraseDups _ order

/-- The literal of a condition tested equals itself if that of each condition does. -/
theorem testOn_beq_self {r : Rule} (h : ∀ x ∈ r.conditions, (x.value == x.value) = true) {order : List Nat} {f : Nat}
    (hf : f ∈ testedColumns order r) : ((testOn r f).value == (testOn r f).value) = true := by
  obtain ⟨x, hx⟩ := Option.isSome_iff_exists.1 (List.mem_filter.1 hf).2
  rw [testOn, hx, Option.getD_some]
  exact h x (List.mem_of_find?_eq_some hx)

/-- No test is an outcome of a label. -/
theorem predicts_relinked {rule start target : Nat} {cond : Nat → Condition} {columns : List Nat} (label : Value) :
    (relinked rule cond start target columns).findIdx? (Node.predicts label) = none := by
  rw [List.findIdx?_eq_none_iff]
  intro n hn
  obtain ⟨f, -, rfl⟩ := List.mem_map.1 hn
  rfl

/-- The chain of a rule after some nodes, when some of its columns may repeat: one test for each column, and a visit for each
occurrence. -/
def columnChain (labelColumn : Nat) (order : List Nat) (base : List Node) (rule : Nat) (r : Rule) : Chain where
  nodes := base ++ relinked rule (testOn r) base.length (outcomePlace base (testedColumns order r).eraseDups.length r.label)
    (testedColumns order r) ++ newOutcome rule labelColumn base (testedColumns order r).eraseDups.length r.label
  head := ((testedColumns order r).head?.map (columnPlace base.length (testedColumns order r))).getD
    (outcomePlace base (testedColumns order r).eraseDups.length r.label)
  tests := (testedColumns order r).map (columnPlace base.length (testedColumns order r))

/-- What `chain` makes of a rule whose literals equal themselves, in any order. -/
theorem chain_columns {bound rule : Nat} {order : List Nat} {base : List Node} {r : Rule}
    (hb : base.length + (testedColumns order r).eraseDups.length < bound)
    (hrule : ∀ n ∈ base, n.isOutcome = false → n.rule ≠ rule) (hself : ∀ x ∈ r.conditions, (x.value == x.value) = true)
    (labelColumn : Nat) : chain bound labelColumn order base rule r = .ok (columnChain labelColumn order base rule r) := by
  obtain ⟨nodes, htests, hlink⟩ := chainTests_columns (Nat.le_of_lt hb) hrule (feature_testOn r)
    fun f hf => testOn_beq_self hself hf
  have hlength := length_of_linkLast (hlink 0)
  have hfind : nodes.findIdx? (Node.predicts r.label) = base.findIdx? (Node.predicts r.label) := by
    rw [← findIdx_linkLast (fun _ _ => rfl) nodes _ 0, hlink 0, List.findIdx?_append, predicts_relinked, Option.map_none,
      Option.or_none]
  have hlt : ∀ i ∈ (testedColumns order r).map (columnPlace base.length (testedColumns order r)), i < nodes.length := by
    intro i hi
    obtain ⟨f, hf, rfl⟩ := List.mem_map.1 hi
    rw [hlength]
    exact columnPlace_lt hf base.length
  rw [chain]
  show (chainTests bound rule base [] (ordered order r) >>= _) = _
  rw [ordered_eq_map, htests]
  show (place bound nodes _ _ >>= _) = _
  rw [place, hfind, columnChain, outcomePlace, newOutcome, ← List.head?_map]
  cases base.findIdx? (Node.predicts r.label) with
  | some k =>
    show Except.ok (Chain.mk (linkLast _ _ _) _ _) = _
    rw [hlink]
    simp
  | none =>
    rw [push, if_neg (by omega), hlength]
    show Except.ok (Chain.mk (linkLast _ _ _) _ _) = _
    rw [linkLast_append hlt, hlink]
    simp

end FirstMatch.Graph
