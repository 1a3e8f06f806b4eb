import FirstMatch.Graph.Node
import FirstMatch.Proofs.Filter.Compatibility

/-!
# Equality, hashing and order of values

Equality, the data that a value gives to a hash function, and the six operators agree, apart from what is no number: values are
equal if and only if they have one key, whatever the sign of a zero (`beq_iff_key_eq`), and equal values compare alike on either
side. On two numbers every operator reads the one way in which their ranks compare (`compare_of_ranks`). So a look-up that compares
only values of one hash finds what a look-up that compares all of them finds (`hashed_eq`), and both go by the equality that
conditions and predicates go by.
-/

namespace FirstMatch

/-! ## Bits of a number -/

/-- The bits that a number shares with those that equal it: the two zeros share the bits of the positive one. -/
def sharedBits (x : Float) : UInt64 := if x == 0 then 0 else x.toBits

/-- The bits of zero are those of the positive zero alone. -/
theorem eq_zero_of_toBits {x : Float} (h : x.toBits = 0) : x = 0 := Float.toBits_inj.1 (h.trans rfl)

/-- Numbers that are equal share their bits. -/
theorem sharedBits_of_beq {x y : Float} (h : (x == y) = true) : sharedBits x = sharedBits y := by
  have hzero : (x == 0) = (y == 0) := BEq.congr_left h
  unfold sharedBits
  rw [← hzero]
  split
  · rfl
  · next hx =>
    obtain ⟨-, -, rfl | ⟨rfl, -⟩ | ⟨rfl, -⟩⟩ := Float.beq_iff_ne_nan_and_eq.1 h
    · rfl
    · exact absurd rfl hx
    · exact absurd rfl hx

/-- Numbers that share their bits are equal, unless they are none. -/
theorem beq_of_sharedBits {x y : Float} (hx : x.isNaN = false) (h : sharedBits x = sharedBits y) : (x == y) = true := by
  have hself : (x == x) = true := Rank.beq_self_iff.2 hx
  unfold sharedBits at h
  split at h
  · next hzero =>
    split at h
    · next hzero' => exact PartialEquivBEq.trans hzero (PartialEquivBEq.symm hzero')
    · next hnot => exact absurd rfl (eq_zero_of_toBits h.symm ▸ hnot)
  · next hnot =>
    split at h
    · exact absurd rfl (eq_zero_of_toBits h ▸ hnot)
    · exact Float.toBits_inj.1 h ▸ hself

/-- Of the three strict operators exactly one accepts the way in which two numbers compare. -/
theorem Operator.exactly_one_accepts (o : Ordering) : ∃! op, op ∈ [Operator.lt, .eq, .gt] ∧ op.accepts o = true := by
  have hunique : ∀ op ∈ [Operator.lt, .eq, .gt], ∀ other ∈ [Operator.lt, .eq, .gt],
      op.accepts o = true → other.accepts o = true → other = op := by
    cases o <;> decide
  have hexists : ∃ op ∈ [Operator.lt, .eq, .gt], op.accepts o = true := by
    cases o <;> decide
  obtain ⟨op, hop, haccepts⟩ := hexists
  exact ⟨op, ⟨hop, haccepts⟩, fun other h => hunique op hop other h.1 haccepts h.2⟩

namespace Value

/-! ## Keys -/

/-- A text, or a number that is one. -/
def Genuine (v : Value) : Prop := ∀ x, v = number x → x.isNaN = false

/-- What equals itself is what is a number, if it is no text. -/
theorem Genuine.beq_self {v : Value} (h : v.Genuine) : (v == v) = true := by
  cases v with
  | number x => exact Rank.beq_self_iff.2 (h x rfl)
  | text s => exact beq_self_eq_true s

/-- Equal values have one key. -/
theorem key_of_beq {a b : Value} (h : (a == b) = true) : a.key = b.key := by
  cases b with
  | number y =>
    obtain ⟨x, rfl, hxy⟩ := beq_number_iff.1 h
    exact congrArg Key.bits (sharedBits_of_beq hxy)
  | text t => rw [beq_text_iff.1 h]

/-- Values are equal if and only if they have one key. -/
theorem beq_iff_key_eq {a b : Value} (ha : a.Genuine) : (a == b) = true ↔ a.key = b.key := by
  refine ⟨key_of_beq, fun h => ?_⟩
  cases a with
  | number x =>
    cases b with
    | number y => exact beq_of_sharedBits (ha x rfl) (Key.bits.inj h)
    | text t => cases h
  | text s =>
    cases b with
    | number y => cases h
    | text t => exact beq_text_iff.2 (congrArg text (Key.chars.inj h))

/-! ## Comparisons -/

/-- Equal values compare alike on the right as well. -/
theorem compare_congr_right {a b : Value} (h : (a == b) = true) (op : Operator) (c : Value) : c.compare op a = c.compare op b := by
  cases hop : op.isOrdering with
  | true =>
    rw [compare_of_ordering hop, compare_of_ordering hop]
    cases b with
    | number y =>
      obtain ⟨x, rfl, hxy⟩ := beq_number_iff.1 h
      obtain ⟨r, hx, hy⟩ := Rank.beq_iff.1 hxy
      have horder : ∀ z, order? z x = order? z y := fun z => by rw [Rank.order_eq, Rank.order_eq, hx, hy]
      simp only [number?, Option.bind_some, horder]
    | text t => rw [beq_text_iff.1 h]
  | false =>
    have heq : (c == a) = (c == b) := BEq.congr_right h
    cases op with
    | eq => exact congrArg some heq
    | ne => exact congrArg (fun e => some !e) heq
    | _ => cases hop

/-- Every operator reads the way in which the ranks of two numbers compare. -/
theorem compare_of_ranks {x y : Float} {r s : Rank} (hx : Rank.ofFloat? x = some r) (hy : Rank.ofFloat? y = some s) (op : Operator) :
    (number x).compare op (number y) = some (op.accepts (Ord.compare r s)) := by
  have heq : (x == y) = (Ord.compare r s).isEq := by
    rw [Bool.eq_iff_iff, Rank.beq_iff, Ordering.isEq_iff_eq_eq, compare_eq_iff_eq, hx, hy]
    simp [eq_comm]
  cases op with
  | eq => exact congrArg some heq
  | ne =>
    have hne : (x != y) = (Ord.compare r s).isNe := by
      rw [bne, heq]
      cases Ord.compare r s <;> rfl
    exact congrArg some hne
  | _ => simp [compare, Rank.order_eq, hx, hy]

/-- How the operators go together on two values that are ordered. -/
structure Ordered (a b : Value) : Prop where
  decided : ∀ op, (a.compare op b).isSome = true
  exactly_one : ∃! op, op ∈ [Operator.lt, .eq, .gt] ∧ a.compare op b = some true
  ge_iff : a.compare .ge b = some true ↔ a.compare .gt b = some true ∨ a.compare .eq b = some true
  le_iff : a.compare .le b = some true ↔ a.compare .lt b = some true ∨ a.compare .eq b = some true
  converse : a.compare .gt b = b.compare .lt a

/-- Two numbers are ordered. -/
theorem ordered_numbers {x y : Float} (hx : x.isNaN = false) (hy : y.isNaN = false) : Ordered (number x) (number y) := by
  obtain ⟨r, hr, -⟩ := Rank.beq_iff.1 (Rank.beq_self_iff.2 hx)
  obtain ⟨s, hs, -⟩ := Rank.beq_iff.1 (Rank.beq_self_iff.2 hy)
  have hop := compare_of_ranks hr hs
  have hconverse : (number y).compare .lt (number x) = some (Operator.lt.accepts (Ord.compare r s).swap) := by
    have hswap : Ord.compare s r = (Ord.compare r s).swap := Std.OrientedCmp.eq_swap
    rw [compare_of_ranks hs hr, hswap]
  generalize Ord.compare r s = o at hop hconverse
  constructor
  · intro op
    rw [hop]
    rfl
  · simpa only [hop, Option.some.injEq] using Operator.exactly_one_accepts o
  · rw [hop, hop, hop]
    cases o <;> decide
  · rw [hop, hop, hop]
    cases o <;> decide
  · rw [hop, hconverse]
    cases o <;> rfl

/-- An operator that orders gives nothing beside a text. -/
theorem compare_text {op : Operator} (hop : op.isOrdering = true) {a b : Value} (h : (∃ s, a = text s) ∨ ∃ s, b = text s) :
    a.compare op b = none := by
  rw [compare_of_ordering hop]
  rcases h with ⟨s, rfl⟩ | ⟨s, rfl⟩
  · rfl
  · cases a <;> rfl

/-! ## Look-ups -/

/-- Whether a look-up by hash stops at a value: it compares the value sought with those alone whose keys have the hash of its own
key. -/
def hashed (hash : Key → UInt64) (sought v : Value) : Bool := hash v.key == hash sought.key && v == sought

/-- Equal values have one hash, so the look-up stops where the values are equal. -/
theorem hashed_eq (hash : Key → UInt64) (sought v : Value) : hashed hash sought v = (v == sought) := by
  unfold hashed
  cases h : v == sought with
  | false => exact Bool.and_false _
  | true => rw [key_of_beq h, beq_self_eq_true, Bool.true_and]

/-- A condition for equality is met by what equals its literal. -/
theorem meets_eq_iff {i : Nat} {literal v : Value} : (Condition.mk i .eq literal).meets (some v) = true ↔ (v == literal) = true := by
  rw [Condition.meets_some]
  exact Option.some_inj

/-- The coherence of values.
1. Equality is an equivalence on texts and numbers, NaN aside.
2. Two such values are equal if and only if they give the same data to a hash function.
3. An equal value in place of either operand changes no comparison.
4. Equality and its negation are always decided, one against the other.
5. Two numbers are ordered: exactly one of less, equal and greater holds, and the other operators follow.
6. An operator that orders gives nothing beside a text, and a number equals no text.
7. Whatever the hash function, look-ups by hash agree with equality: among the values of a column, its places, and the nodes of a
   graph.
8. Conditions and predicates go by the same equality. -/
theorem equality_coherent :
    (Equivalence fun a b : { v : Value // v.Genuine } => (a.1 == b.1) = true) ∧
    (∀ a b : Value, a.Genuine → b.Genuine → ((a == b) = true ↔ a.key = b.key)) ∧
    (∀ a a' b b' : Value, (a == a') = true → (b == b') = true → ∀ op, a.compare op b = a'.compare op b') ∧
    (∀ a b : Value, ∃ e, a.compare .eq b = some e ∧ a.compare .ne b = some (!e)) ∧
    (∀ x y : Float, x.isNaN = false → y.isNaN = false → Ordered (number x) (number y)) ∧
    ((∀ (op : Operator) (a b : Value), op.isOrdering = true → (∃ s, a = text s) ∨ (∃ s, b = text s) → a.compare op b = none) ∧
      ∀ x s, (number x).compare .eq (text s) = some false ∧ (text s).compare .eq (number x) = some false) ∧
    (∀ (hash : Key → UInt64) (v : Value),
      (∀ f : Feature, f.contains v = f.values.any (hashed hash v) ∧ f.position? v = f.values.findIdx? (hashed hash v)) ∧
      (∀ i op rule n, Node.testsFor rule ⟨i, op, v⟩ n =
        (!n.isOutcome && n.rule == rule && n.feature == i && hashed hash v n.value)) ∧
      ∀ n, Node.predicts v n = (n.isOutcome && hashed hash v n.value)) ∧
    ∀ v w : Value, ((v == w) = true ↔ ∀ i, (Condition.mk i .eq w).meets (some v) = true) ∧
      ((v == w) = true ↔ (Predicate.oneOf [w]).admits (some v) = true) := by
  refine ⟨⟨?_, ?_, ?_⟩, ?_, ?_, ?_, ?_, ⟨?_, ?_⟩, ?_, ?_⟩
  · rintro ⟨a, ha⟩
    exact ha.beq_self
  · intro a b hab
    exact PartialEquivBEq.symm hab
  · intro a b c hab hbc
    exact PartialEquivBEq.trans hab hbc
  · intro a b ha _
    exact beq_iff_key_eq ha
  · intro a a' b b' ha hb op
    rw [compare_congr ha, compare_congr_right hb]
  · intro a b
    exact ⟨a == b, rfl, rfl⟩
  · intro x y hx hy
    exact ordered_numbers hx hy
  · intro op a b hop h
    exact compare_text hop h
  · intro x s
    exact ⟨rfl, rfl⟩
  · intro hash v
    have hsearch : hashed hash v = (· == v) := funext (hashed_eq hash v)
    rw [hsearch]
    refine ⟨fun f => ⟨?_, rfl⟩, fun i op rule n => rfl, fun n => rfl⟩
    rw [Feature.contains, List.contains_eq_any_beq]
    exact congrArg _ (funext fun w => BEq.comm)
  · intro v w
    refine ⟨⟨fun h i => meets_eq_iff.2 h, fun h => meets_eq_iff.1 (h 0)⟩, ?_⟩
    rw [Predicate.admits_oneOf_iff]
    simp

end Value

end FirstMatch
