import FirstMatch.Proofs.Filter.Compatibility

/-!
# What a visible rule promises

A condition is compared with each predicate of its feature alone. So for each there is a value that passes it and meets the
condition (`Predicate.exists_of_compatible`), but there need not be one for all: a rule on ages below forty stays visible where the
age must be at least thirty, and twenty or fifty. One value serves all predicates where the condition asks for equality
(`Predicate.admits_literal`), and where it orders and the predicates are bounds that leave any value at all
(`Predicate.exists_of_bounds`). For one predicate there is such a value only if the two are compatible, so that on finite numbers
and texts the comparison is exact (`Predicate.compatible_iff`).
-/

namespace FirstMatch

/-! ## The ends of the numbers -/

namespace Rank

/-- The rank of the negative infinity. -/
def least : Rank := toLex (-2, toLex (0, 0))

/-- The rank of the positive infinity. -/
def greatest : Rank := toLex (2, toLex (0, 0))

theorem toLex_lt {a b : Int} (h : a < b) (r s : Int ×ₗ Int) : (toLex (a, r) : Rank) < toLex (b, s) :=
  Prod.Lex.toLex_lt_toLex.2 (Or.inl h)

/-- A finite number ranks between the infinities. -/
theorem ofUnpacked_of_isFinite {u : Float.Model.UnpackedFloat} (h : u.isFinite = true) :
    ∃ r, ofUnpacked? u = some r ∧ least < r ∧ r < greatest := by
  rcases u with _ | _ | _ | ⟨_ | _, m, e, _⟩
  · cases h
  · cases h
  · exact ⟨_, rfl, toLex_lt (by decide) _ _, toLex_lt (by decide) _ _⟩
  · exact ⟨_, rfl, toLex_lt (by decide) _ _, toLex_lt (by decide) _ _⟩
  · exact ⟨_, rfl, toLex_lt (by decide) _ _, toLex_lt (by decide) _ _⟩

theorem beq_self_of_isFinite {x : Float} (h : x.isFinite = true) : (x == x) = true := by
  obtain ⟨r, hr, -⟩ := ofUnpacked_of_isFinite h
  exact beq_iff.2 ⟨r, hr, hr⟩

/-- No number stands beyond the infinities. -/
theorem least_le_and_le_greatest {x : Float} {r : Rank} (h : ofFloat? x = some r) : least ≤ r ∧ r ≤ greatest := by
  rw [ofFloat?] at h
  generalize x.toModel.unpack = u at h
  cases hfinite : u.isFinite with
  | true =>
    obtain ⟨r', hr', hlo, hhi⟩ := ofUnpacked_of_isFinite hfinite
    obtain rfl := Option.some.inj (h.symm.trans hr')
    exact ⟨hlo.le, hhi.le⟩
  | false =>
    rcases u with (_ | _) | _ | _ | _
    · cases h
      exact ⟨le_rfl, (toLex_lt (by decide) _ _).le⟩
    · cases h
      exact ⟨(toLex_lt (by decide) _ _).le, le_rfl⟩
    · cases h
    · cases hfinite
    · cases hfinite

/-- Above every number there is one that is above every finite number. -/
theorem exists_greatest : ∃ x : Float, (∀ y : Float, (y == y) = true → y ≤ x) ∧ ∀ y : Float, y.isFinite = true → y < x := by
  obtain ⟨x, hx⟩ : ∃ x, ofFloat? x = some greatest := ⟨Float.ofBits 0x7FF0000000000000, by rfl⟩
  refine ⟨x, fun y hy => ?_, fun y hy => ?_⟩
  · obtain ⟨r, hr, -⟩ := beq_iff.1 hy
    exact le_iff.2 ⟨r, _, hr, hx, (least_le_and_le_greatest hr).2⟩
  · obtain ⟨r, hr, -, hlt⟩ := ofUnpacked_of_isFinite hy
    exact lt_iff.2 ⟨r, _, hr, hx, hlt⟩

/-- Below every number there is one that is below every finite number. -/
theorem exists_least : ∃ x : Float, (∀ y : Float, (y == y) = true → x ≤ y) ∧ ∀ y : Float, y.isFinite = true → x < y := by
  obtain ⟨x, hx⟩ : ∃ x, ofFloat? x = some least := ⟨Float.ofBits 0xFFF0000000000000, by rfl⟩
  refine ⟨x, fun y hy => ?_, fun y hy => ?_⟩
  · obtain ⟨r, hr, -⟩ := beq_iff.1 hy
    exact le_iff.2 ⟨_, r, hx, hr, (least_le_and_le_greatest hr).1⟩
  · obtain ⟨r, hr, hlt, -⟩ := ofUnpacked_of_isFinite hy
    exact lt_iff.2 ⟨_, r, hx, hr, hlt⟩

end Rank

/-! ## The direction of an operator -/

namespace Operator

/-- The second number lies at least as far as the first where an operator looks for numbers. -/
def Toward (op : Operator) (x y : Float) : Prop :=
  match op with
  | gt | ge => x ≤ y
  | _ => y ≤ x

/-- An operator looks up or down. -/
theorem toward_cases (op : Operator) : (∀ x y, op.Toward x y ↔ x ≤ y) ∨ ∀ x y, op.Toward x y ↔ y ≤ x := by
  cases op with
  | gt | ge => exact Or.inl fun _ _ => Iff.rfl
  | _ => exact Or.inr fun _ _ => Iff.rfl

/-- Of two numbers, one lies at least as far as the other where an operator looks. -/
theorem toward_total (op : Operator) {x y : Float} (hx : (x == x) = true) (hy : (y == y) = true) :
    op.Toward x y ∨ op.Toward y x := by
  rcases op.toward_cases with h | h
  · rw [h, h]
    exact Rank.le_total hx hy
  · rw [h, h]
    exact Rank.le_total hy hx

/-- What lies somewhere is a number. -/
theorem Toward.beq_self {op : Operator} {x y : Float} (h : op.Toward x y) : (y == y) = true := by
  rcases op.toward_cases with hop | hop
  · exact (Rank.beq_self_of_le ((hop x y).1 h)).2
  · exact (Rank.beq_self_of_le ((hop x y).1 h)).1

/-- Where an operator that orders looks, there is a farthest number, and beside a finite one the operator accepts it. -/
theorem exists_farthest {op : Operator} (hop : op.isOrdering = true) :
    ∃ x, (∀ y, (y == y) = true → op.Toward y x) ∧ ∀ y, y.isFinite = true → op.Relates x y := by
  obtain ⟨greatest, hgreatest, habove⟩ := Rank.exists_greatest
  obtain ⟨least, hleast, hbelow⟩ := Rank.exists_least
  cases op with
  | eq | ne => cases hop
  | gt => exact ⟨greatest, hgreatest, habove⟩
  | ge => exact ⟨greatest, hgreatest, fun y hy => Rank.le_of_lt (habove y hy)⟩
  | lt => exact ⟨least, hleast, hbelow⟩
  | le => exact ⟨least, hleast, fun y hy => Rank.le_of_lt (hbelow y hy)⟩

end Operator

/-! ## Bounds -/

namespace Predicate

/-- The bound that a predicate sets where an operator looks for numbers. -/
def facing? (op : Operator) : Predicate → Option Float
  | atLeast b => if op = .lt ∨ op = .le then some b else none
  | atMost b => if op = .gt ∨ op = .ge then some b else none
  | oneOf _ => none

section Facing

variable {p : Predicate} {op : Operator} {b x y z : Float}

/-- A bound that an operator faces admits what lies no farther. -/
theorem admits_facing_iff (hb : p.facing? op = some b) (x : Float) :
    p.admits (some (.number x)) = true ↔ op.Toward x b := by
  cases p with
  | oneOf values => cases hb
  | atLeast b' | atMost b' =>
    cases op <;> simp [facing?] at hb <;> simp [admits, Value.number?, Operator.Toward, hb]

/-- A bound that an operator does not face admits whatever lies farther than what it admits. -/
theorem admits_farther (hop : op.isOrdering = true) (hp : p.isRange = true) (hb : p.facing? op = none)
    (hx : p.admits (some (.number x)) = true) (hxy : op.Toward x y) : p.admits (some (.number y)) = true := by
  cases p with
  | oneOf values => cases hp
  | atLeast b =>
    cases op with
    | eq | ne => cases hop
    | lt | le => cases hb
    | gt | ge => exact decide_eq_true (Rank.le_trans (of_decide_eq_true hx) hxy)
  | atMost b =>
    cases op with
    | eq | ne => cases hop
    | gt | ge => cases hb
    | lt | le => exact decide_eq_true (Rank.le_trans hxy (of_decide_eq_true hx))

/-- A bound admits what lies between two numbers that it admits. -/
theorem admits_between (hp : p.isRange = true) (hx : p.admits (some (.number x)) = true)
    (hz : p.admits (some (.number z)) = true) (hxy : op.Toward x y) (hyz : op.Toward y z) :
    p.admits (some (.number y)) = true := by
  have hbetween : ∀ {x y z : Float}, p.admits (some (.number x)) = true → p.admits (some (.number z)) = true → x ≤ y →
      y ≤ z → p.admits (some (.number y)) = true := by
    intro x y z hx hz hxy hyz
    cases p with
    | oneOf values => cases hp
    | atLeast b => exact decide_eq_true (Rank.le_trans (of_decide_eq_true hx) hxy)
    | atMost b => exact decide_eq_true (Rank.le_trans hyz (of_decide_eq_true hz))
  rcases op.toward_cases with h | h
  · exact hbetween hx hz ((h x y).1 hxy) ((h y z).1 hyz)
  · exact hbetween hz hx ((h y z).1 hyz) ((h x y).1 hxy)

/-- A bound that the operator of a condition faces meets a condition that it is compatible with. -/
theorem meets_of_facing {c : Condition} (hb : p.facing? c.op = some b) (h : p.compatible c = true) :
    c.meets (some (.number b)) = true := by
  obtain ⟨f, op, v⟩ := c
  suffices hv : ∃ y, v = .number y ∧ op.Relates b y by
    obtain ⟨y, rfl, hby⟩ := hv
    exact Condition.meets_some.2 ((Value.compare_numbers_iff op b y).2 hby)
  cases p with
  | oneOf values => cases hb
  | atLeast b' =>
    cases op with
    | lt | le =>
      cases hb
      simpa only [compatible, Value.any_number_iff, Operator.Relates] using h
    | _ => cases hb
  | atMost b' =>
    cases op with
    | gt | ge =>
      cases hb
      simpa only [compatible, Value.any_number_iff, Operator.Relates] using h
    | _ => cases hb

end Facing

/-- Where bounds admit a number together and each is compatible with a condition that orders, some number is admitted by all and
meets it. -/
theorem exists_of_bounds {c : Condition} (hop : c.op.isOrdering = true) {y : Float} (hy : c.value = .number y)
    (hfinite : y.isFinite = true) {x : Float} (hx : (x == x) = true) {ps : List Predicate}
    (hrange : ∀ p ∈ ps, p.isRange = true) (hadmits : ∀ p ∈ ps, p.admits (some (.number x)) = true)
    (hcompatible : ∀ p ∈ ps, p.compatible c = true) :
    ∃ z, c.op.Toward x z ∧ (∀ p ∈ ps, p.admits (some (.number z)) = true) ∧ c.meets (some (.number z)) = true := by
  -- the number is looked for from `x` on, and drawn back to each bound that the operator faces
  induction ps with
  | nil =>
    obtain ⟨z, hz, hrelates⟩ := Operator.exists_farthest hop
    refine ⟨z, hz x hx, by simp, Condition.meets_some.2 ?_⟩
    rw [hy]
    exact (Value.compare_numbers_iff c.op z y).2 (hrelates y hfinite)
  | cons p ps ih =>
    rw [List.forall_mem_cons] at hrange hadmits hcompatible
    obtain ⟨z, hxz, hz, hmeets⟩ := ih hrange.2 hadmits.2 hcompatible.2
    cases hb : p.facing? c.op with
    | none => exact ⟨z, hxz, List.forall_mem_cons.2 ⟨admits_farther hop hrange.1 hb hadmits.1 hxz, hz⟩, hmeets⟩
    | some b =>
      have hxb := (admits_facing_iff hb x).1 hadmits.1
      rcases c.op.toward_total hxz.beq_self hxb.beq_self with hzb | hbz
      · exact ⟨z, hxz, List.forall_mem_cons.2 ⟨(admits_facing_iff hb z).2 hzb, hz⟩, hmeets⟩
      · have hbb : c.op.Toward b b := (c.op.toward_total hxb.beq_self hxb.beq_self).elim id id
        refine ⟨b, hxb, List.forall_mem_cons.2 ⟨(admits_facing_iff hb b).2 hbb, fun q hq => ?_⟩,
          meets_of_facing hb hcompatible.1⟩
        exact admits_between (hrange.2 q hq) (hadmits.2 q hq) (hz q hq) hxb hbz

end Predicate

/-! ## One predicate, and equality -/

/-- A value is a text or a finite number. -/
def Value.Finite (v : Value) : Prop := ∀ y, v = number y → y.isFinite = true

/-- A text or a finite number equals itself. -/
theorem Value.Finite.beq_self {v : Value} (h : v.Finite) : (v == v) = true := by
  cases v with
  | number x => exact Rank.beq_self_of_isFinite (h x rfl)
  | text t => exact beq_self_eq_true t

theorem Value.exists_of_isNumber {v : Value} (h : v.isNumber = true) : ∃ y, v = number y := by
  cases v with
  | number y => exact ⟨y, rfl⟩
  | text t => cases h

/-- A value that does not equal the literal meets the condition to differ from it. -/
theorem Condition.meets_of_ne {c : Condition} (hop : c.op = .ne) {v : Value} (h : (v == c.value) = false) :
    c.meets (some v) = true := by
  rw [meets_some, hop]
  exact congrArg (fun b => some !b) h

namespace Predicate

/-- Every number that a predicate names is a number. -/
def Proper : Predicate → Prop
  | atLeast b | atMost b => (b == b) = true
  | oneOf values => ∀ v ∈ values, (v == v) = true

/-- What a bound admits is a number. -/
theorem exists_number_of_admits {p : Predicate} (hp : p.isRange = true) {v : Value} (h : p.admits (some v) = true) :
    ∃ x, v = .number x ∧ (x == x) = true := by
  cases p with
  | oneOf values => cases hp
  | atLeast b =>
    obtain ⟨x, rfl, hbx⟩ := admits_atLeast_iff.1 h
    exact ⟨x, rfl, (Rank.beq_self_of_le hbx).2⟩
  | atMost b =>
    obtain ⟨x, rfl, hxb⟩ := admits_atMost_iff.1 h
    exact ⟨x, rfl, (Rank.beq_self_of_le hxb).1⟩

/-- A bound that is a number admits itself. -/
theorem exists_admitted {p : Predicate} (hp : p.isRange = true) (hproper : p.Proper) :
    ∃ b, (b == b) = true ∧ p.admits (some (.number b)) = true := by
  cases p with
  | oneOf values => cases hp
  | atLeast b | atMost b => exact ⟨b, hproper, decide_eq_true (Rank.le_of_beq hproper)⟩

/-- The literal of a condition of equality passes every predicate that is compatible with it, and meets it. -/
theorem admits_literal {p : Predicate} {c : Condition} (hop : c.op = .eq) (h : p.compatible c = true) :
    p.admits (some c.value) = true ∧ c.meets (some c.value) = true := by
  obtain ⟨f, op, v⟩ := c
  subst hop
  cases p with
  | oneOf values =>
    obtain ⟨w, hw, hmeets⟩ := compatible_oneOf_iff.1 h
    have hwv : (w == v) = true := Option.some.inj (Condition.meets_some.1 hmeets)
    have hvw := PartialEquivBEq.symm hwv
    exact ⟨admits_oneOf_iff.2 ⟨w, hw, hvw⟩, Value.beq_self_of_beq hvw⟩
  | atLeast b =>
    simp only [compatible, Value.any_number_iff] at h
    obtain ⟨y, rfl, hby⟩ := h
    exact ⟨decide_eq_true hby, (Rank.beq_self_of_le hby).2⟩
  | atMost b =>
    simp only [compatible, Value.any_number_iff] at h
    obtain ⟨y, rfl, hyb⟩ := h
    exact ⟨decide_eq_true hyb, (Rank.beq_self_of_le hyb).1⟩

/-- A bound admits some number that meets a condition that orders, beside a finite number, and is compatible with it. -/
theorem exists_of_bound {p : Predicate} {c : Condition} (hp : p.isRange = true) (hproper : p.Proper)
    (hop : c.op.isOrdering = true) {y : Float} (hy : c.value = .number y) (hfinite : y.isFinite = true)
    (h : p.compatible c = true) : ∃ z, p.admits (some (.number z)) = true ∧ c.meets (some (.number z)) = true := by
  obtain ⟨b, hb, hadmits⟩ := exists_admitted hp hproper
  obtain ⟨z, -, hz, hmeets⟩ := exists_of_bounds hop hy hfinite hb (List.forall_mem_singleton.2 hp)
    (List.forall_mem_singleton.2 hadmits) (List.forall_mem_singleton.2 h)
  exact ⟨z, hz p List.mem_cons_self, hmeets⟩

/-- A bound admits a number other than any finite one. -/
theorem exists_other {p : Predicate} (hp : p.isRange = true) (hproper : p.Proper) {y : Float} (hy : y.isFinite = true) :
    ∃ z, p.admits (some (.number z)) = true ∧ (z == y) = false := by
  cases p with
  | oneOf values => cases hp
  | atLeast b =>
    obtain ⟨z, hz, hmeets⟩ := exists_of_bound (c := ⟨0, .gt, .number y⟩) hp hproper rfl rfl hy rfl
    have hyz : y < z := (Value.compare_numbers_iff .gt z y).1 (Condition.meets_some.1 hmeets)
    exact ⟨z, hz, BEq.comm.trans (Rank.beq_of_lt hyz)⟩
  | atMost b =>
    obtain ⟨z, hz, hmeets⟩ := exists_of_bound (c := ⟨0, .lt, .number y⟩) hp hproper rfl rfl hy rfl
    have hzy : z < y := (Value.compare_numbers_iff .lt z y).1 (Condition.meets_some.1 hmeets)
    exact ⟨z, hz, Rank.beq_of_lt hzy⟩

/-- A bound admits some value other than the literal of a condition. -/
theorem exists_of_ne {p : Predicate} {c : Condition} (hp : p.isRange = true) (hproper : p.Proper) (hop : c.op = .ne)
    (hliteral : c.value.Finite) : ∃ v, p.admits (some v) = true ∧ c.meets (some v) = true := by
  cases hv : c.value with
  | text t =>
    obtain ⟨b, -, hadmits⟩ := exists_admitted hp hproper
    refine ⟨.number b, hadmits, Condition.meets_of_ne hop ?_⟩
    rw [hv, Value.number_beq_text]
  | number y =>
    obtain ⟨z, hz, hzy⟩ := exists_other hp hproper (hliteral y hv)
    refine ⟨.number z, hz, Condition.meets_of_ne hop ?_⟩
    rwa [hv, Value.number_beq_number]

/-- A condition that a predicate is compatible with is met by some value that passes it. -/
theorem exists_of_compatible {p : Predicate} {c : Condition} (hproper : p.Proper) (hliteral : c.value.Finite)
    (hordered : c.op.isOrdering = true → c.value.isNumber = true) (h : p.compatible c = true) :
    ∃ v, p.admits (some v) = true ∧ c.meets (some v) = true := by
  cases hp : p.isRange with
  | true =>
    cases hop : c.op.isOrdering with
    | true =>
      obtain ⟨y, hy⟩ := Value.exists_of_isNumber (hordered hop)
      obtain ⟨z, hz, hmeets⟩ := exists_of_bound hp hproper hop hy (hliteral y hy) h
      exact ⟨.number z, hz, hmeets⟩
    | false =>
      cases heq : c.op with
      | eq => exact ⟨c.value, admits_literal heq h⟩
      | ne => exact exists_of_ne hp hproper heq hliteral
      | _ =>
        rw [heq] at hop
        cases hop
  | false =>
    cases p with
    | oneOf values =>
      obtain ⟨w, hw, hmeets⟩ := compatible_oneOf_iff.1 h
      exact ⟨w, admits_oneOf_iff.2 ⟨w, hw, hproper w hw⟩, hmeets⟩
    | _ => cases hp

/-- Every number that a predicate names is finite. -/
def Finite : Predicate → Prop
  | atLeast b | atMost b => b.isFinite = true
  | oneOf values => ∀ v ∈ values, v.Finite

theorem Finite.proper {p : Predicate} (h : p.Finite) : p.Proper := by
  cases p with
  | oneOf values => exact fun v hv => (h v hv).beq_self
  | atLeast b | atMost b => exact Rank.beq_self_of_isFinite h

/-- What passes a predicate equals itself. -/
theorem beq_self_of_admits {p : Predicate} {v : Value} (h : p.admits (some v) = true) : (v == v) = true := by
  cases hp : p.isRange with
  | true =>
    obtain ⟨x, rfl, hx⟩ := exists_number_of_admits hp h
    exact hx
  | false =>
    cases p with
    | oneOf values =>
      obtain ⟨w, -, hvw⟩ := admits_oneOf_iff.1 h
      exact Value.beq_self_of_beq hvw
    | _ => cases hp

/-- A predicate and a condition, on finite numbers and texts, are compatible exactly if some text or number passes the one and meets
the other. The condition orders only beside a number, as every rule has it (`Condition.Fits.ordered`). The values range over the
infinities too, which alone lie beyond the greatest finite bound. -/
theorem compatible_iff {p : Predicate} {c : Condition} (hp : p.Finite) (hliteral : c.value.Finite)
    (hordered : c.op.isOrdering = true → c.value.isNumber = true) :
    p.compatible c = true ↔
      ∃ v : Value, (∀ x, v = .number x → x.isNaN = false) ∧ p.admits (some v) = true ∧ c.meets (some v) = true := by
  constructor
  · intro h
    obtain ⟨v, hadmits, hmeets⟩ := exists_of_compatible hp.proper hliteral hordered h
    refine ⟨v, ?_, hadmits, hmeets⟩
    rintro x rfl
    exact Rank.beq_self_iff.1 (beq_self_of_admits hadmits)
  · rintro ⟨v, -, hadmits, hmeets⟩
    exact compatible_of_admits hadmits hmeets

/-- At its bound a predicate is compatible with what includes the bound and with nothing short of it. -/
theorem compatible_iff_boundary :
    (∃ v : Value, (∀ x, v = .number x → x.isNaN = false) ∧ (atLeast 30).admits (some v) = true ∧
      (⟨0, .le, .number 30⟩ : Condition).meets (some v) = true) ∧
    ¬∃ v : Value, (∀ x, v = .number x → x.isNaN = false) ∧ (atLeast 30).admits (some v) = true ∧
      (⟨0, .lt, .number 30⟩ : Condition).meets (some v) = true := by
  have hbound : (atLeast 30).Finite := show Float.isFinite 30 = true by decide
  have hliteral : (Value.number 30).Finite := by
    rintro y h
    cases h
    decide
  exact ⟨(compatible_iff hbound hliteral fun _ => rfl).1 (by decide),
    fun h => absurd ((compatible_iff hbound hliteral fun _ => rfl).2 h) (by decide)⟩

end Predicate

namespace RuleFilter

/-- What a visible rule promises of each of its conditions and the predicates on its feature, in three parts.
1. For each predicate there is a value that passes it and meets the condition, if the literal is a text or a finite number and the
   predicate names no NaN.
2. If the condition asks for equality, its literal passes all predicates and meets it.
3. If the condition orders, beside a finite number, and the predicates are bounds that some value passes together, a value passes
   them together and meets it. -/
theorem apply_satisfiable {c : Catalog} {l : DecisionList} (hl : l.Accepted c) {f : RuleFilter}
    {figures : List (RuleStats Float)} {criteria : Criteria} {visible : List Nat}
    (h : f.apply l figures c criteria = .ok visible) :
    ∀ k ∈ visible, ∃ r, l.rules[k]? = some r ∧ ∀ x ∈ r.conditions, ∀ name ps, (name, ps) ∈ criteria.entries →
      c.column? name = some x.feature → ps ≠ [] →
      (x.value.Finite → ∀ p ∈ ps, p.Proper →
        ∃ v, p.admits (some v) = true ∧ x.meets (some v) = true) ∧
      (x.op = .eq → (∀ p ∈ ps, p.admits (some x.value) = true) ∧ x.meets (some x.value) = true) ∧
      (x.op.isOrdering = true → x.value.Finite → (∀ p ∈ ps, p.isRange = true) →
        (∃ v, ∀ p ∈ ps, p.admits (some v) = true) →
          ∃ v, (∀ p ∈ ps, p.admits (some v) = true) ∧ x.meets (some v) = true) := by
  intro k hk
  obtain ⟨tests, interest, r, stats, htests, -, hr, -, -, hagrees, -⟩ := (mem_apply_iff h).1 hk
  refine ⟨r, hr, fun x hx name ps hentry hcolumn hne => ?_⟩
  have hfits := hl.fits r (List.mem_of_getElem? hr)
  have hcompatible : ∀ p ∈ ps, p.compatible x = true := agrees_iff.1 hagrees _ _
    (Criteria.mem_of_resolve htests hentry hcolumn) x (Rule.conditionOn_eq_some hfits.distinct hx)
  have hordered := fun hop => ((hfits.conditions_fit x hx).ordered hop).2
  obtain ⟨first, hfirst⟩ := List.exists_mem_of_ne_nil ps hne
  refine ⟨fun hliteral p hp hproper => ?_, fun hop => ?_, fun hop hliteral hrange ⟨v, hv⟩ => ?_⟩
  · exact Predicate.exists_of_compatible hproper hliteral hordered (hcompatible p hp)
  · exact ⟨fun p hp => (Predicate.admits_literal hop (hcompatible p hp)).1,
      (Predicate.admits_literal hop (hcompatible first hfirst)).2⟩
  · obtain ⟨y, hy⟩ : ∃ y, x.value = .number y := Value.exists_of_isNumber (hordered hop)
    obtain ⟨u, rfl, hu⟩ := Predicate.exists_number_of_admits (hrange first hfirst) (hv first hfirst)
    obtain ⟨z, -, hz, hmeets⟩ := Predicate.exists_of_bounds hop hy (hliteral y hy) hu hrange hv hcompatible
    exact ⟨.number z, hz, hmeets⟩

/-- The ages of two guests, and whether they come along. -/
def guests : List Row := [⟨[some (.number 20), some (.text "no")]⟩, ⟨[some (.number 50), some (.text "yes")]⟩]

/-- Guests below forty stay, all others come along. -/
def byAge : List RuleDraft := [⟨[⟨"age", .lt, .number 40⟩], some (.text "no"), {}⟩, ⟨[], some (.text "yes"), {}⟩]

/-- Guests of at least thirty and at most sixty. -/
def grown : Criteria := (Criteria.empty.atLeast "age" 30).atMost "age" 60

/-- The rule on guests below forty is visible among those between thirty and sixty, and some age is both. -/
theorem apply_satisfiable_guests : ∃ d l visible, Dataset.ofRows ["age", "label"] guests "label" = .ok d ∧
    DecisionList.ofDrafts d.catalog byAge = .ok l ∧ RuleFilter.apply {} l l.unevaluated d.catalog grown = .ok visible ∧
    0 ∈ visible ∧ ∃ v, (∀ p ∈ [Predicate.atLeast 30, .atMost 60], p.admits (some v) = true) ∧
      (⟨0, .lt, .number 40⟩ : Condition).meets (some v) = true := by
  obtain ⟨d, hd⟩ : ∃ d, Dataset.ofRows ["age", "label"] guests "label" = .ok d := ⟨_, rfl⟩
  obtain ⟨l, visible, hl, happly, hfirst, hrule, hcolumn⟩ : ∃ l visible, DecisionList.ofDrafts d.catalog byAge = .ok l ∧
      RuleFilter.apply {} l l.unevaluated d.catalog grown = .ok visible ∧ 0 ∈ visible ∧
      l.rules[0]? = some ⟨[⟨0, .lt, .number 40⟩], .text "no", {}⟩ ∧ d.catalog.column? "age" = some 0 := by
    cases hd
    exact ⟨_, _, rfl, rfl, by decide, rfl, rfl⟩
  refine ⟨d, l, visible, hd, hl, happly, hfirst, ?_⟩
  obtain ⟨r, hr, hkept⟩ := apply_satisfiable (.ofDrafts byAge hl) happly 0 hfirst
  obtain rfl := Option.some.inj (hrule.symm.trans hr)
  obtain ⟨-, -, hbounds⟩ := hkept ⟨0, .lt, .number 40⟩ List.mem_cons_self "age" [.atLeast 30, .atMost 60] List.mem_cons_self
    hcolumn (by simp)
  refine hbounds rfl ?_ (by decide) ⟨.number 50, by decide⟩
  rintro y h
  cases h
  decide

/-- Guests of at least thirty, and of twenty or fifty. -/
def fifty : Criteria := (Criteria.empty.atLeast "age" 30).oneOf "age" [.number 20, .number 50]

/-- The rule on guests below forty stays visible where they are to be fifty. -/
theorem apply_keeps_unmet : ∃ d l visible r x ps, Dataset.ofRows ["age", "label"] guests "label" = .ok d ∧
    DecisionList.ofDrafts d.catalog byAge = .ok l ∧ RuleFilter.apply {} l l.unevaluated d.catalog fifty = .ok visible ∧
    0 ∈ visible ∧ l.rules[0]? = some r ∧ x ∈ r.conditions ∧ ("age", ps) ∈ fifty.entries ∧
    d.catalog.column? "age" = some x.feature ∧ ps ≠ [] ∧
    ¬∃ v, (∀ p ∈ ps, p.admits (some v) = true) ∧ x.meets (some v) = true := by
  refine ⟨_, _, _, _, ⟨0, .lt, .number 40⟩, [.atLeast 30, .oneOf [.number 20, .number 50]], rfl, rfl, rfl, by decide, rfl,
    List.mem_cons_self, List.mem_cons_self, rfl, by simp, ?_⟩
  rintro ⟨v, hv, hmeets⟩
  obtain ⟨z, rfl, hz⟩ := Predicate.admits_atLeast_iff.1 (hv _ List.mem_cons_self)
  obtain ⟨w, hw, hzw⟩ := Predicate.admits_oneOf_iff.1 (hv _ (List.mem_cons_of_mem _ List.mem_cons_self))
  simp only [List.mem_cons, List.not_mem_nil, or_false] at hw
  rcases hw with rfl | rfl
  · have hle : (30 : Float) ≤ 20 := Rank.le_trans hz (Rank.le_of_beq hzw)
    revert hle
    decide
  · rw [Condition.meets_congr hzw] at hmeets
    revert hmeets
    decide

end RuleFilter

end FirstMatch
