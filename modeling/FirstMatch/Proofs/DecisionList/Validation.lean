import FirstMatch.Proofs.DecisionList

/-!
# Which drafts make a list

A draft is valid if it names what the catalog knows (`RuleDraft.Valid`), and otherwise at fault in one way that its check reports
(`RuleDraft.Fault`): it resolves in the first case only. Drafts make a list if each is valid and the last, and no other, is a
default rule (`WellFormed`); otherwise the first draft at fault is named, and only if there is none the place of the default rule
(`Refused`).
-/

namespace FirstMatch

/-- A column has one name. -/
theorem column_inj {c : Catalog} {name other : String} {i : Nat} (h : c.column? name = some i)
    (h' : c.column? other = some i) : name = other := by
  obtain ⟨hi, hname, -⟩ := List.findIdx?_eq_some_iff_getElem.1 h
  obtain ⟨_, hother, -⟩ := List.findIdx?_eq_some_iff_getElem.1 h'
  rw [decide_eq_true_eq] at hname hother
  rw [← hname, ← hother]

/-- A column found by a name has this name. -/
theorem nameOf_column {c : Catalog} {name : String} {i : Nat} (h : c.column? name = some i) : c.nameOf i = name := by
  obtain ⟨hi, hname, -⟩ := List.findIdx?_eq_some_iff_getElem.1 h
  rw [Catalog.nameOf, List.getElem?_eq_getElem hi, Option.map_some, Option.getD_some]
  exact of_decide_eq_true hname

/-- Each element on the right of two related lists is related to one on the left. -/
theorem exists_of_forall₂ {α β : Type} {R : α → β → Prop} {xs : List α} {ys : List β} (h : List.Forall₂ R xs ys) {y : β}
    (hy : y ∈ ys) : ∃ x ∈ xs, R x y := by
  induction h with
  | nil => cases hy
  | @cons x z xs ys hxz _ ih =>
    rcases List.mem_cons.1 hy with rfl | hy
    · exact ⟨x, List.mem_cons_self, hxz⟩
    · obtain ⟨w, hw, hwy⟩ := ih hy
      exact ⟨w, List.mem_cons_of_mem x hw, hwy⟩

/-- If what is good stays good or meets something bad with each next element, every list is good or has a first bad element. -/
theorem good_or_first_bad {α : Type} (Good : List α → Prop) (Bad : List α → α → Prop) (hnil : Good [])
    (hsnoc : ∀ l x, Good l → Good (l ++ [x]) ∨ Bad l x) (l : List α) :
    Good l ∨ ∃ before x after, l = before ++ x :: after ∧ Good before ∧ Bad before x := by
  induction l using List.reverseRecOn with
  | nil => exact Or.inl hnil
  | append_singleton l x ih =>
    rcases ih with hgood | ⟨before, y, after, rfl, hfirst⟩
    · rcases hsnoc l x hgood with hnext | hbad
      · exact Or.inl hnext
      · exact Or.inr ⟨l, x, [], rfl, hgood, hbad⟩
    · exact Or.inr ⟨before, y, after ++ [x], by simp, hfirst⟩

/-! ## Conditions -/

namespace ConditionDraft

/-- A condition is on a column other than the label, and orders only numbers. -/
def Valid (c : Catalog) (d : ConditionDraft) : Prop :=
  ∃ i, c.column? d.feature = some i ∧ i ≠ c.label ∧
    (d.op.isOrdering = true → c.isNumeric i = true ∧ d.value.isNumber = true)

/-- A draft and its condition, the feature numbered and the rest as written. -/
def Becomes (c : Catalog) (d : ConditionDraft) (x : Condition) : Prop :=
  c.column? d.feature = some x.feature ∧ x.op = d.op ∧ x.value = d.value

/-- What is wrong with a condition on some line, after conditions on the features in `earlier`. -/
inductive Fault (c : Catalog) (line : Nat) (earlier : List String) (d : ConditionDraft) : Error → Prop where
  | unknown : c.column? d.feature = none → Fault c line earlier d (.schema (.unknownRuleFeature line d.feature))
  | onLabel : c.column? d.feature = some c.label → Fault c line earlier d (.schema (.conditionOnLabel line d.feature))
  | repeated {i : Nat} : c.column? d.feature = some i → i ≠ c.label → d.feature ∈ earlier →
      Fault c line earlier d (.grammar ⟨line, .duplicateFeature d.feature⟩)
  | incomparable {i : Nat} : c.column? d.feature = some i → i ≠ c.label → d.feature ∉ earlier → d.op.isOrdering = true →
      ¬(c.isNumeric i = true ∧ d.value.isNumber = true) →
      Fault c line earlier d (.grammar ⟨line, .incomparableValue d.feature d.op d.value⟩)

variable {c : Catalog} {line : Nat} {tested : List Nat} {earlier : List String} {d : ConditionDraft}

/-- A condition at fault is not valid, or on a feature that came earlier. -/
theorem valid_or_fault (c : Catalog) (line : Nat) (earlier : List String) (d : ConditionDraft) :
    (d.Valid c ∧ d.feature ∉ earlier) ∨ ∃ e, d.Fault c line earlier e := by
  cases hi : c.column? d.feature with
  | none => exact Or.inr ⟨_, .unknown hi⟩
  | some i =>
    by_cases hlabel : i = c.label
    · exact Or.inr ⟨_, .onLabel (hlabel ▸ hi)⟩
    by_cases hearlier : d.feature ∈ earlier
    · exact Or.inr ⟨_, .repeated hi hlabel hearlier⟩
    by_cases horder : d.op.isOrdering = true → c.isNumeric i = true ∧ d.value.isNumber = true
    · exact Or.inl ⟨⟨i, hi, hlabel, horder⟩, hearlier⟩
    · rw [Classical.not_imp] at horder
      exact Or.inr ⟨_, .incomparable hi hlabel hearlier horder.1 horder.2⟩

/-- A valid condition on a column not tested yet resolves. -/
theorem resolve_of_valid (line : Nat) (h : d.Valid c) (hnew : ∀ i, c.column? d.feature = some i → i ∉ tested) :
    ∃ x, d.resolve c line tested = .ok x ∧ d.Becomes c x := by
  obtain ⟨i, hi, hlabel, horder⟩ := h
  refine ⟨⟨i, d.op, d.value⟩, ?_, hi, rfl, rfl⟩
  have hsuits : ¬(d.op.isOrdering && !(c.isNumeric i && d.value.isNumber)) = true := by
    rw [Bool.and_eq_true, Bool.not_eq_true']
    rintro ⟨hop, hnot⟩
    rw [(horder hop).1, (horder hop).2] at hnot
    cases hnot
  simp only [resolve, hi]
  rw [if_neg hlabel, if_neg (hnew i hi), if_neg hsuits]

/-- A condition at fault is refused for its fault, if the columns tested are those of the earlier features. -/
theorem resolve_of_fault {e : Error} (h : d.Fault c line earlier e)
    (htested : ∀ i, c.column? d.feature = some i → (i ∈ tested ↔ d.feature ∈ earlier)) :
    d.resolve c line tested = .error e := by
  cases h with
  | unknown hi => simp only [resolve, hi]
  | onLabel hi =>
    simp only [resolve, hi]
    exact if_pos trivial
  | repeated hi hlabel hearlier =>
    simp only [resolve, hi]
    rw [if_neg hlabel, if_pos ((htested _ hi).2 hearlier)]
  | @incomparable i hi hlabel hearlier hop hnot =>
    have hunsuited : (d.op.isOrdering && !(c.isNumeric i && d.value.isNumber)) = true := by
      rw [Bool.and_eq_true, Bool.not_eq_true', Bool.eq_false_iff, Ne, Bool.and_eq_true]
      exact ⟨hop, hnot⟩
    simp only [resolve, hi]
    rw [if_neg hlabel, if_neg fun hm => hearlier ((htested _ hi).1 hm), if_pos hunsuited]

end ConditionDraft

/-- The columns of resolved conditions are those that their drafts name. -/
theorem mem_features_iff {c : Catalog} {drafts : List ConditionDraft} {xs : List Condition}
    (h : List.Forall₂ (ConditionDraft.Becomes c) drafts xs) {name : String} {i : Nat} (hi : c.column? name = some i) :
    i ∈ xs.map (·.feature) ↔ name ∈ drafts.map (·.feature) := by
  induction h with
  | nil => simp
  | @cons d x _ _ hx _ ih =>
    have hhead : i = x.feature ↔ name = d.feature := by
      constructor
      · rintro rfl
        exact column_inj hi hx.1
      · rintro rfl
        exact Option.some.inj (hi.symm.trans hx.1)
    rw [List.map_cons, List.map_cons, List.mem_cons, List.mem_cons, ih, hhead]

/-- Conditions are resolved part by part, the second with the columns of the first tested already. -/
theorem resolveConditions_append (c : Catalog) (line : Nat) (tested : List Nat) (drafts others : List ConditionDraft) :
    resolveConditions c line tested (drafts ++ others) = do
      let xs ← resolveConditions c line tested drafts
      let ys ← resolveConditions c line ((xs.map (·.feature)).reverse ++ tested) others
      return xs ++ ys := by
  induction drafts generalizing tested with
  | nil =>
    show resolveConditions c line tested others = (resolveConditions c line tested others >>= fun ys => .ok ys)
    cases resolveConditions c line tested others <;> rfl
  | cons d rest ih =>
    rw [List.cons_append, resolveConditions, resolveConditions]
    cases d.resolve c line tested with
    | error e => rfl
    | ok x =>
      show (resolveConditions c line (x.feature :: tested) (rest ++ others) >>= _) =
        ((resolveConditions c line (x.feature :: tested) rest >>= fun xs => .ok (x :: xs)) >>= _)
      rw [ih]
      cases resolveConditions c line (x.feature :: tested) rest with
      | error e => rfl
      | ok xs =>
        show ((resolveConditions c line _ others >>= fun ys => .ok (xs ++ ys)) >>= _) =
          (resolveConditions c line (((x :: xs).map (·.feature)).reverse ++ tested) others >>= _)
        rw [List.map_cons, List.reverse_cons, List.append_assoc, List.singleton_append]
        cases resolveConditions c line ((xs.map (·.feature)).reverse ++ x.feature :: tested) others <;> rfl

/-- Valid conditions on different features resolve, each to its own. -/
theorem resolveConditions_of_valid {c : Catalog} (line : Nat) {drafts : List ConditionDraft}
    (hvalid : ∀ d ∈ drafts, d.Valid c) (hdistinct : (drafts.map (·.feature)).Nodup) :
    ∃ xs, resolveConditions c line [] drafts = .ok xs ∧ List.Forall₂ (ConditionDraft.Becomes c) drafts xs := by
  -- what is tested already are the columns before, so the induction takes the conditions from the end
  induction drafts using List.reverseRecOn with
  | nil => exact ⟨[], rfl, .nil⟩
  | append_singleton drafts d ih =>
    rw [List.map_append, List.nodup_append] at hdistinct
    obtain ⟨xs, hxs, hbecome⟩ := ih (fun x hx => hvalid x (List.mem_append_left _ hx)) hdistinct.1
    have hnew : ∀ i, c.column? d.feature = some i → i ∉ (xs.map (·.feature)).reverse ++ [] := by
      intro i hi hm
      rw [List.append_nil, List.mem_reverse, mem_features_iff hbecome hi] at hm
      exact hdistinct.2.2 _ hm _ (by simp) rfl
    obtain ⟨x, hx, hd⟩ := ConditionDraft.resolve_of_valid line (hvalid d (by simp)) hnew
    refine ⟨xs ++ [x], ?_, List.rel_append hbecome (.cons hd .nil)⟩
    rw [resolveConditions_append, hxs]
    show (resolveConditions c line _ [d] >>= _) = _
    rw [resolveConditions, hx]
    rfl

/-! ## Rules -/

namespace RuleDraft

/-- A rule has a label seen in the label column, and valid conditions on different features. -/
structure Valid (c : Catalog) (d : RuleDraft) : Prop where
  label : ∃ v, d.label? = some v ∧ c.labelFeature.contains v = true
  conditions : ∀ x ∈ d.conditions, x.Valid c
  distinct : (d.conditions.map (·.feature)).Nodup

/-- A draft and its rule: the same label and counts, and the conditions in the order in which they are written. -/
structure Becomes (c : Catalog) (d : RuleDraft) (r : Rule) : Prop where
  label : d.label? = some r.label
  conditions : List.Forall₂ (ConditionDraft.Becomes c) d.conditions r.conditions
  reported : r.reported = d.reported

/-- What is wrong with a rule on some line: its label, or else the first condition that is not valid or repeats a feature. -/
inductive Fault (c : Catalog) (line : Nat) (d : RuleDraft) : Error → Prop where
  | noLabel : d.label? = none → Fault c line d (.grammar ⟨line, .emptyLabel⟩)
  | unseenLabel {v : Value} : d.label? = some v → c.labelFeature.contains v = false →
      Fault c line d (.schema (.labelNotInDomain line v))
  | condition {v : Value} {before after : List ConditionDraft} {x : ConditionDraft} {e : Error} : d.label? = some v →
      c.labelFeature.contains v = true → d.conditions = before ++ x :: after → (∀ y ∈ before, y.Valid c) →
      (before.map (·.feature)).Nodup → x.Fault c line (before.map (·.feature)) e → Fault c line d e

variable {c : Catalog} {line : Nat} {d : RuleDraft}

/-- Conditions are valid and on different features, or there is a first that is not. -/
theorem conditions_valid_or_fault (c : Catalog) (line : Nat) (drafts : List ConditionDraft) :
    ((∀ x ∈ drafts, x.Valid c) ∧ (drafts.map (·.feature)).Nodup) ∨
      ∃ before x after, drafts = before ++ x :: after ∧ ((∀ y ∈ before, y.Valid c) ∧ (before.map (·.feature)).Nodup) ∧
        ∃ e, x.Fault c line (before.map (·.feature)) e := by
  refine good_or_first_bad (fun l => (∀ x ∈ l, x.Valid c) ∧ (l.map (·.feature)).Nodup)
    (fun l x => ∃ e, x.Fault c line (l.map (·.feature)) e) ⟨by simp, List.nodup_nil⟩ ?_ drafts
  rintro l x ⟨hvalid, hdistinct⟩
  refine (x.valid_or_fault c line (l.map (·.feature))).imp_left fun ⟨hx, hnew⟩ => ⟨fun y hy => ?_, ?_⟩
  · rcases List.mem_append.1 hy with hy | hy
    · exact hvalid y hy
    · rw [List.mem_singleton.1 hy]
      exact hx
  · rw [List.map_append, List.map_singleton, List.nodup_append]
    refine ⟨hdistinct, List.nodup_singleton _, ?_⟩
    rintro name hname _ hlast rfl
    rw [List.mem_singleton.1 hlast] at hname
    exact hnew hname

/-- A rule is valid, or something is wrong with it. -/
theorem valid_or_fault (c : Catalog) (line : Nat) (d : RuleDraft) : d.Valid c ∨ ∃ e, d.Fault c line e := by
  cases hlabel : d.label? with
  | none => exact Or.inr ⟨_, .noLabel hlabel⟩
  | some v =>
    cases hseen : c.labelFeature.contains v with
    | false => exact Or.inr ⟨_, .unseenLabel hlabel hseen⟩
    | true =>
      rcases conditions_valid_or_fault c line d.conditions with
        ⟨hvalid, hdistinct⟩ | ⟨before, x, after, hsplit, ⟨hvalid, hdistinct⟩, e, he⟩
      · exact Or.inl ⟨⟨v, hlabel, hseen⟩, hvalid, hdistinct⟩
      · exact Or.inr ⟨e, .condition hlabel hseen hsplit hvalid hdistinct he⟩

/-- A valid rule resolves. -/
theorem resolve_of_valid (line : Nat) (h : d.Valid c) : ∃ r, d.resolve c line = .ok r ∧ d.Becomes c r := by
  obtain ⟨v, hlabel, hseen⟩ := h.label
  obtain ⟨xs, hxs, hbecome⟩ := resolveConditions_of_valid line h.conditions h.distinct
  refine ⟨⟨xs, v, d.reported⟩, ?_, hlabel, hbecome, rfl⟩
  simp only [resolve, hlabel]
  rw [if_pos hseen, hxs]
  rfl

/-- A rule at fault is refused for its fault. -/
theorem resolve_of_fault {e : Error} (h : d.Fault c line e) : d.resolve c line = .error e := by
  cases h with
  | noLabel hlabel => simp only [resolve, hlabel]
  | unseenLabel hlabel hseen =>
    simp only [resolve, hlabel]
    rw [if_neg (by simp [hseen])]
  | @condition _ before _ x _ hlabel hseen hsplit hvalid hdistinct hx =>
    obtain ⟨xs, hxs, hbecome⟩ := resolveConditions_of_valid line hvalid hdistinct
    have hfault : x.resolve c line ((xs.map (·.feature)).reverse ++ []) = .error e := by
      refine ConditionDraft.resolve_of_fault hx fun i hi => ?_
      rw [List.append_nil, List.mem_reverse, mem_features_iff hbecome hi]
    simp only [resolve, hlabel]
    rw [if_pos hseen, hsplit, resolveConditions_append, hxs]
    show ((resolveConditions c line _ (x :: _) >>= _) >>= _) = _
    rw [resolveConditions, hfault]
    rfl

/-- What resolves is valid. -/
theorem valid_of_resolve {r : Rule} (h : d.resolve c line = .ok r) : d.Valid c ∧ d.Becomes c r := by
  rcases d.valid_or_fault c line with hvalid | ⟨e, he⟩
  · obtain ⟨r', hr', hbecomes⟩ := resolve_of_valid line hvalid
    obtain rfl := Except.ok.inj (hr'.symm.trans h)
    exact ⟨hvalid, hbecomes⟩
  · rw [resolve_of_fault he] at h
    cases h

/-- A draft without conditions becomes a rule without conditions, and no other does. -/
theorem Becomes.isDefault {r : Rule} (h : d.Becomes c r) : r.isDefault = d.isDefault := by
  rw [Rule.isDefault, RuleDraft.isDefault, Bool.eq_iff_iff, List.isEmpty_iff_length_eq_zero, List.isEmpty_iff_length_eq_zero,
    h.conditions.length_eq]

/-- A draft becomes one rule at most. -/
theorem becomes_unique (c : Catalog) : Relator.RightUnique (RuleDraft.Becomes c) := by
  intro d r q hr hq
  have hcondition : Relator.RightUnique (ConditionDraft.Becomes c) := by
    intro x y z hy hz
    obtain ⟨hy1, hy2, hy3⟩ := hy
    obtain ⟨hz1, hz2, hz3⟩ := hz
    have hfeature := Option.some.inj (hy1.symm.trans hz1)
    cases y
    cases z
    simp_all
  have hconditions := List.right_unique_forall₂' hcondition hr.conditions hq.conditions
  have hlabel := Option.some.inj (hr.label.symm.trans hq.label)
  have hreported := hr.reported.trans hq.reported.symm
  cases r
  cases q
  simp_all

end RuleDraft

/-! ## Lists -/

namespace DecisionList

/-- Drafts are each valid, and the last, and no other, is a default rule. -/
structure WellFormed (c : Catalog) (drafts : List RuleDraft) : Prop where
  ne_nil : drafts ≠ []
  valid : ∀ d ∈ drafts, d.Valid c
  last_default : (drafts.getLast ne_nil).isDefault = true
  only_last : ∀ d ∈ drafts.dropLast, d.isDefault = false

/-- Why drafts make no list: the first at fault has a fault at its position, or none is at fault and there is none, or a default
rule stands too early, or there is no default rule. -/
inductive Refused (c : Catalog) (drafts : List RuleDraft) : Error → Prop where
  | rule {before after : List RuleDraft} {d : RuleDraft} {e : Error} : drafts = before ++ d :: after →
      (∀ x ∈ before, x.Valid c) → d.Fault c (before.length + 1) e → Refused c drafts e
  | empty : drafts = [] → Refused c drafts (.grammar ⟨1, .emptyList⟩)
  | early {before after : List RuleDraft} {d : RuleDraft} : drafts = before ++ d :: after → after ≠ [] →
      (∀ x ∈ drafts, x.Valid c) → (∀ x ∈ before, x.isDefault = false) → d.isDefault = true →
      Refused c drafts (.grammar ⟨before.length + 1, .defaultNotLast⟩)
  | missing {before : List RuleDraft} {d : RuleDraft} : drafts = before ++ [d] → (∀ x ∈ drafts, x.Valid c) →
      (∀ x ∈ drafts, x.isDefault = false) → Refused c drafts (.grammar ⟨drafts.length, .missingDefault⟩)

variable {c : Catalog} {drafts : List RuleDraft}

/-- Drafts are valid, or there is a first that is at fault. -/
theorem valid_or_first_fault (c : Catalog) (drafts : List RuleDraft) : (∀ d ∈ drafts, d.Valid c) ∨
    ∃ before d after, drafts = before ++ d :: after ∧ (∀ x ∈ before, x.Valid c) ∧ ∃ e, d.Fault c (before.length + 1) e := by
  refine good_or_first_bad (fun l => ∀ d ∈ l, RuleDraft.Valid c d)
    (fun l d => ∃ e, RuleDraft.Fault c (l.length + 1) d e) (by simp) ?_ drafts
  intro l d hvalid
  refine (d.valid_or_fault c (l.length + 1)).imp_left fun hd x hx => ?_
  rcases List.mem_append.1 hx with hx | hx
  · exact hvalid x hx
  · rw [List.mem_singleton.1 hx]
    exact hd

/-- Drafts are well-formed, or there is a reason to refuse them. -/
theorem wellFormed_or_refused (c : Catalog) (drafts : List RuleDraft) : WellFormed c drafts ∨ ∃ e, Refused c drafts e := by
  rcases valid_or_first_fault c drafts with hvalid | ⟨before, d, after, hsplit, hbefore, e, he⟩
  · cases drafts using List.reverseRecOn with
    | nil => exact Or.inr ⟨_, .empty rfl⟩
    | append_singleton before d =>
      cases hearly : before.find? (·.isDefault) with
      | some x =>
        obtain ⟨hx, xs, ys, rfl, hxs⟩ := List.find?_eq_some_iff_append.1 hearly
        exact Or.inr ⟨_, .early (List.append_assoc xs (x :: ys) [d]) (by simp) hvalid (by simpa using hxs) hx⟩
      | none =>
        have hbefore : ∀ x ∈ before, x.isDefault = false := by simpa using hearly
        cases hd : d.isDefault with
        | true => exact Or.inl ⟨by simp, hvalid, by simpa using hd, by simpa using hbefore⟩
        | false =>
          refine Or.inr ⟨_, .missing rfl hvalid fun x hx => ?_⟩
          rcases List.mem_append.1 hx with hx | hx
          · exact hbefore x hx
          · rw [List.mem_singleton.1 hx]
            exact hd
  · exact Or.inr ⟨e, .rule hsplit hbefore he⟩

/-- Drafts are resolved part by part, the second numbered on. -/
theorem resolveFrom_append (c : Catalog) (n : Nat) (drafts others : List RuleDraft) :
    resolveFrom c n (drafts ++ others) = do
      let rules ← resolveFrom c n drafts
      let more ← resolveFrom c (n + drafts.length) others
      return rules ++ more := by
  induction drafts generalizing n with
  | nil =>
    show resolveFrom c n others = (resolveFrom c n others >>= fun rules => .ok rules)
    cases resolveFrom c n others <;> rfl
  | cons d rest ih =>
    rw [List.cons_append, resolveFrom, resolveFrom, List.length_cons, ← Nat.add_assoc, Nat.add_right_comm]
    cases d.resolve c n with
    | error e => rfl
    | ok r =>
      show (resolveFrom c (n + 1) (rest ++ others) >>= _) =
        ((resolveFrom c (n + 1) rest >>= fun rules => .ok ((n, r) :: rules)) >>= _)
      rw [ih]
      cases resolveFrom c (n + 1) rest with
      | error e => rfl
      | ok rules =>
        show ((resolveFrom c _ others >>= fun more => .ok (rules ++ more)) >>= _) = (resolveFrom c _ others >>= _)
        cases resolveFrom c (n + 1 + rest.length) others <;> rfl

/-- Valid drafts resolve, each to its own rule. -/
theorem resolveFrom_of_valid (n : Nat) (hvalid : ∀ d ∈ drafts, d.Valid c) :
    ∃ rules, resolveFrom c n drafts = .ok rules ∧ List.Forall₂ (fun d p => RuleDraft.Becomes c d p.2) drafts rules := by
  induction drafts generalizing n with
  | nil => exact ⟨[], rfl, .nil⟩
  | cons d rest ih =>
    obtain ⟨r, hr, hd⟩ := RuleDraft.resolve_of_valid n (hvalid d List.mem_cons_self)
    obtain ⟨rules, hrules, hrest⟩ := ih (n + 1) fun x hx => hvalid x (List.mem_cons_of_mem d hx)
    refine ⟨(n, r) :: rules, ?_, .cons hd hrest⟩
    rw [resolveFrom, hr]
    show (resolveFrom c (n + 1) rest >>= _) = _
    rw [hrules]
    rfl

/-- Rules are default rules where their drafts are. -/
theorem isDefault_of_becomes {rules : List (Nat × Rule)}
    (h : List.Forall₂ (fun d p => RuleDraft.Becomes c d p.2) drafts rules) :
    rules.map (·.2.isDefault) = drafts.map (·.isDefault) := by
  induction h with
  | nil => rfl
  | cons hd _ ih => rw [List.map_cons, List.map_cons, hd.isDefault, ih]

/-- A default rule that stands too early is the reason of refusal, by its line. -/
theorem ofRules_early {before after : List (Nat × Rule)} {p : Nat × Rule} (hafter : after ≠ [])
    (hbefore : ∀ q ∈ before, q.2.isDefault = false) (hp : p.2.isDefault = true) :
    ofRules (before ++ p :: after) = .error (.grammar ⟨p.1, .defaultNotLast⟩) := by
  have hfind : (before ++ p :: after).dropLast.find? (·.2.isDefault) = some p := by
    rw [List.dropLast_append_of_ne_nil (by simp), List.dropLast_cons_of_ne_nil hafter, List.find?_eq_some_iff_append]
    exact ⟨hp, before, after.dropLast, rfl, by simpa using hbefore⟩
  have hnumbered : ofNumbered (before ++ p :: after) = .error ⟨p.1, .defaultNotLast⟩ := by
    rw [ofNumbered, dif_neg (by simp)]
    split
    · next line r he =>
      rw [hfind] at he
      cases he
      rfl
    · next he =>
      rw [hfind] at he
      cases he
  rw [ofRules, hnumbered]

/-- Rules without a default rule are refused on the line of the last. -/
theorem ofRules_missing {before : List (Nat × Rule)} {p : Nat × Rule} (hbefore : ∀ q ∈ before, q.2.isDefault = false)
    (hp : p.2.isDefault = false) : ofRules (before ++ [p]) = .error (.grammar ⟨p.1, .missingDefault⟩) := by
  have hfind : (before ++ [p]).dropLast.find? (·.2.isDefault) = none := by
    rw [List.dropLast_concat]
    simpa using hbefore
  have hnumbered : ofNumbered (before ++ [p]) = .error ⟨p.1, .missingDefault⟩ := by
    rw [ofNumbered, dif_neg (by simp)]
    split
    · next line r he =>
      rw [hfind] at he
      cases he
    · rw [dif_neg (by simp [hp])]
      simp
  rw [ofRules, hnumbered]

/-- Rules of which the last, and no other, is a default rule make a list. -/
theorem ofRules_of_ends {rules : List (Nat × Rule)} (hends : EndsInDefault (rules.map (·.2))) :
    ofRules rules = .ok ⟨rules.map (·.2), hends⟩ := by
  have hne : rules ≠ [] := by simpa using hends.ne_nil
  have hfind : rules.dropLast.find? (·.2.isDefault) = none := by
    rw [List.find?_eq_none]
    intro p hp
    rw [hends.only_last p.2 (by rw [← List.map_dropLast]; exact List.mem_map_of_mem hp)]
    simp
  have hlast : (rules.getLast hne).2.isDefault = true := by
    have h := hends.last_default
    rwa [List.getLast_map] at h
  have hnumbered : ofNumbered rules = .ok ⟨rules.map (·.2), hends⟩ := by
    rw [ofNumbered, dif_neg hne]
    split
    · next line r he =>
      rw [hfind] at he
      cases he
    · rw [dif_pos hlast]
  rw [ofRules, hnumbered]

/-- Of the last element alone something is true. -/
theorem only_last_iff {α : Type} {p : α → Bool} {l : List α} :
    (∃ hne : l ≠ [], p (l.getLast hne) = true ∧ ∀ x ∈ l.dropLast, p x = false) ↔
      ∃ n, l.map p = List.replicate n false ++ [true] := by
  cases l using List.reverseRecOn with
  | nil => simp
  | append_singleton l x =>
    rw [List.map_append, List.map_singleton, List.dropLast_concat]
    constructor
    · rintro ⟨_, hx, hl⟩
      rw [List.getLast_append_singleton] at hx
      refine ⟨l.length, ?_⟩
      rw [hx, List.map_congr_left hl, List.map_const']
    · rintro ⟨n, h⟩
      obtain ⟨hl, hx⟩ := List.append_inj' h rfl
      refine ⟨by simp, by simpa using hx, fun y hy => ?_⟩
      exact List.eq_of_mem_replicate (hl ▸ List.mem_map_of_mem hy)

/-- A list ends in a default rule if its last rule, and no other, is one. -/
theorem endsInDefault_iff {rules : List Rule} :
    EndsInDefault rules ↔ ∃ n, rules.map (·.isDefault) = List.replicate n false ++ [true] := by
  rw [← only_last_iff]
  exact ⟨fun h => ⟨h.ne_nil, h.last_default, h.only_last⟩, fun ⟨hne, hlast, honly⟩ => ⟨hne, hlast, honly⟩⟩

/-- Well-formed drafts by their default rules: none but the last. -/
theorem wellFormed_iff : WellFormed c drafts ↔ (∀ d ∈ drafts, d.Valid c) ∧
    ∃ n, drafts.map (·.isDefault) = List.replicate n false ++ [true] := by
  rw [← only_last_iff]
  exact ⟨fun h => ⟨h.valid, h.ne_nil, h.last_default, h.only_last⟩,
    fun ⟨hvalid, hne, hlast, honly⟩ => ⟨hne, hvalid, hlast, honly⟩⟩

/-! ## Checking -/

/-- Well-formed drafts make a list of their rules. -/
theorem ofDrafts_of_wellFormed (h : WellFormed c drafts) :
    ∃ l, ofDrafts c drafts = .ok l ∧ List.Forall₂ (RuleDraft.Becomes c) drafts l.rules := by
  obtain ⟨hvalid, hends⟩ := wellFormed_iff.1 h
  obtain ⟨rules, hrules, hbecome⟩ := resolveFrom_of_valid 1 hvalid
  have hends' : EndsInDefault (rules.map (·.2)) := by
    rw [endsInDefault_iff, List.map_map]
    exact isDefault_of_becomes hbecome ▸ hends
  refine ⟨⟨rules.map (·.2), hends'⟩, ?_, by rwa [List.forall₂_map_right_iff]⟩
  rw [ofDrafts, hrules]
  exact ofRules_of_ends hends'

/-- Drafts that resolve in part are refused for the first fault. -/
theorem ofDrafts_of_fault {before after : List RuleDraft} {d : RuleDraft} {e : Error} (hbefore : ∀ x ∈ before, x.Valid c)
    (he : d.Fault c (before.length + 1) e) : ofDrafts c (before ++ d :: after) = .error e := by
  obtain ⟨rules, hrules, -⟩ := resolveFrom_of_valid 1 hbefore
  rw [ofDrafts, resolveFrom_append, hrules]
  show ((resolveFrom c (1 + before.length) (d :: after) >>= _) >>= _) = _
  rw [resolveFrom, Nat.add_comm 1, RuleDraft.resolve_of_fault he]
  rfl

/-- Valid drafts come to the check of the list as the rules of the first part, no default rules if their drafts are none, and
those of the second. -/
theorem ofDrafts_append {before after : List RuleDraft} {d : RuleDraft} (hvalid : ∀ x ∈ before ++ d :: after, x.Valid c)
    (hnone : ∀ x ∈ before, x.isDefault = false) :
    ∃ rules r more, ofDrafts c (before ++ d :: after) = ofRules (rules ++ (before.length + 1, r) :: more) ∧
      (∀ p ∈ rules, p.2.isDefault = false) ∧ r.isDefault = d.isDefault ∧ more.length = after.length := by
  obtain ⟨rules, hrules, hbefore⟩ := resolveFrom_of_valid 1 fun x hx => hvalid x (List.mem_append_left _ hx)
  obtain ⟨r, hr, hd⟩ := RuleDraft.resolve_of_valid (before.length + 1) (hvalid d (by simp))
  have hvalid' : ∀ x ∈ after, x.Valid c := fun x hx => hvalid x (by simp [hx])
  obtain ⟨more, hmore, hafter⟩ := resolveFrom_of_valid (before.length + 1 + 1) hvalid'
  refine ⟨rules, r, more, ?_, fun p hp => ?_, hd.isDefault, hafter.length_eq.symm⟩
  · rw [ofDrafts, resolveFrom_append, hrules]
    show ((resolveFrom c (1 + before.length) (d :: after) >>= _) >>= _) = _
    rw [resolveFrom, Nat.add_comm 1, hr]
    show (((resolveFrom c (before.length + 1 + 1) after >>= _) >>= _) >>= _) = _
    rw [hmore]
    rfl
  · have hmem : p.2.isDefault ∈ before.map (·.isDefault) :=
      isDefault_of_becomes hbefore ▸ List.mem_map_of_mem (f := fun q : Nat × Rule => q.2.isDefault) hp
    obtain ⟨x, hx, hxp⟩ := List.mem_map.1 hmem
    rw [← hxp, hnone x hx]

/-- Drafts with a reason to be refused are refused for that reason. -/
theorem ofDrafts_of_refused {e : Error} (h : Refused c drafts e) : ofDrafts c drafts = .error e := by
  cases h with
  | rule hsplit hbefore he =>
    rw [hsplit]
    exact ofDrafts_of_fault hbefore he
  | empty hnil =>
    rw [hnil]
    rfl
  | early hsplit hafter hvalid hbefore hd =>
    subst hsplit
    obtain ⟨rules, r, more, hcheck, hrules, hr, hmore⟩ := ofDrafts_append hvalid hbefore
    have hne : more ≠ [] := by
      rintro rfl
      exact hafter (List.eq_nil_of_length_eq_zero hmore.symm)
    rw [hcheck, ofRules_early hne hrules (hr.trans hd)]
  | missing hsplit hvalid hnone =>
    subst hsplit
    obtain ⟨rules, r, more, hcheck, hrules, hr, hmore⟩ := ofDrafts_append hvalid fun x hx => hnone x (List.mem_append_left _ hx)
    obtain rfl := List.eq_nil_of_length_eq_zero hmore
    rw [hcheck, ofRules_missing hrules (hr.trans (hnone _ (by simp))), List.length_append, List.length_singleton]

/-- Checking drafts gives a list if they are well-formed, and their reason of refusal otherwise. -/
theorem ofDrafts_eq_error_iff {e : Error} : ofDrafts c drafts = .error e ↔ Refused c drafts e := by
  refine ⟨fun h => ?_, ofDrafts_of_refused⟩
  rcases wellFormed_or_refused c drafts with hwell | ⟨e', he'⟩
  · obtain ⟨l, hl, -⟩ := ofDrafts_of_wellFormed hwell
    rw [hl] at h
    cases h
  · rw [ofDrafts_of_refused he'] at h
    cases h
    exact he'

/-- Drafts make a list if they are well-formed, and only then; it is that of their rules. -/
theorem ofDrafts_eq_ok_iff {l : DecisionList} :
    ofDrafts c drafts = .ok l ↔ WellFormed c drafts ∧ List.Forall₂ (RuleDraft.Becomes c) drafts l.rules := by
  constructor
  · intro h
    rcases wellFormed_or_refused c drafts with hwell | ⟨e, he⟩
    · obtain ⟨l', hl', hbecome⟩ := ofDrafts_of_wellFormed hwell
      obtain rfl := Except.ok.inj (hl'.symm.trans h)
      exact ⟨hwell, hbecome⟩
    · rw [ofDrafts_of_refused he] at h
      cases h
  · rintro ⟨hwell, hbecome⟩
    obtain ⟨⟨rules, hends⟩, hl', hbecome'⟩ := ofDrafts_of_wellFormed hwell
    obtain ⟨rules', hends'⟩ := l
    obtain rfl : rules = rules' := List.right_unique_forall₂' (RuleDraft.becomes_unique c) hbecome' hbecome
    exact hl'

/-! ## Texts -/

/-- The lines of rules write valid drafts of them. -/
theorem exists_drafts_of_rulesOf {lines : List (Nat × List Char)} {rules : List (Nat × Rule)}
    (h : RuleText.rulesOf c lines = .ok rules) :
    ∃ drafts, List.Forall₂ (fun line d => RuleText.draftOf c line.1 line.2 = .ok d) lines drafts ∧
      (∀ d ∈ drafts, d.Valid c) ∧ List.Forall₂ (fun d p => RuleDraft.Becomes c d p.2) drafts rules := by
  induction lines generalizing rules with
  | nil =>
    cases h
    exact ⟨[], .nil, by simp, .nil⟩
  | cons line rest ih =>
    obtain ⟨d, hd, h⟩ := bind_eq_ok.1 h
    obtain ⟨r, hr, h⟩ := bind_eq_ok.1 h
    obtain ⟨others, hothers, h⟩ := bind_eq_ok.1 h
    cases h
    obtain ⟨drafts, hread, hvalid, hbecome⟩ := ih hothers
    obtain ⟨hdvalid, hdbecomes⟩ := RuleDraft.valid_of_resolve hr
    refine ⟨d :: drafts, .cons hd hread, fun x hx => ?_, .cons hdbecomes hbecome⟩
    rcases List.mem_cons.1 hx with rfl | hx
    · exact hdvalid
    · exact hvalid x hx

/-- A list that is read is that of the drafts its lines write. -/
theorem exists_drafts_of_read {text : String} {l : DecisionList} (h : DecisionList.read text c = .ok l) :
    ∃ drafts, List.Forall₂ (fun line d => RuleText.draftOf c line.1 line.2 = .ok d) (RuleText.contentLines text.toList) drafts ∧
      WellFormed c drafts ∧ ofDrafts c drafts = .ok l := by
  obtain ⟨rules, hrules, h⟩ := bind_eq_ok.1 h
  obtain ⟨drafts, hread, hvalid, hbecome⟩ := exists_drafts_of_rulesOf hrules
  have hl := ofRules_ok h
  have hwell : WellFormed c drafts := by
    refine wellFormed_iff.2 ⟨hvalid, ?_⟩
    rw [← isDefault_of_becomes hbecome]
    have hends := endsInDefault_iff.1 l.ends
    rwa [hl, List.map_map] at hends
  refine ⟨drafts, hread, hwell, ofDrafts_eq_ok_iff.2 ⟨hwell, ?_⟩⟩
  rwa [hl, List.forall₂_map_right_iff]

/-- A draft that a line writes, and a rule of the list that it becomes. -/
structure WrittenOn (c : Catalog) (l : DecisionList) (line : Nat × List Char) (d : RuleDraft) (r : Rule) : Prop where
  read : RuleText.readLine c.containsAnd line.1 line.2 = .ok d
  mem : r ∈ l.rules
  becomes : d.Becomes c r

/-- A rule of a list that a line is read as is written on this line. -/
theorem WrittenOn.of_draftOf {l : DecisionList} {line : Nat × List Char} {d : RuleDraft} {r : Rule}
    (h : RuleText.draftOf c line.1 line.2 = .ok d) (hr : r ∈ l.rules) (hbecomes : d.Becomes c r) : WrittenOn c l line d r := by
  rw [RuleText.draftOf] at h
  split at h
  · next hread =>
    cases h
    exact ⟨hread, hr, hbecomes⟩
  · cases h

/-- Each line of a list that is read writes a rule. -/
theorem exists_rule_of_line {text : String} {l : DecisionList} (h : DecisionList.read text c = .ok l) {line : Nat × List Char}
    (hline : line ∈ RuleText.contentLines text.toList) : ∃ d r, WrittenOn c l line d r := by
  obtain ⟨drafts, hread, -, hl⟩ := exists_drafts_of_read h
  obtain ⟨d, hd, hdraft⟩ := exists_of_forall₂ hread.flip hline
  obtain ⟨r, hr, hbecomes⟩ := exists_of_forall₂ (ofDrafts_eq_ok_iff.1 hl).2.flip hd
  exact ⟨d, r, .of_draftOf hdraft hr hbecomes⟩

/-- Each rule of a list that is read is written on a line. -/
theorem exists_line_of_rule {text : String} {l : DecisionList} (h : DecisionList.read text c = .ok l) {r : Rule}
    (hr : r ∈ l.rules) : ∃ line ∈ RuleText.contentLines text.toList, ∃ d, WrittenOn c l line d r := by
  obtain ⟨drafts, hread, -, hl⟩ := exists_drafts_of_read h
  obtain ⟨d, hd, hbecomes⟩ := exists_of_forall₂ (ofDrafts_eq_ok_iff.1 hl).2 hr
  obtain ⟨line, hline, hdraft⟩ := exists_of_forall₂ hread hd
  exact ⟨line, hline, d, .of_draftOf hdraft hr hbecomes⟩

/-- Checking accepts the well-formed lists and no others, in four parts.
1. Drafts make a list if and only if they are well-formed.
2. The list has their rules in their order, the conditions of each in the order in which they are written.
3. Other drafts are refused for the first that is at fault, at its position, and for the place of the default rule only if none is
   at fault.
4. A list that is read from a text is the one that the drafts on its lines make, and these are well-formed; so every row has a
   rule that matches it. -/
theorem ofDrafts_ok_iff_wellFormed (c : Catalog) :
    (∀ drafts, (∃ l, ofDrafts c drafts = .ok l) ↔ WellFormed c drafts) ∧
    (∀ drafts l, ofDrafts c drafts = .ok l → List.Forall₂ (RuleDraft.Becomes c) drafts l.rules) ∧
    (∀ drafts e, ofDrafts c drafts = .error e ↔ Refused c drafts e) ∧
    ∀ text l, DecisionList.read text c = .ok l →
      (∃ drafts, List.Forall₂ (fun line d => RuleText.draftOf c line.1 line.2 = .ok d)
          (RuleText.contentLines text.toList) drafts ∧ WellFormed c drafts ∧ ofDrafts c drafts = .ok l) ∧
        ∀ cell : Nat → Cell, ∃ i, l.firstMatch? cell = some i ∧ i < l.size := by
  refine ⟨fun drafts => ⟨fun ⟨l, hl⟩ => (ofDrafts_eq_ok_iff.1 hl).1, fun hwell => ?_⟩,
    fun drafts l hl => (ofDrafts_eq_ok_iff.1 hl).2, fun drafts e => ofDrafts_eq_error_iff,
    fun text l hl => ⟨exists_drafts_of_read hl, l.exists_firstMatch⟩⟩
  obtain ⟨l, hl, -⟩ := ofDrafts_of_wellFormed hwell
  exact ⟨l, hl⟩

end DecisionList

end FirstMatch
