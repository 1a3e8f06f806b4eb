import FirstMatch.Proofs.DecisionList.Validation
import FirstMatch.Proofs.RuleText.Precedence

/-!
# Operators that are misspelled

A run of signs that spells no operator is searched for the spellings all the same. What is found in it makes the operator, and the
signs left over go into the feature before it or the literal after it (`Misspelling.exists_misread`). So a rule with such a condition
is refused where no column has signs in its name, with one exception: where the run begins with a spelling of equality or of its
negation, and this is found first, the rest of the run is read into the literal, which is then a text like any other
(`DecisionList.read_misspelling`).
-/

namespace FirstMatch

open RuleText

/-! ## Runs of signs -/

/-- The operator for which a run of signs is taken, and the signs left over: a spelling that asks for no order is found first, at the
start of the run. -/
def Operator.takenFor? (run : List Char) : Option (Operator × List Char) :=
  match findOperator? run with
  | some ([], op, left) => if op.isOrdering then none else some (op, left)
  | _ => none

/-- A run is taken for the operator found at its start, if that asks for no order. -/
theorem Operator.takenFor_eq_some_iff {run left : List Char} {op : Operator} :
    takenFor? run = some (op, left) ↔ findOperator? run = some ([], op, left) ∧ op.isOrdering = false := by
  unfold takenFor?
  split
  · next op' left' hfound =>
    cases hop : op'.isOrdering with
    | true =>
      simp only [if_true, hfound, reduceCtorEq, Option.some.injEq, Prod.mk.injEq, true_and, false_iff, not_and]
      rintro ⟨rfl, rfl⟩
      simp [hop]
    | false =>
      simp only [Bool.false_eq_true, if_false, hfound, Option.some.injEq, Prod.mk.injEq, true_and]
      constructor
      · rintro ⟨rfl, rfl⟩
        exact ⟨⟨rfl, rfl⟩, hop⟩
      · exact And.left
  · next hnone =>
    simp only [reduceCtorEq, false_iff, not_and]
    intro hfound
    exact absurd hfound (hnone op left)

/-- A text begins with the operator that is found in it if it begins with a spelling, and holds none that is searched for before. -/
theorem RuleText.findOperator_start_iff {t left : List Char} {op : Operator} : findOperator? t = some ([], op, left) ↔
    ∃ spelling, (spelling, op) ∈ Operator.spellings ∧ t = spelling ++ left ∧
      ∀ p ∈ Operator.searchedBefore spelling, ¬p.1 <:+: t := by
  rw [findOperator_eq_findSome, List.findSome?_eq_some_iff]
  constructor
  · rintro ⟨earlier, ⟨spelling, op'⟩, later, hsplit, hcut, hearlier⟩
    obtain ⟨⟨before, rest⟩, hparts, hfound⟩ := Option.map_eq_some_iff.1 hcut
    cases hfound
    refine ⟨spelling, by simp [hsplit], Text.eq_of_cutFirst hparts, fun p hp => ?_⟩
    have hbefore : p ∈ earlier := by
      rw [Operator.searchedBefore, hsplit, List.takeWhile_append] at hp
      split at hp
      · simpa using hp
      · exact (List.takeWhile_prefix _).subset hp
    exact cutAt_eq_none_iff.1 (hearlier p hbefore)
  · rintro ⟨spelling, hp, rfl, hbefore⟩
    obtain ⟨later, hlater⟩ := Operator.exists_spellings_eq _ hp
    exact ⟨_, _, later, hlater, cutAt_self hp left, fun p hp => cutAt_eq_none_iff.2 (hbefore p hp)⟩

/-- What a run of signs is taken for, by the spellings. -/
theorem Operator.takenFor_iff_spelling {run left : List Char} {op : Operator} : takenFor? run = some (op, left) ↔
    op.isOrdering = false ∧ ∃ spelling, (spelling, op) ∈ spellings ∧ run = spelling ++ left ∧
      ∀ p ∈ searchedBefore spelling, ¬p.1 <:+: run := by
  rw [takenFor_eq_some_iff, findOperator_start_iff, and_comm]

example : Operator.takenFor? ['=', '='] = some (.eq, ['=']) := by decide

example : Operator.takenFor? ['!', '=', '<', '>'] = some (.ne, ['<', '>']) := by decide

example : Operator.takenFor? ['<', '>'] = none := by decide

/-- A condition with a run of signs for its operator that spells none. The feature and the literal are taken with the blanks around
them, and have no signs. -/
structure Misspelling where
  subject : List Char
  run : List Char
  object : List Char
  subject_signless : Signless subject
  object_signless : Signless object
  run_ne_nil : run ≠ []
  run_signs : ∀ ch ∈ run, ch ∈ signs
  unspelled : Operator.ofSpelling? run = none

/-- How a text with a run of signs is misread: no operator is found in it, or one behind signs, or one that is found at the start of
the run, with the rest of the run behind it. -/
inductive RuleText.Misread (run t : List Char) : Prop where
  | unread : findOperator? t = none → Misread run t
  | inFeature {before rest : List Char} {op : Operator} {sign : Char} : findOperator? t = some (before, op, rest) →
      sign ∈ signs → sign ∈ before → Misread run t
  | inLiteral {before left rest : List Char} {op : Operator} : findOperator? run = some ([], op, left) →
      findOperator? t = some (before, op, left ++ rest) → Misread run t

/-! ## Values -/

/-- A text that begins with a sign is the text of no number. -/
theorem Decimal.readFloat_sign {sign : Char} (h : sign ∈ signs) (t : List Char) : readFloat? (sign :: t) = none := by
  fin_cases h <;> rfl

/-- Blanks around a token do not change its value. -/
theorem Value.ofToken_trim (t : List Char) : Value.ofToken (Text.trim t) = Value.ofToken t := by
  rw [ofToken, ofToken, Text.trim_trim]

/-- A literal that begins with signs is a text. -/
theorem Value.ofToken_signs {run : List Char} (hne : run ≠ []) (hrun : ∀ ch ∈ run, ch ∈ signs) (rest : List Char) :
    Value.ofToken (run ++ rest) = .text (String.ofList (run ++ Text.trimEnd rest)) := by
  have htrimmed : Text.Trimmed run := Text.trimmed_of_forall fun ch hch => isBlank_of_mem_signs (hrun ch hch)
  rw [ofToken, htrimmed.trim_append hne]
  obtain ⟨sign, signs, rfl⟩ := List.exists_cons_of_ne_nil hne
  rw [List.cons_append, Decimal.readFloat_sign (hrun sign List.mem_cons_self)]

/-! ## Fragments -/

namespace RuleText

/-- Fragments leave conditions that are complete, and what waits for the fragments after them. -/
theorem exists_pending (merge : Bool) {pending : Option (List Char)} (hpending : Waits pending) (fragments : List (List Char)) :
    ∃ done pending', Waits pending' ∧
      ∀ rest, gather merge pending (fragments ++ rest) = done ++ gather merge pending' rest := by
  induction fragments generalizing pending with
  | nil => exact ⟨[], pending, hpending, fun rest => rfl⟩
  | cons fragment fragments ih =>
    by_cases hwaits : (merge && (findOperator? (glue pending fragment)).isNone) = true
    · have hnone : findOperator? (glue pending fragment) = none := by
        rw [Bool.and_eq_true, Option.isNone_iff_eq_none] at hwaits
        exact hwaits.2
      obtain ⟨done, pending', hpending', hrest⟩ := ih (waits_some hnone)
      refine ⟨done, pending', hpending', fun rest => ?_⟩
      rw [List.cons_append, gather_cons, if_pos hwaits, hrest]
    · obtain ⟨done, pending', hpending', hrest⟩ := ih waits_none
      refine ⟨glue pending fragment :: done, pending', hpending', fun rest => ?_⟩
      rw [List.cons_append, gather_cons, if_neg hwaits, hrest, List.cons_append]

/-- What waits and has no operator stands in front of the operator of its condition, if that has one. -/
theorem exists_whole (merge : Bool) {p : List Char} (hp : findOperator? p = none) (fragments : List (List Char)) :
    ∃ t ∈ gather merge (some p) fragments, findOperator? t = none ∨ ∃ more op rest, findOperator? t = some (p ++ more, op, rest) := by
  induction fragments generalizing p with
  | nil => exact ⟨p, by simp [gather], Or.inl hp⟩
  | cons fragment rest ih =>
    have hglue := findOperator_glue (waits_some hp) fragment
    rw [gather_cons]
    cases hfound : findOperator? fragment with
    | some found =>
      rw [hfound, Option.map_some] at hglue
      refine ⟨glue (some p) fragment, ?_, Or.inr ⟨andWord ++ found.1, found.2.1, found.2.2, ?_⟩⟩
      · rw [hglue, Option.isNone_some, Bool.and_false, if_neg Bool.false_ne_true]
        exact List.mem_cons_self
      · rw [hglue]
        simp [glue]
    | none =>
      rw [hfound, Option.map_none] at hglue
      cases merge with
      | false => exact ⟨glue (some p) fragment, List.mem_cons_self, Or.inl hglue⟩
      | true =>
        rw [hglue]
        obtain ⟨t, ht, hread⟩ := ih hglue
        refine ⟨t, ht, hread.imp_right ?_⟩
        rintro ⟨more, op, rest', hmore⟩
        exact ⟨andWord ++ fragment ++ more, op, rest', by rw [hmore]; simp [glue]⟩

end RuleText

namespace Misspelling

variable (x : Misspelling)

/-- The condition as it is written. -/
def write : List Char := x.subject ++ (x.run ++ x.object)

/-- The condition stands in a body, apart from what is before and after it by the word between conditions. -/
def StandsIn (body : List Char) : Prop :=
  ∃ before after, body = before ++ (x.write ++ after) ∧ (before = [] ∨ andWord <:+ before) ∧ (after = [] ∨ andWord <+: after)

variable {x}

/-- A body is split so that the run stands in a fragment in which there are no other signs. -/
theorem exists_fragment {body : List Char} (h : x.StandsIn body) : ∃ fragments s t others,
    Text.splitOn ' ' ['a', 'n', 'd', ' '] body = fragments ++ (s ++ (x.run ++ t)) :: others ∧ Signless s ∧ Signless t := by
  obtain ⟨before, after, rfl, hbefore, hafter⟩ := h
  have hword : Signless andWord := by decide
  have hjoin := Text.intercalate_splitOn ' ' ['a', 'n', 'd', ' '] (before ++ (x.write ++ after))
  have hparts : before ++ (x.write ++ after) = before ++ x.subject ++ (x.run ++ (x.object ++ after)) := by simp [write]
  conv at hjoin => rhs; rw [hparts]
  obtain ⟨fragments, s, t, others, hsplit, hs, ht⟩ :=
    Text.exists_piece (by decide) x.run_ne_nil (fun ch hch hmem => hword ch hmem (x.run_signs ch hch)) hjoin
  have hmem : s ++ (x.run ++ t) ∈ Text.splitOn ' ' ['a', 'n', 'd', ' '] (before ++ (x.write ++ after)) := by simp [hsplit]
  have hnot : ¬andWord <:+: s ++ (x.run ++ t) := Text.not_infix_of_mem_splitOn hmem
  refine ⟨fragments, s, t, others, hsplit, ?_, ?_⟩
  · rcases hbefore with rfl | ⟨b, rfl⟩
    · exact fun ch hch => x.subject_signless ch (hs.subset hch)
    · rw [List.append_assoc] at hs
      rcases List.suffix_or_suffix_of_suffix hs (List.suffix_append b _) with hs | hs
      · exact fun ch hch => (hword.append x.subject_signless) ch (hs.subset hch)
      · exact absurd ((List.prefix_append andWord _).isInfix.trans (hs.isInfix.trans (List.prefix_append s _).isInfix)) hnot
  · rcases hafter with rfl | ⟨a, rfl⟩
    · rw [List.append_nil] at ht
      exact fun ch hch => x.object_signless ch (ht.subset hch)
    · rw [← List.append_assoc] at ht
      rcases List.prefix_or_prefix_of_prefix ht (List.prefix_append (x.object ++ andWord) a) with ht | ht
      · exact fun ch hch => (x.object_signless.append hword) ch (ht.subset hch)
      · have htail : t <:+: s ++ (x.run ++ t) := ⟨s ++ x.run, [], by simp⟩
        exact absurd ((List.suffix_append x.object andWord).isInfix.trans (ht.isInfix.trans htail)) hnot

theorem exists_sign (x : Misspelling) : ∃ sign ∈ signs, sign ∈ x.run := by
  obtain ⟨sign, rest, hrun⟩ := List.exists_cons_of_ne_nil x.run_ne_nil
  exact ⟨sign, x.run_signs sign (by simp [hrun]), by simp [hrun]⟩

/-- One of the conditions that a body is split into misreads the run. -/
theorem exists_misread {body : List Char} (h : x.StandsIn body) (merge : Bool) : ∃ t ∈ splitConditions merge body, Misread x.run t := by
  obtain ⟨fragments, s, t, others, hsplit, hs, ht⟩ := exists_fragment h
  obtain ⟨done, pending, hpending, hgather⟩ := exists_pending merge waits_none fragments
  rw [splitConditions, hsplit, hgather, gather_cons]
  have hfound := (findOperator_glue hpending (s ++ (x.run ++ t))).trans (congrArg _ (findOperator_append hs ht x.run))
  cases hrun : findOperator? x.run with
  | some found =>
    obtain ⟨before, op, left⟩ := found
    simp only [hrun, Option.map_some] at hfound
    rw [hfound, Option.isNone_some, Bool.and_false, if_neg Bool.false_ne_true]
    refine ⟨glue pending (s ++ (x.run ++ t)), by simp, ?_⟩
    cases before with
    | nil => exact .inLiteral hrun hfound
    | cons sign before =>
      obtain ⟨spelling, -, hparts⟩ := eq_of_findOperator hrun
      refine .inFeature hfound (x.run_signs sign (by simp [hparts])) ?_
      cases pending <;> simp [glue]
  | none =>
    simp only [hrun, Option.map_none] at hfound
    obtain ⟨sign, hsign, hmem⟩ := x.exists_sign
    have hsign' : sign ∈ glue pending (s ++ (x.run ++ t)) := by
      cases pending <;> simp [glue, hmem]
    cases merge with
    | false => exact ⟨_, by simp, .unread hfound⟩
    | true =>
      rw [hfound]
      obtain ⟨u, hu, hread⟩ := exists_whole true hfound others
      refine ⟨u, List.mem_append_right _ hu, ?_⟩
      rcases hread with hnone | ⟨more, op, rest, hmore⟩
      · exact .unread hnone
      · exact .inFeature hmore hsign (List.mem_append_left _ hsign')

/-- What is left over of a run when a spelling is found at its start is not nothing. -/
theorem left_ne_nil (x : Misspelling) {op : Operator} {left : List Char} (h : findOperator? x.run = some ([], op, left)) :
    left ≠ [] := by
  rintro rfl
  obtain ⟨spelling, hp, hrun⟩ := eq_of_findOperator h
  rw [List.nil_append, List.append_nil] at hrun
  have hnone := x.unspelled
  rw [Operator.ofSpelling?, Option.map_eq_none_iff, List.find?_eq_none] at hnone
  exact hnone _ hp (by simp [hrun])

/-- What is left over of the run are signs. -/
theorem left_signs (x : Misspelling) {op : Operator} {before left : List Char} (h : findOperator? x.run = some (before, op, left)) :
    ∀ ch ∈ left, ch ∈ signs := by
  obtain ⟨spelling, -, hrun⟩ := eq_of_findOperator h
  exact fun ch hch => x.run_signs ch (by simp [hrun, hch])

end Misspelling

/-! ## Rules -/

/-- Where no column has signs in its name, none has at its number. -/
theorem signless_nameOf {c : Catalog} (h : ∀ f ∈ c.features, Signless f.name.toList) (i : Nat) : Signless (c.nameOf i).toList := by
  rw [Catalog.nameOf]
  cases hf : c.features[i]? with
  | none => decide
  | some f => exact h f (List.mem_of_getElem? hf)

namespace Misspelling

/-- The condition as it reads where its run is taken for an operator: the signs left over begin the literal. -/
def taken (x : Misspelling) (op : Operator) (left : List Char) : ConditionDraft :=
  ⟨String.ofList (Text.trim x.subject), op, .text (String.ofList (left ++ Text.trimEnd x.object))⟩

/-- Where its run is taken for an operator, the condition reads as one with this operator. -/
theorem readCondition_taken (x : Misspelling) (hsubject : Text.trim x.subject ≠ []) {op : Operator} {left : List Char}
    (h : Operator.takenFor? x.run = some (op, left)) (line : Nat) : readCondition line x.write = .ok (x.taken op left) := by
  have hrun := (Operator.takenFor_eq_some_iff.1 h).1
  have hne := x.left_ne_nil hrun
  have hsigns := x.left_signs hrun
  have hfound : findOperator? x.write = some (x.subject, op, left ++ x.object) := by
    rw [write, findOperator_append x.subject_signless x.object_signless, hrun, Option.map_some, List.append_nil]
  have hliteral : Text.trim (left ++ x.object) ≠ [] := by
    obtain ⟨sign, rest, rfl⟩ := List.exists_cons_of_ne_nil hne
    exact List.ne_nil_of_mem (Text.mem_trim List.mem_cons_self (isBlank_of_mem_signs (hsigns sign List.mem_cons_self)))
  refine readCondition_ok_iff.2 ⟨x.subject, left ++ x.object, hfound, hsubject, hliteral, rfl, ?_⟩
  rw [Value.ofToken_trim, Value.ofToken_signs hne hsigns, taken]

/-- Whatever the literal, such a condition is valid on every column other than the label. -/
theorem valid_taken {x : Misspelling} {op : Operator} {left : List Char} (h : Operator.takenFor? x.run = some (op, left))
    {c : Catalog} {i : Nat} (hcolumn : c.column? (x.taken op left).feature = some i) (hlabel : i ≠ c.label) :
    (x.taken op left).Valid c := by
  refine ⟨i, hcolumn, hlabel, fun hop => ?_⟩
  have hnot : op.isOrdering = false := (Operator.takenFor_eq_some_iff.1 h).2
  rw [show (x.taken op left).op = op from rfl, hnot] at hop
  cases hop

/-- A condition that comes of misreading the run is on a column with signs in its name, or is one with the operator that the run is
taken for, on a literal that begins with the signs left over. -/
theorem becomes_of_misread (x : Misspelling) {t : List Char} (h : Misread x.run t) {line : Nat} {d : ConditionDraft}
    (hread : readCondition line t = .ok d) {c : Catalog} {y : Condition} (hy : d.Becomes c y) (hfits : y.Fits c) :
    ¬Signless (c.nameOf y.feature).toList ∨
      ∃ left more, Operator.takenFor? x.run = some (y.op, left) ∧ y.value = .text (String.ofList (left ++ more)) := by
  obtain ⟨hcolumn, hop, hvalue⟩ := hy
  obtain ⟨before, rest, hfound, -, -, hfeature, hliteral⟩ := readCondition_ok_iff.1 hread
  cases h with
  | unread hnone =>
    rw [hfound] at hnone
    cases hnone
  | inFeature hfound' hsign hmem =>
    left
    rw [hfound, Option.some.injEq, Prod.mk.injEq] at hfound'
    obtain ⟨rfl, -⟩ := hfound'
    rw [nameOf_column hcolumn, ← hfeature, String.toList_ofList]
    exact fun hsignless => hsignless _ (Text.mem_trim hmem (isBlank_of_mem_signs hsign)) hsign
  | @inLiteral _ left rest' op hrun hfound' =>
    right
    rw [hfound, Option.some.injEq, Prod.mk.injEq, Prod.mk.injEq] at hfound'
    obtain ⟨rfl, rfl, rfl⟩ := hfound'
    have htext : y.value = .text (String.ofList (left ++ Text.trimEnd rest')) := by
      rw [hvalue, ← hliteral, Value.ofToken_trim, Value.ofToken_signs (x.left_ne_nil hrun) (x.left_signs hrun)]
    refine ⟨left, Text.trimEnd rest', Operator.takenFor_eq_some_iff.2 ⟨by rw [hop]; exact hrun, ?_⟩, htext⟩
    rw [Bool.eq_false_iff]
    intro hordering
    have hnumber := (hfits.ordered hordering).2
    rw [htext] at hnumber
    cases hnumber

end Misspelling

namespace DecisionList

section

variable {c : Catalog} {x : Misspelling} {text : String} {line : Nat × List Char} {body : List Char}
  (hline : line ∈ contentLines text.toList) (hbody : body? line.2 = some body) (hx : x.StandsIn body)

include hline hbody hx

/-- If a text with the condition on one of its lines is accepted, the list has a condition that comes of misreading it. -/
theorem exists_misread_of_read {l : DecisionList} (hl : DecisionList.read text c = .ok l) :
    ∃ r ∈ l.rules, ∃ y ∈ r.conditions, ¬Signless (c.nameOf y.feature).toList ∨
      ∃ left more, Operator.takenFor? x.run = some (y.op, left) ∧ y.value = .text (String.ofList (left ++ more)) := by
  obtain ⟨d, r, hwritten⟩ := exists_rule_of_line hl hline
  have hconditions := conditions_of_readLine hwritten.read
  rw [hbody] at hconditions
  obtain ⟨t, ht, hmisread⟩ := Misspelling.exists_misread hx c.containsAnd
  obtain ⟨draft, hdraft, hread⟩ := exists_of_readConditions hconditions t ht
  obtain ⟨y, hy, hbecomes⟩ := exists_of_forall₂ hwritten.becomes.conditions.flip hdraft
  have hfits := ((Accepted.read text hl).fits r hwritten.mem).conditions_fit y hy
  exact ⟨r, hwritten.mem, y, hy, x.becomes_of_misread hmisread hread hbecomes hfits⟩

/-- Misspelled operators. Let a line of a text have a body in which a condition stands whose operator is a run of signs that spells
none.
1. Where no column has signs in its name, the text is refused, unless the run is taken for equality or its negation.
2. If the text is accepted, some rule of the list has a condition on a column with signs in its name, or one with the operator for
   which the run is taken, on a text that begins with the signs left over.
3. If the run is taken for an operator, signs are left over, and the condition reads as one with this operator and with these signs
   in its literal, which is valid on every column other than the label. -/
theorem read_misspelling :
    ((∀ f ∈ c.features, Signless f.name.toList) → Operator.takenFor? x.run = none →
      ∃ e, DecisionList.read text c = .error e) ∧
    (∀ l, DecisionList.read text c = .ok l → ∃ r ∈ l.rules, ∃ y ∈ r.conditions, ¬Signless (c.nameOf y.feature).toList ∨
      ∃ left more, Operator.takenFor? x.run = some (y.op, left) ∧ y.value = .text (String.ofList (left ++ more))) ∧
    ∀ op left, Operator.takenFor? x.run = some (op, left) → left ≠ [] ∧
      (Text.trim x.subject ≠ [] → ∀ n, readCondition n x.write = .ok (x.taken op left)) ∧
      ∀ i, c.column? (x.taken op left).feature = some i → i ≠ c.label → (x.taken op left).Valid c := by
  refine ⟨fun hnames hnone => ?_, fun l hl => exists_misread_of_read hline hbody hx hl, fun op left htaken => ⟨?_, ?_, ?_⟩⟩
  · cases hread : DecisionList.read text c with
    | error e => exact ⟨e, rfl⟩
    | ok l =>
      obtain ⟨r, -, y, -, hname | ⟨left, more, htaken, -⟩⟩ := exists_misread_of_read hline hbody hx hread
      · exact absurd (signless_nameOf hnames y.feature) hname
      · rw [hnone] at htaken
        cases htaken
  · exact x.left_ne_nil (Operator.takenFor_eq_some_iff.1 htaken).1
  · exact fun hsubject n => x.readCondition_taken hsubject htaken n
  · exact fun i hcolumn hlabel => Misspelling.valid_taken htaken hcolumn hlabel

end

/-- Cars by their colour and size. -/
def cars : Catalog where
  features := [⟨"colour", false, [.text "red", .text "blue"], false, none, none⟩,
    ⟨"size", false, [.number 2, .number 5], true, some 2, some 5⟩,
    ⟨"label", true, [.text "buy", .text "leave"], false, none, none⟩]
  label := 2
  label_lt := by decide

/-- An order on sizes that is spelled in the wrong order. -/
def wrongOrder : Misspelling where
  subject := ['s', 'i', 'z', 'e', ' ']
  run := ['=', '<']
  object := [' ', '4']
  subject_signless := by decide
  object_signless := by decide
  run_ne_nil := by decide
  run_signs := by simp [signs]
  unspelled := by decide

/-- Rules on cars, the first with the wrong order behind another condition. -/
def smallCars : String := "if colour != red and size =< 4 then buy (2/0)\nelse leave (1/0)"

/-- Rules with the wrong order behind another condition are refused. -/
theorem read_misspelling_wrongOrder :
    (1, "if colour != red and size =< 4 then buy (2/0)".toList) ∈ contentLines smallCars.toList ∧
    (∃ body, body? "if colour != red and size =< 4 then buy (2/0)".toList = some body ∧ wrongOrder.StandsIn body) ∧
    ∃ e, DecisionList.read smallCars cars = .error e := by
  have hline : (1, "if colour != red and size =< 4 then buy (2/0)".toList) ∈ contentLines smallCars.toList := by decide +kernel
  have hwritten : "if colour != red and size =< 4 then buy (2/0)".toList =
      ['i', 'f', ' '] ++ ("colour != red and size =< 4".toList ++ (thenWord ++ "buy".toList)) ++ ' ' :: writeCounts ⟨2, 0⟩ := by
    decide +kernel
  have hbody : body? "if colour != red and size =< 4 then buy (2/0)".toList = some "colour != red and size =< 4".toList := by
    have hstart : ∀ ch, "colour != red and size =< 4".toList.head? = some ch → Text.isBlank ch = false := by
      rintro ch ⟨⟩
      rfl
    rw [hwritten]
    exact body_conditional ⟨by decide, Text.trimmed_of_trim rfl, by decide⟩ (by decide) (by decide) hstart _
  have hstands : wrongOrder.StandsIn "colour != red and size =< 4".toList :=
    ⟨"colour != red and ".toList, [], by decide, .inr (by decide), .inl rfl⟩
  have hnames : ∀ f ∈ cars.features, Signless f.name.toList := by decide
  exact ⟨hline, ⟨_, hbody, hstands⟩, (read_misspelling hline hbody hstands).1 hnames (by decide)⟩

/-- Equality with two signs is accepted, the second of them in the literal. -/
theorem read_doubled_equality :
    Operator.ofSpelling? ['=', '='] = none ∧ (∀ f ∈ cars.features, Signless f.name.toList) ∧
    ∃ l, DecisionList.read "if colour == red then buy (1/0)\nelse leave (1/0)" cars = .ok l ∧
      ∃ r ∈ l.rules, ∃ y ∈ r.conditions, y.op = .eq ∧ (y.value == .text "= red") = true := by
  have haccepted : (DecisionList.read "if colour == red then buy (1/0)\nelse leave (1/0)" cars).toOption.any fun l =>
      l.rules.any fun r => r.conditions.any fun y => y.op == .eq && y.value == .text "= red" := by decide +kernel
  refine ⟨by decide, by decide, ?_⟩
  cases hread : DecisionList.read "if colour == red then buy (1/0)\nelse leave (1/0)" cars with
  | error e => simp [hread, Except.toOption] at haccepted
  | ok l =>
    simp only [hread, Except.toOption, Option.any_some, List.any_eq_true, Bool.and_eq_true, beq_iff_eq] at haccepted
    exact ⟨l, rfl, haccepted⟩

end DecisionList

end FirstMatch
