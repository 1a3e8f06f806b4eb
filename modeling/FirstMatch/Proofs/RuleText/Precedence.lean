import FirstMatch.Proofs.RuleText.Line

/-!
# Literals that hold signs

A condition is searched for one spelling after another, each over its whole length, so a sign in the literal may be taken for the
operator. Between single spaces the operator is found exactly if no spelling that is searched for before its own occurs in the
literal (`SpacedCondition.Fits.readCondition_iff`), and a line reads as it says exactly if this holds of each of its conditions
(`SpacedRule.readLine_iff`): `income != <=50K` is read, and `income = <=50K` is not.
-/

namespace FirstMatch

open RuleText

/-! ## The order of the spellings -/

namespace Operator

/-- The spellings that a text is searched for before a given one. -/
def searchedBefore (spelling : List Char) : List (List Char × Operator) := spellings.takeWhile (·.1 ≠ spelling)

/-- A spelling stands behind those searched before it. -/
theorem exists_spellings_eq : ∀ p ∈ spellings, ∃ later, spellings = searchedBefore p.1 ++ p :: later := by
  intro p hp
  fin_cases hp <;> exact ⟨_, rfl⟩

theorem mem_of_searchedBefore {p : List Char × Operator} {spelling : List Char} (h : p ∈ searchedBefore spelling) :
    p ∈ spellings := (List.takeWhile_prefix _).subset h

/-- No spelling stands after a part of itself. -/
theorem not_infix_of_searchedBefore : ∀ p ∈ spellings, ∀ q ∈ searchedBefore p.1, ¬q.1 <:+: p.1 := by
  decide

end Operator

/-! ## Conditions -/

/-- A condition with one space on each side of its operator, and any text for its literal. -/
structure SpacedCondition where
  feature : String
  spelling : List Char
  op : Operator
  literal : List Char

namespace SpacedCondition

/-- What the condition says. -/
def draft (x : SpacedCondition) : ConditionDraft := ⟨x.feature, x.op, Value.ofToken x.literal⟩

/-- The feature and the space after it. -/
def subject (x : SpacedCondition) : List Char := x.feature.toList ++ [' ']

/-- The condition as it is written. -/
def write (x : SpacedCondition) : List Char := x.subject ++ (x.spelling ++ ' ' :: x.literal)

/-- The feature is a column's name, without blanks around it and without signs. The spelling is one of the operator. The literal
stands on one line without blanks around it, and does not write the word between conditions; signs it may hold. -/
structure Fits (c : Catalog) (x : SpacedCondition) : Prop where
  column : (c.column? x.feature).isSome = true
  ne_nil : x.feature.toList ≠ []
  trimmed : Text.trim x.feature.toList = x.feature.toList
  signless : Signless x.feature.toList
  spelled : (x.spelling, x.op) ∈ Operator.spellings
  literal : Text.Token x.literal
  no_and : ¬andWord <:+: ' ' :: (x.literal ++ [' '])

/-- The literal holds no spelling that is searched for before that of the operator. -/
def Clear (x : SpacedCondition) : Prop := ∀ p ∈ Operator.searchedBefore x.spelling, ¬p.1 <:+: x.literal

instance (x : SpacedCondition) : Decidable x.Clear := List.decidableBAll _ _

namespace Fits

variable {c : Catalog} {x : SpacedCondition} (h : x.Fits c)

include h

theorem signless_subject : Signless x.subject := h.signless.append (signless_spaces 1)

/-- A spelling that is searched for earlier is found in the literal alone. -/
theorem cutAt_earlier {p : List Char × Operator} (hp : p ∈ Operator.searchedBefore x.spelling) :
    cutAt? x.write p = (cutAt? x.literal p).map fun found => (x.subject ++ (x.spelling ++ ' ' :: found.1), found.2) := by
  have hmem := Operator.mem_of_searchedBefore hp
  obtain ⟨-, -, -, -, hspace⟩ := exists_sign hmem
  have hbefore : ¬p.1 <:+: x.subject ++ x.spelling := by
    rw [← cutAt_eq_none_iff, cutAt_signless hmem h.signless_subject,
      cutAt_eq_none_iff.2 (Operator.not_infix_of_searchedBefore _ h.spelled p hp), Option.map_none]
  have hafter : cutAt? (' ' :: x.literal) p = (cutAt? x.literal p).map fun found => (' ' :: found.1, found.2) :=
    cutAt_signless hmem (signless_spaces 1) x.literal
  have hcut : cutAt? x.write p =
      (cutAt? (' ' :: x.literal) p).map fun found => (x.subject ++ x.spelling ++ found.1, found.2) := by
    rw [cutAt?, cutAt?, write, ← List.append_assoc, Text.cutFirst_append_cons hspace hbefore, Option.map_map, Option.map_map]
    rfl
  rw [hcut, hafter, Option.map_map]
  simp [Function.comp_def]

/-- The spelling of the operator is found where it stands. -/
theorem cutAt_spelling : cutAt? x.write (x.spelling, x.op) = some (x.subject, x.op, ' ' :: x.literal) := by
  have hself : cutAt? (x.spelling ++ ' ' :: x.literal) (x.spelling, x.op) = some ([], x.op, ' ' :: x.literal) :=
    cutAt_self h.spelled _
  rw [write, cutAt_signless h.spelled h.signless_subject, hself, Option.map_some, List.append_nil]

/-- The operator is found where it stands, if the literal is clear of the spellings that are searched for earlier. -/
theorem findOperator_of_clear (hclear : x.Clear) : findOperator? x.write = some (x.subject, x.op, ' ' :: x.literal) := by
  obtain ⟨later, hlater⟩ := Operator.exists_spellings_eq _ h.spelled
  have hearlier : (Operator.searchedBefore x.spelling).findSome? (cutAt? x.write) = none := by
    rw [List.findSome?_eq_none_iff]
    intro p hp
    rw [h.cutAt_earlier hp, cutAt_eq_none_iff.2 (hclear p hp), Option.map_none]
  rw [findOperator_eq_findSome, hlater, List.findSome?_append, hearlier, Option.none_or, List.findSome?_cons, h.cutAt_spelling]

/-- Another is found behind it, if not. -/
theorem findOperator_of_not_clear (hclear : ¬x.Clear) :
    ∃ before found, findOperator? x.write = some (x.subject ++ (x.spelling ++ before), found) := by
  obtain ⟨later, hlater⟩ := Operator.exists_spellings_eq _ h.spelled
  obtain ⟨found, hfound⟩ : ∃ found, (Operator.searchedBefore x.spelling).findSome? (cutAt? x.write) = some found := by
    rw [← Option.isSome_iff_exists, Option.isSome_iff_ne_none, Ne, List.findSome?_eq_none_iff]
    intro hnone
    refine hclear fun p hp hin => ?_
    exact cutAt_eq_none_iff.1 (hnone p hp) (hin.trans ⟨x.subject ++ (x.spelling ++ [' ']), [], by simp [write]⟩)
  obtain ⟨p, hp, hcut⟩ := List.exists_of_findSome?_eq_some hfound
  rw [h.cutAt_earlier hp, Option.map_eq_some_iff] at hcut
  obtain ⟨⟨before, rest⟩, -, rfl⟩ := hcut
  refine ⟨' ' :: before, rest, ?_⟩
  rw [findOperator_eq_findSome, hlater, List.findSome?_append, hfound, Option.some_or]

/-- A condition reads as what it says if its literal is clear, and only then: otherwise its operator is read into the feature. -/
theorem readCondition_iff (line : Nat) : readCondition line x.write = .ok x.draft ↔ x.Clear := by
  constructor
  · intro hread
    obtain ⟨before, rest, hfound, -, -, hfeature, -⟩ := readCondition_ok_iff.1 hread
    by_contra hclear
    obtain ⟨more, found, hother⟩ := h.findOperator_of_not_clear hclear
    obtain rfl : before = x.subject ++ (x.spelling ++ more) := (Prod.ext_iff.1 (Option.some.inj (hfound.symm.trans hother))).1
    obtain ⟨sign, rest, hsign : x.spelling = sign :: rest, hmem, -⟩ := exists_sign h.spelled
    have hkept : sign ∈ Text.trim (x.subject ++ (x.spelling ++ more)) :=
      Text.mem_trim (by simp [hsign]) (isBlank_of_mem_signs hmem)
    refine h.signless sign ?_ hmem
    have hname : x.feature = String.ofList (Text.trim (x.subject ++ (x.spelling ++ more))) := hfeature.symm
    rwa [hname, String.toList_ofList]
  · intro hclear
    have hfeature : Text.trim x.subject = x.feature.toList :=
      (Text.trimmed_of_trim h.trimmed).trim_append_spaces h.ne_nil 1
    have hliteral : Text.trim (' ' :: x.literal) = x.literal := h.literal.trimmed.trim_spaces_append h.literal.ne_nil 1
    refine readCondition_ok_iff.2 ⟨x.subject, ' ' :: x.literal, h.findOperator_of_clear hclear, ?_⟩
    rw [hfeature, hliteral, String.ofList_toList]
    exact ⟨h.ne_nil, h.literal.ne_nil, rfl, rfl⟩

/-- Whatever its literal holds, a condition is not split. -/
theorem staysWhole : StaysWhole c.containsAnd x.subject (x.spelling ++ ' ' :: x.literal) :=
  staysWhole_of_spelling h.spelled h.signless_subject (fun hc => no_and_name h.column hc 1) h.no_and

end Fits

end SpacedCondition

/-! ## Rules -/

/-- A rule with such conditions, and any text for its label. -/
structure SpacedRule where
  conditions : List SpacedCondition
  label : List Char
  reported : ReportedCounts

namespace SpacedRule

/-- What the rule says. -/
def draft (r : SpacedRule) : RuleDraft := ⟨r.conditions.map (·.draft), some (Value.ofToken r.label), r.reported⟩

/-- The conditions with the word between them. -/
def body (r : SpacedRule) : List Char := andWord.intercalate (r.conditions.map (·.write))

/-- The rule as it is written. -/
def write (r : SpacedRule) : List Char :=
  ['i', 'f', ' '] ++ (r.body ++ (thenWord ++ r.label)) ++ ' ' :: writeCounts r.reported

/-- There are conditions, and they fit. The label has no blanks around it, and does not write the word before labels. -/
structure Fits (c : Catalog) (r : SpacedRule) : Prop where
  ne_nil : r.conditions ≠ []
  conditions : ∀ x ∈ r.conditions, x.Fits c
  label : Text.Token r.label
  label_end : ¬[' ', 't', 'h', 'e', 'n'] <:+ ' ' :: r.label
  label_then : ¬thenWord <:+: ' ' :: r.label

namespace Fits

variable {c : Catalog} {r : SpacedRule} (h : r.Fits c)

include h

/-- A body begins with the first feature. -/
theorem exists_body : ∃ x ∈ r.conditions, ∃ more, r.body = x.feature.toList ++ more := by
  obtain ⟨x, rest, hxs⟩ := List.exists_cons_of_ne_nil h.ne_nil
  refine ⟨x, by simp [hxs], ?_⟩
  rw [body, hxs]
  cases rest <;> simp [SpacedCondition.write, SpacedCondition.subject]

/-- The conditions begin with a feature, so with no blank. -/
theorem head_body : r.body ≠ [] ∧ ∀ ch, r.body.head? = some ch → Text.isBlank ch = false := by
  obtain ⟨x, hx, more, hmore⟩ := h.exists_body
  have hfits := h.conditions x hx
  rw [hmore]
  exact ⟨by simp [hfits.ne_nil], (Text.trimmed_of_trim hfits.trimmed).start_append hfits.ne_nil more⟩

/-- A line reads as its conditions do. -/
theorem readLine_write (line : Nat) : readLine c.containsAnd line r.write =
    (readConditions line (r.conditions.map (·.write))).map fun ds => ⟨ds, some (Value.ofToken r.label), r.reported⟩ := by
  rw [write, readLine_append (by simp) (trimmed_conditional h.label r.body),
    readHead_conditional h.label h.label_end h.label_then h.head_body.1 h.head_body.2, body]
  exact congrArg (fun ts => (readConditions line ts).map _)
    (splitConditions_intercalate h.ne_nil fun x hx => (h.conditions x hx).staysWhole)

end Fits

/-- A line reads as it says if each literal on it is clear of the spellings that are searched for before that of its operator, and
only then. -/
theorem readLine_iff {c : Catalog} {r : SpacedRule} (h : r.Fits c) (line : Nat) :
    readLine c.containsAnd line r.write = .ok r.draft ↔ ∀ x ∈ r.conditions, x.Clear := by
  have hconditions : readConditions line (r.conditions.map (·.write)) = .ok (r.conditions.map (·.draft)) ↔
      ∀ x ∈ r.conditions, x.Clear := by
    rw [readConditions_map_iff]
    exact forall₂_congr fun x hx => (h.conditions x hx).readCondition_iff line
  rw [h.readLine_write, ← hconditions]
  cases readConditions line (r.conditions.map (·.write)) <;> simp [Except.map, draft]

/-- People by their income and job. -/
def census : Catalog where
  features := [⟨"income", false, [.text "<=50K", .text ">50K"], false, none, none⟩,
    ⟨"bread and butter", false, [.text "pay=wage", .text "none"], false, none, none⟩,
    ⟨"label", true, [.text "no", .text "yes"], false, none, none⟩]
  label := 2
  label_lt := by decide

/-- People of other incomes, paid by wage. -/
def otherIncomes : SpacedRule :=
  ⟨[⟨"income", ['!', '='], .ne, ['<', '=', '5', '0', 'K']⟩,
    ⟨"bread and butter", ['='], .eq, ['p', 'a', 'y', '=', 'w', 'a', 'g', 'e']⟩], ['y', 'e', 's'], ⟨3, 1⟩⟩

/-- People of one income. -/
def oneIncome : SpacedRule := ⟨[⟨"income", ['='], .eq, ['<', '=', '5', '0', 'K']⟩], ['n', 'o'], ⟨1, 0⟩⟩

/-- The rule on other incomes is written against the census. -/
theorem fits_otherIncomes : otherIncomes.Fits census where
  ne_nil := by decide
  conditions := by
    intro x hx
    rcases List.mem_cons.1 hx with rfl | hx
    · exact ⟨rfl, by decide, rfl, by decide, by decide, ⟨by decide, Text.trimmed_of_trim rfl, by decide⟩, by decide⟩
    · obtain rfl := List.mem_singleton.1 hx
      exact ⟨rfl, by decide, rfl, by decide, by decide, ⟨by decide, Text.trimmed_of_trim rfl, by decide⟩, by decide⟩
  label := ⟨by decide, Text.trimmed_of_trim rfl, by decide⟩
  label_end := by decide
  label_then := by decide

/-- The rule on one income is written against the census. -/
theorem fits_oneIncome : oneIncome.Fits census where
  ne_nil := by decide
  conditions := by
    intro x hx
    obtain rfl := List.mem_singleton.1 hx
    exact ⟨rfl, by decide, rfl, by decide, by decide, ⟨by decide, Text.trimmed_of_trim rfl, by decide⟩, by decide⟩
  label := ⟨by decide, Text.trimmed_of_trim rfl, by decide⟩
  label_end := by decide
  label_then := by decide

/-- The rule on other incomes is read as it is meant, for its literals hold no spelling that is searched for first. -/
theorem readLine_iff_otherIncomes : otherIncomes.Fits census ∧
    readLine census.containsAnd 1 otherIncomes.write = .ok otherIncomes.draft :=
  ⟨fits_otherIncomes, (readLine_iff fits_otherIncomes 1).2 (by decide)⟩

/-- The rule on the people of one income is read as a rule on a feature that the catalog does not have. -/
theorem readLine_oneIncome : oneIncome.Fits census ∧
    oneIncome.draft = ⟨[⟨"income", .eq, .text "<=50K"⟩], some (.text "no"), ⟨1, 0⟩⟩ ∧
    readLine census.containsAnd 1 oneIncome.write = .ok ⟨[⟨"income =", .le, .text "50K"⟩], some (.text "no"), ⟨1, 0⟩⟩ ∧
    readLine census.containsAnd 1 oneIncome.write ≠ .ok oneIncome.draft := by
  have hread : readLine census.containsAnd 1 oneIncome.write =
      .ok ⟨[⟨"income =", .le, .text "50K"⟩], some (.text "no"), ⟨1, 0⟩⟩ := by
    rw [fits_oneIncome.readLine_write]
    rfl
  have hdraft : oneIncome.draft = ⟨[⟨"income", .eq, .text "<=50K"⟩], some (.text "no"), ⟨1, 0⟩⟩ := by rfl
  refine ⟨fits_oneIncome, hdraft, hread, ?_⟩
  rw [hread, hdraft]
  simp

end SpacedRule

end FirstMatch
