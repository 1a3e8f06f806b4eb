import FirstMatch.Proofs.RuleText.Condition

/-!
# Gluing fragments of conditions

Gluing loses nothing: the conditions of a body, with the word between them, are the body again (`intercalate_gather`), and only the
last of them may lack an operator (`exists_spelling_of_mem_dropLast`). It leaves alone what reads without it, since each fragment of
such a body has an operator (`readLine_of_unglued`). So whether names hold the letters of the word between conditions does not
matter to a text that is accepted: further columns, whatever their names, do not change the list it writes (`Catalog.Extends.read`).
-/

namespace FirstMatch

namespace RuleText

/-! ## Bodies -/

/-- Gluing ends with nothing only if there was nothing to begin with. -/
theorem gather_eq_nil_iff {merge : Bool} {pending : Option (List Char)} {fragments : List (List Char)} :
    gather merge pending fragments = [] ↔ pending = none ∧ fragments = [] := by
  induction fragments generalizing pending with
  | nil => cases pending <;> simp [gather]
  | cons fragment rest ih =>
    rw [gather_cons]
    split
    · rw [ih]
      simp
    · simp

/-- A fragment glued to what waits for it is the two with the word between them. -/
theorem intercalate_glue (pending : Option (List Char)) (fragment : List Char) (rest : List (List Char)) :
    andWord.intercalate (glue pending fragment :: rest) = andWord.intercalate (pending.toList ++ fragment :: rest) := by
  cases pending with
  | none => rfl
  | some p =>
    cases rest with
    | nil => simp [glue, List.intercalate_cons_of_ne_nil]
    | cons next rest => simp [glue, List.intercalate_cons_of_ne_nil]

/-- Gluing loses nothing of the fragments, nor of the words between them. -/
theorem intercalate_gather (merge : Bool) (pending : Option (List Char)) (fragments : List (List Char)) :
    andWord.intercalate (gather merge pending fragments) = andWord.intercalate (pending.toList ++ fragments) := by
  induction fragments generalizing pending with
  | nil => simp [gather]
  | cons fragment rest ih =>
    rw [gather_cons, ← intercalate_glue]
    split
    · rw [ih]
      rfl
    · by_cases hrest : rest = []
      · rw [hrest]
        rfl
      · have hne : gather merge none rest ≠ [] := fun hnil => hrest (gather_eq_nil_iff.1 hnil).2
        rw [List.intercalate_cons_of_ne_nil hne, List.intercalate_cons_of_ne_nil hrest, ih]
        rfl

/-- The conditions that a body is split into make up the body, with the word between them. -/
theorem intercalate_splitConditions (merge : Bool) (body : List Char) :
    andWord.intercalate (splitConditions merge body) = body := by
  rw [splitConditions, intercalate_gather]
  exact Text.intercalate_splitOn ' ' ['a', 'n', 'd', ' '] body

/-- What waits stands at the end, so an operator is found in every condition before the last. -/
theorem isSome_of_mem_dropLast {pending : Option (List Char)} {fragments : List (List Char)} {t : List Char}
    (h : t ∈ (gather true pending fragments).dropLast) : (findOperator? t).isSome = true := by
  induction fragments generalizing pending with
  | nil => cases pending <;> simp [gather] at h
  | cons fragment rest ih =>
    rw [gather_cons] at h
    split at h
    · exact ih h
    · next hfound =>
      by_cases hnil : gather true none rest = []
      · simp [hnil] at h
      · rw [List.dropLast_cons_of_ne_nil hnil, List.mem_cons] at h
        rcases h with rfl | h
        · rw [Bool.true_and, Bool.not_eq_true, Option.isNone_eq_false_iff] at hfound
          exact hfound
        · exact ih h

/-- Where fragments are glued, each condition but the last holds the spelling of an operator. -/
theorem exists_spelling_of_mem_dropLast {body t : List Char} (h : t ∈ (splitConditions true body).dropLast) :
    ∃ p ∈ Operator.spellings, p.1 <:+: t := by
  by_contra hnone
  have hunfound : findOperator? t = none := findOperator_eq_none_iff.2 fun p hp hin => hnone ⟨p, hp, hin⟩
  have hfound := isSome_of_mem_dropLast h
  rw [hunfound] at hfound
  cases hfound

/-- Nothing is glued where gluing is off. -/
theorem gather_false (fragments : List (List Char)) : gather false none fragments = fragments := by
  induction fragments with
  | nil => rfl
  | cons fragment rest ih =>
    rw [gather_cons, ih]
    rfl

/-- Nor where every fragment has an operator. -/
theorem gather_of_found {fragments : List (List Char)} (h : ∀ t ∈ fragments, (findOperator? t).isSome = true) :
    gather true none fragments = fragments := by
  induction fragments with
  | nil => rfl
  | cons fragment rest ih =>
    rw [List.forall_mem_cons] at h
    rw [gather_cons, ih h.2]
    refine if_neg fun hwaits => ?_
    have hunfound : findOperator? fragment = none := by
      rwa [Bool.true_and, Option.isNone_iff_eq_none] at hwaits
    have hfound := h.1
    rw [hunfound] at hfound
    cases hfound

/-- A body whose fragments read as conditions is split into them, whether fragments are glued or not. -/
theorem splitConditions_of_readConditions {line : Nat} {body : List Char} {ds : List ConditionDraft}
    (h : readConditions line (splitConditions false body) = .ok ds) (merge : Bool) :
    splitConditions merge body = splitConditions false body := by
  cases merge with
  | false => rfl
  | true =>
    have hoff : splitConditions false body = Text.splitOn ' ' ['a', 'n', 'd', ' '] body := gather_false _
    rw [hoff] at h ⊢
    refine gather_of_found fun t ht => ?_
    obtain ⟨d, -, hd⟩ := exists_of_readConditions h t ht
    obtain ⟨before, rest, hfound, -⟩ := readCondition_ok_iff.1 hd
    rw [hfound]
    rfl

/-! ## Lines -/

/-- What is read without gluing fragments is read the same with it. -/
theorem readHead_of_unglued {line : Nat} {head : List Char} {reported : ReportedCounts} {d : RuleDraft}
    (h : readHead false line head reported = .ok d) (merge : Bool) : readHead merge line head reported = .ok d := by
  rw [readHead] at h ⊢
  split
  · next hlabel =>
    rw [if_pos hlabel] at h
    cases h
  · next hlabel =>
    rw [if_neg hlabel] at h
    cases hopening : opening? head with
    | none =>
      rw [hopening] at h
      cases h
    | some opening =>
      rw [hopening] at h
      cases opening with
      | default rest => exact h
      | conditional rest =>
        dsimp only at h ⊢
        cases hcut : Text.cutLast thenWord rest with
        | none =>
          rw [hcut] at h
          cases h
        | some parts =>
          rw [hcut] at h
          dsimp only at h ⊢
          obtain ⟨ds, hds, -⟩ := bind_eq_ok.1 h
          rw [splitConditions_of_readConditions hds merge]
          exact h

/-- A line that reads without gluing reads the same with it. -/
theorem readLine_of_unglued {line : Nat} {t : List Char} {d : RuleDraft} (h : readLine false line t = .ok d) (merge : Bool) :
    readLine merge line t = .ok d := by
  rw [readLine] at h ⊢
  cases hcut : Text.cutLast ['('] t with
  | none =>
    rw [hcut] at h
    cases h
  | some parts =>
    rw [hcut] at h
    dsimp only at h ⊢
    cases hcounts : readCounts? (Text.trim ('(' :: parts.2)) with
    | none =>
      rw [hcounts] at h
      cases h
    | some reported =>
      rw [hcounts] at h
      exact readHead_of_unglued h merge

end RuleText

/-! ## Further columns -/

/-- A catalog with further columns after those of another. -/
structure Catalog.Extends (c c' : Catalog) : Prop where
  features : c.features <+: c'.features
  label : c'.label = c.label

namespace Catalog.Extends

variable {c c' : Catalog}

theorem getElem? (h : c.Extends c') {i : Nat} (hi : i < c.size) : c'.features[i]? = c.features[i]? := by
  obtain ⟨more, hmore⟩ := h.features
  rw [← hmore, List.getElem?_append_left hi]

/-- A name found in the smaller catalog is found at the same column of the greater. -/
theorem column (h : c.Extends c') {name : String} {i : Nat} (hi : c.column? name = some i) : c'.column? name = some i := by
  obtain ⟨more, hmore⟩ := h.features
  rw [Catalog.column?] at hi ⊢
  rw [← hmore, List.findIdx?_append, hi]
  rfl

/-- A column of the smaller catalog is numeric in both or in neither. -/
theorem isNumeric (h : c.Extends c') {i : Nat} (hi : i < c.size) : c'.isNumeric i = c.isNumeric i := by
  rw [Catalog.isNumeric, Catalog.isNumeric, h.getElem? hi]

theorem labelFeature (h : c.Extends c') : c'.labelFeature = c.labelFeature := by
  have hget := h.getElem? c.label_lt
  rw [List.getElem?_eq_getElem c.label_lt] at hget
  obtain ⟨hlt, heq⟩ := List.getElem?_eq_some_iff.1 hget
  unfold Catalog.labelFeature
  simp only [List.get_eq_getElem, h.label]
  exact heq

theorem containsAnd (h : c.Extends c') (hc : c.containsAnd = true) : c'.containsAnd = true := by
  obtain ⟨more, hmore⟩ := h.features
  rw [Catalog.containsAnd] at hc ⊢
  rw [← hmore, List.any_append, hc, Bool.true_or]

/-- A condition that is accepted stays so. -/
theorem resolve_condition (h : c.Extends c') {d : ConditionDraft} {line : Nat} {tested : List Nat} {x : Condition}
    (hx : d.resolve c line tested = .ok x) : d.resolve c' line tested = .ok x := by
  rw [ConditionDraft.resolve] at hx ⊢
  cases hi : c.column? d.feature with
  | none =>
    rw [hi] at hx
    cases hx
  | some i =>
    rw [hi] at hx
    rw [h.column hi]
    dsimp only at hx ⊢
    rw [h.label, h.isNumeric (column_lt hi)]
    exact hx

/-- Conditions that resolve in the smaller catalog resolve to the same in the greater. -/
theorem resolveConditions (h : c.Extends c') {line : Nat} {drafts : List ConditionDraft} {tested : List Nat} {xs : List Condition}
    (hxs : FirstMatch.resolveConditions c line tested drafts = .ok xs) :
    FirstMatch.resolveConditions c' line tested drafts = .ok xs := by
  induction drafts generalizing tested xs with
  | nil => exact hxs
  | cons d rest ih =>
    obtain ⟨x, hx, hxs⟩ := bind_eq_ok.1 hxs
    obtain ⟨others, hothers, hxs⟩ := bind_eq_ok.1 hxs
    exact bind_eq_ok.2 ⟨x, h.resolve_condition hx, bind_eq_ok.2 ⟨others, ih hothers, hxs⟩⟩

/-- A rule that resolves in the smaller catalog resolves to the same in the greater. -/
theorem resolve (h : c.Extends c') {d : RuleDraft} {line : Nat} {r : Rule} (hr : d.resolve c line = .ok r) :
    d.resolve c' line = .ok r := by
  rw [RuleDraft.resolve] at hr ⊢
  cases hlabel : d.label? with
  | none =>
    rw [hlabel] at hr
    cases hr
  | some label =>
    rw [hlabel] at hr
    dsimp only at hr ⊢
    rw [h.labelFeature]
    split at hr
    · next hseen =>
      obtain ⟨xs, hxs, hr⟩ := bind_eq_ok.1 hr
      rw [if_pos hseen]
      exact bind_eq_ok.2 ⟨xs, h.resolveConditions hxs, hr⟩
    · cases hr

/-- A line is read alike, since letters that only the further names hold turn gluing on. -/
theorem draftOf (h : c.Extends c') {n : Nat} {t : List Char} {d : RuleDraft} (hd : RuleText.draftOf c n t = .ok d) :
    RuleText.draftOf c' n t = .ok d := by
  have hread : RuleText.readLine c.containsAnd n t = .ok d := by
    rw [RuleText.draftOf] at hd
    split at hd
    · next d' hread =>
      cases hd
      exact hread
    · cases hd
  have hread' : RuleText.readLine c'.containsAnd n t = .ok d := by
    cases hc : c.containsAnd with
    | true =>
      rw [hc] at hread
      rw [h.containsAnd hc, hread]
    | false =>
      rw [hc] at hread
      exact RuleText.readLine_of_unglued hread c'.containsAnd
  rw [RuleText.draftOf, hread']

/-- Lines that are read against the smaller catalog are read the same against the greater. -/
theorem rulesOf (h : c.Extends c') {lines : List (Nat × List Char)} {rules : List (Nat × Rule)}
    (hrules : RuleText.rulesOf c lines = .ok rules) : RuleText.rulesOf c' lines = .ok rules := by
  induction lines generalizing rules with
  | nil => exact hrules
  | cons line rest ih =>
    obtain ⟨n, t⟩ := line
    obtain ⟨d, hd, hrules⟩ := bind_eq_ok.1 hrules
    obtain ⟨r, hr, hrules⟩ := bind_eq_ok.1 hrules
    obtain ⟨others, hothers, hrules⟩ := bind_eq_ok.1 hrules
    exact bind_eq_ok.2 ⟨d, h.draftOf hd, bind_eq_ok.2 ⟨r, h.resolve hr, bind_eq_ok.2 ⟨others, ih hothers, hrules⟩⟩⟩

/-- A text that is accepted writes the same list where there are further columns. -/
theorem read (h : c.Extends c') {text : String} {l : DecisionList} (hl : DecisionList.read text c = .ok l) :
    DecisionList.read text c' = .ok l := by
  obtain ⟨rules, hrules, hl⟩ := bind_eq_ok.1 hl
  exact bind_eq_ok.2 ⟨rules, h.rulesOf hrules, hl⟩

end Catalog.Extends

namespace RuleText

/-- Gluing is lossless and conservative.
1. Whether fragments are glued or not, the conditions that a body is split into, with the word between them, are the body.
2. Where they are glued, every condition but the last holds a spelling of an operator.
3. A line that reads without gluing reads as the same rule with it.
4. So further columns, also with names that hold the letters of the word between conditions, do not change how a text that is
   accepted is read. -/
theorem gluing_conservative :
    (∀ merge body, andWord.intercalate (splitConditions merge body) = body) ∧
    (∀ body, ∀ t ∈ (splitConditions true body).dropLast, ∃ p ∈ Operator.spellings, p.1 <:+: t) ∧
    (∀ line t d, readLine false line t = .ok d → readLine true line t = .ok d) ∧
    ∀ c c' : Catalog, c.Extends c' → ∀ text l, DecisionList.read text c = .ok l → DecisionList.read text c' = .ok l := by
  refine ⟨intercalate_splitConditions, ?_, ?_, ?_⟩
  · intro body t ht
    exact exists_spelling_of_mem_dropLast ht
  · intro line t d hd
    exact readLine_of_unglued hd true
  · intro c c' h text l hl
    exact h.read hl

/-- The fragments of a feature's name are glued; of two words that overlap the first separates, and the second is text of a fragment. -/
example : splitConditions true "salt and and pepper = yes and age > 3 and".toList =
    ["salt and and pepper = yes".toList, "age > 3 and".toList] := by decide +kernel

end RuleText

end FirstMatch
