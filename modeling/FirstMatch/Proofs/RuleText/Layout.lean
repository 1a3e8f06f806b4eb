import FirstMatch.Proofs.DecisionList.Validation
import FirstMatch.Proofs.Text.Trimming
import FirstMatch.RuleText.Layout

/-!
# Layouts say the same

A line that is laid out says what it said (`RuleText.Laid.content_eq`), and a line put in says nothing, so a layout says the same as
its text, each line at its new number (`RuleText.contentLines_layout`). The number of a line is handed through every check and used
for nothing but to say where a refusal is (`RuleText.readLine_relocate`, `RuleDraft.resolve_relocate`,
`DecisionList.ofRules_relocate`). So a layout is read as its text is, or refused for the same reason, on the same line at its new
number (`DecisionList.read_layout`).
-/

namespace FirstMatch

/-- A refusal of two checks in a row is relocated where each of them is. -/
theorem mapError_bind {ε ε' α β : Type} (f : ε → ε') (x : Except ε α) (g : α → Except ε β) :
    (x >>= g).mapError f = x.mapError f >>= fun a => (g a).mapError f := by
  cases x <;> rfl

namespace RuleText

/-! ## Lines -/

/-- Doubled quotes are read as they were. -/
theorem undouble_double (t : List Char) : undouble (Record.double t) = t := by
  induction t with
  | nil => rfl
  | cons c t ih =>
    by_cases hc : c = '"'
    · rw [Record.double, if_pos hc, undouble, ih, hc]
    · rw [Record.double, if_neg hc, undouble, ih]
      rintro r rfl
      exact absurd rfl hc

/-- A text quoted as a whole holds the text. -/
theorem unquote_enquote (t : List Char) : unquote (enquote t) = t := by
  rw [enquote, unquote, if_pos (by simp), List.dropLast_concat, undouble_double]

/-- A quoted text has no blanks around it. -/
theorem trimmed_enquote (t : List Char) : Text.Trimmed (enquote t) := by
  constructor
  · rintro c ⟨⟩
    rfl
  · intro c hc
    rw [enquote, ← List.cons_append, List.getLast?_concat] at hc
    cases hc
    rfl

/-- What is not quoted as a whole holds what it writes. -/
theorem unquote_eq_self {t : List Char} (h : ¬Quoted t) : unquote t = t := by
  unfold unquote
  split
  · exact if_neg fun hlast => h ⟨rfl, hlast⟩
  · rfl

/-- A line says the same however it is laid out. -/
theorem Laid.content_eq {line laid : List Char} (h : Laid line laid) : content laid = content line := by
  cases h with
  | plain hbefore hafter => rw [content, Text.trim_pad hbefore hafter, content]
  | @quoted before left right after hquote hbefore hleft hright hafter =>
    have houtside : Text.trim (before ++ enquote (left ++ line ++ right) ++ after) = enquote (left ++ line ++ right) :=
      Text.trim_between hbefore (trimmed_enquote _) (by simp [enquote]) hafter
    rw [content, houtside, unquote_enquote, Text.trim_pad hleft hright, content, unquote_eq_self hquote, Text.trim_trim]

/-- What a numbered line says, if it says something. -/
def numbered? (p : List Char × Nat) : Option (Nat × List Char) :=
  if (content p.1).isEmpty then none else some (p.2, content p.1)

/-- The lines that say something, numbered from one. -/
theorem contentLines_eq (t : List Char) : contentLines t = ((Text.lines t).zipIdx 1).filterMap numbered? := rfl

/-- A line of a layout says what the line of the text says that it lays out, if any. -/
theorem LaidLine.Fits.numbered_eq {x : LaidLine} (h : x.Fits) (n : Nat) :
    numbered? (x.written, n) = (x.original?.map (·, n)).bind numbered? := by
  have hcontent : content x.written = content (x.original?.getD []) := Laid.content_eq h
  rw [numbered?, hcontent]
  cases x.original? with
  | none => rfl
  | some line => rfl

/-- The lines kept of a layout are those that lay out a line. -/
theorem map_fst_kept (layout : List LaidLine) : (kept layout).map (·.1) = layout.filterMap (·.original?) := by
  rw [kept, List.map_filterMap]
  have hfirst : ∀ p : LaidLine × Nat, ((p.1.original?.map (·, p.2)).map (·.1)) = p.1.original? := by
    intro p
    cases p.1.original? <;> rfl
  rw [List.filterMap_congr fun p _ => hfirst p]
  conv_rhs => rw [← List.zipIdx_map_fst 1 layout, List.filterMap_map]
  rfl

/-- A layout says what its text says, each line at its new number. -/
theorem contentLines_layout {layout : List LaidLine} (h : ∀ x ∈ layout, x.Fits) {t t' : List Char}
    (ht : Text.lines t = layout.filterMap (·.original?)) (ht' : Text.lines t' = layout.map (·.written)) :
    contentLines t' = (contentLines t).map (Prod.map (newLine layout) id) := by
  have hlaid : contentLines t' = (kept layout).filterMap numbered? := by
    rw [contentLines_eq, ht', List.zipIdx_map, List.filterMap_map, kept, List.filterMap_filterMap]
    refine List.filterMap_congr fun p hp => ?_
    exact (h p.1 (List.fst_mem_of_mem_zipIdx hp)).numbered_eq p.2
  have hkept : kept layout = ((Text.lines t).zipIdx 1).map (Prod.map id (newLine layout)) := by
    rw [ht, ← map_fst_kept]
    apply List.ext_getElem
    · simp
    · intro i hi _
      simp [newLine, hi]
  rw [hlaid, hkept, contentLines_eq, List.filterMap_map, List.map_filterMap]
  refine List.filterMap_congr fun p _ => ?_
  show numbered? (p.1, newLine layout p.2) = (numbered? p).map _
  rw [numbered?, numbered?]
  split <;> rfl

/-! ## Rules -/

section Relocate

variable (place : Nat → Nat)

/-- A condition on another line is read the same, but for the number of the line in errors. -/
theorem readCondition_relocate (line : Nat) (t : List Char) :
    readCondition (place line) t = (readCondition line t).mapError (GrammarError.relocate place) := by
  rw [readCondition, readCondition]
  split
  · rfl
  · dsimp only
    split <;> rfl

theorem readConditions_relocate (line : Nat) (ts : List (List Char)) :
    readConditions (place line) ts = (readConditions line ts).mapError (GrammarError.relocate place) := by
  induction ts with
  | nil => rfl
  | cons t rest ih =>
    rw [readConditions, readConditions, readCondition_relocate, ih, mapError_bind]
    simp only [mapError_bind]
    rfl

theorem readLabel_relocate (line : Nat) (t : List Char) :
    readLabel (place line) t = (readLabel line t).mapError (GrammarError.relocate place) := by
  rw [readLabel, readLabel]
  split <;> rfl

/-- A rule without its counts on another line is read the same, but for the number of the line in errors. -/
theorem readHead_relocate (merge : Bool) (line : Nat) (head : List Char) (reported : ReportedCounts) :
    readHead merge (place line) head reported = (readHead merge line head reported).mapError (GrammarError.relocate place) := by
  rw [readHead, readHead]
  split
  · rfl
  · split
    · rfl
    · rw [mapError_bind, readLabel_relocate]
      rfl
    · split
      · rfl
      · rw [readConditions_relocate, readLabel_relocate]
        simp only [mapError_bind]
        rfl

/-- The number of a line is said in its refusal and nowhere else. -/
theorem readLine_relocate (merge : Bool) (line : Nat) (t : List Char) :
    readLine merge (place line) t = (readLine merge line t).mapError (GrammarError.relocate place) := by
  rw [readLine, readLine]
  split
  · rfl
  · dsimp only
    split
    · rfl
    · exact readHead_relocate place merge line _ _

/-- A line in another place is read the same, but for its number in errors. -/
theorem draftOf_relocate (c : Catalog) (line : Nat) (t : List Char) :
    draftOf c (place line) t = (draftOf c line t).mapError (Error.relocate place) := by
  rw [draftOf, draftOf, readLine_relocate]
  cases readLine c.containsAnd line t <;> rfl

end Relocate

end RuleText

section Relocate

variable (place : Nat → Nat)

/-- A condition on another line resolves to the same, but for the number of the line in errors. -/
theorem ConditionDraft.resolve_relocate (d : ConditionDraft) (c : Catalog) (line : Nat) (tested : List Nat) :
    d.resolve c (place line) tested = (d.resolve c line tested).mapError (Error.relocate place) := by
  rw [resolve, resolve]
  split
  · rfl
  · split_ifs <;> rfl

theorem resolveConditions_relocate (c : Catalog) (line : Nat) (tested : List Nat) (drafts : List ConditionDraft) :
    resolveConditions c (place line) tested drafts =
      (resolveConditions c line tested drafts).mapError (Error.relocate place) := by
  induction drafts generalizing tested with
  | nil => rfl
  | cons d rest ih =>
    rw [resolveConditions, resolveConditions, ConditionDraft.resolve_relocate]
    simp only [mapError_bind, ih]
    rfl

/-- A rule is resolved alike on every line. -/
theorem RuleDraft.resolve_relocate (d : RuleDraft) (c : Catalog) (line : Nat) :
    d.resolve c (place line) = (d.resolve c line).mapError (Error.relocate place) := by
  rw [resolve, resolve]
  split
  · rfl
  · split
    · rw [resolveConditions_relocate, mapError_bind]
      rfl
    · rfl

/-- Rules on other lines are those rules, and are refused on those lines. -/
theorem RuleText.rulesOf_relocate (c : Catalog) (lines : List (Nat × List Char)) :
    rulesOf c (lines.map (Prod.map place id)) =
      ((rulesOf c lines).mapError (Error.relocate place)).map (List.map (Prod.map place id)) := by
  induction lines with
  | nil => rfl
  | cons line rest ih =>
    rw [List.map_cons, rulesOf]
    show (draftOf c (place line.1) line.2 >>= fun draft => draft.resolve c (place line.1) >>= fun rule => _) = _
    rw [draftOf_relocate, rulesOf]
    cases draftOf c line.1 line.2 with
    | error e => rfl
    | ok draft =>
      show (draft.resolve c (place line.1) >>= fun rule => _) = _
      rw [RuleDraft.resolve_relocate]
      show _ = ((draft.resolve c line.1 >>= fun rule => _).mapError _).map _
      cases draft.resolve c line.1 with
      | error e => rfl
      | ok rule =>
        show (rulesOf c (rest.map (Prod.map place id)) >>= _) = ((rulesOf c rest >>= _).mapError _).map _
        rw [ih]
        cases rulesOf c rest <;> rfl

/-- Rules make the same list on other lines, or none for the same reason. -/
theorem DecisionList.ofRules_relocate (rules : List (Nat × Rule)) :
    ofRules (rules.map (Prod.map place id)) = (ofRules rules).mapError (Error.relocate place) := by
  have hdefault : ∀ {l : List (Nat × Rule)}, (∀ p ∈ l, p.2.isDefault = false) →
      ∀ p ∈ l.map (Prod.map place id), p.2.isDefault = false := by
    intro l hl p hp
    obtain ⟨q, hq, rfl⟩ := List.mem_map.1 hp
    exact hl q hq
  cases rules using List.reverseRecOn with
  | nil => rfl
  | append_singleton before d =>
    cases hearly : before.find? (·.2.isDefault) with
    | some p =>
      obtain ⟨hp, xs, ys, rfl, hxs⟩ := List.find?_eq_some_iff_append.1 hearly
      have hxs' : ∀ q ∈ xs, q.2.isDefault = false := by simpa using hxs
      rw [List.append_assoc, List.cons_append, List.map_append, List.map_cons, ofRules_early (by simp) hxs' hp,
        ofRules_early (p := Prod.map place id p) (by simp) (hdefault hxs') hp]
      rfl
    | none =>
      have hbefore : ∀ q ∈ before, q.2.isDefault = false := by simpa using hearly
      rw [List.map_append, List.map_singleton]
      cases hd : d.2.isDefault with
      | true =>
        have hends : EndsInDefault ((before ++ [d]).map (·.2)) := by
          constructor
          case ne_nil => simp
          case last_default => simpa using hd
          case only_last => simpa using fun r n hr => hbefore (n, r) hr
        have hrules : (before.map (Prod.map place id) ++ [Prod.map place id d]).map (·.2) = (before ++ [d]).map (·.2) := by
          simp
        rw [ofRules_of_ends hends, ofRules_of_ends (hrules ▸ hends)]
        simp only [hrules]
        rfl
      | false =>
        rw [ofRules_missing hbefore hd, ofRules_missing (p := Prod.map place id d) (hdefault hbefore) hd]
        rfl

end Relocate

open RuleText

/-- A layout is read as its text is. If the text is refused, it is refused for the same reason, said of the same line at its new
number. -/
theorem DecisionList.read_layout {layout : List LaidLine} (h : ∀ x ∈ layout, x.Fits) {text text' : String}
    (htext : Text.lines text.toList = layout.filterMap (·.original?)) (htext' : Text.lines text'.toList = layout.map (·.written))
    (c : Catalog) : DecisionList.read text' c = (DecisionList.read text c).mapError (Error.relocate (newLine layout)) := by
  rw [DecisionList.read, DecisionList.read, contentLines_layout h htext htext', rulesOf_relocate, mapError_bind]
  cases rulesOf c (contentLines text.toList) with
  | error e => rfl
  | ok rules => exact ofRules_relocate (newLine layout) rules

/-- Doors by their locks, and what to do before them. -/
def doors : Catalog where
  features := [⟨"lock", false, [.text "open", .text "shut"], false, none, none⟩,
    ⟨"label", true, [.text "enter", .text "wait"], false, none, none⟩]
  label := 1
  label_lt := by decide

/-- Two rules, of which the second has a label that is never seen. -/
def doorRules : String := "if lock = open then enter (3/0)\nelse knock (2/0)"

/-- A quoted line behind a quoted line of blanks, and behind an empty line the other in front of a carriage return. -/
def doorLayout : List LaidLine := [
  ⟨none, "  \" \"\r".toList⟩,
  ⟨some "if lock = open then enter (3/0)".toList, "\t\"if lock = open then enter (3/0) \"\r".toList⟩,
  ⟨none, []⟩,
  ⟨some "else knock (2/0)".toList, " else knock (2/0)\r".toList⟩]

theorem fits_doorLayout : ∀ x ∈ doorLayout, x.Fits := by
  have hspaces : Blanks [' ', ' '] ∧ Blanks [' '] ∧ Blanks ['\t'] ∧ Blanks ['\r'] ∧ Blanks [] := by decide
  obtain ⟨htwo, hone, htab, hreturn, hnone⟩ := hspaces
  have hunquoted : ¬Quoted (Text.trim "if lock = open then enter (3/0)".toList) := by decide
  intro x hx
  simp only [doorLayout, List.mem_cons, List.not_mem_nil, or_false] at hx
  rcases hx with rfl | rfl | rfl | rfl
  · exact .quoted (by decide) htwo hnone hone hreturn
  · exact .quoted hunquoted htab hnone hone hreturn
  · exact .plain hnone hnone
  · exact .plain hone hreturn

/-- The label never seen is on the second line of the rules, and on the fourth when they are laid out. -/
theorem DecisionList.read_layout_doors : (∀ x ∈ doorLayout, x.Fits) ∧
    DecisionList.read doorRules doors = .error (.schema (.labelNotInDomain 2 (.text "knock"))) ∧
    DecisionList.read (String.ofList (['\n'].intercalate (doorLayout.map (·.written)))) doors =
      .error (.schema (.labelNotInDomain 4 (.text "knock"))) := by
  have hread : DecisionList.read doorRules doors = .error (.schema (.labelNotInDomain 2 (.text "knock"))) := by cbv
  have hlines : Text.lines doorRules.toList = doorLayout.filterMap (·.original?) := by decide +kernel
  refine ⟨fits_doorLayout, hread, ?_⟩
  rw [read_layout fits_doorLayout hlines (by decide +kernel), hread]
  rfl

/-- A quoted line behind a blank does not begin with a quote, and yet is not to be quoted again: the quotes that it has would be read
as a part of the rule. -/
theorem DecisionList.read_quoted_twice : (" \"else wait (1/0)\"".toList).head? ≠ some '"' ∧
    (∃ l, DecisionList.read " \"else wait (1/0)\"" doors = .ok l) ∧
    DecisionList.read (String.ofList (enquote " \"else wait (1/0)\"".toList)) doors =
      .error (.grammar ⟨1, .badCounts "(1/0)\""⟩) := by
  refine ⟨by decide, ?_, by cbv⟩
  have haccepted : (DecisionList.read " \"else wait (1/0)\"" doors).isOk = true := by decide +kernel
  cases hread : DecisionList.read " \"else wait (1/0)\"" doors with
  | error e => simp [hread, Except.isOk, Except.toBool] at haccepted
  | ok l => exact ⟨l, rfl⟩

end FirstMatch
