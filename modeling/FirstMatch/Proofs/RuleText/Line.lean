import FirstMatch.Proofs.RuleText.Condition

/-!
# Reading written rules

A line is taken apart where it was put together: its counts stand after the last parenthesis that opens (`readLine_append`), its
label after the last word before labels (`readHead_conditional`, `readHead_default`), its conditions between (`body?`). So a line that
writes a rule reads as what it says (`readLine_write`), and a text of such lines as the list that its drafts make, or is refused as
they are (`read_writeRules`).
-/

namespace FirstMatch

open RuleText

namespace RuleText

/-! ## Counts -/

theorem skipSpaces_of_head {t : List Char} (h : ∀ ch, t.head? = some ch → isSpace ch = false) : skipSpaces t = t :=
  Text.dropWhile_eq_self h

theorem isSpace_of_isBlank {ch : Char} (h : Text.isBlank ch = false) : isSpace ch = false := by
  rw [isSpace, Bool.or_eq_false_iff]
  constructor
  · rw [beq_eq_false_iff_ne]
    rintro rfl
    cases h
  · rw [beq_eq_false_iff_ne]
    rintro rfl
    cases h

theorem isSpace_of_isDigit {ch : Char} (h : ch.isDigit = true) : isSpace ch = false :=
  isSpace_of_isBlank (Decimal.IsNumeric.isBlank (Or.inl h))

/-- A count is read from its digits. -/
theorem takeCount_digitText (n : UInt64) {rest : List Char} (hrest : ∀ ch, rest.head? = some ch → ch.isDigit = false) :
    takeCount? (Decimal.digitText n.toNat ++ rest) = some (n, rest) := by
  have hdigits : ∀ ch ∈ Decimal.digitText n.toNat, ch.isDigit = true := fun _ hch => Decimal.isDigit_of_mem_digitText hch
  have htake := Text.takeWhile_append_of_stops hdigits hrest
  have hdrop := Text.dropWhile_append_of_stops hdigits hrest
  by_cases hn : n.toNat = 0
  · have hzero : n = 0 := UInt64.toNat_inj.1 hn
    rw [hn, hzero]
    rfl
  · have hhead := Decimal.head_digitText hn
    have hlt := n.toNat_lt_size
    obtain ⟨d, ds, hds⟩ := List.exists_cons_of_ne_nil (Decimal.digitText_ne_nil n.toNat)
    have hd : d ≠ '0' := by
      rintro rfl
      rw [hds] at hhead
      exact hhead rfl
    unfold takeCount?
    split
    · next hnil => simp [hds] at hnil
    · next hzero =>
      rw [hds, List.cons_append] at hzero
      exact absurd (List.cons.inj hzero).1 hd
    · simp only [htake, hdrop, Decimal.ofDigits_digitText]
      rw [if_neg (by simp [Decimal.digitText_ne_nil]; omega)]
      simp

/-- A text that begins with a written count has no spaces to skip. -/
theorem skipSpaces_digitText (n : Nat) (rest : List Char) :
    skipSpaces (Decimal.digitText n ++ rest) = Decimal.digitText n ++ rest := by
  refine skipSpaces_of_head fun ch hch => ?_
  rw [List.head?_append_of_ne_nil _ (Decimal.digitText_ne_nil n)] at hch
  exact isSpace_of_isDigit (Decimal.isDigit_of_mem_digitText (List.mem_of_mem_head? hch))

/-- Counts read as they are written. -/
theorem readCounts_write (r : ReportedCounts) : readCounts? (writeCounts r) = some r := by
  have hstroke : ∀ rest : List Char, ∀ ch, ('/' :: rest).head? = some ch → ch.isDigit = false := by
    rintro rest ch ⟨⟩
    rfl
  have hclose : ∀ ch, [')'].head? = some ch → ch.isDigit = false := by
    rintro ch ⟨⟩
    rfl
  rw [readCounts?, writeCounts]
  show (takeCount? (skipSpaces _)).bind _ = _
  rw [skipSpaces_digitText, takeCount_digitText _ (hstroke _)]
  show (takeCount? (skipSpaces _)).bind _ = _
  rw [skipSpaces_digitText, takeCount_digitText _ hclose]
  rfl

/-- Behind the parenthesis that opens, written counts have none. -/
theorem not_mem_writeCounts_tail (r : ReportedCounts) : '(' ∉ (writeCounts r).tail := by
  intro hm
  rw [writeCounts, List.tail_cons, List.mem_append, List.mem_cons, List.mem_append, List.mem_singleton] at hm
  rcases hm with hm | hm | hm | hm
  · exact absurd (Decimal.isDigit_of_mem_digitText hm) (by decide)
  · exact absurd hm (by decide)
  · exact absurd (Decimal.isDigit_of_mem_digitText hm) (by decide)
  · exact absurd hm (by decide)

theorem trimmed_writeCounts (r : ReportedCounts) : Text.Trimmed (writeCounts r) := by
  constructor
  · rintro ch ⟨⟩
    rfl
  · intro ch hch
    have hlast : (writeCounts r).getLast? = some ')' := by simp [writeCounts, List.getLast?_cons, List.getLast?_append]
    rw [hlast] at hch
    cases hch
    rfl

/-! ## Heads and lines -/

section Heads

variable {label : List Char}

/-- A head that ends in a label does not break off before it. -/
theorem lacksLabel_append (hend : ¬[' ', 't', 'h', 'e', 'n'] <:+ ' ' :: label) (start : List Char) :
    lacksLabel (start ++ ' ' :: label) = false := by
  rw [lacksLabel, Bool.or_eq_false_iff]
  constructor
  · rw [beq_eq_false_iff_ne]
    intro he
    have hspace : ' ' ∈ start ++ ' ' :: label := by simp
    rw [he] at hspace
    exact absurd hspace (by decide)
  · rw [Option.isSome_eq_false_iff, Option.isNone_iff_eq_none, Text.dropBeginning_eq_none_iff, List.reverse_prefix]
    intro hsuffix
    rcases List.suffix_or_suffix_of_suffix hsuffix (List.suffix_append _ _) with hs | hs
    · exact hend hs
    · rcases List.suffix_cons_iff.1 hs with he | hs
      · exact hend (he ▸ List.suffix_refl _)
      · exact absurd (hs.subset List.mem_cons_self) (by decide)

/-- A token is read as the label that it writes. -/
theorem readLabel_token (h : Text.Token label) (line : Nat) : readLabel line label = .ok (Value.ofToken label) := by
  simp only [readLabel, Text.trim_eq_self h.trimmed.start h.trimmed.stop]
  rw [if_neg (by simp [h.ne_nil])]

/-- A head with a label alone is that of a default rule. -/
theorem readHead_default (h : Text.Token label) (hend : ¬[' ', 't', 'h', 'e', 'n'] <:+ ' ' :: label) (merge : Bool) (line : Nat)
    (reported : ReportedCounts) :
    readHead merge line (['e', 'l', 's', 'e', ' '] ++ label) reported = .ok ⟨[], some (Value.ofToken label), reported⟩ := by
  have hlabel : lacksLabel (['e', 'l', 's', 'e', ' '] ++ label) = false := lacksLabel_append hend ['e', 'l', 's', 'e']
  have hskip : skipSpaces label = label := skipSpaces_of_head fun ch hch => isSpace_of_isBlank (h.trimmed.start ch hch)
  have hopening : opening? (['e', 'l', 's', 'e', ' '] ++ label) = some (.default label) := by
    show some (Opening.default (skipSpaces label)) = _
    rw [hskip]
  rw [readHead, hlabel, if_neg Bool.false_ne_true, hopening]
  show (readLabel line label >>= _) = _
  rw [readLabel_token h]
  rfl

theorem trimmed_conditional (h : Text.Token label) (body : List Char) :
    Text.Trimmed (['i', 'f', ' '] ++ (body ++ (thenWord ++ label))) := by
  constructor
  · rintro ch ⟨⟩
    rfl
  · rw [← List.append_assoc, ← List.append_assoc]
    exact h.trimmed.stop_append h.ne_nil _

/-- A head with a body opens a rule with conditions. -/
theorem opening_conditional {body : List Char} (hne : body ≠ []) (hbody : ∀ ch, body.head? = some ch → Text.isBlank ch = false)
    (rest : List Char) : opening? (['i', 'f', ' '] ++ (body ++ rest)) = some (.conditional (body ++ rest)) := by
  have hskip : skipSpaces (body ++ rest) = body ++ rest := by
    refine skipSpaces_of_head fun ch hch => isSpace_of_isBlank (hbody ch ?_)
    rwa [List.head?_append_of_ne_nil _ hne] at hch
  show some (Opening.conditional (skipSpaces (body ++ rest))) = _
  rw [hskip]

/-- A head with a body is that of a rule with the conditions that the body is split into. -/
theorem readHead_conditional (h : Text.Token label) (hend : ¬[' ', 't', 'h', 'e', 'n'] <:+ ' ' :: label)
    (hthen : ¬thenWord <:+: ' ' :: label) {body : List Char} (hne : body ≠ [])
    (hbody : ∀ ch, body.head? = some ch → Text.isBlank ch = false) (merge : Bool) (line : Nat) (reported : ReportedCounts) :
    readHead merge line (['i', 'f', ' '] ++ (body ++ (thenWord ++ label))) reported =
      (readConditions line (splitConditions merge body)).map fun ds => ⟨ds, some (Value.ofToken label), reported⟩ := by
  have hlabel : lacksLabel (['i', 'f', ' '] ++ (body ++ (thenWord ++ label))) = false := by
    have := lacksLabel_append hend (['i', 'f', ' '] ++ (body ++ [' ', 't', 'h', 'e', 'n']))
    simpa [thenWord] using this
  have hopening := opening_conditional hne hbody (thenWord ++ label)
  have hcut : Text.cutLast thenWord (body ++ (thenWord ++ label)) = some (body, label) :=
    Text.cutLast_word ['t', 'h', 'e', 'n'] (by decide) hthen body
  rw [readHead, hlabel, if_neg Bool.false_ne_true]
  simp only [hopening, hcut]
  cases readConditions line (splitConditions merge body) with
  | error e => rfl
  | ok ds =>
    show (readLabel line label >>= _) = _
    rw [readLabel_token h]
    rfl

/-- A line is cut at the parenthesis that opens its counts. -/
theorem cutLast_counts (head : List Char) (reported : ReportedCounts) : ∃ tail, writeCounts reported = '(' :: tail ∧
    Text.cutLast ['('] (head ++ ' ' :: writeCounts reported) = some (head ++ [' '], tail) := by
  obtain ⟨tail, htail⟩ : ∃ tail, writeCounts reported = '(' :: tail := ⟨_, rfl⟩
  have hopen : '(' ∉ tail := by
    have := not_mem_writeCounts_tail reported
    rwa [htail] at this
  have hself : Text.cutLast ['('] (head ++ [' '] ++ '(' :: tail) = some (head ++ [' '], tail) :=
    Text.cutLast_self fun hin => hopen (hin.subset List.mem_cons_self)
  refine ⟨tail, htail, ?_⟩
  rwa [htail, List.append_cons]

/-- A line is a head and counts. -/
theorem readLine_append {head : List Char} (hne : head ≠ []) (h : Text.Trimmed head) (reported : ReportedCounts) (merge : Bool)
    (line : Nat) : readLine merge line (head ++ ' ' :: writeCounts reported) = readHead merge line head reported := by
  obtain ⟨tail, htail, hcut⟩ := cutLast_counts head reported
  have htrimmed := trimmed_writeCounts reported
  have hcounts : Text.trim ('(' :: tail) = writeCounts reported := by
    rw [← htail]
    exact Text.trim_eq_self htrimmed.start htrimmed.stop
  have hhead : Text.trim (head ++ [' ']) = head := h.trim_append_spaces hne 1
  rw [readLine, hcut]
  simp only [hcounts, readCounts_write, hhead]

end Heads

/-- The conditions of a line as they are written, between its first word and the last word before labels. -/
def body? (t : List Char) : Option (List Char) :=
  match Text.cutLast ['('] t with
  | none => none
  | some (head, _) =>
    match opening? (Text.trim head) with
    | some (.conditional rest) => (Text.cutLast thenWord rest).map (·.1)
    | _ => none

/-- A line with a body is a rule with conditions, as it may be written. -/
theorem body_conditional {label : List Char} (h : Text.Token label) (hthen : ¬thenWord <:+: ' ' :: label) {body : List Char}
    (hne : body ≠ []) (hbody : ∀ ch, body.head? = some ch → Text.isBlank ch = false) (reported : ReportedCounts) :
    body? (['i', 'f', ' '] ++ (body ++ (thenWord ++ label)) ++ ' ' :: writeCounts reported) = some body := by
  obtain ⟨tail, -, hcounts⟩ := cutLast_counts (['i', 'f', ' '] ++ (body ++ (thenWord ++ label))) reported
  have hhead := (trimmed_conditional h body).trim_append_spaces (by simp) 1
  have hcut : Text.cutLast thenWord (body ++ (thenWord ++ label)) = some (body, label) :=
    Text.cutLast_word ['t', 'h', 'e', 'n'] (by decide) hthen body
  rw [body?, hcounts]
  show (match opening? (Text.trim (['i', 'f', ' '] ++ (body ++ (thenWord ++ label)) ++ List.replicate 1 ' ')) with
    | some (.conditional rest) => (Text.cutLast thenWord rest).map (·.1)
    | _ => none) = some body
  rw [hhead, opening_conditional hne hbody]
  show (Text.cutLast thenWord (body ++ (thenWord ++ label))).map (·.1) = some body
  rw [hcut, Option.map_some]

/-- The conditions of a line are those that its body is split into; the line of a default rule has no body. -/
theorem conditions_of_readLine {merge : Bool} {line : Nat} {t : List Char} {d : RuleDraft} (h : readLine merge line t = .ok d) :
    readConditions line ((body? t).elim [] (splitConditions merge)) = .ok d.conditions := by
  rw [readLine] at h
  cases hcounts : Text.cutLast ['('] t with
  | none =>
    rw [hcounts] at h
    cases h
  | some cut =>
    obtain ⟨head, tail⟩ := cut
    rw [hcounts] at h
    dsimp only at h
    split at h
    · cases h
    have hbody : body? t = match opening? (Text.trim head) with
        | some (.conditional rest) => (Text.cutLast thenWord rest).map (·.1)
        | _ => none := by
      rw [body?, hcounts]
    rw [readHead] at h
    split at h
    · cases h
    rw [hbody]
    cases hopening : opening? (Text.trim head) with
    | none =>
      rw [hopening] at h
      cases h
    | some opening =>
      rw [hopening] at h
      cases opening with
      | default label =>
        obtain ⟨label, -, h⟩ := bind_eq_ok.1 h
        cases h
        rfl
      | conditional rest =>
        dsimp only at h ⊢
        cases hcut : Text.cutLast thenWord rest with
        | none =>
          rw [hcut] at h
          cases h
        | some parts =>
          rw [hcut] at h
          obtain ⟨ds, hds, h⟩ := bind_eq_ok.1 h
          obtain ⟨label, -, h⟩ := bind_eq_ok.1 h
          cases h
          exact hds

end RuleText

/-! ## Written rules -/

/-- The head of a rule ends in a space and the label, and begins with a letter. -/
theorem WrittenRule.exists_head (r : WrittenRule) :
    ∃ start, r.head = start ++ ' ' :: r.label.render.toList ∧ (start.head? = some 'e' ∨ start.head? = some 'i') := by
  unfold head
  split
  · exact ⟨['e', 'l', 's', 'e'], rfl, Or.inl rfl⟩
  · exact ⟨['i', 'f', ' '] ++ (writeConditions r.conditions ++ [' ', 't', 'h', 'e', 'n']), by simp [thenWord], Or.inr rfl⟩

/-- Conditions begin with the first feature. -/
theorem RuleText.exists_writeConditions (x : WrittenCondition) (rest : List WrittenCondition) :
    ∃ more, writeConditions (x :: rest) = x.feature.toList ++ more := by
  cases rest <;> simp [writeConditions, WrittenCondition.write, WrittenCondition.subject]

/-- Conditions stand on one line. -/
theorem WrittenCondition.Fits.one_line_writeConditions {c : Catalog} {xs : List WrittenCondition} (hxs : ∀ x ∈ xs, x.Fits c) :
    '\n' ∉ writeConditions xs := by
  have hwrite : ∀ x : WrittenCondition, x.Fits c → '\n' ∉ x.write := by
    intro x hx
    have hspelling : '\n' ∉ x.spelling := by
      unfold WrittenCondition.spelling
      cases x.op <;> cases x.glyph <;> decide
    simp [WrittenCondition.write, WrittenCondition.subject, WrittenCondition.object, hx.one_line, hx.legible.token.one_line,
      hspelling]
  induction xs with
  | nil => simp [writeConditions]
  | cons x rest ih =>
    have hx := hwrite x (hxs x List.mem_cons_self)
    cases rest with
    | nil => exact hx
    | cons y rest =>
      have hrest := ih fun z hz => hxs z (List.mem_cons_of_mem x hz)
      simp [writeConditions, hx, hrest, andWord]

namespace WrittenRule.Fits

variable {c : Catalog} {r : WrittenRule} (h : r.Fits c)

include h

/-- No label ends in the word before labels. -/
theorem not_then_suffix : ¬[' ', 't', 'h', 'e', 'n'] <:+ ' ' :: r.label.render.toList := by
  cases hl : r.label with
  | number x =>
    have ht : 't' ∈ [' ', 't', 'h', 'e', 'n'] := by decide
    have hnone := Decimal.not_infix_text _ ht (by decide) (by decide) x
    exact fun hsuffix => hnone (hsuffix.isInfix.trans (List.prefix_append (_ :: _) [' ']).isInfix)
  | text s => exact h.label_end s hl

/-- No label after conditions writes that word. -/
theorem not_then_infix (hne : r.conditions ≠ []) : ¬thenWord <:+: ' ' :: r.label.render.toList := by
  cases hl : r.label with
  | number x =>
    have ht : 't' ∈ thenWord := by decide
    have hnone := Decimal.not_infix_text _ ht (by decide) (by decide) x
    exact fun hin => hnone (hin.trans (List.prefix_append (_ :: _) [' ']).isInfix)
  | text s => exact h.label_then hne s hl

/-- The head neither begins nor ends with a blank. -/
theorem trimmed_head : Text.Trimmed r.head := by
  obtain ⟨start, hhead, hstart⟩ := r.exists_head
  have htoken := h.legible.token
  rw [hhead]
  constructor
  · intro ch hch
    rw [List.head?_append] at hch
    rcases hstart with hstart | hstart <;>
    · rw [hstart] at hch
      cases hch
      rfl
  · rw [List.append_cons]
    exact htoken.trimmed.stop_append htoken.ne_nil _

/-- The head of a rule reads as what the rule says. -/
theorem readHead_head (line : Nat) (reported : ReportedCounts) :
    readHead c.containsAnd line r.head reported = .ok { r.draft with reported } := by
  rw [head, draft]
  cases hcs : r.conditions with
  | nil =>
    rw [List.isEmpty_nil, if_pos rfl, readHead_default h.legible.token h.not_then_suffix, h.legible.ofToken_render]
    rfl
  | cons x rest =>
    have hne : x :: rest ≠ [] := by simp
    have hxs : ∀ y ∈ x :: rest, y.Fits c := hcs ▸ h.conditions
    have hx := hxs x List.mem_cons_self
    obtain ⟨more, hmore⟩ := exists_writeConditions x rest
    have hbody : writeConditions (x :: rest) ≠ [] := by simp [hmore, hx.ne_nil]
    have hstart : ∀ ch, (writeConditions (x :: rest)).head? = some ch → Text.isBlank ch = false := by
      rw [hmore]
      exact (Text.trimmed_of_trim hx.trimmed).start_append hx.ne_nil more
    rw [List.isEmpty_cons, if_neg (by simp),
      readHead_conditional h.legible.token h.not_then_suffix (h.not_then_infix (by rw [hcs]; exact hne)) hbody hstart,
      splitConditions_write hne hxs, readConditions_map_iff.2 fun y hy => (hxs y hy).readCondition_write line,
      h.legible.ofToken_render]
    rfl

/-- A written rule reads as what it says. -/
theorem readLine_write (line : Nat) : readLine c.containsAnd line r.write = .ok r.draft := by
  obtain ⟨start, hstart, -⟩ := r.exists_head
  rw [write, readLine_append (by simp [hstart]) h.trimmed_head, h.readHead_head]
  rfl

/-! ## The text -/

/-- A written rule is what its line says. -/
theorem content_write : content r.write = r.write := by
  obtain ⟨start, hstart, hletter⟩ := r.exists_head
  have hfirst : r.write.head? = start.head? := by
    have hne : start ≠ [] := by
      rintro rfl
      simp at hletter
    rw [write, hstart, List.append_assoc, List.head?_append_of_ne_nil _ hne]
  have htrimmed : Text.Trimmed r.write := by
    constructor
    · exact h.trimmed_head.start_append (by simp [hstart]) _
    · rw [write, List.append_cons]
      exact (trimmed_writeCounts r.reported).stop_append (by simp [writeCounts]) _
  have hunquote : unquote r.write = r.write := by
    unfold unquote
    split
    · next hquote =>
      rw [hquote] at hfirst
      rw [← hfirst] at hletter
      simp at hletter
    · rfl
  have htrim := Text.trim_eq_self htrimmed.start htrimmed.stop
  rw [content, htrim, hunquote, htrim]

/-- A written rule stands on one line. -/
theorem one_line : '\n' ∉ r.write := by
  have hcounts : '\n' ∉ writeCounts r.reported := by
    intro hm
    rw [writeCounts, List.mem_cons, List.mem_append, List.mem_cons, List.mem_append, List.mem_singleton] at hm
    rcases hm with hm | hm | hm | hm | hm
    · exact absurd hm (by decide)
    · exact absurd (Decimal.isDigit_of_mem_digitText hm) (by decide)
    · exact absurd hm (by decide)
    · exact absurd (Decimal.isDigit_of_mem_digitText hm) (by decide)
    · exact absurd hm (by decide)
  have hconditions := WrittenCondition.Fits.one_line_writeConditions h.conditions
  have hlabel := h.legible.token.one_line
  rw [write, head]
  split
  · simp [hlabel, hcounts]
  · simp [hlabel, hcounts, hconditions, thenWord]

end WrittenRule.Fits

namespace RuleText

/-- The lines of a text say the rules that are written on them, and nothing more if a line feed ends the last. -/
theorem lines_writeRules {c : Catalog} {rules : List WrittenRule} (h : ∀ r ∈ rules, r.Fits c) {ending : List Char}
    (hending : ending = [] ∨ ending = ['\n']) :
    ∃ blanks, Text.lines (writeRules rules ++ ending) = rules.map (·.write) ++ blanks ∧ ∀ b ∈ blanks, b = [] := by
  induction rules with
  | nil =>
    rcases hending with rfl | rfl
    · exact ⟨[[]], rfl, by simp⟩
    · exact ⟨[[], []], rfl, by simp⟩
  | cons r rest ih =>
    have hr := (h r List.mem_cons_self).one_line
    cases rest with
    | nil =>
      rcases hending with rfl | rfl
      · exact ⟨[], by rw [List.append_nil]; exact Text.lines_eq_singleton hr, by simp⟩
      · exact ⟨[[]], Text.lines_append hr [], by simp⟩
    | cons q rest =>
      obtain ⟨blanks, hlines, hblanks⟩ := ih fun x hx => h x (List.mem_cons_of_mem r hx)
      refine ⟨blanks, ?_, hblanks⟩
      rw [writeRules, List.append_assoc, List.cons_append, Text.lines_append hr, hlines]
      rfl

/-- What numbered lines say is resolved as the drafts of their rules are. -/
theorem rulesOf_lines {c : Catalog} {rules : List WrittenRule} (h : ∀ r ∈ rules, r.Fits c) {blanks : List (List Char)}
    (hblanks : ∀ b ∈ blanks, b = []) (n : Nat) :
    rulesOf c (((rules.map (·.write) ++ blanks).zipIdx n).filterMap fun (line, n) =>
      if (content line).isEmpty then none else some (n, content line)) =
        DecisionList.resolveFrom c n (rules.map (·.draft)) := by
  induction rules generalizing n with
  | nil =>
    have hnone : ((blanks.zipIdx n).filterMap fun (line, n) =>
        if (content line).isEmpty then none else some (n, content line)) = [] := by
      rw [List.filterMap_eq_nil_iff]
      rintro ⟨b, i⟩ hb
      obtain rfl := hblanks b (List.fst_mem_of_mem_zipIdx hb)
      rfl
    rw [List.map_nil, List.nil_append, hnone]
    rfl
  | cons r rest ih =>
    have hr := h r List.mem_cons_self
    have hne : r.write ≠ [] := by simp [WrittenRule.write]
    have hdraft : draftOf c n r.write = .ok r.draft := by rw [draftOf, hr.readLine_write]
    rw [List.map_cons, List.cons_append, List.zipIdx_cons, List.filterMap_cons_some (b := (n, r.write))
      (by simp [hr.content_write, hne]), rulesOf, hdraft, List.map_cons, DecisionList.resolveFrom]
    show (r.draft.resolve c n >>= fun rule => rulesOf c _ >>= _) = _
    rw [ih fun x hx => h x (List.mem_cons_of_mem r hx)]

end RuleText

/-- Written rules read as the list that what they say makes, or are refused as it is: on the line where a rule stands, for what is
wrong with the rule in its place. -/
theorem DecisionList.read_writeRules {c : Catalog} {rules : List WrittenRule} (h : ∀ r ∈ rules, r.Fits c) {ending : List Char}
    (hending : ending = [] ∨ ending = ['\n']) :
    DecisionList.read (String.ofList (writeRules rules ++ ending)) c = DecisionList.ofDrafts c (rules.map (·.draft)) := by
  obtain ⟨blanks, hlines, hblanks⟩ := lines_writeRules h hending
  rw [DecisionList.read, DecisionList.ofDrafts, String.toList_ofList, contentLines, hlines, rulesOf_lines h hblanks]

/-- The dishes of a kitchen by their seasoning and price. -/
def kitchen : Catalog where
  features := [⟨"salt and pepper", false, [.text "none", .text "both"], false, none, none⟩,
    ⟨"price", false, [.number 9.5, .number 30], true, some 9.5, some 30⟩,
    ⟨"dish", true, [.text "stew (then rice)", .text "soup"], false, none, none⟩]
  label := 2
  label_lt := by decide

/-- A rule with two conditions and a default rule about dishes. -/
def kitchenRules : List WrittenRule :=
  [⟨[⟨"salt and pepper", .ne, .text "none", true, 1, 0⟩, ⟨"price", .ge, .number 9.5, false, 0, 2⟩],
      .text "stew (then rice)", ⟨12, 0⟩⟩,
    ⟨[], .text "soup", ⟨0, 7⟩⟩]

example : String.ofList (writeRules kitchenRules) =
    "if salt and pepper ≠none and price>=  9.5 then stew (then rice) (12/0)\nelse soup (0/7)" := by rfl

/-- The rules on dishes are read as they are written, though a column and a label hold words of the grammar. -/
theorem read_writeRules_kitchen : (∀ r ∈ kitchenRules, r.Fits kitchen) ∧
    DecisionList.read (String.ofList (writeRules kitchenRules ++ ['\n'])) kitchen =
      DecisionList.ofDrafts kitchen (kitchenRules.map (·.draft)) ∧
    ∃ l, DecisionList.ofDrafts kitchen (kitchenRules.map (·.draft)) = .ok l := by
  have hfits : ∀ r ∈ kitchenRules, r.Fits kitchen := by
    intro r hr
    rcases List.mem_cons.1 hr with rfl | hr
    · constructor
      case conditions =>
        intro x hx
        rcases List.mem_cons.1 hx with rfl | hx
        · exact {
            column := rfl
            ne_nil := by decide
            trimmed := rfl
            one_line := by decide
            signless := by decide
            legible := Value.legible_text (by decide) rfl (by decide) rfl
            literal := by
              rintro s ⟨⟩
              exact ⟨by decide, by decide⟩ }
        · obtain rfl := List.mem_singleton.1 hx
          exact {
            column := rfl
            ne_nil := by decide
            trimmed := rfl
            one_line := by decide
            signless := by decide
            legible := ⟨rfl, rfl⟩
            literal := nofun }
      case legible => exact Value.legible_text (by decide) rfl (by decide) rfl
      case label_end =>
        rintro s ⟨⟩
        decide
      case label_then =>
        rintro - s ⟨⟩
        decide
    · obtain rfl := List.mem_singleton.1 hr
      constructor
      case conditions => exact fun x hx => nomatch hx
      case legible => exact Value.legible_text (by decide) rfl (by decide) rfl
      case label_end =>
        rintro s ⟨⟩
        decide
      case label_then => exact fun hne => absurd rfl hne
  exact ⟨hfits, DecisionList.read_writeRules hfits (.inr rfl), _, rfl⟩

end FirstMatch
