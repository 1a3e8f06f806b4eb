import FirstMatch.Dataset.Scan
import FirstMatch.Proofs.Dataset.Sheet

/-!
# The reader makes progress

What the reader does on any text, well-formed or not, and with any delimiter, be it a quote or the line feed. The fields it takes
are followed through the scan of single characters (`leads_of_takeField`, `leads_of_takeFields`), which shows that a record ends
the text or ends at a line feed. So a pass over a text that is not empty goes over one character at least
(`exists_piece_of_takeFields`), the passes make a course of the text (`exists_course`), and what the reader returns is read off
that course (`Course.read_eq`).
-/

namespace FirstMatch.Record

variable {delimiter : Char}

/-! ## Fields in the scan -/

namespace Place

@[simp] theorem after_nil (p : Place) : after delimiter p [] = p := rfl

@[simp] theorem after_cons (p : Place) (c : Char) (t : List Char) :
    after delimiter p (c :: t) = after delimiter (next delimiter p c) t := rfl

/-- Where one text and then another lead to. -/
@[simp] theorem after_append (p : Place) (t u : List Char) :
    after delimiter p (t ++ u) = after delimiter (after delimiter p t) u :=
  List.foldl_append

/-- Outside quotes, and right after a quote that may close them, a character other than a quote is read plainly. -/
theorem next_of_ne_quote {p : Place} (hp : p ≠ quoted) {c : Char} (hc : c ≠ '"') :
    next delimiter p c = afterPlain delimiter c := by
  cases p with
  | quoted => exact absurd rfl hp
  | plain => rfl
  | recordStart => exact if_neg hc
  | fieldStart => exact if_neg hc
  | quoteSeen => exact if_neg hc

/-- What does not end the unquoted part of a field leaves the scan in it. -/
theorem afterPlain_of_not_ends {c : Char} (hc : endsField delimiter c = false) : afterPlain delimiter c = plain := by
  unfold endsField at hc
  rw [Bool.or_eq_false_iff, beq_eq_false_iff_ne, beq_eq_false_iff_ne] at hc
  rw [afterPlain, if_neg hc.1, if_neg hc.2]

end Place

open Place

/-- A piece of text leads from a place to one outside quotes, where the text that follows ends the field. -/
structure Leads (delimiter : Char) (p : Place) (piece rest : List Char) : Prop where
  outside : after delimiter p piece ≠ quoted
  ends : ∀ c, rest.head? = some c →
    endsField delimiter c = true ∧ next delimiter (after delimiter p piece) c = afterPlain delimiter c

/-- Plain text is read plainly, a quote in it included. -/
theorem after_plain {t : List Char} (ht : ∀ c ∈ t, endsField delimiter c = false) : after delimiter plain t = plain := by
  induction t with
  | nil => rfl
  | cons c t ih =>
    have hc : next delimiter plain c = plain := afterPlain_of_not_ends (ht c List.mem_cons_self)
    rw [after_cons, hc]
    exact ih fun x hx => ht x (List.mem_cons_of_mem c hx)

/-- The unquoted part of a field leads to its end, wherever outside quotes it begins, unless a quote begins it. -/
theorem leads_of_takePlain {p : Place} (hp : p ≠ quoted) {t field rest : List Char} (hquote : t.head? ≠ some '"')
    (h : takePlain delimiter t = (field, rest)) : ∃ piece, t = piece ++ rest ∧ Leads delimiter p piece rest := by
  obtain ⟨-, rfl⟩ := Prod.mk.inj h
  have hsplit := List.takeWhile_append_dropWhile (p := (!endsField delimiter ·)) (l := t)
  have hrun : ∀ c ∈ t.takeWhile (!endsField delimiter ·), endsField delimiter c = false := by
    intro c hc
    simpa using List.mem_takeWhile_imp hc
  have hends : ∀ c, (t.dropWhile (!endsField delimiter ·)).head? = some c → endsField delimiter c = true := by
    intro c hc
    have := List.head?_dropWhile_not (!endsField delimiter ·) t
    simpa [hc] using this
  refine ⟨t.takeWhile (!endsField delimiter ·), hsplit.symm, ?_⟩
  cases hpiece : t.takeWhile (!endsField delimiter ·) with
  | nil =>
    refine ⟨hp, fun c hc => ⟨hends c hc, next_of_ne_quote hp ?_⟩⟩
    rw [hpiece, List.nil_append] at hsplit
    rw [hsplit] at hc
    rintro rfl
    exact hquote hc
  | cons c run =>
    rw [hpiece] at hrun hsplit
    have hc : c ≠ '"' := by
      rintro rfl
      exact hquote (by rw [← hsplit]; rfl)
    have hplain : after delimiter p (c :: run) = plain := by
      rw [after_cons, next_of_ne_quote hp hc, afterPlain_of_not_ends (hrun c List.mem_cons_self)]
      exact after_plain fun x hx => hrun x (List.mem_cons_of_mem c hx)
    refine ⟨by simp [hplain], fun x hx => ⟨hends x hx, ?_⟩⟩
    rw [hplain]
    rfl

/-- What closes the quotes of a field is no part of a pair of quotes. -/
theorem quoteSeen_of_takeQuoted (delimiter : Char) {t field rest : List Char} (h : takeQuoted t = some (field, rest)) :
    ∃ piece, t = piece ++ rest ∧ after delimiter quoted piece = quoteSeen ∧ rest.head? ≠ some '"' := by
  fun_induction takeQuoted t generalizing field with
  | case1 => simp at h
  | case2 r ih =>
    obtain ⟨⟨f, u⟩, hu, he⟩ := Option.map_eq_some_iff.1 h
    cases he
    obtain ⟨piece, rfl, hpiece, hrest⟩ := ih hu
    exact ⟨'"' :: '"' :: piece, rfl, hpiece, hrest⟩
  | case3 r hpair =>
    cases h
    refine ⟨['"'], rfl, rfl, ?_⟩
    intro hr
    cases rest with
    | nil => simp at hr
    | cons x u => exact hpair u rfl (by rw [Option.some.inj hr])
  | case4 c r _ hc ih =>
    obtain ⟨⟨f, u⟩, hu, he⟩ := Option.map_eq_some_iff.1 h
    cases he
    obtain ⟨piece, rfl, hpiece, hrest⟩ := ih hu
    refine ⟨c :: piece, rfl, ?_, hrest⟩
    have hnext : next delimiter quoted c = quoted := if_neg hc
    rw [after_cons, hnext, hpiece]

/-- Without a closing quote the text ends inside quotes. -/
theorem quoted_of_takeQuoted {t : List Char} (h : takeQuoted t = none) : after delimiter quoted t = quoted := by
  fun_induction takeQuoted t with
  | case1 => rfl
  | case2 r ih => exact ih (Option.map_eq_none_iff.1 h)
  | case3 => simp at h
  | case4 c r _ hc ih =>
    have hnext : next delimiter quoted c = quoted := if_neg hc
    rw [after_cons, hnext]
    exact ih (Option.map_eq_none_iff.1 h)

/-- The places a field may begin at. -/
def Place.BeginsField (p : Place) : Prop := p = recordStart ∨ p = fieldStart

/-- A quote where a field may begin opens it. -/
theorem Place.BeginsField.next_quote {p : Place} (hp : p.BeginsField) : next delimiter p '"' = quoted := by
  rcases hp with rfl | rfl <;> rfl

theorem Place.BeginsField.ne_quoted {p : Place} (hp : p.BeginsField) : p ≠ quoted := by
  rcases hp with rfl | rfl <;> simp

/-- A field leads to its end. -/
theorem leads_of_takeField {p : Place} (hp : p.BeginsField) {t field rest : List Char}
    (h : takeField delimiter t = some (field, rest)) : ∃ piece, t = piece ++ rest ∧ Leads delimiter p piece rest := by
  unfold takeField at h
  split at h
  · next r =>
    split at h
    · simp at h
    · next content u hu =>
      obtain ⟨quotes, rfl, hquotes, hu'⟩ := quoteSeen_of_takeQuoted delimiter hu
      obtain ⟨-, rfl⟩ := Prod.mk.inj (Option.some.inj h)
      have hplain : takePlain delimiter u = (_, _) := rfl
      obtain ⟨run, hrun, hleads⟩ := leads_of_takePlain (p := quoteSeen) (by simp) hu' hplain
      have hafter : after delimiter p ('"' :: quotes ++ run) = after delimiter quoteSeen run := by
        rw [after_append, after_cons, hp.next_quote, hquotes]
      refine ⟨'"' :: quotes ++ run, ?_, ?_, ?_⟩
      · rw [List.append_assoc, ← hrun]
        rfl
      · rw [hafter]
        exact hleads.outside
      · rw [hafter]
        exact hleads.ends
  · next hquote =>
    refine leads_of_takePlain hp.ne_quoted ?_ (Option.some.inj h)
    intro hhead
    cases t with
    | nil => simp at hhead
    | cons c r => exact hquote r (by rw [Option.some.inj hhead])

/-- A field that cannot be taken leaves the scan inside quotes. -/
theorem quoted_of_takeField {p : Place} (hp : p.BeginsField) {t : List Char} (h : takeField delimiter t = none) :
    after delimiter p t = quoted := by
  unfold takeField at h
  split at h
  · next r =>
    split at h
    · next hr =>
      rw [after_cons, hp.next_quote]
      exact quoted_of_takeQuoted hr
    · simp at h
  · simp at h

/-! ## Records in the scan -/

/-- What the fields of a record lead to: the end of the text, or a line feed after which another record begins. -/
structure EndsRecord (delimiter : Char) (p : Place) (piece rest : List Char) : Prop where
  outside : after delimiter p piece ≠ quoted
  ends : rest ≠ [] → ∃ r, rest = '\n' :: r ∧ after delimiter p (piece ++ ['\n']) = recordStart

/-- The fields of a record lead to its end, and without them the text ends inside quotes. -/
theorem leads_of_takeFields {p : Place} (hp : p.BeginsField) (t : List Char) :
    (∀ fields rest, takeFields delimiter t = some (fields, rest) →
      ∃ piece, t = piece ++ rest ∧ EndsRecord delimiter p piece rest) ∧
    (takeFields delimiter t = none → after delimiter p t = quoted) := by
  induction hn : t.length using Nat.strongRecOn generalizing t p with
  | ind n ih =>
    rw [takeFields]
    split
    · next hopen =>
      refine ⟨by simp, fun _ => quoted_of_takeField hp hopen⟩
    · next field hfield =>
      refine ⟨?_, by simp⟩
      intro fields rest h
      cases h
      obtain ⟨piece, rfl, hleads⟩ := leads_of_takeField hp hfield
      exact ⟨piece, rfl, hleads.outside, by simp⟩
    · next field c r hfield =>
      obtain ⟨piece, rfl, hleads⟩ := leads_of_takeField hp hfield
      obtain ⟨hends, hnext⟩ := hleads.ends c rfl
      by_cases hc : c = delimiter
      · subst hc
        have hstart : after c p (piece ++ [c]) = fieldStart := by
          rw [after_append, after_cons, hnext]
          exact if_pos rfl
        have hlt : r.length < n := by
          rw [← hn, List.length_append, List.length_cons]
          omega
        obtain ⟨hsome, hnone⟩ := ih r.length hlt (p := fieldStart) (Or.inr rfl) r rfl
        rw [if_pos rfl]
        constructor
        · intro fields rest h
          obtain ⟨⟨more, u⟩, hmore, he⟩ := Option.map_eq_some_iff.1 h
          cases he
          obtain ⟨run, rfl, hrun⟩ := hsome more rest hmore
          refine ⟨piece ++ [c] ++ run, by simp, ?_, ?_⟩
          · rw [after_append, hstart]
            exact hrun.outside
          · rw [List.append_assoc, after_append, hstart]
            exact hrun.ends
        · intro h
          have hsplit : piece ++ c :: r = piece ++ [c] ++ r := by simp
          rw [hsplit, after_append, hstart]
          exact hnone (Option.map_eq_none_iff.1 h)
      · have hfeed : c = '\n' := by
          unfold endsField at hends
          simpa [hc] using hends
        subst hfeed
        rw [if_neg hc]
        refine ⟨?_, by simp⟩
        intro fields rest h
        cases h
        refine ⟨piece, rfl, hleads.outside, fun _ => ⟨r, rfl, ?_⟩⟩
        rw [after_append, after_cons, hnext, afterPlain, if_neg hc, if_pos rfl]
        rfl

theorem beginsField_recordStart : recordStart.BeginsField := Or.inl rfl

/-- A pass over a text that is not empty goes over one character at least. It ends outside quotes, and unless it ends the text a
line feed ends it and another record begins. -/
theorem exists_piece_of_takeFields {t u : List Char} {fields : List (List Char)} (ht : t ≠ [])
    (h : takeFields delimiter t = some (fields, u)) :
    ∃ piece, piece ≠ [] ∧ t = piece ++ dropLineFeed u ∧ placeAfter delimiter piece ≠ quoted ∧
      (dropLineFeed u ≠ [] → '\n' ∈ piece ∧ placeAfter delimiter piece = recordStart) := by
  obtain ⟨piece, rfl, hends⟩ := (leads_of_takeFields beginsField_recordStart t).1 fields u h
  by_cases hu : u = []
  · subst hu
    rw [List.append_nil] at ht
    exact ⟨piece, ht, rfl, hends.outside, fun hne => absurd rfl hne⟩
  · obtain ⟨r, rfl, hstart⟩ := hends.ends hu
    refine ⟨piece ++ ['\n'], by simp, by simp [dropLineFeed], ?_, fun _ => ⟨by simp, hstart⟩⟩
    rw [placeAfter, hstart]
    simp

/-- The same of a piece that a pass goes over. -/
theorem ends_of_takeFields {piece rest u : List Char} {fields : List (List Char)} (hpiece : piece ≠ [])
    (hread : takeFields delimiter (piece ++ rest) = some (fields, u)) (hrest : dropLineFeed u = rest) :
    placeAfter delimiter piece ≠ quoted ∧
      (rest ≠ [] → '\n' ∈ piece ∧ placeAfter delimiter piece = recordStart) := by
  obtain ⟨piece', -, hsplit, hends⟩ := exists_piece_of_takeFields (by simp [hpiece]) hread
  rw [hrest] at hsplit hends
  obtain rfl := List.append_cancel_right hsplit
  exact hends

/-! ## The course of a text -/

/-- The passes over a text make a course: the loop comes to its end. -/
theorem exists_course (delimiter : Char) (before t : List Char) : ∃ passes left, Course delimiter before t passes left := by
  induction hn : t.length using Nat.strongRecOn generalizing before t with
  | ind n ih =>
    by_cases ht : t = []
    · subst ht
      exact ⟨[], [], .finished before⟩
    · cases h : takeFields delimiter t with
      | none => exact ⟨[], t, .unclosed before t h⟩
      | some r =>
        obtain ⟨fields, u⟩ := r
        obtain ⟨piece, hpiece, hsplit, -, -⟩ := exists_piece_of_takeFields ht h
        have hlt : (dropLineFeed u).length < n := by
          have := List.length_pos_iff.2 hpiece
          rw [← hn, hsplit, List.length_append]
          omega
        obtain ⟨passes, left, hmore⟩ := ih _ hlt (before ++ piece) (dropLineFeed u) rfl
        rw [hsplit] at h ⊢
        exact ⟨_, left, .pass before piece _ u left fields passes hpiece h rfl hmore⟩

/-- A text in which a quote is left open is not empty. -/
theorem ne_nil_of_takeFields {t : List Char} (h : takeFields delimiter t = none) : t ≠ [] := by
  rintro rfl
  have hempty : takeFields delimiter [] = some ([[]], []) := takeFields_stop rfl
  rw [hempty] at h
  cases h

/-- The line after a text grows by the line feeds of what follows. -/
theorem lineAfter_append (t u : List Char) : lineAfter (t ++ u) = lineAfter t + u.count '\n' := by
  unfold lineAfter
  rw [List.count_append, Nat.add_assoc]

namespace Pass

theorem consumed_cons (p : Pass) (passes : List Pass) : consumed (p :: passes) = p.piece ++ consumed passes :=
  List.flatMap_cons

/-- One more pass adds its record, unless that is blank. -/
theorem record?_cons (before piece : List Char) (fields : List (List Char)) (passes : List Pass) :
    (⟨before, piece, fields⟩ :: passes).filterMap record? =
      if isBlank fields then passes.filterMap record? else ⟨lineAfter before, fields⟩ :: passes.filterMap record? := by
  by_cases hblank : isBlank fields = true
  · have hnone : record? ⟨before, piece, fields⟩ = none := if_pos hblank
    rw [List.filterMap_cons_none hnone, if_pos hblank]
  · have hsome : record? ⟨before, piece, fields⟩ = some ⟨lineAfter before, fields⟩ := if_neg hblank
    rw [List.filterMap_cons_some hsome, if_neg hblank]

/-- Records are on increasing lines if their passes begin on such. -/
theorem pairwise_line {passes : List Pass} (h : passes.Pairwise fun p q => lineAfter p.before < lineAfter q.before) :
    ((passes.filterMap record?).map (·.line)).Pairwise (· < ·) := by
  rw [List.pairwise_map, List.pairwise_filterMap]
  refine h.imp fun {p q} hlt r hr r' hr' => ?_
  unfold record? at hr hr'
  split at hr
  · simp at hr
  · split at hr'
    · simp at hr'
    · cases hr
      cases hr'
      exact hlt

end Pass

namespace Course

variable {before t left : List Char} {passes : List Pass}

/-- The passes and what they leave are the text. -/
theorem text_eq (h : Course delimiter before t passes left) : t = Pass.consumed passes ++ left := by
  induction h with
  | finished before => rfl
  | unclosed before t hopen => rfl
  | pass before piece rest u left fields passes hpiece hread hrest more ih =>
    rw [Pass.consumed_cons, List.append_assoc, ← ih]

/-- What the passes leave has an open quote in its first record. -/
theorem takeFields_left (h : Course delimiter before t passes left) (hleft : left ≠ []) :
    takeFields delimiter left = none := by
  induction h with
  | finished before => exact absurd rfl hleft
  | unclosed before t hopen => exact hopen
  | pass before piece rest u left fields passes hpiece hread hrest more ih => exact ih hleft

/-- Of an empty text nothing is left. -/
theorem left_of_nil (h : Course delimiter before [] passes left) : left = [] :=
  (List.append_eq_nil_iff.1 h.text_eq.symm).2

/-- No pass goes over an empty text. -/
theorem passes_of_nil (h : Course delimiter before [] passes left) : passes = [] := by
  generalize ht : ([] : List Char) = t at h
  cases h with
  | finished => rfl
  | unclosed => rfl
  | pass _ piece rest _ _ _ _ hpiece =>
    exact absurd (List.append_eq_nil_iff.1 ht.symm).1 hpiece

/-- Passes begin where a record begins, and so does what they leave. -/
theorem starts (h : Course delimiter before t passes left) (hbefore : t ≠ [] → placeAfter delimiter before = recordStart) :
    (∀ p ∈ passes, placeAfter delimiter p.before = recordStart) ∧
      (left ≠ [] → placeAfter delimiter (before ++ Pass.consumed passes) = recordStart) := by
  induction h with
  | finished before => simp
  | unclosed before t hopen => simpa [Pass.consumed] using hbefore
  | pass before piece rest u left fields passes hpiece hread hrest more ih =>
    have hstart := hbefore (by simp [hpiece])
    have hnext : rest ≠ [] → placeAfter delimiter (before ++ piece) = recordStart := by
      intro hr
      have hends := ((ends_of_takeFields hpiece hread hrest).2 hr).2
      unfold placeAfter at hstart hends ⊢
      rw [after_append, hstart, hends]
    obtain ⟨hpasses, hleft⟩ := ih hnext
    rw [Pass.consumed_cons, ← List.append_assoc]
    exact ⟨List.forall_mem_cons.2 ⟨hstart, hpasses⟩, hleft⟩

/-- A pass goes over one character at least, where that stands in the text. -/
theorem pieces (h : Course delimiter before t passes left) :
    ∀ p ∈ passes, p.piece ≠ [] ∧ p.before ++ p.piece <+: before ++ t := by
  induction h with
  | finished before => simp
  | unclosed before t hopen => simp
  | pass before piece rest u left fields passes hpiece hread hrest more ih =>
    rw [← List.append_assoc]
    exact List.forall_mem_cons.2 ⟨⟨hpiece, List.prefix_append _ _⟩, ih⟩

/-- The text ends inside quotes exactly if the passes leave some of it. -/
theorem place_eq_quoted_iff (h : Course delimiter before t passes left) : placeAfter delimiter t = quoted ↔ left ≠ [] := by
  induction h with
  | finished before => simp [placeAfter]
  | unclosed before t hopen =>
    have hquoted := (leads_of_takeFields beginsField_recordStart t).2 hopen
    exact iff_of_true hquoted (ne_nil_of_takeFields hopen)
  | pass before piece rest u left fields passes hpiece hread hrest more ih =>
    obtain ⟨houtside, hends⟩ := ends_of_takeFields hpiece hread hrest
    by_cases hr : rest = []
    · subst hr
      rw [List.append_nil]
      exact ⟨fun hq => absurd hq houtside, fun hne => absurd more.left_of_nil hne⟩
    · have hplace : placeAfter delimiter (piece ++ rest) = placeAfter delimiter rest := by
        have hstart := (hends hr).2
        unfold placeAfter at hstart ⊢
        rw [after_append, hstart]
      rw [hplace]
      exact ih

/-- Passes begin on lines that increase strictly, and what they leave begins on a later line than they do. -/
theorem lines_increase (h : Course delimiter before t passes left) :
    (∀ p ∈ passes, lineAfter before ≤ lineAfter p.before ∧
      (left ≠ [] → lineAfter p.before < lineAfter (before ++ Pass.consumed passes))) ∧
    passes.Pairwise fun p q => lineAfter p.before < lineAfter q.before := by
  induction h with
  | finished before => simp
  | unclosed before t hopen => simp
  | pass before piece rest u left fields passes hpiece hread hrest more ih =>
    obtain ⟨hlines, hsorted⟩ := ih
    have hle : lineAfter before ≤ lineAfter (before ++ piece) := by
      rw [lineAfter_append]
      exact Nat.le_add_right _ _
    have hlt : rest ≠ [] → lineAfter before < lineAfter (before ++ piece) := by
      intro hr
      have hfeed := List.count_pos_iff.2 ((ends_of_takeFields hpiece hread hrest).2 hr).1
      rw [lineAfter_append]
      exact Nat.lt_add_of_pos_right hfeed
    rw [Pass.consumed_cons, ← List.append_assoc]
    refine ⟨List.forall_mem_cons.2 ⟨⟨Nat.le_refl _, ?_⟩, ?_⟩, List.pairwise_cons.2 ⟨?_, hsorted⟩⟩
    · intro hleft
      have hr : rest ≠ [] := by
        rintro rfl
        exact hleft more.left_of_nil
      rw [lineAfter_append (before ++ piece)]
      exact Nat.lt_of_lt_of_le (hlt hr) (Nat.le_add_right _ _)
    · intro p hp
      exact ⟨Nat.le_trans hle (hlines p hp).1, (hlines p hp).2⟩
    · intro q hq
      have hr : rest ≠ [] := by
        rintro rfl
        rw [more.passes_of_nil] at hq
        exact List.not_mem_nil hq
      exact Nat.lt_of_lt_of_le (hlt hr) (hlines q hq).1

/-- What the reader returns, read off the course: the records of the passes, or the line of what they leave. -/
theorem read_eq (h : Course delimiter before t passes left) :
    (left = [] → readFrom delimiter (lineAfter before) t = .ok (passes.filterMap Pass.record?)) ∧
    (left ≠ [] → readFrom delimiter (lineAfter before) t =
      .error ⟨lineAfter (before ++ Pass.consumed passes), .unterminatedQuote⟩) := by
  induction h with
  | finished before =>
    refine ⟨fun _ => ?_, fun hne => absurd rfl hne⟩
    rw [readFrom, if_pos rfl]
    rfl
  | unclosed before t hopen =>
    have hne := ne_nil_of_takeFields hopen
    refine ⟨fun hnil => absurd hnil hne, fun _ => ?_⟩
    rw [readFrom, if_neg hne, Pass.consumed, List.flatMap_nil, List.append_nil]
    simp only [hopen]
  | pass before piece rest u left fields passes hpiece hread hrest more ih =>
    rw [readFrom_pass hpiece hread hrest, ← lineAfter_append, Pass.consumed_cons, ← List.append_assoc]
    refine ⟨fun hleft => ?_, fun hleft => ?_⟩
    · rw [ih.1 hleft, Except.map, Pass.record?_cons]
    · rw [ih.2 hleft]
      rfl

end Course

/-- The reader makes progress on every text, with every delimiter, and numbers lines rightly.
1. A pass over a text that is not empty goes over one character at least, so the loop never ends at a pass that reads nothing.
2. The passes go over the text in order, each from where a record begins. They go over the whole text, which then ends outside
   quotes, and the records are returned; or they leave a text, and that is the case exactly if the text ends inside quotes. Then
   the error is that of an open quote.
3. A record is on the line after the line feeds before its first character, and so is the error. These lines increase strictly.
The byte order mark the text may begin with is no part of it. -/
theorem reading_progresses (delimiter : Char) (text : List Char) :
    (∀ t fields u, t ≠ [] → takeFields delimiter t = some (fields, u) →
      dropLineFeed u <:+ t ∧ (dropLineFeed u).length < t.length) ∧
    (∃ passes left, Course delimiter [] (dropByteOrderMark text) passes left ∧
      dropByteOrderMark text = Pass.consumed passes ++ left ∧
      (∀ p ∈ passes, p.piece ≠ [] ∧ p.before ++ p.piece <+: dropByteOrderMark text ∧
        placeAfter delimiter p.before = recordStart) ∧
      passes.Pairwise (fun p q => lineAfter p.before < lineAfter q.before) ∧
      (left = [] ∧ placeAfter delimiter (dropByteOrderMark text) ≠ quoted ∧
          read delimiter text = .ok (passes.filterMap Pass.record?) ∨
        left ≠ [] ∧ placeAfter delimiter (dropByteOrderMark text) = quoted ∧
          takeFields delimiter left = none ∧ placeAfter delimiter (Pass.consumed passes) = recordStart ∧
          (∀ p ∈ passes, lineAfter p.before < lineAfter (Pass.consumed passes)) ∧
          read delimiter text = .error ⟨lineAfter (Pass.consumed passes), .unterminatedQuote⟩)) ∧
    (∀ records, read delimiter text = .ok records → (records.map (·.line)).Pairwise (· < ·)) := by
  obtain ⟨passes, left, hcourse⟩ := exists_course delimiter [] (dropByteOrderMark text)
  obtain ⟨hstarts, hleftStart⟩ := hcourse.starts fun _ => rfl
  obtain ⟨hlines, hsorted⟩ := hcourse.lines_increase
  obtain ⟨hok, herror⟩ := hcourse.read_eq
  have hplace := hcourse.place_eq_quoted_iff
  refine ⟨?_, ⟨passes, left, hcourse, hcourse.text_eq, ?_, hsorted, ?_⟩, ?_⟩
  · intro t fields u ht h
    obtain ⟨piece, hpiece, hsplit, -⟩ := exists_piece_of_takeFields ht h
    have hpos := List.length_pos_iff.2 hpiece
    have hlength := congrArg List.length hsplit
    rw [List.length_append] at hlength
    exact ⟨⟨piece, hsplit.symm⟩, by omega⟩
  · intro p hp
    obtain ⟨hpiece, hstands⟩ := hcourse.pieces p hp
    exact ⟨hpiece, hstands, hstarts p hp⟩
  · by_cases hleft : left = []
    · exact Or.inl ⟨hleft, fun hq => hplace.1 hq hleft, hok hleft⟩
    · exact Or.inr ⟨hleft, hplace.2 hleft, hcourse.takeFields_left hleft, hleftStart hleft,
        fun p hp => (hlines p hp).2 hleft, herror hleft⟩
  · intro records hread
    by_cases hleft : left = []
    · obtain rfl := Except.ok.inj (hread.symm.trans (hok hleft))
      exact Pass.pairwise_line hsorted
    · exact absurd (hread.symm.trans (herror hleft)) (by simp)

/-- With the quote as delimiter too, and a line feed inside quotes. -/
example :
    (read '"' ['a', '"', 'b', '\n', '"', 'x', '\n', '"', 'y', '"', '\n', 'z']).toOption =
      some [⟨1, [['a'], ['b']]⟩, ⟨2, [['x', '\n', 'y'], []]⟩, ⟨4, [['z']]⟩] := by
  decide +kernel

end FirstMatch.Record
