import FirstMatch.Dataset.Sheet
import FirstMatch.Proofs.Text.Trimming

/-!
# Reading what was written

The reader of records inverts their writing. What follows a field tells where it ends (`takeField_write`), so the fields of a
record come back (`takeFields_write`); a line with its end makes one pass of the reader, which a line of blanks leaves without a
record (`readFrom_line`). So a sheet reads back as its records, each on the line it begins on (`read_write`).
-/

namespace FirstMatch.Record

variable {delimiter : Char}

/-! ## Fields -/

/-- Doubled quotes come back single, up to the first quote that stands alone. -/
theorem takeQuoted_double (t : List Char) {rest : List Char} (hrest : rest.head? ≠ some '"') :
    takeQuoted (double t ++ '"' :: rest) = some (t, rest) := by
  induction t with
  | nil =>
    cases rest with
    | nil => rfl
    | cons c r =>
      have hc : c ≠ '"' := by simpa using hrest
      show takeQuoted ('"' :: c :: r) = _
      rw [takeQuoted, if_pos rfl]
      intro r' _ he
      exact hc (List.cons.inj he).1
  | cons c t ih =>
    by_cases hc : c = '"'
    · subst hc
      rw [double, if_pos rfl, List.cons_append, List.cons_append, takeQuoted, ih, Option.map_some]
    · rw [double, if_neg hc, List.cons_append, takeQuoted, if_neg hc, ih, Option.map_some]
      intro _ he
      exact absurd he hc

/-- The carriage returns that may stand before what follows a field, and then a character that ends the unquoted part, or
nothing. -/
structure Follows (delimiter : Char) (returns rest : List Char) : Prop where
  returns_only : ∀ c ∈ returns, c = '\r'
  ends : ∀ c, rest.head? = some c → endsField delimiter c = true

/-- The unquoted part of a field ends where what follows begins, and loses the carriage returns before that. -/
theorem takePlain_append (hd : Separates delimiter) {t returns rest : List Char} (hplain : ∀ c ∈ t, endsField delimiter c = false)
    (hlast : t.getLast? ≠ some '\r') (h : Follows delimiter returns rest) :
    takePlain delimiter (t ++ returns ++ rest) = (t, rest) := by
  have hrun : ∀ c ∈ t ++ returns, (!endsField delimiter c) = true := by
    intro c hc
    rcases List.mem_append.1 hc with hc | hc
    · rw [hplain c hc]
      rfl
    · rw [h.returns_only c hc]
      simp [endsField, Ne.symm hd.ne_return]
  have hstop : ∀ c, rest.head? = some c → (!endsField delimiter c) = false := by
    intro c hc
    rw [h.ends c hc]
    rfl
  rw [takePlain, Text.takeWhile_append_of_stops hrun hstop, Text.dropWhile_append_of_stops hrun hstop,
    Text.dropEndWhile_append]
  · intro c hc
    by_contra hr
    exact hlast (by rw [hc]; simpa using hr)
  · intro c hc
    rw [h.returns_only c hc]
    rfl

/-- A field comes back from what was written of it. -/
theorem takeField_write (hd : Separates delimiter) {f : Field} (hf : f.Fits delimiter)
    {returns rest : List Char} (h : Follows delimiter returns rest) :
    takeField delimiter (f.write ++ returns ++ rest) = some (f.text, rest) := by
  obtain ⟨t, quoted⟩ := f
  cases quoted with
  | true =>
    have hafter : (returns ++ rest).head? ≠ some '"' := by
      cases hr : returns with
      | nil =>
        intro hc
        have := h.ends '"' hc
        simp [endsField, Ne.symm hd.ne_quote] at this
      | cons c r =>
        have hc := h.returns_only c (by simp [hr])
        rw [hc]
        simp
    have hplain := takePlain_append hd (t := []) (by simp) (by simp) h
    simp only [List.nil_append] at hplain
    simp only [Field.write, if_true, List.cons_append, List.append_assoc, List.nil_append, takeField]
    rw [takeQuoted_double t hafter]
    simp [hplain]
  | false =>
    obtain ⟨hhead, hdelimiter, hfeed, hlast⟩ := hf rfl
    have hplain : ∀ c ∈ t, endsField delimiter c = false := by
      intro c hc
      have h1 : c ≠ delimiter := fun he => hdelimiter (he ▸ hc)
      have h2 : c ≠ '\n' := fun he => hfeed (he ▸ hc)
      simp [endsField, h1, h2]
    have htake := takePlain_append hd hplain hlast h
    have hstart : ∀ r, t ++ returns ++ rest ≠ '"' :: r := by
      intro r he
      cases t with
      | cons c t => exact hhead (by rw [List.cons_append, List.cons_append] at he; simp [(List.cons.inj he).1])
      | nil =>
        cases hr : returns with
        | cons c _ =>
          rw [hr] at he
          have hc := h.returns_only c (by simp [hr])
          rw [hc] at he
          simp at he
        | nil =>
          rw [hr] at he
          have := h.ends '"' (by rw [List.nil_append, List.nil_append] at he; simp [he])
          simp [endsField, Ne.symm hd.ne_quote] at this
    simp only [Field.write, Bool.false_eq_true, if_false]
    rw [takeField]
    · rw [htake]
    · exact hstart

/-! ## Records -/

/-- The field before the end of the text is the last. -/
theorem takeFields_stop {t : List Char} {field : List Char} (h : takeField delimiter t = some (field, [])) :
    takeFields delimiter t = some ([field], []) := by
  rw [takeFields]
  split <;> simp_all

/-- The field before a line feed is the last of its record. -/
theorem takeFields_feed {t r : List Char} {field : List Char} (hd : Separates delimiter)
    (h : takeField delimiter t = some (field, '\n' :: r)) : takeFields delimiter t = some ([field], '\n' :: r) := by
  rw [takeFields]
  split <;> simp_all [Ne.symm hd.ne_feed]

/-- Behind a delimiter come the other fields of the record. -/
theorem takeFields_next {t r : List Char} {field : List Char} (h : takeField delimiter t = some (field, delimiter :: r)) :
    takeFields delimiter t = (takeFields delimiter r).map fun (fields, u) => (field :: fields, u) := by
  rw [takeFields]
  split <;> simp_all

/-- The fields of a record come back from what was written of them. -/
theorem takeFields_write (hd : Separates delimiter) {fields : List Field} (hne : fields ≠ [])
    (hfit : ∀ f ∈ fields, f.Fits delimiter) {returns rest : List Char} (hreturns : ∀ c ∈ returns, c = '\r')
    (hrest : ∀ c, rest.head? = some c → c = '\n') :
    takeFields delimiter (Line.writeFields delimiter fields ++ returns ++ rest) = some (fields.map (·.text), rest) := by
  induction fields with
  | nil => exact absurd rfl hne
  | cons f more ih =>
    have hf := hfit f List.mem_cons_self
    cases more with
    | nil =>
      have hfollows : Follows delimiter returns rest := ⟨hreturns, fun c hc => by simp [endsField, hrest c hc]⟩
      have hfield := takeField_write hd hf hfollows
      cases rest with
      | nil => exact takeFields_stop hfield
      | cons c r =>
        obtain rfl := hrest c rfl
        exact takeFields_feed hd hfield
    | cons g more =>
      have hfollows : Follows delimiter [] (delimiter :: (Line.writeFields delimiter (g :: more) ++ returns ++ rest)) :=
        ⟨by simp, fun c hc => by simp [endsField, ← Option.some.inj hc]⟩
      have hfield := takeField_write hd hf hfollows
      have hmore := ih (by simp) fun x hx => hfit x (List.mem_cons_of_mem f hx)
      have hsplit : Line.writeFields delimiter (f :: g :: more) ++ returns ++ rest =
          f.write ++ [] ++ delimiter :: (Line.writeFields delimiter (g :: more) ++ returns ++ rest) := by
        simp [Line.writeFields]
      rw [hsplit, takeFields_next hfield, hmore]
      rfl

/-! ## Lines -/

theorem isBlank_of_forall {t : List Char} (ht : ∀ c ∈ t, Text.isBlank c = true) : isBlank [t] = true := by
  rw [isBlank, Text.trim_eq_nil ht]
  rfl

/-- The fields of a record are not passed over. -/
theorem isBlank_record {fields : List Field} (h : (Line.record fields).Fits delimiter) :
    isBlank (fields.map (·.text)) = false := by
  obtain ⟨-, -, hone⟩ := h
  unfold isBlank
  split
  · next t ht =>
    obtain ⟨f, rfl, rfl⟩ : ∃ f, fields = [f] ∧ f.text = t := by simpa [List.map_eq_singleton_iff] using ht
    obtain ⟨c, hc, hb⟩ := hone f List.mem_cons_self rfl
    have hne := List.ne_nil_of_mem (Text.mem_trim hc hb)
    simpa using hne
  · rfl

/-- A line of blanks is read as one field of blanks. -/
theorem takeFields_blank (hd : Separates delimiter) {t : List Char} (h : (Line.blank t).Fits delimiter)
    {returns rest : List Char} (hreturns : ∀ c ∈ returns, c = '\r') (hrest : ∀ c, rest.head? = some c → c = '\n') :
    ∃ field, takeFields delimiter (t ++ returns ++ rest) = some ([field], rest) ∧ isBlank [field] = true := by
  have hblank : ∀ c ∈ t ++ returns, Text.isBlank c = true := by
    intro c hc
    rcases List.mem_append.1 hc with hc | hc
    · exact (h c hc).1
    · rw [hreturns c hc]
      decide
  have hrun : ∀ c ∈ t ++ returns, (!endsField delimiter c) = true := by
    intro c hc
    rcases List.mem_append.1 hc with hc | hc
    · simp [endsField, (h c hc).2.1, (h c hc).2.2]
    · rw [hreturns c hc]
      simp [endsField, Ne.symm hd.ne_return]
  have hstop : ∀ c, rest.head? = some c → (!endsField delimiter c) = false := by
    intro c hc
    simp [endsField, hrest c hc]
  have hfield : takeField delimiter (t ++ returns ++ rest) =
      some (Text.dropEndWhile (· == '\r') (t ++ returns), rest) := by
    rw [takeField]
    · rw [takePlain, Text.takeWhile_append_of_stops hrun hstop, Text.dropWhile_append_of_stops hrun hstop]
    · intro r he
      have hhead : (t ++ returns ++ rest).head? = some '"' := by rw [he]; rfl
      rw [List.head?_append, Option.or_eq_some_iff] at hhead
      rcases hhead with hhead | ⟨-, hhead⟩
      · have := hblank '"' (List.mem_of_mem_head? hhead)
        simp [Text.isBlank] at this
      · have := hrest '"' hhead
        simp at this
  refine ⟨Text.dropEndWhile (· == '\r') (t ++ returns), ?_,
    isBlank_of_forall fun c hc => hblank c (Text.subset_dropEndWhile _ _ hc)⟩
  cases rest with
  | nil => exact takeFields_stop hfield
  | cons c r =>
    obtain rfl := hrest c rfl
    exact takeFields_feed hd hfield

/-- Whatever a line holds, its fields are read up to the line end, and kept if they are a record. -/
theorem takeFields_line (hd : Separates delimiter) {l : Line} (h : l.Fits delimiter) (returns rest : List Char)
    (hreturns : ∀ c ∈ returns, c = '\r') (hrest : ∀ c, rest.head? = some c → c = '\n') :
    ∃ fields, takeFields delimiter (l.write delimiter ++ returns ++ rest) = some (fields, rest) ∧
      ∀ before records, (if isBlank fields then records else ⟨1 + before.count '\n', fields⟩ :: records) =
        l.numbered before ++ records := by
  cases l with
  | record fields =>
    refine ⟨_, takeFields_write hd h.1 h.2.1 hreturns hrest, fun before records => ?_⟩
    rw [isBlank_record h]
    rfl
  | blank t =>
    obtain ⟨field, hfields, hblank⟩ := takeFields_blank hd h hreturns hrest
    refine ⟨_, hfields, fun before records => ?_⟩
    rw [hblank]
    rfl

/-! ## Sheets -/

/-- One pass of the reader over a piece of text that ends a record, whatever comes of the text after it. -/
theorem readFrom_pass {line : Nat} {piece rest u : List Char} {fields : List (List Char)} (hpiece : piece ≠ [])
    (hfields : takeFields delimiter (piece ++ rest) = some (fields, u)) (hu : dropLineFeed u = rest) :
    readFrom delimiter line (piece ++ rest) = (readFrom delimiter (line + piece.count '\n') rest).map fun records =>
      if isBlank fields then records else ⟨line, fields⟩ :: records := by
  have hpos : 0 < piece.length := List.length_pos_iff.2 hpiece
  have hlt : rest.length < (piece ++ rest).length := by
    rw [List.length_append]
    omega
  have htake : (piece ++ rest).take ((piece ++ rest).length - rest.length) = piece := by simp
  rw [readFrom, if_neg (by simp [hpiece])]
  simp only [hfields, hu]
  rw [dif_pos hlt, htake]
  cases readFrom delimiter (line + piece.count '\n') rest with
  | error e => rfl
  | ok records => rfl

/-- A pass before a text that is read. -/
theorem readFrom_append {line : Nat} {piece rest u : List Char} {fields : List (List Char)} {records : List Numbered}
    (hpiece : piece ≠ []) (hfields : takeFields delimiter (piece ++ rest) = some (fields, u)) (hu : dropLineFeed u = rest)
    (hrest : readFrom delimiter (line + piece.count '\n') rest = .ok records) :
    readFrom delimiter line (piece ++ rest) = .ok (if isBlank fields then records else ⟨line, fields⟩ :: records) := by
  rw [readFrom_pass hpiece hfields hu, hrest]
  rfl

/-- A line and its end make one pass of the reader. -/
theorem readFrom_line (hd : Separates delimiter) {l : Line} (h : l.Fits delimiter) (e : LineEnd) {before rest : List Char}
    {records : List Numbered}
    (hrest : readFrom delimiter (1 + (before ++ (l.write delimiter ++ e.write)).count '\n') rest = .ok records) :
    readFrom delimiter (1 + before.count '\n') (l.write delimiter ++ e.write ++ rest) =
      .ok (l.numbered before ++ records) := by
  obtain ⟨returns, hreturns, he⟩ : ∃ returns : List Char, (∀ c ∈ returns, c = '\r') ∧ e.write = returns ++ ['\n'] := by
    cases e with
    | lf => exact ⟨[], by simp, rfl⟩
    | crlf => exact ⟨['\r'], by simp, rfl⟩
  obtain ⟨fields, hfields, hkeep⟩ := takeFields_line hd h returns ('\n' :: rest) hreturns (by simp)
  have hsplit : l.write delimiter ++ e.write ++ rest = l.write delimiter ++ returns ++ '\n' :: rest := by simp [he]
  rw [← hsplit] at hfields
  rw [List.count_append, ← Nat.add_assoc] at hrest
  rw [readFrom_append (by simp [he]) hfields rfl hrest, hkeep]

/-- A last line without an end makes the last pass of the reader, unless nothing stands on it. -/
theorem readFrom_last (hd : Separates delimiter) {l : Line} (h : l.Fits delimiter) (before : List Char) :
    readFrom delimiter (1 + before.count '\n') (l.write delimiter) = .ok (l.numbered before) := by
  obtain ⟨fields, hfields, hkeep⟩ := takeFields_line hd h [] [] (by simp) (by simp)
  have hk := hkeep before []
  rw [List.append_nil] at hk hfields
  by_cases hnil : l.write delimiter = []
  · have hempty : takeFields delimiter ([] ++ []) = some ([[]], []) := takeFields_stop rfl
    rw [hnil] at hfields ⊢
    rw [hfields] at hempty
    obtain ⟨rfl, -⟩ := Prod.mk.inj (Option.some.inj hempty)
    rw [readFrom, if_pos rfl, ← hk]
    rfl
  · have hend : readFrom delimiter (1 + before.count '\n' + (l.write delimiter).count '\n') [] = .ok [] := by
      rw [readFrom, if_pos rfl]
    have hread := readFrom_append hnil hfields rfl hend
    rw [hk, List.append_nil] at hread
    exact hread

/-- Lines are read one after the other. -/
theorem readFrom_lines (hd : Separates delimiter) {last? : Option Line} (hlast : ∀ l, last? = some l → l.Fits delimiter)
    {lines : List (Line × LineEnd)} (hlines : ∀ l ∈ lines.map (·.1), l.Fits delimiter) (before : List Char) :
    readFrom delimiter (1 + before.count '\n')
      (Sheet.writeLines delimiter lines ++ (last?.map (·.write delimiter)).getD []) =
        .ok (Sheet.numberedFrom delimiter before last? lines) := by
  induction lines generalizing before with
  | nil =>
    cases last? with
    | none => exact (readFrom.eq_def _ _ _).trans (if_pos rfl)
    | some l => exact readFrom_last hd (hlast l rfl) before
  | cons line rest ih =>
    obtain ⟨l, e⟩ := line
    have hl : l.Fits delimiter := hlines l (by simp)
    have hrest := ih (fun x hx => hlines x (by simp at hx ⊢; exact Or.inr hx)) (before ++ (l.write delimiter ++ e.write))
    rw [Sheet.writeLines, List.flatMap_cons, List.append_assoc]
    exact readFrom_line hd hl e hrest

/-- A sheet reads back as its records, each on the line it begins on, with a byte order mark before it or without. -/
theorem read_write (hd : Separates delimiter) {s : Sheet} (hs : s.Fits delimiter)
    (hmark : (s.write delimiter).head? ≠ some '\ufeff') :
    read delimiter (s.write delimiter) = .ok (s.records delimiter) ∧
      read delimiter ('\ufeff' :: s.write delimiter) = .ok (s.records delimiter) := by
  have hlast : ∀ l, s.last? = some l → l.Fits delimiter := fun l hl => hs l (by simp [hl])
  have hlines := readFrom_lines hd hlast (fun l hl => hs l (List.mem_append_left _ hl)) []
  have hdrop : dropByteOrderMark (s.write delimiter) = s.write delimiter := by
    unfold dropByteOrderMark
    split
    · next r hr =>
      rw [hr] at hmark
      exact absurd rfl hmark
    · rfl
  constructor
  · rw [read, hdrop]
    exact hlines
  · exact hlines

/-- Guests with their addresses and remarks: a comma, quotes, a line feed and carriage returns stand in fields, lines are blank,
and the last does not end. -/
def guests : Sheet where
  lines := [
    (.record [⟨['n', 'a', 'm', 'e'], false⟩, ⟨['n', 'o', 't', 'e'], true⟩], .lf),
    (.blank [' ', '\t'], .crlf),
    (.record [⟨['H', 'a', 'y', ',', ' ', 'J'], true⟩, ⟨['"', 'h', 'i', '"'], true⟩], .crlf),
    (.record [⟨['u', 'p', '\n', 'd', 'o', 'w', 'n', '\r'], true⟩, ⟨[], false⟩], .lf)]
  last? := some (.record [⟨['a', '\r', '"'], false⟩, ⟨['b'], false⟩])

/-- The guests are read as they are written, with the numbers of the lines on which their records begin, and so behind a byte
order mark. -/
theorem read_write_guests : Separates ',' ∧ guests.Fits ',' ∧ (guests.write ',').head? ≠ some '\ufeff' ∧
    (guests.records ',').map (·.line) = [1, 3, 4, 6] ∧
    read ',' (guests.write ',') = .ok (guests.records ',') ∧
      read ',' ('\ufeff' :: guests.write ',') = .ok (guests.records ',') := by
  have hd : Separates ',' := ⟨by decide, by decide, by decide⟩
  have hfits : guests.Fits ',' := by decide
  have hmark : (guests.write ',').head? ≠ some '\ufeff' := by decide
  exact ⟨hd, hfits, hmark, by decide, read_write hd hfits hmark⟩

end FirstMatch.Record
