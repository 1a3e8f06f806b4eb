import FirstMatch.Interchange.Codec
import FirstMatch.Proofs.Dataset
import FirstMatch.Proofs.Filter.Conjunction
import FirstMatch.Proofs.Text.Trimming

/-!
# Texts listed as values

A list of values should hold no text that a dataset would take for a number: such a text is coerced when a predicate is added to
criteria (`Predicate.coerced_reread`), and joining criteria keeps that (`Criteria.coerced_and`). Criteria that are decoded are taken
as they are, and any criteria can be decoded (`Criteria.ofDocument?_toDocument`). So criteria are coerced exactly if those decoded on
the way are (`Criteria.coerced_iff_decoded`), and an element that is not coerced matches no cell that is read.
-/

namespace FirstMatch

/-! ## Values -/

namespace Value

/-- The value with its text read as a cell is. -/
def reread : Value → Value
  | text s => ofToken s.toList
  | number x => number x

/-- Its text, if it is one, has no blanks around it and writes no finite number. -/
def Coerced (v : Value) : Prop :=
  ∀ s, v = text s → Text.trim s.toList = s.toList ∧ ∀ x, Decimal.readFloat? s.toList = some x → x.isFinite = false

@[simp] theorem coerced_number (x : Float) : (number x).Coerced := by
  intro s h
  cases h

/-- What a token writes is coerced. -/
theorem coerced_ofToken (token : List Char) : (ofToken token).Coerced := by
  intro s h
  simp only [ofToken] at h
  split at h
  · next x hx =>
    split at h
    · cases h
    · next hfinite =>
      cases h
      rw [String.toList_ofList, Text.trim_trim, hx]
      refine ⟨rfl, fun y hy => ?_⟩
      rw [← Option.some.inj hy]
      exact Bool.eq_false_iff.2 hfinite
  · next hnone =>
    cases h
    rw [String.toList_ofList, Text.trim_trim, hnone]
    exact ⟨rfl, fun y hy => by cases hy⟩

/-- A text read as a cell is a number, or stays a text that is no number. -/
theorem coerced_reread (v : Value) : v.reread.Coerced := by
  cases v with
  | number x => exact coerced_number x
  | text s => exact coerced_ofToken s.toList

/-- A coerced value stays itself. -/
theorem reread_of_coerced {v : Value} (h : v.Coerced) : v.reread = v := by
  cases v with
  | number x => rfl
  | text s =>
    obtain ⟨htrim, hfinite⟩ := h s rfl
    unfold reread ofToken
    simp only [htrim, String.ofList_toList]
    split
    · next x hx => rw [hfinite x hx, if_neg Bool.false_ne_true]
    · rfl

/-- What equals a coerced value is coerced. -/
theorem Coerced.of_beq {v w : Value} (hv : v.Coerced) (h : (v == w) = true) : w.Coerced := by
  cases w with
  | number y => exact coerced_number y
  | text t => rwa [← beq_text_iff.1 h]

end Value

/-! ## Predicates -/

namespace Predicate

/-- Every value that it lists is coerced. -/
def Coerced (p : Predicate) : Prop := ∀ values, p = oneOf values → ∀ v ∈ values, v.Coerced

theorem coerced_oneOf {values : List Value} : (oneOf values).Coerced ↔ ∀ v ∈ values, v.Coerced := by
  constructor
  · intro h
    exact h values rfl
  · rintro h _ ⟨⟩
    exact h

theorem reread_oneOf (values : List Value) : (oneOf values).reread = oneOf (values.map Value.reread) := by
  unfold reread
  refine congrArg oneOf (List.map_congr_left fun v _ => ?_)
  cases v <;> rfl

/-- A predicate whose values are read again is coerced. -/
theorem coerced_reread (p : Predicate) : p.reread.Coerced := by
  cases p with
  | atLeast bound => intro values h; cases h
  | atMost bound => intro values h; cases h
  | oneOf values =>
    rw [reread_oneOf, coerced_oneOf]
    intro v hv
    obtain ⟨w, -, rfl⟩ := List.mem_map.1 hv
    exact w.coerced_reread

/-- Lists of coerced values are those that admit what some value of theirs is coerced to. -/
theorem coerced_oneOf_iff_admits {values : List Value} : (oneOf values).Coerced ↔
    ∀ v, (oneOf values).admits (some v) = true ↔ ∃ w ∈ values, (v == w.reread) = true := by
  rw [coerced_oneOf]
  constructor
  · intro h v
    rw [admits_oneOf_iff]
    refine exists_congr fun w => and_congr_right fun hw => ?_
    rw [Value.reread_of_coerced (h w hw)]
  · intro h v hv
    cases v with
    | number x => exact Value.coerced_number x
    | text s =>
      have hself : (oneOf values).admits (some (.text s)) = true := admits_oneOf_iff.2 ⟨.text s, hv, beq_self_eq_true s⟩
      obtain ⟨w, -, hw⟩ := (h (.text s)).1 hself
      rw [← Value.beq_text_iff.1 (PartialEquivBEq.symm hw)]
      exact w.coerced_reread

/-- Of what a predicate lists, only coerced values admit coerced cells. -/
theorem admits_oneOf_of_coerced {values : List Value} {v : Value} (hv : v.Coerced) :
    (oneOf values).admits (some v) = true ↔ ∃ w ∈ values, w.Coerced ∧ (v == w) = true := by
  rw [admits_oneOf_iff]
  refine exists_congr fun w => and_congr_right fun _ => ⟨fun h => ⟨hv.of_beq h, h⟩, And.right⟩

end Predicate

/-! ## Criteria -/

namespace Criteria

/-- Every predicate is coerced. -/
def Coerced (c : Criteria) : Prop := ∀ e ∈ c.entries, ∀ p ∈ e.2, p.Coerced

theorem coerced_empty : empty.Coerced := by
  intro e he
  cases he

/-- Further predicates are coerced if they and the others are. -/
theorem coerced_extend (c : Criteria) (name : String) (ps : List Predicate) :
    (c.extend name ps).Coerced ↔ (∀ p ∈ ps, p.Coerced) ∧ c.Coerced :=
  forall_extendEntries (R := fun _ ps => ∀ p ∈ ps, p.Coerced) (fun _ _ _ => List.forall_mem_append) name ps c.entries

/-- A predicate that is added is coerced. -/
theorem coerced_add (c : Criteria) (name : String) (p : Predicate) : (c.add name p).Coerced ↔ c.Coerced := by
  unfold add
  rw [coerced_extend, List.forall_mem_singleton]
  exact and_iff_right p.coerced_reread

/-- Criteria together are coerced if each of them are. -/
theorem coerced_and (a b : Criteria) : (a.and b).Coerced ↔ a.Coerced ∧ b.Coerced :=
  forall_and (R := fun _ ps => ∀ p ∈ ps, p.Coerced) (fun _ _ _ => List.forall_mem_append) a b

/-- Criteria that calls make, with the criteria decoded on the way. -/
inductive Made : Criteria → List Criteria → Prop where
  | empty : Made empty []
  | add {c : Criteria} {decoded : List Criteria} (name : String) (p : Predicate) (h : Made c decoded) :
      Made (c.add name p) decoded
  | atLeast {c : Criteria} {decoded : List Criteria} (name : String) (bound : Float) (h : Made c decoded) :
      Made (c.atLeast name bound) decoded
  | atMost {c : Criteria} {decoded : List Criteria} (name : String) (bound : Float) (h : Made c decoded) :
      Made (c.atMost name bound) decoded
  | oneOf {c : Criteria} {decoded : List Criteria} (name : String) (values : List Value) (h : Made c decoded) :
      Made (c.oneOf name values) decoded
  | and {a b : Criteria} {fromA fromB : List Criteria} (ha : Made a fromA) (hb : Made b fromB) :
      Made (a.and b) (fromA ++ fromB)
  | decode {c : Criteria} (d : Document) (h : ofDocument? d = some c) : Made c [c]

/-- Criteria are coerced exactly if those decoded on the way are: no other call takes a text as it is. -/
theorem Made.coerced_iff {c : Criteria} {decoded : List Criteria} (h : Made c decoded) :
    c.Coerced ↔ ∀ d ∈ decoded, d.Coerced := by
  induction h with
  | empty => exact iff_of_true coerced_empty (List.forall_mem_nil _)
  | add name p _ ih => exact (coerced_add _ name p).trans ih
  | atLeast name bound _ ih => exact (coerced_add _ name _).trans ih
  | atMost name bound _ ih => exact (coerced_add _ name _).trans ih
  | oneOf name values _ ih => exact (coerced_add _ name _).trans ih
  | and _ _ iha ihb => rw [coerced_and, iha, ihb, List.forall_mem_append]
  | decode d _ => exact List.forall_mem_singleton.symm

end Criteria

/-! ## Criteria as documents -/

/-- What is written item by item is read item by item. -/
theorem mapM_map_of_inverse {α β : Type} (read : β → Option α) (write : α → β) (xs : List α)
    (h : ∀ x ∈ xs, read (write x) = some x) : (xs.map write).mapM read = some xs := by
  induction xs with
  | nil => rfl
  | cons x rest ih =>
    rw [List.map_cons, List.mapM_cons, h x List.mem_cons_self, ih fun y hy => h y (List.mem_cons_of_mem x hy)]
    rfl

/-- A value is decoded as it was before it was made a document. -/
theorem Value.ofDocument?_toDocument (v : Value) : ofDocument? v.toDocument = some v := by
  cases v <;> rfl

/-- A predicate is decoded as it was before it was made a document. -/
theorem Predicate.ofDocument?_toDocument (p : Predicate) : ofDocument? p.toDocument = some p := by
  cases p with
  | atLeast bound => rfl
  | atMost bound => rfl
  | oneOf values =>
    have hvalues := mapM_map_of_inverse _ _ values fun v _ => v.ofDocument?_toDocument
    exact congrArg (Option.map oneOf) hvalues

namespace Criteria

/-- An entry of a later name goes to the end. -/
theorem extendEntries_of_later {name : String} {ps : List Predicate} {entries : List CriteriaEntry}
    (h : ∀ e ∈ entries, e.1 < name) : extendEntries name ps entries = entries ++ [(name, ps)] := by
  induction entries with
  | nil => rfl
  | cons e rest ih =>
    have he := h e List.mem_cons_self
    rw [extendEntries, if_neg (String.lt_asymm he), if_neg (String.ne_of_lt he),
      ih fun x hx => h x (List.mem_cons_of_mem e hx)]
    rfl

/-- Predicates for a later name go to the end, also where they replace others. -/
theorem entries_replace_of_later {c : Criteria} {name : String} {ps : List Predicate} (h : ∀ e ∈ c.entries, e.1 < name) :
    (c.replace name ps).entries = c.entries ++ [(name, ps)] := by
  have hothers : c.entries.filter (·.1 ≠ name) = c.entries := by
    rw [List.filter_eq_self]
    intro e he
    exact decide_eq_true (String.ne_of_lt (h e he))
  unfold replace extend
  dsimp only
  rw [hothers]
  exact extendEntries_of_later h

/-- Entries in the order of their names are those of the criteria made of them. -/
theorem entries_ofEntries {entries : List CriteriaEntry} (h : ByName entries) : (ofEntries entries).entries = entries := by
  have hfold : ∀ (rest : List CriteriaEntry) (c : Criteria), ByName (c.entries ++ rest) →
      (rest.foldl (fun c e => c.replace e.1 e.2) c).entries = c.entries ++ rest := by
    intro rest
    induction rest with
    | nil => intro c _; simp
    | cons e rest ih =>
      intro c hc
      have hlater : ∀ x ∈ c.entries, x.1 < e.1 := by
        intro x hx
        exact (List.pairwise_append.1 hc).2.2 x hx e List.mem_cons_self
      have hreplace : (c.replace e.1 e.2).entries = c.entries ++ [e] := entries_replace_of_later hlater
      have hsplit : c.entries ++ e :: rest = (c.replace e.1 e.2).entries ++ rest := by
        rw [hreplace, List.append_assoc]
        rfl
      rw [hsplit] at hc ⊢
      exact ih _ hc
  exact hfold entries empty h

/-- Criteria are made of their entries. -/
theorem ofEntries_entries (c : Criteria) : ofEntries c.entries = c := by
  have h := entries_ofEntries c.byName
  generalize ofEntries c.entries = made at h
  cases made
  cases c
  cases h
  rfl

/-- Criteria that are encoded decode to themselves, so any criteria can be decoded. -/
theorem ofDocument?_toDocument (c : Criteria) : ofDocument? c.toDocument = some c := by
  have hentry : ∀ e ∈ c.entries,
      ((Document.list (e.2.map Predicate.toDocument)).list? Predicate.ofDocument?).map (e.1, ·) = some e := by
    intro e _
    have hps := mapM_map_of_inverse _ _ e.2 fun p _ => p.ofDocument?_toDocument
    exact congrArg (Option.map (e.1, ·)) hps
  have hentries := mapM_map_of_inverse (fun f => (f.2.list? Predicate.ofDocument?).map (f.1, ·))
    (fun e => (e.1, Document.list (e.2.map Predicate.toDocument))) c.entries hentry
  have hfields (entries : Document) : (Document.record [("entries", entries)]).fields? ["entries"] = some [some entries] := rfl
  unfold ofDocument? toDocument
  rw [hfields]
  refine (congrArg (Option.map ofEntries) hentries).trans ?_
  rw [Option.map_some, ofEntries_entries]

/-- Whether criteria are coerced, in four parts.
1. However they are made, they are coerced exactly if the criteria decoded on the way are; so they are if none were decoded.
2. They can be decoded, coerced or not, and are taken as they are.
3. They are coerced exactly if each list of values in them admits what some value of it is coerced to, and nothing else.
4. In a dataset that is read, a value of theirs that is not coerced admits no cell: a list admits what equals one of its coerced
   values. -/
theorem coerced_iff_decoded (c : Criteria) :
    (∀ decoded, Made c decoded → (c.Coerced ↔ ∀ d ∈ decoded, d.Coerced)) ∧
    (ofDocument? c.toDocument = some c ∧ Made c [c]) ∧
    (c.Coerced ↔ ∀ e ∈ c.entries, ∀ values, .oneOf values ∈ e.2 →
      ∀ v, (Predicate.oneOf values).admits (some v) = true ↔ ∃ w ∈ values, (v == w.reread) = true) ∧
    ∀ e ∈ c.entries, ∀ values, .oneOf values ∈ e.2 →
      ∀ (text : String) (delimiter : Char) (label : String) (d : Dataset), Dataset.read text delimiter label = .ok d →
        ∀ row ∈ d.rows, ∀ i, (Predicate.oneOf values).admits (row.cell i) = true ↔
          ∃ v, row.cell i = some v ∧ ∃ w ∈ values, w.Coerced ∧ (v == w) = true := by
  have hdecode := ofDocument?_toDocument c
  refine ⟨fun decoded h => h.coerced_iff, ⟨hdecode, .decode _ hdecode⟩, ?_, ?_⟩
  · unfold Coerced
    refine forall₂_congr fun e _ => ?_
    constructor
    · intro h values hvalues
      exact Predicate.coerced_oneOf_iff_admits.1 (h _ hvalues)
    · rintro h p hp values rfl
      exact Predicate.coerced_oneOf.1 (Predicate.coerced_oneOf_iff_admits.2 (h values hp))
  · intro e _ values _ text delimiter label d hd row hrow i
    constructor
    · intro h
      obtain ⟨v, hv⟩ := Predicate.exists_of_admits h
      obtain ⟨token, rfl⟩ := Dataset.exists_token_of_read hd hrow hv
      rw [hv] at h
      exact ⟨_, hv, (Predicate.admits_oneOf_of_coerced (Value.coerced_ofToken token)).1 h⟩
    · rintro ⟨v, hv, w, hw, -, hvw⟩
      rw [hv]
      exact Predicate.admits_oneOf_iff.2 ⟨w, hw, hvw⟩

/-- A document that lists the text of a number. -/
def listedFive : Document := .record [("entries", .record [("age", .list [.record [("OneOf", .list [.record [("Text", .text "5")]])]])])]

/-- The age five, listed as a text in a document, is not coerced and matches no cell; listed by a call it matches. -/
theorem decoded_text_unread : ∃ c d, ofDocument? listedFive = some c ∧ Made c [c] ∧ ¬c.Coerced ∧
    Dataset.ofRows ["age", "label"] [⟨[some (.number 5), some (.text "yes")]⟩, ⟨[some (.number 6), some (.text "no")]⟩] "label" =
      .ok d ∧
    c.apply d [0, 1] = .ok [] ∧ (empty.oneOf "age" [.text "5"]).apply d [0, 1] = .ok [0] := by
  refine ⟨_, _, rfl, .decode listedFive rfl, ?_, rfl, rfl, rfl⟩
  intro h
  obtain ⟨-, hfinite⟩ := h ("age", [.oneOf [.text "5"]]) List.mem_cons_self _ List.mem_cons_self _ rfl _ List.mem_cons_self "5" rfl
  exact absurd (hfinite 5 rfl) (by decide)

end Criteria

end FirstMatch
