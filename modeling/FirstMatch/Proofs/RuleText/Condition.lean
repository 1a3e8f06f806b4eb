import FirstMatch.Proofs.Decimal
import FirstMatch.Proofs.DecisionList
import FirstMatch.Proofs.Text.Cutting
import FirstMatch.Proofs.Text.Trimming
import FirstMatch.RuleText.Writing

/-!
# Reading written conditions

An operator is found between two texts without signs (`findOperator_append`), so a condition that is written reads as what it says
(`readCondition_write`). Between conditions the word is found unless the feature of the next holds it; the fragments of such a
feature are glued until the operator follows (`gather_fragments`). So a body is split into its conditions wherever each stays whole
(`splitConditions_intercalate`), as one does after whose operator the word is not written (`staysWhole_of_spelling`).
-/

namespace FirstMatch

/-! ## Values -/

/-- What a value is written as: not empty, without blanks around it, on one line. -/
structure Text.Token (t : List Char) : Prop where
  ne_nil : t ≠ []
  trimmed : Trimmed t
  one_line : '\n' ∉ t

theorem Decimal.IsNumeric.isBlank {ch : Char} (h : Decimal.IsNumeric ch) : Text.isBlank ch = false := by
  rcases h with h | h
  · simp only [Char.isDigit, Bool.and_eq_true, decide_eq_true_eq] at h
    have h1 : 48 ≤ ch.toNat := h.1
    have h2 : ch.toNat ≤ 57 := h.2
    simp only [Text.isBlank, Bool.or_eq_false_iff, Bool.and_eq_false_iff, beq_eq_false_iff_ne, decide_eq_false_iff_not]
    omega
  · fin_cases h <;> decide

namespace Value

/-- A legible value is written as a token. -/
theorem Legible.token {v : Value} (h : v.Legible) : Text.Token v.render.toList := by
  cases v with
  | number x =>
    obtain ⟨hne, hnumeric⟩ := Decimal.text_numeric x
    have hblank : ∀ ch ∈ (Decimal.text x).toList, Text.isBlank ch = false := fun ch hch => (hnumeric ch hch).isBlank
    exact ⟨hne, Text.trimmed_of_forall hblank, fun hn => absurd (hblank _ hn) (by decide)⟩
  | text s => exact ⟨h.1, Text.trimmed_of_trim h.2.1, h.2.2.1⟩

/-- A text that is the text of no number at all is legible. -/
theorem legible_text {s : String} (hne : s.toList ≠ []) (htrim : Text.trim s.toList = s.toList) (hline : '\n' ∉ s.toList)
    (hread : Decimal.readFloat? s.toList = none) : (text s).Legible := by
  refine ⟨hne, htrim, hline, fun x hx => ?_⟩
  rw [hread] at hx
  cases hx

/-- A legible value is read from its text. -/
theorem Legible.ofToken_render {v : Value} (h : v.Legible) : Value.ofToken v.render.toList = v := by
  have htrim : Text.trim v.render.toList = v.render.toList :=
    Text.trim_eq_self h.token.trimmed.start h.token.trimmed.stop
  rw [Value.ofToken, htrim]
  cases v with
  | number x =>
    have hread : Decimal.readFloat? (number x).render.toList = some x := h.2
    rw [hread]
    exact if_pos h.1
  | text s =>
    rw [render]
    cases hx : Decimal.readFloat? s.toList with
    | none => simp
    | some x => simp [h.2.2.2 x hx]

end Value

open RuleText

namespace RuleText

/-! ## Operators -/

section Operators

variable {a b : List Char}

theorem Signless.append (ha : Signless a) (hb : Signless b) : Signless (a ++ b) := List.forall_mem_append.2 ⟨ha, hb⟩

theorem signless_spaces (k : Nat) : Signless (List.replicate k ' ') := by
  intro ch hch
  rw [List.eq_of_mem_replicate hch]
  decide

/-- What is spelled with signs is found behind a text without signs where it is found alone. -/
theorem cutFirst_signless {p : List Char} (hne : p ≠ []) (hp : ∀ ch ∈ p, ch ∈ signs) (ha : Signless a) (s : List Char) :
    Text.cutFirst p (a ++ s) = (Text.cutFirst p s).map fun (before, rest) => (a ++ before, rest) := by
  refine Text.cutFirst_append fun t ht hsuffix => ?_
  obtain ⟨d, p, rfl⟩ := List.exists_cons_of_ne_nil hne
  exact Text.not_prefix_of_head ht fun hm => ha d (hsuffix.subset hm) (hp d List.mem_cons_self)

/-- So it is between two such texts. -/
theorem cutFirst_signs {p : List Char} (hne : p ≠ []) (hp : ∀ ch ∈ p, ch ∈ signs) (ha : Signless a) (hb : Signless b)
    (s : List Char) :
    Text.cutFirst p (a ++ (s ++ b)) = (Text.cutFirst p s).map fun (before, rest) => (a ++ before, rest ++ b) := by
  rw [cutFirst_signless hne hp ha]
  cases hcut : Text.cutFirst p s with
  | some found => rw [Text.cutFirst_append_right hne hcut, Option.map_some, Option.map_some]
  | none =>
    have hright : ¬p <:+: s ++ b := by
      rw [Text.cutFirst_eq_none_iff] at hcut
      obtain ⟨p, d, rfl⟩ := List.eq_nil_or_concat p |>.resolve_left hne
      rw [List.concat_eq_append] at hcut hp ⊢
      exact Text.not_infix_append_of_last (fun hm => hb d hm (hp d (by simp))) hcut
    rw [Text.cutFirst_eq_none_iff.2 hright, Option.map_none, Option.map_none]

theorem isBlank_of_mem_signs {ch : Char} (h : ch ∈ signs) : Text.isBlank ch = false := by
  fin_cases h <;> rfl

/-- Operators are spelled in signs. -/
theorem spellings_signs : ∀ p ∈ Operator.spellings, p.1 ≠ [] ∧ ∀ ch ∈ p.1, ch ∈ signs := by
  simp [Operator.spellings, signs]

/-- A spelling begins with a sign and has no space. -/
theorem exists_sign {p : List Char × Operator} (hp : p ∈ Operator.spellings) :
    ∃ sign rest, p.1 = sign :: rest ∧ sign ∈ signs ∧ ' ' ∉ p.1 := by
  obtain ⟨hne, hsigns⟩ := spellings_signs p hp
  obtain ⟨sign, rest, hp⟩ := List.exists_cons_of_ne_nil hne
  exact ⟨sign, rest, hp, hsigns sign (by simp [hp]), fun hm => absurd (hsigns _ hm) (by decide)⟩

/-- A text cut at the first occurrence of one spelling of an operator. -/
def cutAt? (t : List Char) (p : List Char × Operator) : Option (List Char × Operator × List Char) :=
  (Text.cutFirst p.1 t).map fun cut => (cut.1, p.2, cut.2)

/-- The operator of a text is that of the first spelling it can be cut at. -/
theorem findOperator_eq_findSome (t : List Char) : findOperator? t = Operator.spellings.findSome? (cutAt? t) := rfl

/-- A text cannot be cut at a spelling that it does not hold. -/
theorem cutAt_eq_none_iff {t : List Char} {p : List Char × Operator} : cutAt? t p = none ↔ ¬p.1 <:+: t := by
  rw [cutAt?, Option.map_eq_none_iff, Text.cutFirst_eq_none_iff]

/-- A spelling is found behind a text without signs where it is found alone. -/
theorem cutAt_signless {p : List Char × Operator} (hp : p ∈ Operator.spellings) (ha : Signless a) (t : List Char) :
    cutAt? (a ++ t) p = (cutAt? t p).map fun found => (a ++ found.1, found.2) := by
  obtain ⟨hne, hsigns⟩ := spellings_signs p hp
  rw [cutAt?, cutAt?, cutFirst_signless hne hsigns ha, Option.map_map, Option.map_map]
  rfl

/-- A text that begins with a spelling is cut there. -/
theorem cutAt_self {p : List Char × Operator} (hp : p ∈ Operator.spellings) (t : List Char) :
    cutAt? (p.1 ++ t) p = some ([], p.2, t) := by
  obtain ⟨sign, rest, hsign, -⟩ := exists_sign hp
  rw [cutAt?, hsign, Text.cutFirst_self, Option.map_some]

/-- A text without an operator spells none. -/
theorem findOperator_eq_none_iff {t : List Char} : findOperator? t = none ↔ ∀ p ∈ Operator.spellings, ¬p.1 <:+: t := by
  simp only [findOperator_eq_findSome, List.findSome?_eq_none_iff, cutAt_eq_none_iff]

/-- What is found of an operator stands in the text between what is before it and what is after it. -/
theorem eq_of_findOperator {t before rest : List Char} {op : Operator} (h : findOperator? t = some (before, op, rest)) :
    ∃ spelling, (spelling, op) ∈ Operator.spellings ∧ t = before ++ spelling ++ rest := by
  obtain ⟨⟨spelling, op'⟩, hp, hcut⟩ := List.exists_of_findSome?_eq_some h
  obtain ⟨⟨b, r⟩, hcut, hfound⟩ := Option.map_eq_some_iff.1 hcut
  cases hfound
  exact ⟨spelling, hp, Text.eq_of_cutFirst hcut⟩

/-- Where each spelling is found as in another text, so is the operator. -/
theorem findOperator_congr {t s : List Char} {g : List Char × Operator × List Char → List Char × Operator × List Char}
    (h : ∀ p ∈ Operator.spellings, cutAt? t p = (cutAt? s p).map g) : findOperator? t = (findOperator? s).map g := by
  rw [findOperator_eq_findSome, findOperator_eq_findSome, List.map_findSome?, ← List.head?_filterMap, List.filterMap_congr h,
    List.head?_filterMap]
  rfl

/-- An operator is found between texts without signs where it is found alone. -/
theorem findOperator_append (ha : Signless a) (hb : Signless b) (s : List Char) :
    findOperator? (a ++ (s ++ b)) = (findOperator? s).map fun found => (a ++ found.1, found.2.1, found.2.2 ++ b) := by
  refine findOperator_congr fun p hp => ?_
  obtain ⟨hne, hsigns⟩ := spellings_signs p hp
  rw [cutAt?, cutAt?, cutFirst_signs hne hsigns ha hb, Option.map_map, Option.map_map]
  rfl

/-- Behind a text without an operator and a space, an operator is found where it is found without them. -/
theorem findOperator_append_space (ha : findOperator? a = none) (t : List Char) :
    findOperator? (a ++ ' ' :: t) = (findOperator? (' ' :: t)).map fun found => (a ++ found.1, found.2) := by
  refine findOperator_congr fun p hp => ?_
  obtain ⟨-, -, -, -, hspace⟩ := exists_sign hp
  rw [cutAt?, cutAt?, Text.cutFirst_append_cons hspace (findOperator_eq_none_iff.1 ha p hp), Option.map_map, Option.map_map]
  rfl

/-- No operator is found in a text without signs. -/
theorem findOperator_signless (ha : Signless a) : findOperator? a = none := by
  have h := findOperator_append ha (b := []) (by decide) []
  rwa [List.append_nil, List.append_nil] at h

end Operators

/-- A spelling of an operator and what follows it do not write the word between conditions, whatever part of a feature stands
before them, if what follows does not write it by itself. -/
theorem no_and_append {p : List Char × Operator} (hp : p ∈ Operator.spellings) {object v : List Char}
    (hobject : ¬andWord <:+: object ++ [' ']) (hv : ¬andWord <:+: v) : ¬andWord <:+: v ++ (p.1 ++ object) ++ [' '] := by
  obtain ⟨sign, rest, hp, hsign, hspace⟩ := exists_sign hp
  have htail : ¬andWord <:+: p.1 ++ (object ++ [' ']) := Text.not_infix_append hspace hobject
  have hletters : Signless andWord := by decide
  rw [hp] at htail ⊢
  simpa using Text.not_infix_append_cons (fun hm => hletters sign hm hsign) hv htail

/-- Where names do not hold the letters of the word between conditions, none is split at it. -/
theorem no_and_name {c : Catalog} {feature : String} (hcolumn : (c.column? feature).isSome = true) (hc : c.containsAnd = false)
    (spaces : Nat) : ¬andWord <:+: feature.toList ++ List.replicate spaces ' ' := by
  obtain ⟨i, hi⟩ := Option.isSome_iff_exists.1 hcolumn
  obtain ⟨hlt, hname, -⟩ := List.findIdx?_eq_some_iff_getElem.1 hi
  rw [Catalog.containsAnd, List.any_eq_false] at hc
  have hnot := hc _ (List.getElem_mem hlt)
  rw [decide_eq_true_eq] at hname
  rw [hname, Text.occurs, Bool.not_eq_true, Option.isSome_eq_false_iff, Option.isNone_iff_eq_none,
    Text.cutFirst_eq_none_iff] at hnot
  have hsubject : ¬['a', 'n', 'd'] <:+: feature.toList ++ List.replicate spaces ' ' := by
    show ¬(['a', 'n'] ++ ['d']) <:+: feature.toList ++ List.replicate spaces ' '
    exact Text.not_infix_append_of_last (fun hm => absurd (List.eq_of_mem_replicate hm) (by decide)) hnot
  exact fun hin => hsubject (List.IsInfix.trans ⟨[' '], [' '], rfl⟩ hin)

/-! ## Conditions -/

/-- A text reads as a condition if an operator is found in it with more than blanks on either side. -/
theorem readCondition_ok_iff {line : Nat} {t : List Char} {d : ConditionDraft} :
    readCondition line t = .ok d ↔ ∃ before rest, findOperator? t = some (before, d.op, rest) ∧ Text.trim before ≠ [] ∧
      Text.trim rest ≠ [] ∧ String.ofList (Text.trim before) = d.feature ∧ Value.ofToken (Text.trim rest) = d.value := by
  rw [readCondition]
  cases findOperator? t with
  | none => simp
  | some found =>
    obtain ⟨before, op, rest⟩ := found
    obtain ⟨feature, op', value⟩ := d
    simp only [Option.some.injEq, Prod.mk.injEq, Bool.or_eq_true, List.isEmpty_iff]
    split
    · next hempty =>
      simp only [reduceCtorEq, false_iff, not_exists]
      rintro b r ⟨⟨rfl, -, rfl⟩, hb, hr, -⟩
      exact hempty.elim hb hr
    · next hparts =>
      rw [not_or] at hparts
      simp only [Except.ok.injEq, ConditionDraft.mk.injEq]
      constructor
      · rintro ⟨rfl, rfl, rfl⟩
        exact ⟨before, rest, ⟨rfl, rfl, rfl⟩, hparts.1, hparts.2, rfl, rfl⟩
      · rintro ⟨b, r, ⟨rfl, rfl, rfl⟩, -, -, rfl, rfl⟩
        exact ⟨rfl, rfl, rfl⟩

/-- Texts read as conditions if each does. -/
theorem readConditions_map_iff {α : Type} {write : α → List Char} {draft : α → ConditionDraft} {xs : List α} {line : Nat} :
    readConditions line (xs.map write) = .ok (xs.map draft) ↔ ∀ x ∈ xs, readCondition line (write x) = .ok (draft x) := by
  induction xs with
  | nil => simp [readConditions]
  | cons x xs ih =>
    rw [List.map_cons, List.map_cons, readConditions, List.forall_mem_cons, ← ih]
    cases readCondition line (write x) with
    | error e => simp [bind, Except.bind]
    | ok d => cases readConditions line (xs.map write) <;> simp [bind, Except.bind, pure, Except.pure]

/-- Where texts read as conditions, each reads as one of them. -/
theorem exists_of_readConditions {line : Nat} {ts : List (List Char)} {ds : List ConditionDraft}
    (h : readConditions line ts = .ok ds) : ∀ t ∈ ts, ∃ d ∈ ds, readCondition line t = .ok d := by
  induction ts generalizing ds with
  | nil => simp
  | cons t rest ih =>
    obtain ⟨d, hd, h⟩ := bind_eq_ok.1 h
    obtain ⟨others, hothers, h⟩ := bind_eq_ok.1 h
    cases h
    refine List.forall_mem_cons.2 ⟨⟨d, List.mem_cons_self, hd⟩, fun u hu => ?_⟩
    obtain ⟨e, he, hread⟩ := ih hothers u hu
    exact ⟨e, List.mem_cons_of_mem d he, hread⟩

end RuleText

namespace WrittenCondition

variable {c : Catalog} {x : WrittenCondition}

/-- The operator found in the spelling of a condition is its own. -/
theorem findOperator_spelling (x : WrittenCondition) : findOperator? x.spelling = some ([], x.op, []) := by
  unfold spelling
  cases x.op <;> cases x.glyph <;> decide

/-- The spelling of a condition spells its operator. -/
theorem mem_spellings (x : WrittenCondition) : (x.spelling, x.op) ∈ Operator.spellings := by
  unfold spelling
  cases x.op <;> cases x.glyph <;> decide

namespace Fits

/-- The subject of a condition has no signs. -/
theorem signless_subject (h : x.Fits c) : Signless x.subject := h.signless.append (signless_spaces x.spacesBefore)

/-- The literal of a condition has no signs. -/
theorem signless_object (h : x.Fits c) : Signless x.object := by
  refine (signless_spaces x.spacesAfter).append ?_
  cases hv : x.value with
  | number v =>
    intro ch hch hs
    have hnumeric := (Decimal.text_numeric v).2 ch hch
    fin_cases hs <;> exact absurd hnumeric (by decide)
  | text s => exact (h.literal s hv).1

/-- The literal does not write the word between conditions, with the spaces before it and one after it. -/
theorem no_and_object (h : x.Fits c) : ¬andWord <:+: x.object ++ [' '] := by
  have hliteral : ¬andWord <:+: ' ' :: (x.value.render.toList ++ [' ']) := by
    cases hv : x.value with
    | number v => exact Decimal.not_infix_text andWord (c := 'd') (by decide) (by decide) (by decide) v
    | text s => exact (h.literal s hv).2
  have hspaces : ∀ k, ¬andWord <:+: List.replicate k ' ' ++ (x.value.render.toList ++ [' ']) := by
    intro k
    induction k with
    | zero => exact fun hin => hliteral (hin.trans (List.suffix_cons _ _).isInfix)
    | succ k ih =>
      rw [List.replicate_succ, List.cons_append, List.infix_cons_iff, not_or]
      refine ⟨fun hp => ?_, ih⟩
      cases k with
      | zero => exact hliteral hp.isInfix
      | succ k =>
        have hp' := (List.cons_prefix_cons.1 hp).2
        rw [List.replicate_succ, List.cons_append, List.cons_prefix_cons] at hp'
        exact absurd hp'.1 (by decide)
  rw [object, List.append_assoc]
  exact hspaces x.spacesAfter

/-- A condition reads as what it says. -/
theorem readCondition_write (h : x.Fits c) (line : Nat) : readCondition line x.write = .ok x.draft := by
  have hfound : findOperator? x.write = some (x.subject, x.op, x.object) := by
    rw [write, findOperator_append h.signless_subject h.signless_object, findOperator_spelling, Option.map_some]
    simp
  have htoken := h.legible.token
  have hfeature : Text.trim x.subject = x.feature.toList :=
    (Text.trimmed_of_trim h.trimmed).trim_append_spaces h.ne_nil x.spacesBefore
  have hliteral : Text.trim x.object = x.value.render.toList := htoken.trimmed.trim_spaces_append htoken.ne_nil x.spacesAfter
  refine readCondition_ok_iff.2 ⟨x.subject, x.object, hfound, ?_⟩
  rw [hfeature, hliteral, String.ofList_toList, h.legible.ofToken_render]
  exact ⟨h.ne_nil, htoken.ne_nil, rfl, rfl⟩

end Fits

end WrittenCondition

namespace RuleText

/-! ## Bodies -/

/-- A fragment with what waits for it. -/
def glue (pending : Option (List Char)) (fragment : List Char) : List Char :=
  match pending with
  | none => fragment
  | some before => before ++ andWord ++ fragment

/-- A fragment waits if it has no operator and fragments are glued; otherwise it is a condition. -/
theorem gather_cons (merge : Bool) (pending : Option (List Char)) (fragment : List Char) (rest : List (List Char)) :
    gather merge pending (fragment :: rest) =
      if merge && (findOperator? (glue pending fragment)).isNone then gather merge (some (glue pending fragment)) rest
      else glue pending fragment :: gather merge none rest := by
  cases pending <;> rfl

theorem glue_append (pending : Option (List Char)) (t s : List Char) : glue pending (t ++ s) = glue pending t ++ s := by
  cases pending <;> simp [glue]

/-- Fragments glued one after another have the word between them. -/
theorem glue_glue (pending : Option (List Char)) (t s : List Char) :
    glue (some (glue pending t)) s = glue pending (t ++ andWord ++ s) := by
  cases pending <;> simp [glue]

/-- What waits for more fragments has no operator. -/
def Waits (pending : Option (List Char)) : Prop := ∀ p, pending = some p → findOperator? p = none

theorem waits_none : Waits none := by
  intro p hp
  cases hp

theorem waits_some {p : List Char} (h : findOperator? p = none) : Waits (some p) := by
  rintro q ⟨⟩
  exact h

/-- Behind what waits, an operator is found where it is found in the fragment. -/
theorem findOperator_glue {pending : Option (List Char)} (hpending : Waits pending) (t : List Char) :
    findOperator? (glue pending t) = (findOperator? t).map fun found => (glue pending found.1, found.2) := by
  cases pending with
  | none => simp [glue]
  | some p =>
    have hword := findOperator_append (a := andWord) (b := []) (by decide) (by decide) t
    simp only [List.append_nil] at hword
    have hspace := findOperator_append_space (hpending p rfl) (['a', 'n', 'd', ' '] ++ t)
    show findOperator? (p ++ andWord ++ t) = _
    rw [List.append_assoc]
    refine hspace.trans ?_
    show (findOperator? (andWord ++ t)).map _ = _
    rw [hword, Option.map_map]
    simp [Function.comp_def, glue]

/-- The fragments of a feature are glued to one another and to what stands after it, its operator and literal. -/
theorem gather_fragments {merge : Bool} {x tail : List Char} {more : List (List Char)}
    (hsplit : ∀ v, ¬andWord <:+: v → Text.splitOn ' ' ['a', 'n', 'd', ' '] (v ++ x) = (v ++ tail) :: more)
    (hfound : ∀ v, (findOperator? (v ++ tail)).isNone = false) {u : List Char} {pending : Option (List Char)} (hu : Signless u)
    (hpending : Waits pending) (hmerge : merge = false → ¬andWord <:+: u) :
    gather merge pending (Text.splitOn ' ' ['a', 'n', 'd', ' '] (u ++ x)) =
      glue pending (u ++ tail) :: gather merge none more := by
  induction hn : u.length using Nat.strongRecOn generalizing u pending with
  | ind n ih =>
    cases hcut : Text.cutFirst andWord u with
    | none =>
      rw [hsplit u (Text.cutFirst_eq_none_iff.1 hcut), gather_cons, glue_append, hfound, Bool.and_false]
      rfl
    | some cut =>
      obtain ⟨before, rest⟩ := cut
      have hparts := Text.eq_of_cutFirst hcut
      obtain rfl : merge = true := by
        by_contra hm
        exact hmerge (by simpa using hm) ⟨before, rest, hparts.symm⟩
      have hbefore : Signless before := fun ch hch => hu ch (by simp [hparts, hch])
      have hrest : Signless rest := fun ch hch => hu ch (by simp [hparts, hch])
      have hglued : findOperator? (glue pending before) = none := by
        rw [findOperator_glue hpending, findOperator_signless hbefore, Option.map_none]
      have hlt : rest.length < n := by
        rw [← hn, hparts]
        simp [andWord]
        omega
      rw [Text.splitOn_of_cutFirst (Text.cutFirst_append_right (by decide) hcut x), gather_cons, hglued, Option.isNone_none,
        Bool.and_self, if_pos rfl, ih _ hlt hrest (waits_some hglued) (by simp) rfl, glue_glue, hparts, List.append_assoc _ rest]

/-- A condition, its subject apart from its operator and literal, stays whole where a body is split: no operator stands before its
own, and the word between conditions stands nowhere but in the subject, and there only if fragments are glued. -/
structure StaysWhole (merge : Bool) (subject rest : List Char) : Prop where
  signless : Signless subject
  found : ∀ v, (findOperator? (v ++ rest)).isNone = false
  no_and : ∀ v, ¬andWord <:+: v → ¬andWord <:+: v ++ rest ++ [' ']
  no_and_subject : merge = false → ¬andWord <:+: subject

/-- A condition stays whole if neither its subject nor its literal holds a sign or the word between conditions. -/
theorem staysWhole_of_spelling {merge : Bool} {subject object : List Char} {p : List Char × Operator}
    (hp : p ∈ Operator.spellings) (hsubject : Signless subject) (hmerge : merge = false → ¬andWord <:+: subject)
    (hobject : ¬andWord <:+: object ++ [' ']) : StaysWhole merge subject (p.1 ++ object) where
  signless := hsubject
  found v := by
    rw [Option.isNone_eq_false_iff, Option.isSome_iff_ne_none, Ne, findOperator_eq_none_iff]
    exact fun hnone => hnone p hp ⟨v, object, by simp⟩
  no_and _ hv := no_and_append hp hobject hv
  no_and_subject := hmerge

/-- A body is split into conditions that stay whole. -/
theorem splitConditions_intercalate {α : Type} {subject rest : α → List Char} {merge : Bool} {xs : List α} (hne : xs ≠ [])
    (h : ∀ x ∈ xs, StaysWhole merge (subject x) (rest x)) :
    splitConditions merge (andWord.intercalate (xs.map fun x => subject x ++ rest x)) = xs.map fun x => subject x ++ rest x := by
  rw [splitConditions]
  induction xs with
  | nil => exact absurd rfl hne
  | cons x xs ih =>
    have hx := h x List.mem_cons_self
    cases xs with
    | nil =>
      have hsplit : ∀ v, ¬andWord <:+: v → Text.splitOn ' ' ['a', 'n', 'd', ' '] (v ++ rest x) = (v ++ rest x) :: [] :=
        fun v hv => Text.splitOn_of_not_infix fun hin => hx.no_and v hv (hin.trans (List.prefix_append _ _).isInfix)
      rw [List.map_singleton, List.intercalate_singleton]
      exact gather_fragments hsplit hx.found hx.signless waits_none hx.no_and_subject
    | cons y ys =>
      have hsplit : ∀ v more, ¬andWord <:+: v → Text.splitOn ' ' ['a', 'n', 'd', ' '] (v ++ (rest x ++ (andWord ++ more))) =
          (v ++ rest x) :: Text.splitOn ' ' ['a', 'n', 'd', ' '] more := by
        intro v more hv
        rw [← List.append_assoc]
        exact Text.splitOn_of_cutFirst (Text.cutFirst_word ['a', 'n', 'd'] (by decide) (hx.no_and v hv))
      rw [List.map_cons, List.intercalate_cons_of_ne_nil (by simp), List.append_assoc, List.append_assoc,
        gather_fragments (fun v => hsplit v _) hx.found hx.signless waits_none hx.no_and_subject,
        ih (by simp) fun z hz => h z (List.mem_cons_of_mem x hz)]
      rfl

/-- Conditions are written with the word between them. -/
theorem writeConditions_eq_intercalate (xs : List WrittenCondition) :
    writeConditions xs = andWord.intercalate (xs.map (·.write)) := by
  induction xs with
  | nil => rfl
  | cons x xs ih =>
    cases xs with
    | nil => simp [writeConditions]
    | cons y ys =>
      have hcons : andWord.intercalate ((x :: y :: ys).map (·.write)) =
          x.write ++ andWord ++ andWord.intercalate ((y :: ys).map (·.write)) := List.intercalate_cons_of_ne_nil (by simp)
      rw [writeConditions, ih, hcons, List.append_assoc]

/-- A written body is split into its conditions, if fragments are glued where names hold the letters of the word between
conditions. -/
theorem splitConditions_write {c : Catalog} {xs : List WrittenCondition} (hne : xs ≠ []) (hxs : ∀ x ∈ xs, x.Fits c) :
    splitConditions c.containsAnd (writeConditions xs) = xs.map (·.write) := by
  rw [writeConditions_eq_intercalate]
  exact splitConditions_intercalate hne fun x hx =>
    staysWhole_of_spelling x.mem_spellings (hxs x hx).signless_subject
      (fun hc => no_and_name (hxs x hx).column hc x.spacesBefore) (hxs x hx).no_and_object

end RuleText

end FirstMatch
