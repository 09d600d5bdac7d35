import DotSemantics.Proofs.Construction
import Mathlib.Data.List.Forall2

/-!
# Attribute lists from pairs and tables

A sequence gives an attribute list if each of its entries is a pair of two texts, and the first
entry that is none says what the error is (`trial_attributesOfPairs`).  An entry need not be a list
of two texts: whatever yields two texts when it is run through is a pair of them, be it a text of
two characters, an object with two keys or a keyword of two characters.

A table gives what the list of its items gives, where a key that comes again keeps its place and
takes the last value:

    ofTable es = ofPairs (the items of tabulate es)                   (ofTable_eq_ofPairs)

An object is the table of its fields.
-/

namespace DotSemantics

/-! ## Pairs of texts -/

namespace Value

/-- A value yields the name and the value of an attribute. -/
def IsPairOf (v : Value) (a : Attribute) : Prop := v.items? = some [ofWord a.name, ofWord a.value]

/-- A value yields two texts. -/
def IsPair (v : Value) : Prop := ∃ a, v.IsPairOf a

/-- How a value is refused that is no pair of texts. -/
inductive RefusedAsPair (v : Value) : Defect → Prop
  | notSequence (notItems : v.items? = none) : RefusedAsPair v .notSequence
  | tooFew {vs : List Value} (items : v.items? = some vs) (few : vs.length < 2) :
      RefusedAsPair v (.tooFewParts vs.length)
  | tooMany {vs : List Value} (items : v.items? = some vs) (many : 2 < vs.length) :
      RefusedAsPair v .tooManyParts
  | name {n w : Value} (items : v.items? = some [n, w]) (noText : n.kind ∉ textKinds) :
      RefusedAsPair v (.malformed (.notText .attributeName n))
  /-- the value is looked at only if the name is a text -/
  | value {a : Word} {w : Value} (items : v.items? = some [ofWord a, w])
      (noText : w.kind ∉ textKinds) :
      RefusedAsPair v (.malformed (.notText (.attributeValue a) w))

end Value

def attributeOfPair (v : Value) : Except Defect Attribute := do
  let p ← requirePair v
  Attribute.make p.1 p.2

theorem word?_eq_none_iff (v : Value) : v.word? = none ↔ v.kind ∉ textKinds := by
  rw [picks_word.kind_iff]
  cases v.word? <;> simp

theorem requirePair_of_items {v a b : Value} (h : v.items? = some [a, b]) :
    requirePair v = .ok (a, b) := by
  unfold requirePair
  rw [h]

/-- A sequence that has not two parts has fewer or more. -/
theorem requirePair_of_length_ne {v : Value} {vs : List Value} (h : v.items? = some vs)
    (hlength : vs.length ≠ 2) : requirePair v =
      .error (if vs.length < 2 then .tooFewParts vs.length else .tooManyParts) := by
  unfold requirePair
  rw [h]
  rcases vs with _ | ⟨a, _ | ⟨b, _ | ⟨c, vs⟩⟩⟩
  · rfl
  · rfl
  · exact absurd rfl hlength
  · rfl

theorem attribute_make_ofWord (n v : Word) :
    Attribute.make (.ofWord n) (.ofWord v) = .ok ⟨n, v⟩ := by
  unfold Attribute.make
  rw [requireText_eq, picks_word.require_make, ok_bind, requireText_eq, picks_word.require_make]
  rfl

theorem requireText_of_notMem {slot : TextSlot} {v : Value} (h : v.kind ∉ textKinds) :
    requireText slot v = .error (.malformed (.notText slot v)) := by
  unfold requireText
  rw [(word?_eq_none_iff v).2 h]

namespace Value

variable {v : Value}

theorem IsPairOf.attribute_eq {a : Attribute} (h : v.IsPairOf a) : attributeOfPair v = .ok a := by
  unfold attributeOfPair
  rw [requirePair_of_items h, ok_bind, attribute_make_ofWord]

theorem RefusedAsPair.attribute_eq {e : Defect} (h : v.RefusedAsPair e) :
    attributeOfPair v = .error e := by
  unfold attributeOfPair
  cases h with
  | notSequence notItems =>
    unfold requirePair
    rw [notItems]
    rfl
  | tooFew items few =>
    rw [requirePair_of_length_ne items (Nat.ne_of_lt few), if_pos few]
    rfl
  | tooMany items many =>
    rw [requirePair_of_length_ne items (Nat.ne_of_gt many), if_neg (Nat.not_lt_of_gt many)]
    rfl
  | name items noText =>
    rw [requirePair_of_items items, ok_bind]
    unfold Attribute.make
    rw [requireText_of_notMem noText]
    rfl
  | value items noText =>
    rw [requirePair_of_items items, ok_bind]
    unfold Attribute.make
    rw [requireText_eq, picks_word.require_make, ok_bind, requireText_of_notMem noText]
    rfl

theorem isPair_or_refused (v : Value) : v.IsPair ∨ ∃ e, v.RefusedAsPair e := by
  rcases hitems : v.items? with _ | _ | ⟨n, _ | ⟨w, _ | ⟨x, vs⟩⟩⟩
  · exact Or.inr ⟨_, .notSequence hitems⟩
  · exact Or.inr ⟨_, .tooFew hitems (by simp)⟩
  · exact Or.inr ⟨_, .tooFew hitems (by simp)⟩
  · cases hn : n.word? with
    | none => exact Or.inr ⟨_, .name hitems ((word?_eq_none_iff n).1 hn)⟩
    | some a =>
      obtain ⟨rfl, -⟩ := picks_word.eq_make hn
      cases hw : w.word? with
      | none => exact Or.inr ⟨_, .value hitems ((word?_eq_none_iff w).1 hw)⟩
      | some b =>
        obtain ⟨rfl, -⟩ := picks_word.eq_make hw
        exact Or.inl ⟨⟨a, b⟩, hitems⟩
  · exact Or.inr ⟨_, .tooMany hitems (by simp)⟩

theorem RefusedAsPair.not_isPair {e : Defect} (h : v.RefusedAsPair e) : ¬ v.IsPair := by
  rintro ⟨a, ha⟩
  have hok := ha.attribute_eq
  rw [h.attribute_eq] at hok
  cases hok

theorem refusedAsPair_unique (v : Value) (e f : Defect) (he : v.RefusedAsPair e)
    (hf : v.RefusedAsPair f) : e = f :=
  Except.error.inj (he.attribute_eq.symm.trans hf.attribute_eq)

theorem trial_attributeOfPair (v : Value) :
    Trial IsPair RefusedAsPair v.IsPairOf [v] (attributeOfPair v) := by
  rcases v.isPair_or_refused with ⟨a, ha⟩ | ⟨e, he⟩
  · rw [ha.attribute_eq]
    exact .single ⟨a, ha⟩ ha
  · rw [he.attribute_eq]
    exact .head he.not_isPair he

end Value

/-! ## Sequences of pairs -/

theorem attributesOfPairs_cons (e : Value) (es : List Value) :
    attributesOfPairs (e :: es) = (do
      let a ← attributeOfPair e
      return a :: (← attributesOfPairs es)) := by
  unfold attributeOfPair
  rw [bind_assoc]
  rfl

/-- To make attributes of entries is a trial of the entries. -/
theorem trial_attributesOfPairs (es : List Value) :
    Trial Value.IsPair Value.RefusedAsPair (fun as => List.Forall₂ Value.IsPairOf es as) es
      (attributesOfPairs es) := by
  induction es with
  | nil => exact .passed (by simp) .nil
  | cons e es ih =>
    rw [attributesOfPairs_cons]
    exact e.trial_attributeOfPair.bind (m := es) fun a ha =>
      ih.bind_pure fun as has => .cons ha has

theorem attributesOfPairs_eq_ok {es : List Value} {as : List Attribute}
    (h : List.Forall₂ Value.IsPairOf es as) : attributesOfPairs es = .ok as := by
  induction h with
  | nil => rfl
  | cons ha _ ih =>
    rw [attributesOfPairs_cons, ha.attribute_eq, ok_bind, ih]
    rfl

theorem ofPairs_of_items {v : Value} (hv : ∀ fs, v ≠ .object fs) {es : List Value}
    (h : v.items? = some es) : AttrList.ofPairs v = (attributesOfPairs es).map AttrList.mk := by
  unfold AttrList.ofPairs
  split
  · next fs => exact absurd rfl (hv fs)
  · split
    · next hnone =>
      rw [h] at hnone
      cases hnone
    · next es' hes' =>
      rw [h] at hes'
      cases hes'
      rfl

theorem ofPairs_list (es : List Value) :
    AttrList.ofPairs (.list es) = (attributesOfPairs es).map AttrList.mk :=
  ofPairs_of_items (v := .list es) (fun _ h => nomatch h) rfl

/-! ## Tables -/

/-- The values that some entries have at a key. -/
def valuesAt (k : Value) (es : List (Value × Value)) : List Value :=
  (es.filter fun e => k.same e.1).map Prod.snd

/-- The entries at other keys. -/
def otherThan (k : Value) (es : List (Value × Value)) : List (Value × Value) :=
  es.filter fun e => !k.same e.1

theorem length_otherThan_le (k : Value) (es : List (Value × Value)) :
    (otherThan k es).length ≤ es.length := List.length_filter_le _ _

/-- The items of a table: of entries with the same key the first fixes the place, and the last the
value. -/
def tabulate : List (Value × Value) → List (Value × Value)
  | [] => []
  | (k, v) :: r => (k, (valuesAt k r).getLastD v) :: tabulate (otherThan k r)
termination_by es => es.length
decreasing_by exact Nat.lt_succ_of_le (length_otherThan_le k r)

/-- An entry of a table as a list of two. -/
def Value.ofPair (e : Value × Value) : Value := .list [e.1, e.2]

def entriesOfFields (fs : List (String × Value)) : List (Value × Value) :=
  fs.map fun f => (.text f.1, f.2)

section

variable {k : Value} {e : Value × Value}

theorem valuesAt_cons_of_same (h : k.same e.1 = true) (es : List (Value × Value)) :
    valuesAt k (e :: es) = e.2 :: valuesAt k es := by
  unfold valuesAt
  rw [List.filter_cons, if_pos h, List.map_cons]

theorem valuesAt_cons_of_not_same (h : ¬ k.same e.1 = true) (es : List (Value × Value)) :
    valuesAt k (e :: es) = valuesAt k es := by
  unfold valuesAt
  rw [List.filter_cons, if_neg h]

theorem otherThan_cons_of_same (h : k.same e.1 = true) (es : List (Value × Value)) :
    otherThan k (e :: es) = otherThan k es := by
  unfold otherThan
  rw [List.filter_cons, if_neg (by simpa using h)]

theorem otherThan_cons_of_not_same (h : ¬ k.same e.1 = true) (es : List (Value × Value)) :
    otherThan k (e :: es) = e :: otherThan k es := by
  unfold otherThan
  rw [List.filter_cons, if_pos (by simpa using h)]

end

/-- Entries with the first key of a table change its value, and all others go on behind it. -/
theorem foldl_putAtKey_cons (k v : Value) (es t : List (Value × Value)) :
    es.foldl (fun t e => putAtKey e.1 e.2 t) ((k, v) :: t) =
      (k, (valuesAt k es).getLastD v) ::
        (otherThan k es).foldl (fun t e => putAtKey e.1 e.2 t) t := by
  induction es generalizing v t with
  | nil => rfl
  | cons e es ih =>
    rw [List.foldl_cons, putAtKey]
    by_cases hk : k.same e.1 = true
    · rw [if_pos hk, ih, valuesAt_cons_of_same hk, otherThan_cons_of_same hk, List.getLastD_cons]
    · rw [if_neg hk, ih, valuesAt_cons_of_not_same hk, otherThan_cons_of_not_same hk,
        List.foldl_cons]

/-- To write the entries of a table one after the other gives its items. -/
theorem foldl_putAtKey_eq (es : List (Value × Value)) :
    es.foldl (fun t e => putAtKey e.1 e.2 t) [] = tabulate es := by
  induction es using tabulate.induct with
  | case1 => rw [tabulate, List.foldl_nil]
  | case2 k v r ih =>
    rw [tabulate, ← ih, List.foldl_cons]
    exact foldl_putAtKey_cons k v r []

theorem attributesOfEntries_eq (es : List (Value × Value)) :
    attributesOfEntries es = attributesOfPairs (es.map .ofPair) := by
  induction es with
  | nil => rfl
  | cons e es ih =>
    rw [List.map_cons, attributesOfEntries, ih]
    rfl

theorem ofTable_eq_ofPairs (es : List (Value × Value)) :
    AttrList.ofTable es = AttrList.ofPairs (.list ((tabulate es).map .ofPair)) := by
  unfold AttrList.ofTable
  rw [foldl_putAtKey_eq, attributesOfEntries_eq, ofPairs_list]

/-- Entries with different keys are the items of their table. -/
theorem tabulate_of_pairwise {es : List (Value × Value)}
    (h : es.Pairwise fun e f => e.1.same f.1 = false) : tabulate es = es := by
  induction es using tabulate.induct with
  | case1 => rw [tabulate]
  | case2 k v r ih =>
    rw [List.pairwise_cons] at h
    obtain ⟨hk, hr⟩ := h
    have hnone : valuesAt k r = [] := by
      unfold valuesAt
      rw [List.map_eq_nil_iff, List.filter_eq_nil_iff]
      intro e he
      rw [hk e he]
      exact Bool.false_ne_true
    have hall : otherThan k r = r := by
      unfold otherThan
      rw [List.filter_eq_self]
      intro e he
      rw [hk e he]
      rfl
    rw [hall] at ih
    rw [tabulate, hnone, hall, ih hr]
    rfl

theorem tabulate_fields {fs : List (String × Value)} (h : (fs.map Prod.fst).Nodup) :
    tabulate (entriesOfFields fs) = entriesOfFields fs := by
  apply tabulate_of_pairwise
  unfold entriesOfFields
  rw [List.pairwise_map]
  refine (List.pairwise_map.1 h).imp fun {f g} hne => ?_
  show (f.1 == g.1) = false
  simpa using hne

theorem ofPairs_object {fs : List (String × Value)} (h : (fs.map Prod.fst).Nodup) :
    AttrList.ofPairs (.object fs) = AttrList.ofPairs (.list ((entriesOfFields fs).map .ofPair)) := by
  have htable := ofTable_eq_ofPairs (entriesOfFields fs)
  rw [tabulate_fields h] at htable
  exact htable

theorem ofPairs_of_items_eq_none {v : Value} (h : v.items? = none) :
    AttrList.ofPairs v = .error .notSequence := by
  cases v with
  | list => cases h
  | text => cases h
  | object => cases h
  | keyword => cases h
  | _ => rfl

/-! ## Main theorem -/

/-- Pairs of texts in all their forms, with one of the names twice. -/
def disguisedPairs : List Value := [
  .list [.text "b", .keyword (.target .node)], .text "ab", .object [("b", .null), ("d", .int 3)],
  .keyword (.edgeOp .directed)]

/-- Two pairs, the second with a number as its value; what follows is worse. -/
def faultyPairs : List Value := [.text "ab", .list [.text "c", .int 3], .list [.int 4, .null], .null]

/-- A table in which a keyword comes again as a text. -/
def repeatedKey : List (Value × Value) := [
  (.keyword (.target .node), .int 3), (.text "b", .text "x"), (.text "node", .text "y")]

/-- A sequence that is no object gives an attribute list just when each of its entries is a pair of
texts, and then it gives these pairs in their order; otherwise the first entry that is none says
what the error is.  An object gives what the list of its fields gives, and a table what the list of
its items gives.  What is no sequence is refused. -/
theorem attributes_of_pairs :
    (∀ v es, v.items? = some es → (∀ fs, v ≠ .object fs) →
      ((∃ l, AttrList.ofPairs v = .ok l) ↔ ∀ e ∈ es, e.IsPair) ∧
      (∀ l, AttrList.ofPairs v = .ok l ↔ List.Forall₂ Value.IsPairOf es l.attributes) ∧
      ∀ d, AttrList.ofPairs v = .error d ↔ FirstRefused Value.IsPair Value.RefusedAsPair es d) ∧
    (∀ fs : List (String × Value), (fs.map Prod.fst).Nodup →
      AttrList.ofPairs (.object fs) =
        AttrList.ofPairs (.list ((entriesOfFields fs).map .ofPair))) ∧
    (∀ es, AttrList.ofTable es = AttrList.ofPairs (.list ((tabulate es).map .ofPair))) ∧
    ∀ v, v.items? = none → AttrList.ofPairs v = .error .notSequence := by
  refine ⟨fun v es hes hv => ?_, fun fs hfs => ofPairs_object hfs, ofTable_eq_ofPairs,
    fun v hv => ofPairs_of_items_eq_none hv⟩
  have htrial : Trial Value.IsPair Value.RefusedAsPair
      (fun l : AttrList => List.Forall₂ Value.IsPairOf es l.attributes) es (AttrList.ofPairs v) := by
    rw [ofPairs_of_items hv hes]
    exact (trial_attributesOfPairs es).map fun as has => has
  refine ⟨htrial.exists_ok_iff, fun l => ⟨fun hl => ?_, fun hl => ?_⟩,
    htrial.eq_error_iff Value.refusedAsPair_unique⟩
  · rw [hl] at htrial
    cases htrial with
    | passed _ holds => exact holds
  · rw [ofPairs_of_items hv hes, attributesOfPairs_eq_ok hl]
    rfl

/-- The first entry that is no pair decides, whatever follows it, and the number at the repeated key is
overwritten before it is looked at. -/
theorem attributes_disguisedPairs :
    AttrList.ofPairs (.list disguisedPairs) = .ok ⟨[⟨.text "b", .keyword (.target .node)⟩,
        ⟨.text "a", .text "b"⟩, ⟨.text "b", .text "d"⟩, ⟨.text "-", .text ">"⟩]⟩ ∧
      AttrList.ofPairs (.list faultyPairs) =
        .error (.malformed (.notText (.attributeValue (.text "c")) (.int 3))) ∧
      AttrList.ofPairs (.object [("b", .text "x"), ("a", .null)]) =
        .error (.malformed (.notText (.attributeValue (.text "a")) .null)) ∧
      AttrList.ofTable repeatedKey = .ok ⟨[⟨.keyword (.target .node), .text "y"⟩,
        ⟨.text "b", .text "x"⟩]⟩ ∧
      AttrList.ofPairs .null = .error .notSequence := by
  obtain ⟨hseq, hobject, htable, hnone⟩ := attributes_of_pairs
  have hlist : ∀ vs fs, Value.list vs ≠ .object fs := fun _ _ h => nomatch h
  refine ⟨?_, ?_, ?_, ?_, hnone .null rfl⟩
  · refine ((hseq _ _ rfl (hlist _)).2.1 _).2 ?_
    exact .cons rfl (.cons rfl (.cons rfl (.cons rfl .nil)))
  · refine ((hseq _ _ rfl (hlist _)).2.2 _).2 ?_
    refine ⟨[.text "ab"], .list [.text "c", .int 3], _, rfl, ?_, ?_, ?_⟩
    · rw [List.forall_mem_singleton]
      exact ⟨⟨.text "a", .text "b"⟩, rfl⟩
    · exact Value.RefusedAsPair.not_isPair (.value (a := .text "c") rfl (by decide))
    · exact .value (a := .text "c") rfl (by decide)
  · rw [hobject _ (by decide)]
    rfl
  · have hitems : tabulate repeatedKey =
        [(.keyword (.target .node), .text "y"), (.text "b", .text "x")] := by
      simp [repeatedKey, tabulate, valuesAt, otherThan, Value.same, Value.word?, Word.same,
        Word.toText, Keyword.text, Target.text]
    rw [htable, hitems]
    rfl

end DotSemantics
