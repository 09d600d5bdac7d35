import DotSemantics.Distinct
import DotSemantics.Table

/-!
# Tables that are written from left to right

A table that is written from left to right holds for each name the value that came last, at the
place of the name's first occurrence.  `lastValue?` reads that value off the pairs themselves:

    (t.putAll ps).get? k = (lastValue? k ps).or (t.get? k)      (Table.get?_putAll)
    (t.putAll ps).keys = addAllNew (ps.map Prod.fst) t.keys     (Table.keys_putAll)
-/

namespace DotSemantics

variable {α : Type}

/-- The last value that a list of pairs has for a name. -/
def lastValue? (k : String) : List (String × α) → Option α
  | [] => none
  | p :: r => (lastValue? k r).or (if p.1 = k then some p.2 else none)

/-! ## Lemmas -/

@[simp] theorem lastValue?_nil (k : String) : lastValue? k ([] : List (String × α)) = none := rfl

theorem lastValue?_append (k : String) (ps qs : List (String × α)) :
    lastValue? k (ps ++ qs) = (lastValue? k qs).or (lastValue? k ps) := by
  induction ps with
  | nil => simp
  | cons p ps ih =>
    show (lastValue? k (ps ++ qs)).or _ = (lastValue? k qs).or ((lastValue? k ps).or _)
    rw [ih, Option.or_assoc]

theorem lastValue?_eq_none_of_notMem {k : String} {ps : List (String × α)}
    (h : k ∉ ps.map Prod.fst) : lastValue? k ps = none := by
  induction ps with
  | nil => rfl
  | cons p ps ih =>
    rw [List.map_cons, List.mem_cons, not_or] at h
    have hp : p.1 ≠ k := fun e => h.1 e.symm
    rw [lastValue?, ih h.2, if_neg hp, Option.or_none]

theorem mem_of_lastValue? {k : String} {v : α} {ps : List (String × α)}
    (h : lastValue? k ps = some v) : (k, v) ∈ ps := by
  induction ps with
  | nil => cases h
  | cons p ps ih =>
    rw [lastValue?, Option.or_eq_some_iff] at h
    rcases h with hr | ⟨-, hp⟩
    · exact List.mem_cons_of_mem p (ih hr)
    · split at hp
      · next hk =>
        cases hp
        exact hk ▸ List.mem_cons_self
      · cases hp

theorem exists_lastValue? {k : String} {ps : List (String × α)} (h : k ∈ ps.map Prod.fst) :
    ∃ v, lastValue? k ps = some v := by
  induction ps with
  | nil => cases h
  | cons p ps ih =>
    rw [lastValue?]
    by_cases hk : k ∈ ps.map Prod.fst
    · obtain ⟨v, hv⟩ := ih hk
      exact ⟨v, by rw [hv, Option.some_or]⟩
    · have hp : p.1 = k := ((List.mem_cons.1 h).resolve_right hk).symm
      exact ⟨p.2, by rw [lastValue?_eq_none_of_notMem hk, if_pos hp, Option.none_or]⟩

theorem isSome_lastValue?_iff (k : String) (ps : List (String × α)) :
    (lastValue? k ps).isSome ↔ k ∈ ps.map Prod.fst := by
  constructor
  · intro h
    apply Classical.byContradiction
    intro hk
    rw [lastValue?_eq_none_of_notMem hk] at h
    cases h
  · intro h
    obtain ⟨v, hv⟩ := exists_lastValue? h
    rw [hv]
    rfl

/-- Where no name occurs twice, the last value of a name is its only one. -/
theorem lastValue?_of_nodup {ps : List (String × α)} (h : (ps.map Prod.fst).Nodup) (k : String) :
    lastValue? k ps = entryAt? k ps := by
  induction ps with
  | nil => rfl
  | cons p ps ih =>
    rw [List.map_cons, List.nodup_cons] at h
    by_cases hp : p.1 = k
    · have hk : k ∉ ps.map Prod.fst := hp ▸ h.1
      rw [lastValue?, entryAt?, lastValue?_eq_none_of_notMem hk, if_pos hp, if_pos hp]
      rfl
    · rw [lastValue?, entryAt?, if_neg hp, if_neg hp, Option.or_none, ih h.2]

theorem map_fst_filterMap (f : String → Option String) (ks : List String) :
    (ks.filterMap fun k => (f k).map fun v => (k, v)).map Prod.fst =
      ks.filter fun k => (f k).isSome := by
  induction ks with
  | nil => rfl
  | cons k ks ih =>
    rw [List.filterMap_cons, List.filter_cons]
    cases f k with
    | none => exact ih
    | some v => exact congrArg (k :: ·) ih

theorem notMem_keys_filterMap {f : String → Option String} {k : String} {ks : List String}
    (h : k ∉ ks) : k ∉ (ks.filterMap fun j => (f j).map fun v => (j, v)).map Prod.fst := by
  rw [map_fst_filterMap]
  exact fun hk => h (List.mem_filter.1 hk).1

/-- A write of a name that the first part of a list does not have goes to the rest of it. -/
theorem putEntry_append_of_notMem {k : String} {l : List (String × α)}
    (h : k ∉ l.map Prod.fst) (v : α) (r : List (String × α)) :
    putEntry k v (l ++ r) = l ++ putEntry k v r := by
  induction l with
  | nil => rfl
  | cons e l ih =>
    rw [List.map_cons, List.mem_cons, not_or] at h
    rw [List.cons_append, putEntry, if_neg (fun he => h.1 he.symm), ih h.2]
    rfl

namespace Table

/-- Reading after some writes gives the last value written, or what was there before. -/
theorem get?_putAll (t : Table α) (ps : List (String × α)) (k : String) :
    (t.putAll ps).get? k = (lastValue? k ps).or (t.get? k) := by
  induction ps generalizing t with
  | nil => simp
  | cons p ps ih =>
    rw [putAll_cons, ih, get?_put, lastValue?, Option.or_assoc]
    congr 1
    by_cases h : p.1 = k
    · rw [if_pos h, if_pos h.symm, Option.some_or]
    · rw [if_neg h, if_neg (fun e => h e.symm), Option.none_or]

theorem get?_ofPairs (ps : List (String × α)) (k : String) :
    (ofPairs ps).get? k = lastValue? k ps := by
  unfold ofPairs
  rw [get?_putAll, get?_empty, Option.or_none]

/-- Merging in a table that was made of some pairs writes these pairs, as far as reading goes. -/
theorem get?_merge_ofPairs (t : Table α) (ps : List (String × α)) (k : String) :
    (t.merge (ofPairs ps)).get? k = (lastValue? k ps).or (t.get? k) := by
  have h : lastValue? k (ofPairs ps).entries = (ofPairs ps).get? k :=
    lastValue?_of_nodup (nodup_ofPairs ps) k
  unfold merge
  rw [get?_putAll, h, get?_ofPairs]

theorem get?_putNew (t : Table α) (k : String) (v : α) (j : String) :
    (t.putNew k v).get? j = (t.get? j).or (if j = k then some v else none) := by
  unfold putNew has
  by_cases hj : j = k
  · subst hj
    cases h : t.get? j <;> simp [h]
  · cases h : t.get? k <;> simp [get?_put, hj]

theorem keys_put_eq_addNew (t : Table α) (k : String) (v : α) :
    (t.put k v).keys = addNew k t.keys := by
  rw [keys_put]
  unfold addNew
  simp only [List.contains_iff_mem]

theorem keys_putNew_eq_addNew (t : Table α) (k : String) (v : α) :
    (t.putNew k v).keys = addNew k t.keys := by
  rw [keys_putNew]
  unfold addNew
  simp only [List.contains_iff_mem]

theorem keys_putAll (t : Table α) (ps : List (String × α)) :
    (t.putAll ps).keys = addAllNew (ps.map Prod.fst) t.keys := by
  induction ps generalizing t with
  | nil => rfl
  | cons p ps ih =>
    rw [putAll_cons, ih, keys_put_eq_addNew]
    rfl

/-- Writes of names that the first part of a table does not have leave that part as it is. -/
theorem entries_putAll_append {l : List (String × α)} {ps : List (String × α)}
    (h : ∀ p ∈ ps, p.1 ∉ l.map Prod.fst) (r : List (String × α)) :
    ((⟨l ++ r⟩ : Table α).putAll ps).entries = l ++ ((⟨r⟩ : Table α).putAll ps).entries := by
  induction ps generalizing r with
  | nil => rfl
  | cons p ps ih =>
    rw [List.forall_mem_cons] at h
    rw [putAll_cons, putAll_cons]
    unfold put
    rw [putEntry_append_of_notMem h.1]
    exact ih h.2 (putEntry p.1 p.2 r)

theorem keys_ofPairs (ps : List (String × α)) : (ofPairs ps).keys = distinct (ps.map Prod.fst) :=
  keys_putAll empty ps

theorem get?_eq_none_iff (t : Table α) (k : String) : t.get? k = none ↔ k ∉ t.keys :=
  entryAt?_eq_none_iff k t.entries

theorem mem_keys_of_get? {t : Table α} {k : String} {v : α} (h : t.get? k = some v) :
    k ∈ t.keys := by
  rw [← has_iff]
  unfold has
  rw [h]
  rfl

theorem get?_map {β : Type} (f : α → β) (t : Table α) (k : String) :
    (t.map f).get? k = (t.get? k).map f := by
  unfold map get?
  induction t.entries with
  | nil => rfl
  | cons e r ih =>
    rw [List.map_cons, entryAt?, entryAt?]
    by_cases h : e.1 = k
    · rw [if_pos h, if_pos h]
      rfl
    · rw [if_neg h, if_neg h, ih]

end Table

end DotSemantics
