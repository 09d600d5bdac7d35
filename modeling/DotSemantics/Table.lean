/-!
# Tables in insertion order

A `Table` maps names to values and remembers the order in which the names came.
Writing to a name that is present keeps its place (`keys_put`); a name that was
erased and written again stands last.  Reading after a write is the usual law
(`get?_put`), and every table built by the operations here has each name once
(`Table.Nodup`).
-/

namespace DotSemantics

/-- A table from names to values, oldest name first. -/
structure Table (α : Type) where
  entries : List (String × α)
deriving Repr, DecidableEq, Inhabited

/-- Writes `v` at `k`: in place if `k` is present, at the end otherwise. -/
def putEntry {α : Type} (k : String) (v : α) : List (String × α) → List (String × α)
  | [] => [(k, v)]
  | e :: r => if e.1 = k then (k, v) :: r else e :: putEntry k v r

/-- The value of the first entry named `k`. -/
def entryAt? {α : Type} (k : String) : List (String × α) → Option α
  | [] => none
  | e :: r => if e.1 = k then some e.2 else entryAt? k r

namespace Table

variable {α : Type}

/-! ## Operations -/

def empty : Table α := ⟨[]⟩

def get? (t : Table α) (k : String) : Option α := entryAt? k t.entries

def has (t : Table α) (k : String) : Bool := (t.get? k).isSome

/-- Writes a value; a name that is present keeps its place. -/
def put (t : Table α) (k : String) (v : α) : Table α := ⟨putEntry k v t.entries⟩

/-- Writes a value only if the name has none yet. -/
def putNew (t : Table α) (k : String) (v : α) : Table α := if t.has k then t else t.put k v

def erase (t : Table α) (k : String) : Table α := ⟨t.entries.filter fun e => e.1 ≠ k⟩

/-- The names, oldest first. -/
def keys (t : Table α) : List String := t.entries.map Prod.fst

/-- Writes a list of pairs from left to right. -/
def putAll (t : Table α) (ps : List (String × α)) : Table α :=
  ps.foldl (fun t p => t.put p.1 p.2) t

/-- The table of a list of pairs: the first occurrence of a name fixes its place, the last
its value. -/
def ofPairs (ps : List (String × α)) : Table α := empty.putAll ps

/-- Writes all entries of another table. -/
def merge (t u : Table α) : Table α := t.putAll u.entries

def map {β : Type} (f : α → β) (t : Table α) : Table β := ⟨t.entries.map fun e => (e.1, f e.2)⟩

def Nodup (t : Table α) : Prop := t.keys.Nodup

/-! ## Lemmas -/

theorem entryAt?_putEntry (k : String) (v : α) (j : String) (l : List (String × α)) :
    entryAt? j (putEntry k v l) = if j = k then some v else entryAt? j l := by
  induction l with
  | nil => simp [putEntry, entryAt?, eq_comm]
  | cons e r ih =>
    by_cases h : e.1 = k
    · by_cases hj : j = k <;> simp_all [putEntry, entryAt?, eq_comm]
    · by_cases hj : e.1 = j <;> simp_all [putEntry, entryAt?]

@[simp] theorem get?_empty (k : String) : (empty : Table α).get? k = none := rfl

theorem get?_put (t : Table α) (k : String) (v : α) (j : String) :
    (t.put k v).get? j = if j = k then some v else t.get? j :=
  entryAt?_putEntry k v j t.entries

@[simp] theorem get?_put_self (t : Table α) (k : String) (v : α) :
    (t.put k v).get? k = some v := by simp [get?_put]

theorem entryAt?_eq_none_iff (k : String) (l : List (String × α)) :
    entryAt? k l = none ↔ k ∉ l.map Prod.fst := by
  induction l with
  | nil => simp [entryAt?]
  | cons e r ih => by_cases h : e.1 = k <;> simp_all [entryAt?, eq_comm]

theorem has_iff (t : Table α) (k : String) : t.has k = true ↔ k ∈ t.keys := by
  have := entryAt?_eq_none_iff k t.entries
  unfold has get? keys
  cases h : entryAt? k t.entries <;> simp_all

theorem putEntry_keys (k : String) (v : α) (l : List (String × α)) :
    (putEntry k v l).map Prod.fst =
      if k ∈ l.map Prod.fst then l.map Prod.fst else l.map Prod.fst ++ [k] := by
  induction l with
  | nil => simp [putEntry]
  | cons e r ih =>
    by_cases h : e.1 = k
    · simp [putEntry, h]
    · have h' : ¬ k = e.1 := fun he => h he.symm
      simp only [putEntry, if_neg h, List.map_cons, ih, List.mem_cons, h', false_or]
      split <;> simp

/-- A write keeps the order of the names and adds a new one at the end. -/
theorem keys_put (t : Table α) (k : String) (v : α) :
    (t.put k v).keys = if k ∈ t.keys then t.keys else t.keys ++ [k] :=
  putEntry_keys k v t.entries

theorem keys_putNew (t : Table α) (k : String) (v : α) :
    (t.putNew k v).keys = if k ∈ t.keys then t.keys else t.keys ++ [k] := by
  unfold putNew
  by_cases h : k ∈ t.keys
  · rw [if_pos ((has_iff t k).2 h), if_pos h]
  · rw [if_neg (fun hk => h ((has_iff t k).1 hk)), keys_put]

theorem nodup_put {t : Table α} (h : t.Nodup) (k : String) (v : α) : (t.put k v).Nodup := by
  unfold Nodup
  rw [keys_put]
  split
  · exact h
  · rename_i hk
    refine List.nodup_append.2 ⟨h, by simp, ?_⟩
    rintro a ha b hb rfl
    exact hk (by simpa using List.mem_singleton.1 hb ▸ ha)

@[simp] theorem putAll_nil (t : Table α) : t.putAll [] = t := rfl

@[simp] theorem putAll_cons (t : Table α) (p : String × α) (ps : List (String × α)) :
    t.putAll (p :: ps) = (t.put p.1 p.2).putAll ps := rfl

theorem putAll_append (t : Table α) (ps qs : List (String × α)) :
    t.putAll (ps ++ qs) = (t.putAll ps).putAll qs := by
  simp [putAll, List.foldl_append]

theorem nodup_putAll {t : Table α} (h : t.Nodup) (ps : List (String × α)) :
    (t.putAll ps).Nodup := by
  induction ps generalizing t with
  | nil => exact h
  | cons p ps ih => exact ih (nodup_put h p.1 p.2)

theorem nodup_empty : (empty : Table α).Nodup := List.nodup_nil

theorem nodup_ofPairs (ps : List (String × α)) : (ofPairs ps).Nodup := nodup_putAll nodup_empty ps

end Table

end DotSemantics
