/-!
# Lists of distinct texts

A list of texts as an ordered set: a text is added at the end if the list does not have it
(`addNew`), and a list keeps its first occurrences (`distinct`).
-/

namespace DotSemantics

/-- Adds a text at the end of a list that does not have it. -/
def addNew (s : String) (l : List String) : List String := if l.contains s then l else l ++ [s]

def addAllNew (ss l : List String) : List String := ss.foldl (fun l s => addNew s l) l

/-- The first occurrences in a list. -/
def distinct (ss : List String) : List String := addAllNew ss []

/-! ## Lemmas -/

theorem mem_addNew (x s : String) (l : List String) : x ∈ addNew s l ↔ x = s ∨ x ∈ l := by
  unfold addNew
  split
  · rename_i h
    constructor
    · exact Or.inr
    · rintro (rfl | hx)
      · simpa using h
      · exact hx
  · simp [or_comm]

theorem nodup_addNew {l : List String} (h : l.Nodup) (s : String) : (addNew s l).Nodup := by
  unfold addNew
  split
  · exact h
  · rename_i hs
    refine List.nodup_append.2 ⟨h, by simp, ?_⟩
    rintro a ha b hb rfl
    exact hs (by simpa using List.mem_singleton.1 hb ▸ ha)

theorem addAllNew_append (ss ts l : List String) :
    addAllNew (ss ++ ts) l = addAllNew ts (addAllNew ss l) := by
  simp [addAllNew, List.foldl_append]

theorem mem_addAllNew (x : String) (ss l : List String) :
    x ∈ addAllNew ss l ↔ x ∈ ss ∨ x ∈ l := by
  induction ss generalizing l with
  | nil => simp [addAllNew]
  | cons s ss ih =>
    show x ∈ addAllNew ss (addNew s l) ↔ _
    rw [ih, mem_addNew, List.mem_cons]
    constructor
    · rintro (h | h | h) <;> simp [h]
    · rintro ((h | h) | h) <;> simp [h]

theorem nodup_addAllNew {l : List String} (h : l.Nodup) (ss : List String) :
    (addAllNew ss l).Nodup := by
  induction ss generalizing l with
  | nil => exact h
  | cons s ss ih => exact ih (nodup_addNew h s)

theorem mem_distinct (x : String) (ss : List String) : x ∈ distinct ss ↔ x ∈ ss := by
  simp [distinct, mem_addAllNew]

theorem nodup_distinct (ss : List String) : (distinct ss).Nodup := nodup_addAllNew List.nodup_nil ss

end DotSemantics
