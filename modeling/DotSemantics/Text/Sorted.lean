/-!
# Sorted sets of texts

A finite set of texts as the list of its members, each once, by ascending code points
(`pairwise_sortedSet`).
-/

namespace DotSemantics.Text

/-- Adds a text to an ascending list, unless it is there. -/
def insertSorted (s : String) : List String → List String
  | [] => [s]
  | t :: r =>
    if s < t then s :: t :: r
    else if s = t then t :: r
    else t :: insertSorted s r

/-- The members of a list, ascending and each once. -/
def sortedSet (ss : List String) : List String := ss.foldr insertSorted []

theorem mem_insertSorted (s x : String) (l : List String) :
    x ∈ insertSorted s l ↔ x = s ∨ x ∈ l := by
  induction l with
  | nil => simp [insertSorted]
  | cons t r ih =>
    unfold insertSorted
    split
    · simp
    · split
      · rename_i h; subst h; simp
      · simp only [List.mem_cons, ih]; exact or_left_comm

theorem mem_sortedSet (x : String) (ss : List String) : x ∈ sortedSet ss ↔ x ∈ ss := by
  induction ss with
  | nil => simp [sortedSet]
  | cons s ss ih =>
    show x ∈ insertSorted s (sortedSet ss) ↔ _
    rw [mem_insertSorted, ih, List.mem_cons]

theorem pairwise_insertSorted (s : String) {l : List String} (h : l.Pairwise (· < ·)) :
    (insertSorted s l).Pairwise (· < ·) := by
  induction l with
  | nil => simp [insertSorted]
  | cons t r ih =>
    rw [List.pairwise_cons] at h
    unfold insertSorted
    split
    · next hst =>
      rw [List.pairwise_cons, List.forall_mem_cons, List.pairwise_cons]
      exact ⟨⟨hst, fun u hu => String.lt_trans hst (h.1 u hu)⟩, h⟩
    · next hst =>
      split
      · exact List.pairwise_cons.2 h
      · next hne =>
        have hts : t < s :=
          String.not_le.1 fun hle => hne (String.le_antisymm hle (String.not_lt.1 hst))
        refine List.pairwise_cons.2 ⟨fun u hu => ?_, ih h.2⟩
        rcases (mem_insertSorted s u r).1 hu with rfl | hu
        · exact hts
        · exact h.1 u hu

theorem pairwise_sortedSet (ss : List String) : (sortedSet ss).Pairwise (· < ·) := by
  induction ss with
  | nil => exact List.Pairwise.nil
  | cons s ss ih => exact pairwise_insertSorted s ih

end DotSemantics.Text
