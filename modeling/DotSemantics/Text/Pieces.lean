/-!
# Pieces of a list

Cutting at a separator: `n` separators make `n + 1` pieces, some of them perhaps empty, and
joining the pieces by the separator gives the list back (`joinWith_pieces`).
-/

namespace DotSemantics.Text

/-- The pieces between the occurrences of a separator; never an empty list of pieces. -/
def pieces (sep : Char) : List Char → List (List Char)
  | [] => [[]]
  | c :: r =>
    if c = sep then [] :: pieces sep r
    else match pieces sep r with
      | [] => [[c]]
      | p :: ps => (c :: p) :: ps

/-- The pieces with the separator between them. -/
def joinWith (sep : Char) : List (List Char) → List Char
  | [] => []
  | [p] => p
  | p :: q :: ps => p ++ sep :: joinWith sep (q :: ps)

theorem pieces_ne_nil (sep : Char) (cs : List Char) : pieces sep cs ≠ [] := by
  cases cs with
  | nil => simp [pieces]
  | cons c r =>
    unfold pieces
    split
    · simp
    · split <;> simp

theorem notMem_of_mem_pieces {sep : Char} {cs p : List Char} (h : p ∈ pieces sep cs) : sep ∉ p := by
  induction cs generalizing p with
  | nil =>
    rw [List.mem_singleton.1 h]
    exact List.not_mem_nil
  | cons c r ih =>
    unfold pieces at h
    split at h
    · rcases List.mem_cons.1 h with rfl | hr
      · exact List.not_mem_nil
      · exact ih hr
    · next hc =>
      have hsep : sep ≠ c := fun e => hc e.symm
      split at h
      · rw [List.mem_singleton.1 h]
        simpa using hsep
      · next q qs hr =>
        rcases List.mem_cons.1 h with rfl | hq
        · have hq : sep ∉ q := ih (hr ▸ List.mem_cons_self)
          simp [hsep, hq]
        · exact ih (hr ▸ List.mem_cons_of_mem q hq)

theorem joinWith_cons_cons (sep c : Char) (p : List Char) (ps : List (List Char)) :
    joinWith sep ((c :: p) :: ps) = c :: joinWith sep (p :: ps) := by
  cases ps <;> rfl

theorem joinWith_pieces (sep : Char) (cs : List Char) : joinWith sep (pieces sep cs) = cs := by
  induction cs with
  | nil => rfl
  | cons c r ih =>
    unfold pieces
    cases h : pieces sep r with
    | nil => exact absurd h (pieces_ne_nil sep r)
    | cons p ps =>
      rw [h] at ih
      split
      · rename_i hc
        subst hc
        show [] ++ c :: joinWith c (p :: ps) = c :: r
        rw [ih]; rfl
      · rw [joinWith_cons_cons, ih]

end DotSemantics.Text
