/-!
# Quoted text

An identifier may stand between double quotes, and then a double quote inside it follows a
backslash; no other escape exists.  `unquote` reads such a text and `quote` writes one.  Reading
undoes writing (`unquote_quote`): the enclosing quotes (`dropEnclosing_enclosed`) and then the
escapes (`resolveEscapes_escapeQuotes`).
-/

namespace DotSemantics.Text

/-! ## Reading -/

/-- Whether a text of at least two characters begins and ends with a double quote. -/
def isEnclosed (cs : List Char) : Bool :=
  2 ≤ cs.length && cs.head? == some '"' && cs.getLast? == some '"'

/-- Drops one pair of enclosing double quotes, if there is one. -/
def dropEnclosing (cs : List Char) : List Char :=
  if isEnclosed cs then cs.tail.dropLast else cs

/-- Drops each backslash that a double quote follows. -/
def resolveEscapes : List Char → List Char
  | [] => []
  | '\\' :: '"' :: r => '"' :: resolveEscapes r
  | c :: r => c :: resolveEscapes r

def unquoteChars (cs : List Char) : List Char := resolveEscapes (dropEnclosing cs)

/-- The text that a possibly quoted identifier stands for. -/
def unquote (s : String) : String := String.ofList (unquoteChars s.toList)

/-! ## Writing -/

/-- Puts a backslash before each double quote. -/
def escapeQuotes : List Char → List Char
  | [] => []
  | c :: r => if c = '"' then '\\' :: '"' :: escapeQuotes r else c :: escapeQuotes r

def quoteChars (cs : List Char) : List Char := '"' :: escapeQuotes cs ++ ['"']

/-- The quoted form of a text. -/
def quote (s : String) : String := String.ofList (quoteChars s.toList)

/-! ## Lemmas -/

/-- Only a backslash before a double quote is dropped. -/
theorem resolveEscapes_cons {c : Char} {r : List Char} (h : c ≠ '\\' ∨ r.head? ≠ some '"') :
    resolveEscapes (c :: r) = c :: resolveEscapes r := by
  rw [resolveEscapes.eq_def]
  split
  · rename_i heq; cases heq
  · rename_i heq
    cases heq
    simp at h
  · rename_i heq
    cases heq
    rfl

theorem head?_escapeQuotes (cs : List Char) : (escapeQuotes cs).head? ≠ some '"' := by
  cases cs with
  | nil => simp [escapeQuotes]
  | cons c r =>
    unfold escapeQuotes
    split <;> simp_all

/-- Reading the escapes undoes writing them. -/
theorem resolveEscapes_escapeQuotes (cs : List Char) : resolveEscapes (escapeQuotes cs) = cs := by
  induction cs with
  | nil => rfl
  | cons c r ih =>
    by_cases h : c = '"'
    · subst h
      simp [escapeQuotes, resolveEscapes, ih]
    · rw [escapeQuotes, if_neg h, resolveEscapes_cons (Or.inr (head?_escapeQuotes r)), ih]

/-- Of a text between double quotes, what stands between them is left. -/
theorem dropEnclosing_enclosed (b : List Char) : dropEnclosing ('"' :: b ++ ['"']) = b := by
  simp [dropEnclosing, isEnclosed, List.getLast?_cons]

/-- A text that does not stand between double quotes is left as it is. -/
theorem dropEnclosing_of_ne {cs : List Char} (h : ∀ b, cs ≠ '"' :: b ++ ['"']) :
    dropEnclosing cs = cs := by
  unfold dropEnclosing
  split
  · next henclosed =>
    unfold isEnclosed at henclosed
    simp only [Bool.and_eq_true, decide_eq_true_eq, beq_iff_eq] at henclosed
    obtain ⟨⟨hlen, hhead⟩, hlast⟩ := henclosed
    obtain ⟨b, rfl⟩ := List.getLast?_eq_some_iff.1 hlast
    cases b with
    | nil => simp at hlen
    | cons c b =>
      have hc : c = '"' := by simpa using hhead
      exact absurd (by rw [hc]) (h b)
  · rfl

/-- A text is what its quoted form stands for. -/
theorem unquote_quote (s : String) : unquote (quote s) = s := by
  unfold unquote quote unquoteChars quoteChars
  rw [String.toList_ofList, dropEnclosing_enclosed, resolveEscapes_escapeQuotes,
    String.ofList_toList]

end DotSemantics.Text
