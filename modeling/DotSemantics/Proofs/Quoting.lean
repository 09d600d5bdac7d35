import DotSemantics.Flat
import DotSemantics.Proofs.GraphAttributes
import DotSemantics.Proofs.Nodes
import Mathlib.Logic.Function.Iterate

/-!
# Quoted and unquoted texts

Escapes are read from left to right, but each position tells on its own whether its character is
kept: all are, but for a backslash right before a double quote.

    resolveEscapes cs = withoutEscapes cs                        (resolveEscapes_eq_withoutEscapes)

So a text that unquoting changes gets shorter, and the texts that it leaves alone are those that are
not enclosed and hold no escape (`unquote_drops_escapes`).  Every text has a quoted form that it can
be read back from, and so every text can be the name of a graph or of a node (`ids_of_quoted`).
-/

namespace DotSemantics

namespace Text

/-! ## Escapes by position -/

/-- The characters of a list that are no backslash right before a double quote. -/
def withoutEscapes (cs : List Char) : List Char :=
  (cs.zipIdx.filter fun p => ¬ (p.1 = '\\' ∧ cs[p.2 + 1]? = some '"')).map Prod.fst

theorem withoutEscapes_cons (c : Char) (r : List Char) :
    withoutEscapes (c :: r) =
      if c = '\\' ∧ r.head? = some '"' then withoutEscapes r else c :: withoutEscapes r := by
  -- behind the first character, each position counts one more than it does in the rest
  have hrest : (((c :: r).zipIdx.tail.filter fun p =>
      ¬ (p.1 = '\\' ∧ (c :: r)[p.2 + 1]? = some '"')).map Prod.fst) = withoutEscapes r := by
    rw [List.zipIdx_cons, List.tail_cons, List.zipIdx_succ, List.filter_map, List.map_map]
    rfl
  rw [← hrest, List.head?_eq_getElem?]
  unfold withoutEscapes
  rw [List.zipIdx_cons, List.filter_cons, List.tail_cons]
  by_cases h : c = '\\' ∧ r[0]? = some '"'
  · simp [h]
  · simp [h]

/-- Reading the escapes from left to right keeps the characters that their positions say. -/
theorem resolveEscapes_eq_withoutEscapes (cs : List Char) :
    resolveEscapes cs = withoutEscapes cs := by
  fun_induction resolveEscapes cs with
  | case1 => rfl
  | case2 r ih =>
    rw [ih, withoutEscapes_cons, if_pos ⟨rfl, rfl⟩, withoutEscapes_cons, if_neg (by simp)]
  | case3 c r hno ih =>
    have hkept : ¬ (c = '\\' ∧ r.head? = some '"') := by
      rintro ⟨rfl, hr⟩
      obtain ⟨r', rfl⟩ := List.head?_eq_some_iff.1 hr
      exact hno r' rfl rfl
    rw [ih, withoutEscapes_cons, if_neg hkept]

theorem withoutEscapes_sublist (cs : List Char) : (withoutEscapes cs).Sublist cs := by
  have h := (List.filter_sublist (p := fun p => ¬ (p.1 = '\\' ∧ cs[p.2 + 1]? = some '"'))
    (l := cs.zipIdx)).map Prod.fst
  rwa [List.zipIdx_map_fst] at h

/-- Nothing is dropped just when there is no escape. -/
theorem withoutEscapes_eq_self_iff (cs : List Char) :
    withoutEscapes cs = cs ↔ ¬ ['\\', '"'] <:+: cs := by
  induction cs with
  | nil => simp [withoutEscapes]
  | cons c r ih =>
    have hfirst : ['\\', '"'] <+: c :: r ↔ c = '\\' ∧ r.head? = some '"' := by
      cases r with
      | nil => simp [eq_comm]
      | cons c' r => simp [List.cons_prefix_cons, eq_comm]
    rw [withoutEscapes_cons, List.infix_cons_iff, hfirst]
    by_cases h : c = '\\' ∧ r.head? = some '"'
    · rw [if_pos h]
      have hlen := (withoutEscapes_sublist r).length_le
      constructor
      · intro heq
        rw [heq, List.length_cons] at hlen
        omega
      · intro hno
        exact absurd (Or.inl h) hno
    · rw [if_neg h, List.cons_inj_right, ih]
      simp [h]

/-! ## Unquoting -/

theorem toList_unquote_of_enclosed {s : String} {b : List Char} (h : s.toList = '"' :: b ++ ['"']) :
    (unquote s).toList = withoutEscapes b := by
  unfold unquote unquoteChars
  rw [String.toList_ofList, h, dropEnclosing_enclosed, resolveEscapes_eq_withoutEscapes]

theorem toList_unquote_of_ne {s : String} (h : ∀ b, s.toList ≠ '"' :: b ++ ['"']) :
    (unquote s).toList = withoutEscapes s.toList := by
  unfold unquote unquoteChars
  rw [String.toList_ofList, dropEnclosing_of_ne h, resolveEscapes_eq_withoutEscapes]

theorem length_unquote_of_enclosed {s : String} {b : List Char}
    (h : s.toList = '"' :: b ++ ['"']) : (unquote s).length < s.length := by
  have hlen := (withoutEscapes_sublist b).length_le
  rw [← String.length_toList, ← String.length_toList, toList_unquote_of_enclosed h, h]
  simp only [List.length_append, List.length_cons, List.length_nil]
  omega

/-- Unquoting leaves a text alone just when it is not enclosed and holds no escape. -/
theorem unquote_eq_self_iff (s : String) :
    unquote s = s ↔
      (∀ b, s.toList ≠ '"' :: b ++ ['"']) ∧ ¬ ['\\', '"'] <:+: s.toList := by
  constructor
  · intro heq
    have hne : ∀ b, s.toList ≠ '"' :: b ++ ['"'] := by
      intro b hb
      have hlt := length_unquote_of_enclosed hb
      rw [heq] at hlt
      exact absurd hlt (Nat.lt_irrefl _)
    rw [← String.toList_inj, toList_unquote_of_ne hne] at heq
    exact ⟨hne, (withoutEscapes_eq_self_iff _).1 heq⟩
  · rintro ⟨hne, hno⟩
    rw [← String.toList_inj, toList_unquote_of_ne hne]
    exact (withoutEscapes_eq_self_iff _).2 hno

theorem length_unquote_lt {s : String} (h : unquote s ≠ s) : (unquote s).length < s.length := by
  by_cases hne : ∀ b, s.toList ≠ '"' :: b ++ ['"']
  · have hsub := withoutEscapes_sublist s.toList
    rw [← toList_unquote_of_ne hne] at hsub
    rw [← String.length_toList, ← String.length_toList]
    apply Nat.lt_of_le_of_ne hsub.length_le
    intro hlen
    exact h (String.toList_inj.1 (hsub.eq_of_length hlen))
  · simp only [not_forall, not_not] at hne
    obtain ⟨b, hb⟩ := hne
    exact length_unquote_of_enclosed hb

/-- Unquoting again and again comes to an end, after no more steps than the text has characters. -/
theorem exists_unquote_fixed (s : String) :
    ∃ n ≤ s.length, unquote (unquote^[n] s) = unquote^[n] s := by
  induction hlen : s.length using Nat.strongRecOn generalizing s with
  | ind k ih =>
    by_cases h : unquote s = s
    · exact ⟨0, Nat.zero_le k, h⟩
    · have hlt := length_unquote_lt h
      obtain ⟨n, hn, hfixed⟩ := ih _ (hlen ▸ hlt) (unquote s) rfl
      exact ⟨n + 1, by omega, hfixed⟩

def twiceQuoted : String := "\"\\\"x\\\"\""

/-- Unquoting drops one pair of enclosing double quotes, if there is one, and of what is left each
backslash right before a double quote; all else is kept in order.  So it leaves a text alone just
when the text is not enclosed and holds no backslash before a double quote.  Any other text gets
shorter, so that unquoting again and again comes to a text that stays. -/
theorem unquote_drops_escapes (s : String) :
    (∀ b, s.toList = '"' :: b ++ ['"'] → (unquote s).toList = withoutEscapes b) ∧
      ((∀ b, s.toList ≠ '"' :: b ++ ['"']) → (unquote s).toList = withoutEscapes s.toList) ∧
      (unquote s = s ↔
        (∀ b, s.toList ≠ '"' :: b ++ ['"']) ∧ ¬ ['\\', '"'] <:+: s.toList) ∧
      (unquote s ≠ s → (unquote s).length < s.length) ∧
      ∃ n ≤ s.length, ∀ m, unquote^[m + n] s = unquote^[n] s := by
  refine ⟨fun _ hb => toList_unquote_of_enclosed hb, toList_unquote_of_ne, unquote_eq_self_iff s,
    length_unquote_lt, ?_⟩
  obtain ⟨n, hn, hfixed⟩ := exists_unquote_fixed s
  refine ⟨n, hn, fun m => ?_⟩
  rw [Function.iterate_add_apply]
  exact Function.iterate_fixed hfixed m

/-- What unquoting gives may be quoted itself. -/
theorem unquote_twiceQuoted : unquote twiceQuoted = "\"x\"" ∧
    (unquote twiceQuoted).length < twiceQuoted.length ∧ unquote "\"x\"" = "x" ∧
    unquote "x" = "x" := by
  obtain ⟨henclosed, -, -, hshorter, -⟩ := unquote_drops_escapes twiceQuoted
  have hunquoted : unquote twiceQuoted = "\"x\"" :=
    String.toList_inj.1 (henclosed ['\\', '"', 'x', '\\', '"'] (by decide +kernel))
  refine ⟨hunquoted, hshorter ?_, ?_, ?_⟩
  · rw [hunquoted]
    decide +kernel
  · obtain ⟨henclosed', -⟩ := unquote_drops_escapes "\"x\""
    exact String.toList_inj.1 (henclosed' ['x'] (by decide +kernel))
  · obtain ⟨-, -, hstays, -⟩ := unquote_drops_escapes "x"
    exact hstays.2 ⟨by simp, by decide +kernel⟩

/-! ## Quoting -/

theorem escapeQuotes_eq_flatMap (cs : List Char) :
    escapeQuotes cs = cs.flatMap fun c => if c = '"' then ['\\', '"'] else [c] := by
  induction cs with
  | nil => rfl
  | cons c r ih =>
    rw [escapeQuotes, List.flatMap_cons, ← ih]
    split <;> rfl

theorem quote_injective : Function.Injective quote := by
  intro s t h
  rw [← unquote_quote s, h, unquote_quote t]

end Text

open Text

/-- The nodes that some texts name, each of them quoted. -/
def statedNodes (ids : List String) : List Statement :=
  ids.map fun s => .node (.text (quote s)) []

theorem bodyMentions_statedNodes (ids : List String) : bodyMentions (statedNodes ids) = ids := by
  induction ids with
  | nil => rfl
  | cons s ids ih =>
    show Word.meant (.ofMeant s) :: bodyMentions (statedNodes ids) = s :: ids
    rw [Word.meant_ofMeant, ih]

theorem refusal?_statedNodes (ls : Layouts) (ids : List String) :
    ∀ m ∈ bodyCourse (statedNodes ids), m.refusal? ls = none := by
  intro m hm
  rw [statedNodes, bodyCourse_map] at hm
  obtain ⟨s, -, hs⟩ := List.mem_flatMap.1 hm
  rw [Statement.course, List.mem_singleton] at hs
  rw [hs]
  rfl

/-- A text between double quotes, with a backslash before each of its own, is unquoted to itself,
and no two texts are quoted alike.  Written so, any text is the name of a graph, and any texts are
the names of its nodes, each once. -/
theorem ids_of_quoted (ls : Layouts) (kind : GraphKind) (name : String) (ids : List String) :
    (∀ s, (quote s).toList =
        '"' :: s.toList.flatMap (fun c => if c = '"' then ['\\', '"'] else [c]) ++ ['"'] ∧
      unquote (quote s) = s) ∧
      (∀ s t, quote s = quote t ↔ s = t) ∧
      ∃ g, (readBatch ls [.declaration ⟨kind, some (.text (quote name)), statedNodes ids⟩]).2 =
          .ok [g] ∧ g.name? = some name ∧ g.names = distinct ids := by
  refine ⟨fun s => ⟨?_, unquote_quote s⟩, fun s t => quote_injective.eq_iff, ?_⟩
  · unfold quote quoteChars
    rw [String.toList_ofList, escapeQuotes_eq_flatMap]
  · have hread := readBatch_intended (d := ⟨kind, some (.ofMeant name), statedNodes ids⟩)
      (refusal?_statedNodes ls ids)
    refine ⟨_, hread, ?_, ?_⟩
    · rw [name_of_read hread, Declaration.graphName, Option.map_some, Word.meant_ofMeant]
    · rw [names_of_read hread, bodyMentions_statedNodes]

end DotSemantics
