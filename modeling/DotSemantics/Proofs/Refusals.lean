import DotSemantics.Proofs.GraphAttributes

/-!
# Layouts that are not allowed

The reading of a declaration fails just when one of the layouts that its body asks for
(`bodyLayouts`) is not allowed, and then the failure is about the first such layout
(`Declaration.read_of_refused`).  All of them count, at whatever depth they stand and whether or not
a later one takes their place; what nodes and edges have under that name does not
(`failure_of_read`).  If all of them are allowed, the graph has the last one
(`get?_layoutKey_of_read`).
-/

namespace DotSemantics

/-- The layout that a pair asks for, in lower case. -/
def layoutOf? (p : String × String) : Option String :=
  if p.1 = layoutKey then some (Text.lower p.2) else none

/-- The layouts that a body asks for, in the order of the text. -/
def bodyLayouts (b : List Statement) : List String := (bodyGraphPairs b).filterMap layoutOf?

/-- The first layout that a declaration asks for and that is not allowed. -/
def Declaration.refused? (ls : Layouts) (d : Declaration) : Option String :=
  (bodyLayouts d.body).find? fun l => !ls.allows l

/-! ## Layouts of graphs -/

/-- Of what some pairs enter into the table of a graph, the layout is the last one asked for. -/
theorem lastValue?_layoutKey_filterMap (ps : List (String × String)) :
    lastValue? layoutKey (ps.filterMap graphEntry?) = (ps.filterMap layoutOf?).getLast? := by
  induction ps with
  | nil => rfl
  | cons p ps ih =>
    rw [List.filterMap_cons, List.filterMap_cons]
    by_cases hp : p.1 = layoutKey
    · have hentry : graphEntry? p = some (layoutKey, Text.lower p.2) := by
        unfold graphEntry?
        rw [hp, if_neg (by decide), if_pos rfl]
      have hlayout : layoutOf? p = some (Text.lower p.2) := if_pos hp
      simp only [hentry, hlayout]
      rw [lastValue?, ih, if_pos rfl, List.getLast?_cons]
      cases (ps.filterMap layoutOf?).getLast? <;> rfl
    · have hlayout : layoutOf? p = none := if_neg hp
      rw [hlayout]
      cases hentry : graphEntry? p with
      | none => exact ih
      | some q =>
        have hq : q.1 ≠ layoutKey := by
          unfold graphEntry? at hentry
          split at hentry
          · cases hentry
          · exact Option.some.inj hentry ▸ hp
        show (lastValue? layoutKey (ps.filterMap graphEntry?)).or _ = _
        rw [if_neg hq, Option.or_none, ih]

/-- The layout of a graph that is read is the last one that its body asks for. -/
theorem get?_layoutKey_of_read {ls : Layouts} {d : Declaration} {g : Graph}
    (h : (readBatch ls [.declaration d]).2 = .ok [g]) :
    g.attrs.get? layoutKey = (bodyLayouts d.body).getLast? := by
  rw [attrs_of_read h, Table.get?_putAll, Walk.get?_heading_of_notMem (by decide), Option.or_none]
  exact lastValue?_layoutKey_filterMap _

/-! ## Refusals of a course -/

theorem Move.refusal?_eq (ls : Layouts) (m : Move) :
    m.refusal? ls = (m.pairs.filterMap layoutOf?).find? fun l => !ls.allows l := by
  cases m with
  | assign name value =>
    rw [refusal?_assign, show (assign name value).pairs = [(name, value)] from rfl,
      List.filterMap_cons]
    unfold layoutOf?
    by_cases hname : name = layoutKey
    · cases hallow : ls.allows (Text.lower value) <;> simp [hname, hallow]
    · simp [hname]
  | _ => rfl

/-! ## Declarations -/

namespace Declaration

/-- The first refusal in the course of a declaration is about the first layout that is not
allowed. -/
theorem findSome?_refusal? (ls : Layouts) (d : Declaration) :
    (bodyCourse d.body).findSome? (Move.refusal? ls) = d.refused? ls := by
  unfold refused? bodyLayouts
  rw [← pairs_bodyCourse, List.filterMap_flatMap, List.find?_flatMap, funext (Move.refusal?_eq ls)]

theorem refused?_eq_some_iff (ls : Layouts) (d : Declaration) (l : String) :
    d.refused? ls = some l ↔ ∃ earlier later, bodyLayouts d.body = earlier ++ l :: later ∧
      (∀ k ∈ earlier, ls.allows k = true) ∧ ls.allows l = false := by
  unfold refused?
  rw [List.find?_eq_some_iff_append]
  constructor
  · rintro ⟨hl, earlier, later, hlayouts, hearlier⟩
    exact ⟨earlier, later, hlayouts, by simpa using hearlier, by simpa using hl⟩
  · rintro ⟨earlier, later, hlayouts, hearlier, hl⟩
    exact ⟨by simpa using hl, earlier, later, hlayouts, by simpa using hearlier⟩

theorem refused?_eq_none_iff (ls : Layouts) (d : Declaration) :
    d.refused? ls = none ↔ ∀ l ∈ bodyLayouts d.body, ls.allows l = true := by
  unfold refused?
  rw [List.find?_eq_none]
  simp

theorem read_of_refused {ls : Layouts} {d : Declaration} {l : String}
    (h : d.refused? ls = some l) (index : Nat) :
    (d.read ls index).2 = .error ⟨l, d.graphName⟩ := by
  rw [← findSome?_refusal?, List.findSome?_eq_some_iff] at h
  obtain ⟨before, m, after, hcourse, hm, hbefore⟩ := h
  have hplay := play_of_refusal hbefore hm after
    (Walk.start d.kind d.graphName (d.heading index))
  rw [Walk.name?_run_start] at hplay
  unfold read
  rw [walk_eq_play, hcourse, hplay]

theorem read_of_not_refused {ls : Layouts} {d : Declaration} (h : d.refused? ls = none)
    (index : Nat) :
    (d.read ls index).2 = .ok (d.final (d.heading index)).graph := by
  rw [← findSome?_refusal?, List.findSome?_eq_none_iff] at h
  exact (read_eq_ok_iff _ _ _ _).2 ⟨h, rfl⟩

end Declaration

/-! ## Batches -/

section

variable {ls : Layouts} {before : List Value} {gs : List Graph}
  (h : (readBatch ls before).2 = .ok gs) {d : Declaration}

include h

theorem readBatch_of_refused {l : String} (hl : d.refused? ls = some l) (after : List Value) :
    (readBatch ls (before ++ .declaration d :: after)).2 =
      .error (.unknownLayout l ⟨before.length, d.graphName⟩) := by
  rw [readBatch_append_declaration h, Declaration.read_of_refused hl]

theorem readBatch_of_not_refused (hl : d.refused? ls = none) :
    ∃ g, (readBatch ls (before ++ [.declaration d])).2 = .ok (gs ++ [g]) := by
  rw [readBatch_append_declaration h, Declaration.read_of_not_refused hl]
  exact ⟨_, rfl⟩

theorem readBatch_eq_error_iff (f : BatchFailure) :
    (readBatch ls (before ++ [.declaration d])).2 = .error f ↔
      ∃ l, d.refused? ls = some l ∧ f = .unknownLayout l ⟨before.length, d.graphName⟩ := by
  cases hl : d.refused? ls with
  | some l =>
    rw [readBatch_of_refused h hl []]
    constructor
    · intro hf
      cases hf
      exact ⟨l, rfl, rfl⟩
    · rintro ⟨k, hk, rfl⟩
      cases hk
      rfl
  | none =>
    obtain ⟨g, hg⟩ := readBatch_of_not_refused h hl
    rw [hg]
    constructor
    · intro hf
      cases hf
    · rintro ⟨k, hk, -⟩
      cases hk

end

/-! ## Main theorem -/

/-- A layout that is allowed stands before two that are not, the first of which is overwritten in
the same list and inside an end of an edge; a node has a layout as well:

    graph g { layout=dot; a [layout=zero]; { graph [layout="One", layout=dot] } -- b; layout=two } -/
def refusedTwice : Declaration where
  kind := .graph
  name := some (.text "g")
  body := [
    .assign ⟨.text "layout", .text "dot"⟩,
    .node (.text "a") [⟨[⟨.text "layout", .text "zero"⟩]⟩],
    .edge (.subgraph none [.attrs .graph [⟨[⟨.text "layout", .text "\"One\""⟩,
        ⟨.text "layout", .text "dot"⟩]⟩]])
      [.via .undirected (.node (.text "b"))] [],
    .assign ⟨.text "layout", .text "two"⟩]

/-- Behind entries that do not fail, a declaration makes the batch fail just when a layout that its
body asks for is not allowed.  The failure is about the first such layout, whatever comes behind
the declaration, and about nothing else; without one the batch has one more graph. -/
theorem failure_of_read (ls : Layouts) (before : List Value) (gs : List Graph) (d : Declaration)
    (h : (readBatch ls before).2 = .ok gs) :
    ((∃ f, (readBatch ls (before ++ [.declaration d])).2 = .error f) ↔
        ∃ l ∈ bodyLayouts d.body, ls.allows l = false) ∧
      (∀ f, (readBatch ls (before ++ [.declaration d])).2 = .error f ↔
        ∃ earlier l later, bodyLayouts d.body = earlier ++ l :: later ∧
          (∀ k ∈ earlier, ls.allows k = true) ∧ ls.allows l = false ∧
          f = .unknownLayout l ⟨before.length, d.graphName⟩) ∧
      (∀ f, (readBatch ls (before ++ [.declaration d])).2 = .error f →
        ∀ after, (readBatch ls (before ++ .declaration d :: after)).2 = .error f) ∧
      ((∀ l ∈ bodyLayouts d.body, ls.allows l = true) →
        ∃ g, (readBatch ls (before ++ [.declaration d])).2 = .ok (gs ++ [g])) := by
  have hexact : ∀ f, (readBatch ls (before ++ [.declaration d])).2 = .error f ↔
      ∃ l, d.refused? ls = some l ∧ f = .unknownLayout l ⟨before.length, d.graphName⟩ :=
    readBatch_eq_error_iff h
  refine ⟨⟨?_, ?_⟩, fun f => ?_, fun f hf after => ?_, fun hall => ?_⟩
  · rintro ⟨f, hf⟩
    obtain ⟨l, hl, -⟩ := (hexact f).1 hf
    obtain ⟨earlier, later, hlayouts, -, hno⟩ := (d.refused?_eq_some_iff ls l).1 hl
    exact ⟨l, by rw [hlayouts]; simp, hno⟩
  · rintro ⟨l, hmem, hno⟩
    cases hl : d.refused? ls with
    | some k => exact ⟨_, (hexact _).2 ⟨k, hl, rfl⟩⟩
    | none =>
      rw [(d.refused?_eq_none_iff ls).1 hl l hmem] at hno
      cases hno
  · rw [hexact]
    constructor
    · rintro ⟨l, hl, hf⟩
      obtain ⟨earlier, later, hlayouts, hearlier, hno⟩ := (d.refused?_eq_some_iff ls l).1 hl
      exact ⟨earlier, l, later, hlayouts, hearlier, hno, hf⟩
    · rintro ⟨earlier, l, later, hlayouts, hearlier, hno, hf⟩
      exact ⟨l, (d.refused?_eq_some_iff ls l).2 ⟨earlier, later, hlayouts, hearlier, hno⟩, hf⟩
  · obtain ⟨l, hl, rfl⟩ := (hexact f).1 hf
    exact readBatch_of_refused h hl after
  · exact readBatch_of_not_refused h ((d.refused?_eq_none_iff ls).2 hall)

/-- The failure is about the layout inside the end of the edge, in lower case. -/
theorem failure_refusedTwice :
    (readBatch .standard [.declaration scatteredAttributes, .null]).2 =
        .ok [scatteredAttributes.intended] ∧
      (readBatch .standard
        [.declaration scatteredAttributes, .null, .declaration refusedTwice, .null]).2 =
        .error (.unknownLayout "one" ⟨2, some "g"⟩) := by
  have hread : (readBatch .standard [.declaration scatteredAttributes]).2 =
      .ok [scatteredAttributes.intended] := readBatch_intended (by decide +kernel)
  have hbefore : (readBatch .standard [.declaration scatteredAttributes, .null]).2 =
      .ok [scatteredAttributes.intended] := readFrom_append hread [.null]
  have hname : refusedTwice.graphName = some "g" := by decide +kernel
  obtain ⟨-, hexact, hrest, -⟩ := failure_of_read .standard _ _ refusedTwice hbefore
  refine ⟨hbefore, hrest _ ?_ [.null]⟩
  rw [hexact, hname]
  exact ⟨["dot"], "one", ["dot", "two"], by decide +kernel, by decide +kernel, by decide +kernel,
    rfl⟩

end DotSemantics
