import DotSemantics.Proofs.Drafts
import DotSemantics.Proofs.Reading

/-!
# The attributes of a graph

A course writes into the table of the graph the pairs that it assigns (`Move.assigned`), and
nothing else: not the name and the kind, which stand in the table from the start, and only layouts
that are allowed.

    table of the graph of d = name and kind of d, then the entries of bodyEntries d.body
                                                          (graph_attributes_of_read)
-/

namespace DotSemantics

/-- The pairs that a move writes into the table of the graph. -/
def Move.assigned : Move → List (String × String)
  | assign name value =>
    if metaKeys.contains name then []
    else [(name, if name = layoutKey then Text.lower value else value)]
  | _ => []

theorem Move.assigned_assign (name value : String) :
    (assign name value).assigned =
      if metaKeys.contains name then []
      else [(name, if name = layoutKey then Text.lower value else value)] := rfl

namespace Walk

theorem attrs_setAttr (name value : String) (w : Walk) :
    (w.setAttr name value).attrs = w.attrs.putAll (Move.assign name value).assigned := by
  rw [Move.assigned_assign]
  unfold setAttr
  split <;> rfl

theorem attrs_apply (m : Move) (w : Walk) : (m.apply w).attrs = w.attrs.putAll m.assigned := by
  cases m with
  | assign name value => exact attrs_setAttr name value w
  | node name ps =>
    rw [Move.apply, settle_eq]
    rfl
  | _ => rfl

theorem attrs_run (ms : List Move) (w : Walk) :
    (run ms w).attrs = w.attrs.putAll (ms.flatMap Move.assigned) := by
  induction ms generalizing w with
  | nil => rfl
  | cons m ms ih => rw [run_cons, ih, attrs_apply, List.flatMap_cons, Table.putAll_append]

end Walk

/-! ## Pairs of a course -/

def Move.pairs : Move → List (String × String)
  | assign name value => [(name, value)]
  | _ => []

mutual

theorem pairs_statement_course : ∀ s : Statement, s.course.flatMap Move.pairs = s.graphPairs
  | .assign _ => rfl
  | .attrs .graph lists => by
    rw [Statement.course, List.flatMap_map]
    exact List.flatMap_singleton' (pairsOf lists)
  | .attrs .node _ => rfl
  | .attrs .edge _ => rfl
  | .node _ _ => rfl
  | .edge source hops lists => by
    rw [Statement.course, Statement.graphPairs, List.flatMap_append,
      pairs_endpoint_course source, pairs_hopCourse _ _ hops]
  | .subgraph _ body => pairs_bodyCourse body

theorem pairs_endpoint_course : ∀ e : Endpoint, e.course.flatMap Move.pairs = e.graphPairs
  | .node _ => rfl
  | .subgraph _ body => pairs_bodyCourse body

theorem pairs_hopCourse (ps : List (String × String)) :
    ∀ (sources : List String) (hops : List Hop),
      (hopCourse ps sources hops).flatMap Move.pairs = hopGraphPairs hops
  | _, [] => rfl
  | _, .via op target :: rest => by
    rw [hopCourse, hopGraphPairs, List.flatMap_append, List.flatMap_cons,
      pairs_endpoint_course target, pairs_hopCourse ps _ rest]
    rfl

/-- The course of a body assigns the pairs that the body means for the graph. -/
theorem pairs_bodyCourse :
    ∀ b : List Statement, (bodyCourse b).flatMap Move.pairs = bodyGraphPairs b
  | [] => rfl
  | s :: rest => by
    rw [bodyCourse, bodyGraphPairs, List.flatMap_append, pairs_statement_course s,
      pairs_bodyCourse rest]

end

/-- What a pair enters into the table of a graph: nothing if only the grammar decides about its
name, and a layout in lower case. -/
def graphEntry? (p : String × String) : Option (String × String) :=
  if metaKeys.contains p.1 then none
  else some (p.1, if p.1 = layoutKey then Text.lower p.2 else p.2)

/-- What a body enters into the table of its graph, in the order of the text. -/
def bodyEntries (b : List Statement) : List (String × String) :=
  (bodyGraphPairs b).filterMap graphEntry?

theorem Move.assigned_eq (m : Move) : m.assigned = m.pairs.filterMap graphEntry? := by
  cases m with
  | assign name value =>
    rw [assigned_assign, show (assign name value).pairs = [(name, value)] from rfl,
      List.filterMap_cons]
    unfold graphEntry?
    dsimp only
    cases metaKeys.contains name <;> rfl
  | _ => rfl

theorem assigned_eq_filterMap_pairs (ms : List Move) :
    ms.flatMap Move.assigned = (ms.flatMap Move.pairs).filterMap graphEntry? := by
  rw [List.filterMap_flatMap, funext Move.assigned_eq]

theorem notMem_metaKeys_of_graphEntry? {p q : String × String} (h : graphEntry? q = some p) :
    p.1 ∉ metaKeys := by
  unfold graphEntry? at h
  split at h
  · cases h
  · next hmeta =>
    cases h
    simpa using hmeta

/-- No move writes what only the grammar decides. -/
theorem notMem_keys_assigned {k : String} (hk : k ∈ metaKeys) (ms : List Move) :
    k ∉ (ms.flatMap Move.assigned).map Prod.fst := by
  rw [assigned_eq_filterMap_pairs]
  intro h
  obtain ⟨p, hp, rfl⟩ := List.mem_map.1 h
  obtain ⟨q, -, hq⟩ := List.mem_filterMap.1 hp
  exact notMem_metaKeys_of_graphEntry? hq hk

/-- A layout that a move writes is one for which the move would be refused if it were not
allowed. -/
theorem allows_of_mem_assigned {ls : Layouts} {m : Move} {l : String}
    (h : (layoutKey, l) ∈ m.assigned) (hm : m.refusal? ls = none) : ls.allows l = true := by
  cases m with
  | assign name value =>
    rw [Move.assigned_assign] at h
    split at h
    · cases h
    · obtain ⟨hname, hl⟩ := Prod.mk.inj (List.mem_singleton.1 h)
      rw [← hname, if_pos rfl] at hl
      rw [Move.refusal?_assign, ← hname, if_pos rfl, ← hl] at hm
      split at hm
      · assumption
      · cases hm
  | _ => cases h

/-- What only the grammar decides stays as it was. -/
theorem Walk.get?_attrs_run_of_mem_metaKeys {k : String} (hk : k ∈ metaKeys) (ms : List Move)
    (w : Walk) : (run ms w).attrs.get? k = w.attrs.get? k := by
  rw [attrs_run, Table.get?_putAll, lastValue?_eq_none_of_notMem (notMem_keys_assigned hk ms),
    Option.none_or]

/-- The name of a graph is that of its heading, at every point of a course. -/
theorem Walk.name?_run_start (ms : List Move) (kind : GraphKind) (name : Option String)
    (log : List LogEntry) : (run ms (start kind name log)).graph.name? = name := by
  have hrun := get?_attrs_run_of_mem_metaKeys (show nameKey ∈ metaKeys by decide) ms
    (start kind name log)
  refine Eq.trans hrun ?_
  cases name <;> rfl

theorem Walk.keys_heading_subset (kind : GraphKind) (name : Option String) :
    ∀ k ∈ (heading kind name).keys, k ∈ metaKeys := by
  cases name <;> simp [heading, Table.keys, metaKeys]

/-- A heading sets nothing that attribute lists can set. -/
theorem Walk.get?_heading_of_notMem {k : String} (hk : k ∉ metaKeys) (kind : GraphKind)
    (name : Option String) : (heading kind name).get? k = none :=
  (Table.get?_eq_none_iff _ _).2 fun h => hk (keys_heading_subset kind name k h)

/-! ## Graphs that are read -/

theorem name_of_read {ls : Layouts} {d : Declaration} {g : Graph}
    (h : (readBatch ls [.declaration d]).2 = .ok [g]) : g.name? = d.graphName := by
  obtain ⟨-, rfl⟩ := (readBatch_eq_ok_iff _ _ _).1 h
  exact Walk.name?_run_start (bodyCourse d.body) d.kind d.graphName (d.heading 0)

theorem kind_of_read {ls : Layouts} {d : Declaration} {g : Graph}
    (h : (readBatch ls [.declaration d]).2 = .ok [g]) :
    g.attrs.get? kindKey = some d.kind.text := by
  obtain ⟨-, rfl⟩ := (readBatch_eq_ok_iff _ _ _).1 h
  have hrun := Walk.get?_attrs_run_of_mem_metaKeys (show kindKey ∈ metaKeys by decide)
    (bodyCourse d.body) (Walk.start d.kind d.graphName (d.heading 0))
  refine Eq.trans hrun ?_
  cases hname : d.graphName <;> rfl

theorem layout_of_read {ls : Layouts} {d : Declaration} {g : Graph}
    (h : (readBatch ls [.declaration d]).2 = .ok [g]) {l : String}
    (hl : g.attrs.get? layoutKey = some l) : ls.allows l = true := by
  obtain ⟨hallowed, rfl⟩ := (readBatch_eq_ok_iff _ _ _).1 h
  have hstart : (Walk.start d.kind d.graphName (d.heading 0)).attrs.get? layoutKey = none :=
    Walk.get?_heading_of_notMem (by decide) _ _
  have hrun := Walk.attrs_run (bodyCourse d.body) (Walk.start d.kind d.graphName (d.heading 0))
  rw [show d.intended.attrs = _ from hrun, Table.get?_putAll, hstart,
    Option.or_none] at hl
  obtain ⟨m, hm, hmem⟩ := List.mem_flatMap.1 (mem_of_lastValue? hl)
  exact allows_of_mem_assigned hmem (hallowed m hm)

/-- The table of a graph that is read: what its heading says, and then the entries of its body. -/
theorem attrs_of_read {ls : Layouts} {d : Declaration} {g : Graph}
    (h : (readBatch ls [.declaration d]).2 = .ok [g]) :
    g.attrs = (Walk.heading d.kind d.graphName).putAll (bodyEntries d.body) := by
  obtain ⟨-, rfl⟩ := (readBatch_eq_ok_iff _ _ _).1 h
  have hrun := Walk.attrs_run (bodyCourse d.body) (Walk.start d.kind d.graphName (d.heading 0))
  rw [assigned_eq_filterMap_pairs, pairs_bodyCourse] at hrun
  exact hrun

theorem Walk.entries_heading (kind : GraphKind) (name : Option String) :
    (heading kind name).entries =
      name.toList.map (fun n => (nameKey, n)) ++ [(kindKey, kind.text)] := by
  cases name <;> rfl

/-- A statement that means no pair for the graph is not refused, and leaves the table of the graph
as it is. -/
theorem visit_of_graphPairs_eq_nil (ls : Layouts) {s : Statement} (h : s.graphPairs = [])
    (w : Walk) : ∃ w', visit ls s w = .ok () w' ∧ w'.attrs = w.attrs := by
  have hpairs : ∀ m ∈ s.course, m.pairs = [] := by
    rw [← pairs_statement_course s] at h
    exact List.flatMap_eq_nil_iff.1 h
  refine ⟨run s.course w, ?_, ?_⟩
  · rw [visit_eq_play, play_eq_ok_iff]
    refine ⟨fun m hm => ?_, rfl⟩
    have hm' := hpairs m hm
    cases m with
    | assign name value => cases hm'
    | _ => rfl
  · rw [Walk.attrs_run, assigned_eq_filterMap_pairs, pairs_statement_course, h]
    rfl

/-! ## Main theorem -/

/-- A graph whose attributes come from all kinds of places, some of them more than once and some
under names that only the grammar decides about:

    digraph "g" { rank=LR; a -> { layout=DOT; "_name"=x } [layout=none];
      graph [rank=TB, _type=graph]; subgraph { layout="Neato" } } -/
def scatteredAttributes : Declaration where
  kind := .digraph
  name := some (.text "\"g\"")
  body := [
    .assign ⟨.text "rank", .text "LR"⟩,
    .edge (.node (.text "a"))
      [.via .directed (.subgraph none [
        .assign ⟨.text "layout", .text "DOT"⟩,
        .assign ⟨.text "\"_name\"", .text "x"⟩])]
      [⟨[⟨.text "layout", .text "none"⟩]⟩],
    .attrs .graph [⟨[⟨.text "rank", .text "TB"⟩, ⟨.text "_type", .text "graph"⟩]⟩],
    .subgraph none [.assign ⟨.text "layout", .text "\"Neato\""⟩]]

/-- The table of a graph holds its name, if it has one, its kind, and then what the pairs meant for
the graph enter, each name at its first place with its last value.  What a pair says about the name
or the kind has no effect, and no other statement has one. -/
theorem graph_attributes_of_read (ls : Layouts) (d : Declaration) (g : Graph)
    (h : (readBatch ls [.declaration d]).2 = .ok [g]) :
    g.attrs.entries = d.graphName.toList.map (fun n => (nameKey, n)) ++
        (kindKey, d.kind.text) :: (Table.ofPairs (bodyEntries d.body)).entries ∧
      g.attrs.keys = d.graphName.toList.map (fun _ => nameKey) ++
        kindKey :: distinct ((bodyEntries d.body).map Prod.fst) ∧
      (∀ k, k ∉ metaKeys → g.attrs.get? k = lastValue? k (bodyEntries d.body)) ∧
      g.name? = d.graphName ∧ (Draft.ofGraph g).kind = .ok d.kind ∧
      ∀ (s : Statement) (w : Walk), s.graphPairs = [] →
        ∃ w', visit ls s w = .ok () w' ∧ w'.attrs = w.attrs := by
  have hattrs := attrs_of_read h
  have hkeys := Walk.keys_heading_subset d.kind d.graphName
  -- the entries of the body are no names of the heading, and so are written behind it
  have hfresh : ∀ p ∈ bodyEntries d.body,
      p.1 ∉ (Walk.heading d.kind d.graphName).entries.map Prod.fst := by
    intro p hp hk
    obtain ⟨q, -, hq⟩ := List.mem_filterMap.1 hp
    exact notMem_metaKeys_of_graphEntry? hq (hkeys p.1 hk)
  have hentries : g.attrs.entries = d.graphName.toList.map (fun n => (nameKey, n)) ++
      (kindKey, d.kind.text) :: (Table.ofPairs (bodyEntries d.body)).entries := by
    have happend := Table.entries_putAll_append hfresh []
    rw [List.append_nil] at happend
    rw [hattrs, happend, Walk.entries_heading, List.append_assoc]
    rfl
  refine ⟨hentries, ?_, fun k hk => ?_, name_of_read h, Draft.kind_ofGraph (kind_of_read h),
    fun s w hs => visit_of_graphPairs_eq_nil ls hs w⟩
  · have hofPairs := Table.keys_ofPairs (bodyEntries d.body)
    unfold Table.keys at hofPairs ⊢
    rw [hentries, List.map_append, List.map_map, List.map_cons, hofPairs]
    rfl
  · have hnone : (Walk.heading d.kind d.graphName).get? k = none :=
      (Table.get?_eq_none_iff _ _).2 fun hmem => hk (hkeys k hmem)
    rw [hattrs, Table.get?_putAll, hnone, Option.or_none]

/-- The layout that an edge would have does not count, and that of the last subgraph stands where
the first one stood. -/
theorem graph_attributes_scatteredAttributes :
    scatteredAttributes.intended.attrs.entries =
        [(nameKey, "g"), (kindKey, "digraph"), ("rank", "TB"), (layoutKey, "neato")] ∧
      (Draft.ofGraph scatteredAttributes.intended).kind = .ok .digraph := by
  have hread : (readBatch .standard [.declaration scatteredAttributes]).2 =
      .ok [scatteredAttributes.intended] := readBatch_intended (by decide +kernel)
  obtain ⟨hentries, -, -, -, hkind, -⟩ := graph_attributes_of_read _ _ _ hread
  exact ⟨hentries.trans (by decide +kernel), hkind⟩

end DotSemantics
