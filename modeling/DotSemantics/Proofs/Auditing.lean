import DotSemantics.Draft.Audit
import DotSemantics.Proofs.GraphAttributes
import DotSemantics.Proofs.Nodes
import Mathlib.Data.List.Nodup

/-!
# Auditing a graph that was read

The audit of a graph that was read never fails, and finds in it nothing but operators that do not
fit its kind and a layout that the auditor does not allow; it warns about the nodes that are the
end of no edge (`audit_of_read`).  Ends of edges are nodes of the graph by identity, so that the
names by which the audit looks for isolated nodes stand for the nodes themselves
(`nodeName_mem_touchedNames_iff`).
-/

namespace DotSemantics

namespace Draft

/-! ## Findings -/

theorem duplicateNames_eq_nil_iff (d : Draft) : d.duplicateNames = [] ↔ d.nodeNames.Nodup := by
  unfold duplicateNames
  rw [List.filter_eq_nil_iff, List.nodup_iff_count_le_one]
  simp only [mem_distinct, decide_eq_true_eq, Nat.not_lt]
  constructor
  · intro h n
    by_cases hn : n ∈ d.nodeNames
    · exact h n hn
    · rw [List.count_eq_zero_of_not_mem hn]
      exact Nat.zero_le 1
  · intro h n _
    exact h n

theorem duplicateNames_of_nodup {d : Draft} (h : d.nodeNames.Nodup) : d.duplicateNames = [] :=
  d.duplicateNames_eq_nil_iff.2 h

theorem auditEnds_ofGraph {g : Graph} {e : Edge} (hs : e.source < g.nodes.length)
    (ht : e.target < g.nodes.length) : (ofGraph g).auditEnds (DraftEdge.ofEdge e) = [] := by
  have hmem : ∀ i, i < g.nodes.length → (ofGraph g).isMember i = true := by
    intro i hi
    show (List.range g.nodes.length).contains i = true
    rw [List.contains_iff_mem, List.mem_range]
    exact hi
  unfold auditEnds
  rw [show (DraftEdge.ofEdge e).source = e.source from rfl,
    show (DraftEdge.ofEdge e).target = e.target from rfl, hmem _ hs, hmem _ ht]
  rfl

/-- The finding about an edge of a graph whose operator does not fit the kind. -/
def operatorFinding (g : Graph) (kind : GraphKind) (e : Edge) : Finding :=
  .wrongOperator e.op.text kind
    (.text (edgeName (nameAt g.nodes e.source) e.op (nameAt g.nodes e.target)))

theorem auditOperator_ofEdge {g : Graph} {e : Edge}
    (h : e.attrs.get? nameKey =
      some (edgeName (nameAt g.nodes e.source) e.op (nameAt g.nodes e.target)))
    (kind : GraphKind) :
    auditOperator kind (DraftEdge.ofEdge e) =
      .ok (if e.op = kind.op then [] else [operatorFinding g kind e]) := by
  have htext : e.op.text = kind.op.text ↔ e.op = kind.op := by
    cases e.op <;> cases kind <;> decide
  have hname : (DraftEdge.ofEdge e).name? =
      some (.text (edgeName (nameAt g.nodes e.source) e.op (nameAt g.nodes e.target))) := by
    show (e.attrs.map Cell.text).get? nameKey = _
    rw [Table.get?_map, h]
    rfl
  unfold auditOperator
  rw [show (DraftEdge.ofEdge e).op = e.op.text from rfl, hname]
  by_cases hop : e.op = kind.op
  · rw [if_pos (htext.2 hop), if_pos hop]
  · rw [if_neg fun ht => hop (htext.1 ht), if_neg hop]
    rfl

theorem auditEdges_ofGraph {g : Graph} (kind : GraphKind) {es : List Edge}
    (hends : ∀ e ∈ es, e.source < g.nodes.length ∧ e.target < g.nodes.length)
    (hnames : ∀ e ∈ es, e.attrs.get? nameKey =
      some (edgeName (nameAt g.nodes e.source) e.op (nameAt g.nodes e.target))) :
    (ofGraph g).auditEdges kind (es.map DraftEdge.ofEdge) =
      .ok ((es.filter fun e => e.op ≠ kind.op).map (operatorFinding g kind)) := by
  induction es with
  | nil => rfl
  | cons e es ih =>
    rw [List.forall_mem_cons] at hends hnames
    rw [List.map_cons, auditEdges, auditOperator_ofEdge hnames.1, ih hends.2 hnames.2,
      auditEnds_ofGraph hends.1.1 hends.1.2, List.filter_cons]
    by_cases hop : e.op = kind.op
    · rw [if_pos hop, if_neg (by simpa using hop)]
      rfl
    · rw [if_neg hop, if_pos (by simpa using hop)]
      rfl

def layoutFindings (g : Graph) (ls : Layouts) : List Finding :=
  match g.attrs.get? layoutKey with
  | none => []
  | some l => if ls.allows l then [] else [.unknownLayout (.text l)]

theorem auditLayout_ofGraph (g : Graph) (ls : Layouts) :
    (ofGraph g).auditLayout ls = layoutFindings g ls := by
  have hlayout : (ofGraph g).attrs.get? layoutKey = (g.attrs.get? layoutKey).map Cell.text :=
    Table.get?_map Cell.text g.attrs layoutKey
  unfold auditLayout layoutFindings
  rw [hlayout]
  cases g.attrs.get? layoutKey <;> rfl

/-- What is reported is an operator, or a layout that is not allowed. -/
theorem mem_findings {g : Graph} {kind : GraphKind} {es : List Edge} {ls : Layouts} {f : Finding}
    (h : f ∈ es.map (operatorFinding g kind) ++ layoutFindings g ls) :
    (∃ e, f = operatorFinding g kind e) ∨
      ∃ l, g.attrs.get? layoutKey = some l ∧ ¬ ls.allows l ∧ f = .unknownLayout (.text l) := by
  rcases List.mem_append.1 h with hop | hlayout
  · obtain ⟨e, -, he⟩ := List.mem_map.1 hop
    exact Or.inl ⟨e, he.symm⟩
  · unfold layoutFindings at hlayout
    split at hlayout
    · cases hlayout
    · next l hl =>
      split at hlayout
      · cases hlayout
      · next hno => exact Or.inr ⟨l, hl, hno, List.mem_singleton.1 hlayout⟩

/-! ## Isolated nodes -/

section

variable {d : Draft} (hnodup : d.nodeNames.Nodup)
  (hends : ∀ e ∈ d.graphEdges, e.source ∈ d.nodes ∧ e.target ∈ d.nodes)

include hnodup hends

/-- Where names are unique and all ends are nodes of the graph, a node is named by an edge just when
it is an end of the edge. -/
theorem nodeName_mem_touchedNames_iff {i : Nat} (hi : i ∈ d.nodes) :
    d.nodeName i ∈ d.touchedNames ↔ ∃ e ∈ d.graphEdges, e.source = i ∨ e.target = i := by
  have hsame : ∀ j ∈ d.nodes, d.nodeName i = d.nodeName j → j = i := by
    intro j hj hname
    exact List.inj_on_of_nodup_map hnodup hj hi hname.symm
  unfold touchedNames
  rw [List.mem_flatMap]
  constructor
  · rintro ⟨e, he, hn⟩
    refine ⟨e, he, ?_⟩
    rcases List.mem_cons.1 hn with hs | ht
    · exact Or.inl (hsame _ (hends e he).1 hs)
    · exact Or.inr (hsame _ (hends e he).2 (List.mem_singleton.1 ht))
  · rintro ⟨e, he, rfl | rfl⟩
    · exact ⟨e, he, by simp⟩
    · exact ⟨e, he, by simp⟩

/-- Then the nodes that no edge names are those that are the end of no edge. -/
theorem isolatedNames_eq_map : d.isolatedNames =
    (d.nodes.filter fun i => d.graphEdges.all fun e => e.source ≠ i ∧ e.target ≠ i).map
      d.nodeName := by
  unfold isolatedNames nodeNames
  rw [List.filter_map]
  congr 1
  apply List.filter_congr
  intro i hi
  have htouched := nodeName_mem_touchedNames_iff hnodup hends hi
  rw [Bool.eq_iff_iff]
  simp only [Function.comp, Bool.not_eq_true', List.all_eq_true, decide_eq_true_eq]
  rw [← Bool.not_eq_true, List.contains_iff_mem, htouched]
  constructor
  · intro h e he
    exact ⟨fun hs => h ⟨e, he, Or.inl hs⟩, fun ht => h ⟨e, he, Or.inr ht⟩⟩
  · rintro h ⟨e, he, hs | ht⟩
    · exact (h e he).1 hs
    · exact (h e he).2 ht

end

end Draft

/-- The nodes of a graph that are the end of no edge. -/
def Graph.isolated (g : Graph) : List Node :=
  (g.nodes.zipIdx.filter fun p => g.edges.all fun e => e.source ≠ p.2 ∧ e.target ≠ p.2).map
    Prod.fst

namespace Draft

theorem isolatedNames_ofGraph {g : Graph} (hnodup : g.names.Nodup)
    (hends : ∀ e ∈ g.edges, e.source < g.nodes.length ∧ e.target < g.nodes.length) :
    (ofGraph g).isolatedNames = g.isolated.map Node.name := by
  have hplaces : (ofGraph g).nodes = g.nodes.zipIdx.map Prod.snd := by
    rw [List.zipIdx_map_snd]
    exact List.range_eq_range'
  have hlisted : ∀ e ∈ (ofGraph g).graphEdges,
      e.source ∈ (ofGraph g).nodes ∧ e.target ∈ (ofGraph g).nodes := by
    intro e he
    rw [graphEdges_ofGraph] at he
    obtain ⟨e', he', rfl⟩ := List.mem_map.1 he
    exact ⟨List.mem_range.2 (hends e' he').1, List.mem_range.2 (hends e' he').2⟩
  rw [isolatedNames_eq_map ((nodeNames_ofGraph g).symm ▸ hnodup) hlisted, hplaces,
    List.filter_map, List.map_map, graphEdges_ofGraph]
  unfold Graph.isolated
  rw [List.map_map]
  simp only [List.all_map]
  apply List.map_congr_left
  rintro ⟨n, i⟩ hp
  have hi : g.nodes[i]? = some n := by
    simpa using List.mem_zipIdx_iff_getElem?.1 (List.mem_of_mem_filter hp)
  show (ofGraph g).nodeName i = n.name
  rw [nodeName_ofGraph, nameAt, hi]
  rfl

end Draft

/-! ## Graphs that are read -/

section

variable {ls : Layouts} {d : Declaration} {g : Graph}
  (h : (readBatch ls [.declaration d]).2 = .ok [g])

include h

theorem ends_of_read : ∀ e ∈ g.edges, e.source < g.nodes.length ∧ e.target < g.nodes.length := by
  obtain ⟨-, rfl⟩ := (readBatch_eq_ok_iff _ _ _).1 h
  intro e he
  have hends := (d.sound_final (d.heading 0)).1.ends e he
  rw [Walk.names_length] at hends
  exact hends

/-- Every edge has the attributes of an origin that links its ends. -/
theorem exists_origin_of_read : ∀ e ∈ g.edges, ∃ o : Origin,
    o.link = ⟨nameAt g.nodes e.source, e.op, nameAt g.nodes e.target⟩ ∧ o.attrs = e.attrs := by
  intro e he
  have hdescribed := List.mem_map_of_mem (f := Edge.described g.names) he
  rw [described_edges_of_read h] at hdescribed
  obtain ⟨o, -, ho⟩ := List.mem_map.1 hdescribed
  obtain ⟨hlink, hattrs⟩ := Prod.mk.inj ho
  obtain ⟨hs, ht⟩ := ends_of_read h e he
  have hnameAt : ∀ i, i < g.nodes.length → g.names[i]? = some (nameAt g.nodes i) := by
    intro i hi
    unfold Graph.names nameAt
    rw [List.getElem?_map, List.getElem?_eq_getElem hi]
    rfl
  unfold Edge.link? at hlink
  rw [hnameAt _ hs, hnameAt _ ht] at hlink
  exact ⟨o, Option.some.inj hlink, hattrs⟩

theorem edgeName_of_read : ∀ e ∈ g.edges, e.attrs.get? nameKey =
    some (edgeName (nameAt g.nodes e.source) e.op (nameAt g.nodes e.target)) := by
  intro e he
  obtain ⟨o, hlink, hattrs⟩ := exists_origin_of_read h e he
  rw [← hattrs]
  show entryAt? nameKey ((nameKey, _) :: _) = _
  rw [entryAt?, if_pos rfl, hlink]

end

/-- A directed graph with an edge that is not directed and a node that no edge touches:

    digraph { layout=dot; a -> b -- a; c } -/
def mixedOperators : Declaration where
  kind := .digraph
  name := none
  body := [
    .assign ⟨.text "layout", .text "dot"⟩,
    .edge (.node (.text "a"))
      [.via .directed (.node (.text "b")), .via .undirected (.node (.text "a"))] [],
    .node (.text "c") []]

/-- The audit of a graph that is read reports the operators that do not fit its kind and a layout
that the auditor does not allow, and nothing else; it warns about the nodes that are the end of no
edge. -/
theorem audit_of_read (ls ls' : Layouts) (d : Declaration) (g : Graph)
    (h : (readBatch ls [.declaration d]).2 = .ok [g]) :
    ∃ r, (Draft.ofGraph g).audit ls' = .ok r ∧
      r.errors = (g.edges.filter fun e => e.op ≠ d.kind.op).map (Draft.operatorFinding g d.kind) ++
        Draft.layoutFindings g ls' ∧
      r.warnings = g.isolated.map (fun n => .isolatedNode n.name) ∧
      (∀ e ∈ g.edges, e.source < g.nodes.length ∧ e.target < g.nodes.length) ∧
      (∀ n, .duplicateNode n ∉ r.errors ∧ .foreignSource n ∉ r.errors ∧
        .foreignTarget n ∉ r.errors) ∧
      ((∀ l, ls.allows l → ls'.allows l) → ∀ c, .unknownLayout c ∉ r.errors) := by
  have hends := ends_of_read h
  have hnodup := nodup_names_of_read h
  refine ⟨⟨_, _⟩, ?_, rfl, rfl, hends, fun n => ?_, fun hallow c => ?_⟩
  · unfold Draft.audit
    rw [Draft.kind_ofGraph (kind_of_read h)]
    simp only [Draft.graphEdges_ofGraph, Draft.auditEdges_ofGraph d.kind hends (edgeName_of_read h),
      Draft.duplicateNames_of_nodup ((Draft.nodeNames_ofGraph g).symm ▸ hnodup),
      Draft.isolatedNames_ofGraph hnodup hends, Draft.auditLayout_ofGraph, List.map_map]
    rfl
  · refine ⟨fun hf => ?_, fun hf => ?_, fun hf => ?_⟩
    all_goals
      rcases Draft.mem_findings hf with ⟨_, he⟩ | ⟨_, _, _, he⟩
      · cases he
      · cases he
  · intro hf
    rcases Draft.mem_findings hf with ⟨_, he⟩ | ⟨l, hl, hno, -⟩
    · cases he
    · exact hno (hallow l (layout_of_read h hl))

/-- Read with the standard layouts, but audited with another one. -/
theorem audit_mixedOperators :
    (Draft.ofGraph mixedOperators.intended).audit ⟨["neato"]⟩ =
      .ok ⟨[.wrongOperator "--" .digraph (.text "b--a"), .unknownLayout (.text "dot")],
        [.isolatedNode "c"]⟩ := by
  have hread : (readBatch .standard [.declaration mixedOperators]).2 =
      .ok [mixedOperators.intended] := readBatch_intended (by decide +kernel)
  obtain ⟨⟨errors, warnings⟩, haudit, herrors, hwarnings, -⟩ :=
    audit_of_read .standard ⟨["neato"]⟩ _ _ hread
  rw [haudit, show errors = _ from herrors, show warnings = _ from hwarnings]
  decide +kernel

end DotSemantics
