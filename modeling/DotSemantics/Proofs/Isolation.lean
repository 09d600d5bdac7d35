import DotSemantics.Proofs.Findings

/-!
# Isolated nodes of sound drafts

The audit looks for isolated nodes by name, though a node is what stands at a place of the pool.  In
a draft that is not sound the two come apart: an edge may end in a node outside the graph whose name
a node of the graph has as well.  But a report without errors rules out just what would part them
(`Draft.Tied`), so that the warnings of a sound draft are about the nodes at which no edge ends,
each of them once (`warnings_of_sound`).
-/

namespace DotSemantics

namespace Draft

/-- Names stand for nodes: no two nodes of the graph have the same name, and edges end in nodes of
the graph. -/
structure Tied (d : Draft) : Prop where
  names : d.nodeNames.Nodup
  ends : ∀ e ∈ d.graphEdges, e.source ∈ d.nodes ∧ e.target ∈ d.nodes

/-- No edge of the graph ends in a node of the pool. -/
def Untouched (d : Draft) (i : Nat) : Prop := ∀ e ∈ d.graphEdges, e.source ≠ i ∧ e.target ≠ i

instance (d : Draft) (i : Nat) : Decidable (d.Untouched i) :=
  inferInstanceAs (Decidable (∀ e ∈ d.graphEdges, _))

variable {d : Draft}

/-! ## Reports without errors -/

theorem auditEnds_eq_nil_iff (e : DraftEdge) :
    d.auditEnds e = [] ↔ e.source ∈ d.nodes ∧ e.target ∈ d.nodes := by
  unfold auditEnds isMember
  by_cases hs : e.source ∈ d.nodes
  · by_cases ht : e.target ∈ d.nodes
    · simp [hs, ht]
    · simp [hs, ht]
  · simp [hs]

theorem auditEnds_subset {kind : GraphKind} {es : List DraftEdge} {fs : List Finding}
    (h : d.auditEdges kind es = .ok fs) : ∀ e ∈ es, d.auditEnds e ⊆ fs := by
  induction es generalizing fs with
  | nil => simp
  | cons e es ih =>
    rw [auditEdges] at h
    cases hop : auditOperator kind e with
    | error f =>
      rw [hop] at h
      cases h
    | ok os =>
      cases hrest : d.auditEdges kind es with
      | error f =>
        rw [hop, hrest] at h
        cases h
      | ok gs =>
        rw [hop, hrest] at h
        cases h
        rw [List.forall_mem_cons]
        constructor
        · intro f hf
          simp [hf]
        · intro e' he' f hf
          simp [ih hrest e' he' hf]

/-- An audit that does not fail has a kind to go by, and its report says what is found about names,
edges and layout. -/
theorem exists_of_audit {ls : Layouts} {r : Report} (h : d.audit ls = .ok r) :
    ∃ kind fs, d.auditEdges kind d.graphEdges = .ok fs ∧
      r = { errors := d.duplicateNames.map .duplicateNode ++ fs ++ d.auditLayout ls
            warnings := d.isolatedNames.map .isolatedNode } := by
  cases hkind : d.kind with
  | error c =>
    unfold audit at h
    rw [hkind] at h
    cases h
  | ok kind =>
    rw [audit_of_kind hkind] at h
    cases hedges : d.auditEdges kind d.graphEdges with
    | error f =>
      rw [hedges] at h
      cases h
    | ok fs =>
      rw [hedges] at h
      cases h
      exact ⟨kind, fs, hedges, rfl⟩

/-- A report without errors ties names to nodes. -/
theorem tied_of_audit {ls : Layouts} {r : Report} (h : d.audit ls = .ok r) (hr : r.errors = []) :
    d.Tied := by
  obtain ⟨kind, fs, hedges, rfl⟩ := exists_of_audit h
  simp only [List.append_eq_nil_iff, List.map_eq_nil_iff] at hr
  obtain ⟨⟨hnames, rfl⟩, -⟩ := hr
  refine ⟨d.duplicateNames_eq_nil_iff.1 hnames, fun e he => ?_⟩
  exact (auditEnds_eq_nil_iff e).1 (List.subset_nil.1 (auditEnds_subset hedges e he))

/-! ## Isolated nodes -/

theorem Tied.nodes_nodup (h : d.Tied) : d.nodes.Nodup := List.Nodup.of_map _ h.names

/-- Where names stand for nodes, the nodes that no edge names are those that are left untouched. -/
theorem Tied.isolatedNames_eq (h : d.Tied) :
    d.isolatedNames = (d.nodes.filter fun i => d.Untouched i).map d.nodeName := by
  rw [isolatedNames_eq_map h.names h.ends]
  congr 1
  apply List.filter_congr
  intro i _
  rw [Bool.eq_iff_iff, List.all_eq_true, decide_eq_true_eq]
  unfold Untouched
  simp only [decide_eq_true_eq]

theorem Tied.nodup_isolatedNames (h : d.Tied) : d.isolatedNames.Nodup :=
  h.names.filter _

theorem Tied.nodeName_mem_isolatedNames_iff (h : d.Tied) {i : Nat} (hi : i ∈ d.nodes) :
    d.nodeName i ∈ d.isolatedNames ↔ d.Untouched i := by
  rw [h.isolatedNames_eq, List.mem_map]
  constructor
  · rintro ⟨j, hj, hname⟩
    rw [List.mem_filter, decide_eq_true_eq] at hj
    rw [← List.inj_on_of_nodup_map h.names hj.1 hi hname]
    exact hj.2
  · intro hfree
    exact ⟨i, List.mem_filter.2 ⟨hi, decide_eq_true hfree⟩, rfl⟩

end Draft

/-! ## Main theorem -/

/-- Edits that lead to a sound draft by way of one that is not.  The edge, listed twice, first ends
in a node that is not listed but has the name of one that is; then it is led to the node that is
listed, and another node gets its final name.

    a b, with a'->b twice   becomes   a c, with a->a twice -/
def mending : List Edit :=
  [.begin [(kindKey, .text "digraph")], .makeNode "a" [], .makeNode "a" [], .makeNode "b" [],
    .addNode 0, .addNode 2, .makeEdge 1 2 "->" [], .addEdge 0, .addEdge 0,
    .rewire 0 (some 0) (some 0) none, .rename 2 "c"]

/-- Where the audit of a draft that edits lead to reports no error, it warns about the nodes at
which no edge ends, by identity, and about no others: about each of them once, in the order of the
graph, and under names that are all different. -/
theorem warnings_of_sound (d : Draft) (hreach : d.Reachable) (ls : Layouts) (r : Report)
    (haudit : d.audit ls = .ok r) (herrors : r.errors = []) :
    d.Placed ∧ d.nodes.Nodup ∧
      (∀ i ∈ d.nodes, Remark.isolatedNode (d.nodeName i) ∈ r.warnings ↔
        ∀ e ∈ d.graphEdges, e.source ≠ i ∧ e.target ≠ i) ∧
      r.warnings = (d.nodes.filter fun i => ∀ e ∈ d.graphEdges, e.source ≠ i ∧ e.target ≠ i).map
        (fun i => Remark.isolatedNode (d.nodeName i)) ∧
      r.warnings.Nodup := by
  have htied := Draft.tied_of_audit haudit herrors
  obtain ⟨kind, fs, -, rfl⟩ := Draft.exists_of_audit haudit
  have hinj : Function.Injective Remark.isolatedNode := fun _ _ h => Remark.isolatedNode.inj h
  refine ⟨hreach.placed, htied.nodes_nodup, fun i hi => ?_, ?_, ?_⟩
  · rw [List.mem_map_of_injective hinj]
    exact htied.nodeName_mem_isolatedNames_iff hi
  · show d.isolatedNames.map Remark.isolatedNode = _
    rw [htied.isolatedNames_eq, List.map_map]
    rfl
  · exact htied.nodup_isolatedNames.map hinj

/-- The node at which the edge ends is not warned about, the other one is. -/
theorem warnings_mending :
    (Draft.edited mending).audit .standard = .ok ⟨[], [.isolatedNode "c"]⟩ ∧
      (∀ e ∈ (Draft.edited mending).graphEdges, e.source ≠ 2 ∧ e.target ≠ 2) ∧
      ¬ ∀ e ∈ (Draft.edited mending).graphEdges, e.source ≠ 0 ∧ e.target ≠ 0 := by
  have hreach : (Draft.edited mending).Reachable := by
    refine ⟨mending, ?_, by decide +kernel⟩
    simp [mending, Edit.Genuine]
  have haudit : (Draft.edited mending).audit .standard = .ok ⟨[], [.isolatedNode "c"]⟩ := by
    decide +kernel
  obtain ⟨-, -, hiff, -, -⟩ := warnings_of_sound _ hreach _ _ haudit rfl
  refine ⟨haudit, (hiff 2 (by decide +kernel)).1 (by decide +kernel), fun h => ?_⟩
  exact absurd ((hiff 0 (by decide +kernel)).2 h) (by decide +kernel)

/-- Before the edge is led to the node that is listed, no edge ends in that node, but for its name
it is not warned about. -/
example : (Draft.edited (mending.take 9)).audit .standard =
    .ok ⟨[.foreignSource "a", .foreignSource "a"], []⟩ := by
  decide +kernel

end DotSemantics
