import DotSemantics.Proofs.Depiction

/-!
# Longer bodies

A declaration that goes on behind its body (`Declaration.extend`) fails where it failed before, and
else its graph only grows (`Graph.Grows`): no node, no edge and no attribute goes away or changes
its place, edges stay as they are, and so does what only the grammar decides.

    graph of d  grows to  graph of d.extend c              (read_extend)

Values of nodes and of the graph may be overwritten, but a value that a node statement gives
outright is overwritten only by another one (`NodeRecord.Reflects.get?_eq_of_append`).  Each move
lets the graph of a walk grow (`Walk.grows_apply`), and so does each course.
-/

namespace DotSemantics

/-- A declaration that goes on behind its body. -/
def Declaration.extend (d : Declaration) (c : List Statement) : Declaration :=
  { d with body := d.body ++ c }

/-! ## Tables that gain names -/

theorem prefix_addAllNew (ss l : List String) : l <+: addAllNew ss l := by
  obtain ⟨more, hmore⟩ := addAllNew_eq_append ss l
  exact ⟨more, hmore.symm⟩

theorem Table.keys_prefix_putAll {α : Type} (t : Table α) (ps : List (String × α)) :
    t.keys <+: (t.putAll ps).keys := by
  rw [keys_putAll]
  exact prefix_addAllNew _ _

namespace NodeRecord

variable {given defaults : Table String}

theorem keys_prefix_settle (r : NodeRecord) (key : String) :
    r.attrs.keys <+: (r.settle given defaults key).attrs.keys := by
  have hput : ∀ v, r.attrs.keys <+: (r.attrs.put key v).keys := fun v =>
    r.attrs.keys_prefix_putAll [(key, v)]
  unfold settle
  split
  · exact hput _
  · split
    · split
      · exact List.prefix_rfl
      · exact hput _
    · exact List.prefix_rfl

theorem keys_prefix_foldl (ks : List String) (r : NodeRecord) :
    r.attrs.keys <+: (ks.foldl (settle given defaults) r).attrs.keys := by
  induction ks generalizing r with
  | nil => exact List.prefix_rfl
  | cons k ks ih => exact (r.keys_prefix_settle k).trans (ih _)

end NodeRecord

/-! ## Growth -/

/-- A node that has at most gained attributes, at the end, and may have other values for those that
it had. -/
structure Node.Grows (n m : Node) : Prop where
  name : m.name = n.name
  entry : m.attrs.get? nameKey = n.attrs.get? nameKey
  keys : n.attrs.keys <+: m.attrs.keys

theorem Node.Grows.rfl {n : Node} : n.Grows n := ⟨Eq.refl _, Eq.refl _, List.prefix_rfl⟩

theorem Node.Grows.trans {n m o : Node} (h : n.Grows m) (h' : m.Grows o) : n.Grows o :=
  ⟨h'.name.trans h.name, h'.entry.trans h.entry, h.keys.trans h'.keys⟩

/-- Nodes that keep their places and have at most grown, and perhaps more nodes behind them. -/
def NodesGrow (ns ms : List Node) : Prop :=
  ∀ (i : Nat) (n : Node), ns[i]? = some n → ∃ m, ms[i]? = some m ∧ n.Grows m

theorem NodesGrow.trans {ns ms os : List Node} (h : NodesGrow ns ms) (h' : NodesGrow ms os) :
    NodesGrow ns os := by
  intro i n hn
  obtain ⟨m, hm, hnm⟩ := h i n hn
  obtain ⟨o, ho, hmo⟩ := h' i m hm
  exact ⟨o, ho, hnm.trans hmo⟩

theorem NodesGrow.of_isPrefix {ns ms : List Node} (h : ns <+: ms) : NodesGrow ns ms := by
  obtain ⟨more, rfl⟩ := h
  intro i n hn
  have hlt : i < ns.length := (List.getElem?_eq_some_iff.1 hn).1
  exact ⟨n, by rw [List.getElem?_append_left hlt, hn], .rfl⟩

/-- A graph that has at most gained attributes, nodes and edges, at the end, and whose nodes have at
most grown. -/
structure Graph.Grows (g h : Graph) : Prop where
  entry : ∀ k ∈ metaKeys, h.attrs.get? k = g.attrs.get? k
  keys : g.attrs.keys <+: h.attrs.keys
  nodes : NodesGrow g.nodes h.nodes
  edges : g.edges <+: h.edges

namespace Graph.Grows

variable {f g h : Graph}

theorem rfl : g.Grows g :=
  ⟨fun _ _ => Eq.refl _, List.prefix_rfl, .of_isPrefix List.prefix_rfl, List.prefix_rfl⟩

theorem trans (hfg : f.Grows g) (hgh : g.Grows h) : f.Grows h :=
  ⟨fun k hk => (hgh.entry k hk).trans (hfg.entry k hk), hfg.keys.trans hgh.keys,
    hfg.nodes.trans hgh.nodes, hfg.edges.trans hgh.edges⟩

theorem names (hgh : g.Grows h) : g.names <+: h.names := by
  rw [List.prefix_iff_getElem?]
  intro i hi
  have hlt : i < g.nodes.length := by simpa [Graph.names] using hi
  obtain ⟨m, hm, hgrows⟩ := hgh.nodes i _ (List.getElem?_eq_getElem hlt)
  rw [getElem?_names hm, hgrows.name]
  simp [Graph.names]

end Graph.Grows

/-! ## Growth along a course -/

namespace Walk

/-- A node that is settled has at most gained attributes, and the others are as they were. -/
theorem nodes_grow_settle (w : Walk) (i : Nat) (t : Table String) :
    NodesGrow w.nodes (w.settle i t).nodes := by
  cases ho : w.nodes[i]? with
  | none =>
    unfold settle
    rw [ho]
    exact .of_isPrefix List.prefix_rfl
  | some o =>
    rw [(settle_of_getElem? ho t).1]
    intro j n hn
    by_cases hij : i = j
    · subst hij
      obtain rfl : o = n := Option.some.inj (ho.symm.trans hn)
      have hlt : i < w.nodes.length := (List.getElem?_eq_some_iff.1 ho).1
      rw [List.getElem?_set, if_pos rfl, if_pos hlt]
      exact ⟨_, rfl, rfl, NodeRecord.get?_foldl_of_notMem _ nameKey_notMem_nodeKeys,
        NodeRecord.keys_prefix_foldl nodeKeys ⟨o.attrs, _⟩⟩
    · rw [List.getElem?_set, if_neg hij]
      exact ⟨n, hn, .rfl⟩

theorem nodes_grow_apply (m : Move) (w : Walk) : NodesGrow w.nodes (m.apply w).nodes := by
  cases m with
  | assign name value =>
    rw [Move.apply, setAttr_eq]
    exact .of_isPrefix List.prefix_rfl
  | node name ps =>
    exact (NodesGrow.of_isPrefix (w.nodes_prefix_touch name)).trans (nodes_grow_settle _ _ _)
  | mention name => exact .of_isPrefix (w.nodes_prefix_touch name)
  | _ => exact .of_isPrefix List.prefix_rfl

/-- The graph of a walk grows with every move. -/
theorem grows_apply (m : Move) (w : Walk) : w.graph.Grows (m.apply w).graph where
  entry _ hk := get?_attrs_run_of_mem_metaKeys hk [m] w
  keys := by
    show w.attrs.keys <+: (m.apply w).attrs.keys
    rw [attrs_apply]
    exact w.attrs.keys_prefix_putAll m.assigned
  nodes := nodes_grow_apply m w
  edges := by
    show w.edges <+: (m.apply w).edges
    rw [edges_apply]
    exact List.prefix_append _ _

/-- The graph of a walk grows along a course. -/
theorem grows_run (ms : List Move) (w : Walk) : w.graph.Grows (run ms w).graph := by
  induction ms generalizing w with
  | nil => exact .rfl
  | cons m ms ih => exact (grows_apply m w).trans (ih (m.apply w))

end Walk

/-! ## Values given outright -/

/-- A node statement of a course gives an attribute of a node outright. -/
def GivesOutright (ms : List Move) (name key : String) : Prop :=
  ∃ ps, Move.node name ps ∈ ms ∧ key ∈ ps.map Prod.fst

theorem exists_mem_statings_iff (m : Move) (name : String) (before : List Move)
    (ps : List (String × String)) :
    (∃ s ∈ m.statings name before, s.pairs = ps) ↔ Move.node name ps = m := by
  cases m with
  | node n qs =>
    unfold Move.statings
    by_cases hn : n = name
    · simp [hn, eq_comm]
    · have hn' : ¬ name = n := fun e => hn e.symm
      simp [hn, hn']
  | _ => simp [Move.statings]

theorem exists_mem_statingsOf_iff (name : String) (before ms : List Move)
    (ps : List (String × String)) :
    (∃ s ∈ statingsOf name before ms, s.pairs = ps) ↔ Move.node name ps ∈ ms := by
  induction ms generalizing before with
  | nil => simp [statingsOf]
  | cons m ms ih =>
    simp only [statingsOf, List.mem_append, or_and_right, exists_or]
    rw [exists_mem_statings_iff, ih, List.mem_cons]

theorem isSome_givenValue?_iff (name key : String) (before ms : List Move) :
    (givenValue? (statingsOf name before ms) key).isSome ↔ GivesOutright ms name key := by
  unfold givenValue?
  rw [List.findSome?_isSome_iff]
  constructor
  · rintro ⟨s, hs, hvalue⟩
    rw [List.mem_reverse] at hs
    exact ⟨s.pairs, (exists_mem_statingsOf_iff name before ms _).1 ⟨s, hs, rfl⟩,
      (isSome_lastValue?_iff _ _).1 hvalue⟩
  · rintro ⟨ps, hps, hkey⟩
    obtain ⟨s, hs, rfl⟩ := (exists_mem_statingsOf_iff name before ms ps).2 hps
    exact ⟨s, List.mem_reverse.2 hs, (isSome_lastValue?_iff _ _).2 hkey⟩

instance (ms : List Move) (name key : String) : Decidable (GivesOutright ms name key) :=
  decidable_of_iff _ (isSome_givenValue?_iff name key [] ms)

theorem statingsOf_append (name : String) (before ms ns : List Move) :
    statingsOf name before (ms ++ ns) =
      statingsOf name before ms ++ statingsOf name (before ++ ms) ns := by
  simp only [statingsOf_eq_alongCourse, alongCourse_append]

namespace NodeRecord.Reflects

variable {q r : NodeRecord} {name key : String} {ss : List Stating}

/-- A record has a value for no other name than its own and those of node attributes. -/
theorem get?_eq_none (h : r.Reflects name ss) (hname : key ≠ nameKey) (hkey : key ∉ nodeKeys) :
    r.attrs.get? key = none := by
  rw [Table.get?_eq_none_iff, h.keys, List.mem_cons, not_or]
  exact ⟨hname, fun hk => hkey (mem_nodeKeys_of_mem_statedKeys hk)⟩

/-- A value that was given outright stays while no later statement gives one, whatever the later
statements give for other attributes and whatever defaults they find. -/
theorem get?_eq_of_append (hr : r.Reflects name ss) {later : List Stating}
    (hq : q.Reflects name (ss ++ later)) (hgiven : (givenValue? ss key).isSome)
    (hlater : givenValue? later key = none) : q.attrs.get? key = r.attrs.get? key := by
  by_cases hkey : key ∈ nodeKeys
  · obtain ⟨v, hv⟩ := Option.isSome_iff_exists.1 hgiven
    rw [hq.value key hkey, hr.value key hkey]
    unfold statedValue?
    rw [givenValue?_append, hlater, hv]
    rfl
  · by_cases hname : key = nameKey
    · rw [hname, hq.name, hr.name]
    · rw [hq.get?_eq_none hname hkey, hr.get?_eq_none hname hkey]

end NodeRecord.Reflects

/-- A value that a course gives a node outright stays unless the course behind it gives one. -/
theorem get?_run_append_of_givesOutright {ms ns : List Move} (hms : Grounded [] ms)
    (hmsns : Grounded [] (ms ++ ns)) {kind : GraphKind} {title : Option String}
    {log : List LogEntry} {n m : Node} (hn : n ∈ (run ms (Walk.start kind title log)).nodes)
    (hm : m ∈ (run (ms ++ ns) (Walk.start kind title log)).nodes) (hname : m.name = n.name)
    {key : String} (hgiven : GivesOutright ms n.name key) (hkept : ¬ GivesOutright ns n.name key) :
    m.attrs.get? key = n.attrs.get? key := by
  obtain ⟨r, hr, hreflects⟩ := Walk.exists_reflects_of_mem hms hn
  obtain ⟨q, hq, hreflects'⟩ := Walk.exists_reflects_of_mem hmsns hm
  rw [hname, statingsOf_append, List.nil_append] at hreflects'
  rw [← hq, ← hr]
  refine hreflects.get?_eq_of_append hreflects' ((isSome_givenValue?_iff _ _ _ _).2 hgiven) ?_
  rw [← Option.not_isSome_iff_eq_none, isSome_givenValue?_iff]
  exact hkept

/-! ## Declarations that go on -/

theorem Declaration.bodyCourse_extend (d : Declaration) (c : List Statement) :
    bodyCourse (d.extend c).body = bodyCourse d.body ++ bodyCourse c := bodyCourse_append _ _

theorem Declaration.intended_extend (d : Declaration) (c : List Statement) :
    (d.extend c).intended = (run (bodyCourse c) (d.final (d.heading 0))).graph := by
  show (run (bodyCourse (d.extend c).body) _).graph = _
  rw [d.bodyCourse_extend c, run_append]
  rfl

/-- A layout that is not allowed is not mended by what comes behind it. -/
theorem Declaration.refused?_extend {ls : Layouts} {d : Declaration} {l : String}
    (h : d.refused? ls = some l) (c : List Statement) : (d.extend c).refused? ls = some l := by
  unfold refused? bodyLayouts at h ⊢
  show ((bodyGraphPairs (d.body ++ c)).filterMap layoutOf?).find? _ = _
  rw [bodyGraphPairs_append, List.filterMap_append, List.find?_append, h]
  rfl

/-! ## Main theorem -/

/-- A node with a value of its own and one by default:

    graph { node [width=1]; rank=LR; a [label=l] } -/
def statedOnce : Declaration where
  kind := .graph
  name := none
  body := [
    .attrs .node [⟨[⟨.text "width", .text "1"⟩]⟩],
    .assign ⟨.text "rank", .text "LR"⟩,
    .node (.text "a") [⟨[⟨.text "label", .text "l"⟩]⟩]]

/-- Statements that overwrite what they can:

    node [label=m, width=2]; b -- { "a" [pos=p]; rank=TB } ; b [label=n] -/
def overwriting : List Statement := [
  .attrs .node [⟨[⟨.text "label", .text "m"⟩, ⟨.text "width", .text "2"⟩]⟩],
  .edge (.node (.text "b")) [.via .undirected (.subgraph none [
    .node (.text "\"a\"") [⟨[⟨.text "pos", .text "p"⟩]⟩],
    .assign ⟨.text "rank", .text "TB"⟩])] [],
  .node (.text "b") [⟨[⟨.text "label", .text "n"⟩]⟩]]

/-- A failure stays the same behind whatever a body goes on with.  A longer body that does not fail
comes from a shorter one that does not fail either, and its graph has grown from that of the shorter
one: its nodes, its edges with all that they have, and the attributes of the graph and of each node
come first, in their order, and the name and the kind are the same.  A value that the shorter body
gives a node outright stays unless the statements behind it give that node another. -/
theorem read_extend (ls : Layouts) (d : Declaration) (c : List Statement) :
    (∀ f, (readBatch ls [.declaration d]).2 = .error f →
        (readBatch ls [.declaration (d.extend c)]).2 = .error f) ∧
      ∀ h, (readBatch ls [.declaration (d.extend c)]).2 = .ok [h] →
        ∃ g, (readBatch ls [.declaration d]).2 = .ok [g] ∧ g.names <+: h.names ∧ g.Grows h ∧
          ∀ n ∈ g.nodes, ∀ m ∈ h.nodes, m.name = n.name → ∀ k,
            GivesOutright (bodyCourse d.body) n.name k →
            ¬ GivesOutright (bodyCourse c) n.name k → m.attrs.get? k = n.attrs.get? k := by
  have hempty : (readBatch ls []).2 = .ok [] := rfl
  refine ⟨fun f hf => ?_, fun h hread => ?_⟩
  · obtain ⟨l, hl, rfl⟩ := (readBatch_eq_error_iff hempty f).1 hf
    exact readBatch_of_refused hempty (Declaration.refused?_extend hl c) []
  · obtain ⟨hmoves, rfl⟩ := (readBatch_eq_ok_iff _ _ _).1 hread
    have hcourse := d.bodyCourse_extend c
    rw [hcourse] at hmoves
    have hgrows : d.intended.Grows (d.extend c).intended := by
      rw [d.intended_extend c]
      exact Walk.grows_run _ _
    refine ⟨d.intended, readBatch_intended fun m hm => hmoves m (List.mem_append_left _ hm),
      hgrows.names, hgrows, fun n hn m hm hname k hgiven hkept => ?_⟩
    exact get?_run_append_of_givesOutright (grounded_body d.body []) (hcourse ▸ grounded_body _ [])
      hn (hcourse ▸ hm) hname hgiven hkept

/-- The label stays, although the node is stated again under another default and another node is
given another label; the width, which was a default, does not. -/
theorem read_extend_overwriting :
    ∃ n ∈ statedOnce.intended.nodes, ∃ m ∈ (statedOnce.extend overwriting).intended.nodes,
      statedOnce.intended.Grows (statedOnce.extend overwriting).intended ∧
      m.attrs.get? "label" = n.attrs.get? "label" ∧
      m.attrs.get? "width" ≠ n.attrs.get? "width" := by
  have hread : (readBatch .standard [.declaration (statedOnce.extend overwriting)]).2 =
      .ok [(statedOnce.extend overwriting).intended] := readBatch_intended (by decide +kernel)
  obtain ⟨g, hg, -, hgrows, hkept⟩ := (read_extend _ _ _).2 _ hread
  obtain ⟨-, rfl⟩ := (readBatch_eq_ok_iff _ _ _).1 hg
  obtain ⟨n, hn, m, hm, hname, hlabel, hlater, hwidth⟩ :
      ∃ n ∈ statedOnce.intended.nodes, ∃ m ∈ (statedOnce.extend overwriting).intended.nodes,
        m.name = n.name ∧ GivesOutright (bodyCourse statedOnce.body) n.name "label" ∧
        ¬ GivesOutright (bodyCourse overwriting) n.name "label" ∧
        m.attrs.get? "width" ≠ n.attrs.get? "width" := by
    decide +kernel
  exact ⟨n, hn, m, hm, hgrows, hkept n hn m hm hname "label" hlabel hlater, hwidth⟩

end DotSemantics
