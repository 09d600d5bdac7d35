import DotSemantics.Proofs.Defaults
import DotSemantics.Proofs.Reading

/-!
# The edges of a graph

Every edge comes from a hop of the course (`courseOrigins`), which fixes its ends, its operator and
its attributes: those that the statement of the hop gives, and the defaults in force where the
hop stands.

    links of the graph of d = bodyLinks d.body             (links_of_read)
    edges of the graph of d = the origins in its course    (edges_of_read)
-/

namespace DotSemantics

/-! ## Where edges come from -/

/-- Where an edge comes from: the link that it makes, the pairs that its statement gives, and the
course before its hop. -/
structure Origin where
  link : Link
  pairs : List (String × String)
  before : List Move

namespace Origin

/-- The value of an attribute of an edge: the last one that the statement gives, else the default
in force. -/
def value? (o : Origin) (key : String) : Option String :=
  (lastValue? key o.pairs).or ((edgeDefaultsAfter o.before).get? key)

/-- The attributes of an edge: its name, and those that have a value. -/
def attrs (o : Origin) : Table String :=
  ⟨(nameKey, edgeName o.link.source o.link.op o.link.target) ::
    edgeKeys.filterMap fun k => (o.value? k).map fun v => (k, v)⟩

end Origin

/-- The origins of the edges that a move makes. -/
def Move.origins (before : List Move) : Move → List Origin
  | connect sources op targets ps => (linksBetween sources op targets).map fun l => ⟨l, ps, before⟩
  | _ => []

/-- The origins of the edges that a course makes, after the course before it. -/
def courseOrigins (before : List Move) : List Move → List Origin
  | [] => []
  | m :: rest => m.origins before ++ courseOrigins (before ++ [m]) rest

/-- The link that an edge makes between named nodes, if both of its ends are there. -/
def Edge.link? (names : List String) (e : Edge) : Option Link := do
  let s ← names[e.source]?
  let t ← names[e.target]?
  return ⟨s, e.op, t⟩

def Graph.names (g : Graph) : List String := g.nodes.map Node.name

theorem Graph.getElem?_names {g : Graph} {i : Nat} {n : Node} (h : g.nodes[i]? = some n) :
    g.names[i]? = some n.name := by
  unfold names
  rw [List.getElem?_map, h]
  rfl

/-! ## Links of a course -/

def Move.links : Move → List Link
  | connect sources op targets _ => linksBetween sources op targets
  | _ => []

theorem map_link_courseOrigins (before ms : List Move) :
    (courseOrigins before ms).map Origin.link = ms.flatMap Move.links := by
  induction ms generalizing before with
  | nil => rfl
  | cons m ms ih =>
    have hm : (m.origins before).map Origin.link = m.links := by
      cases m with
      | connect sources op targets ps =>
        show ((linksBetween sources op targets).map _).map Origin.link = _
        rw [List.map_map]
        exact List.map_id _
      | _ => rfl
    rw [courseOrigins, List.map_append, ih, hm, List.flatMap_cons]

mutual

theorem links_statement_course : ∀ s : Statement, s.course.flatMap Move.links = s.links
  | .assign _ => rfl
  | .attrs .graph lists => by
    rw [Statement.course, List.flatMap_map]
    exact List.flatMap_eq_nil_iff.2 fun _ _ => rfl
  | .attrs .node _ => rfl
  | .attrs .edge _ => rfl
  | .node _ _ => rfl
  | .edge source hops lists => by
    rw [Statement.course, Statement.links, List.flatMap_append, links_endpoint_course source,
      links_hopCourse _ _ hops]
  | .subgraph _ body => links_bodyCourse body

theorem links_endpoint_course : ∀ e : Endpoint, e.course.flatMap Move.links = e.links
  | .node _ => rfl
  | .subgraph _ body => links_bodyCourse body

theorem links_hopCourse (ps : List (String × String)) :
    ∀ (sources : List String) (hops : List Hop),
      (hopCourse ps sources hops).flatMap Move.links = hopLinks sources hops
  | _, [] => rfl
  | sources, .via op target :: rest => by
    rw [hopCourse, hopLinks, List.flatMap_append, List.flatMap_cons, links_endpoint_course target,
      links_hopCourse ps _ rest, List.append_assoc]
    rfl

theorem links_bodyCourse : ∀ b : List Statement, (bodyCourse b).flatMap Move.links = bodyLinks b
  | [] => rfl
  | s :: rest => by
    rw [bodyCourse, bodyLinks, List.flatMap_append, links_statement_course s,
      links_bodyCourse rest]

end

/-! ## Attributes of an edge -/

theorem settleEdge_of_notMem {given defaults t : Table String} {k : String} (h : k ∉ t.keys) :
    settleEdge given defaults t k =
      ⟨t.entries ++ (((given.get? k).or (defaults.get? k)).map fun v => (k, v)).toList⟩ := by
  unfold settleEdge
  cases (given.get? k).or (defaults.get? k) with
  | none => simp
  | some v =>
    show t.put k v = _
    unfold Table.put
    rw [putEntry_of_notMem h]
    rfl

/-- Attributes that a table does not have yet are settled in their order. -/
theorem foldl_settleEdge (given defaults : Table String) {ks : List String} (hks : ks.Nodup)
    (t : Table String) (h : ∀ k ∈ ks, k ∉ t.keys) :
    ks.foldl (settleEdge given defaults) t =
      ⟨t.entries ++ ks.filterMap fun k =>
        ((given.get? k).or (defaults.get? k)).map fun v => (k, v)⟩ := by
  induction ks generalizing t with
  | nil => simp
  | cons k ks ih =>
    rw [List.nodup_cons] at hks
    rw [List.forall_mem_cons] at h
    rw [List.foldl_cons, settleEdge_of_notMem h.1, ih hks.2]
    · rw [List.filterMap_cons, List.append_assoc]
      cases (given.get? k).or (defaults.get? k) <;> rfl
    · intro j hj hmem
      unfold Table.keys at hmem
      rw [List.map_append, List.mem_append] at hmem
      rcases hmem with hold | hnew
      · exact h.2 j hj hold
      · have hjk : j = k := by
          cases hv : (given.get? k).or (defaults.get? k) with
          | none => rw [hv] at hnew; cases hnew
          | some v => rw [hv] at hnew; exact List.mem_singleton.1 hnew
        exact hks.1 (hjk ▸ hj)

theorem nameKey_notMem_edgeKeys : ∀ k ∈ edgeKeys, k ∉ [nameKey] := by decide

/-- An edge has the attributes of its origin, if the defaults are those in force. -/
theorem edgeTable_eq_attrs (o : Origin) {w : Walk} (h : w.HasDefaults o.before) :
    edgeTable (Table.ofPairs o.pairs) w.edgeDefaults o.link.source o.link.op o.link.target =
      o.attrs := by
  unfold edgeTable
  rw [foldl_settleEdge _ _ (by decide) _ nameKey_notMem_edgeKeys]
  unfold Origin.attrs Origin.value?
  simp only [Table.get?_ofPairs, h.edge]
  rfl

/-! ## Edges of a run -/

/-- An edge as the link that it makes, if its ends are there, and its attributes. -/
def Edge.described (names : List String) (e : Edge) : Option Link × Table String :=
  (e.link? names, e.attrs)

def Origin.described (o : Origin) : Option Link × Table String := (some o.link, o.attrs)

/-- An edge between nodes that are there makes the same link when more nodes follow. -/
theorem Edge.described_append {names : List String} {e : Edge} (hs : e.source < names.length)
    (ht : e.target < names.length) (more : List String) :
    e.described (names ++ more) = e.described names := by
  unfold described link?
  rw [List.getElem?_append_left hs, List.getElem?_append_left ht]

def Move.edges (m : Move) (w : Walk) : List Edge :=
  match m with
  | connect sources op targets ps =>
    edgesBetween w.nodes (Table.ofPairs ps) w.edgeDefaults (sources.map w.placeOf) op
      (targets.map w.placeOf)
  | _ => []

namespace Walk

theorem edges_apply (m : Move) (w : Walk) : (m.apply w).edges = w.edges ++ m.edges w := by
  have hnil : w.edges = w.edges ++ [] := (List.append_nil w.edges).symm
  cases m with
  | assign name value =>
    rw [Move.apply, setAttr_eq]
    exact hnil
  | node name ps =>
    rw [Move.apply, settle_eq]
    exact hnil
  | connect sources op targets ps => rfl
  | _ => exact hnil

variable {w : Walk}

/-- An edge that is made between named nodes is described by its origin. -/
theorem Sound.described_make (h : w.Sound) {before : List Move} (hd : w.HasDefaults before)
    (ps : List (String × String)) {l : Link} (hs : l.source ∈ w.names) (ht : l.target ∈ w.names) :
    (Edge.make w.nodes (Table.ofPairs ps) w.edgeDefaults (w.placeOf l.source) l.op
      (w.placeOf l.target)).described w.names = Origin.described ⟨l, ps, before⟩ := by
  unfold Edge.described Edge.link? Edge.make Origin.described
  rw [h.getElem?_placeOf hs, h.getElem?_placeOf ht, h.nameAt_placeOf hs, h.nameAt_placeOf ht,
    ← edgeTable_eq_attrs ⟨l, ps, before⟩ hd]
  rfl

theorem Sound.described_connect (h : w.Sound) {before : List Move} (hd : w.HasDefaults before)
    (ps : List (String × String)) (op : EdgeOp) {sources targets : List String}
    (hs : ∀ n ∈ sources, n ∈ w.names) (ht : ∀ n ∈ targets, n ∈ w.names) :
    (edgesBetween w.nodes (Table.ofPairs ps) w.edgeDefaults (sources.map w.placeOf) op
      (targets.map w.placeOf)).map (Edge.described w.names) =
        ((linksBetween sources op targets).map fun l => ⟨l, ps, before⟩).map
          Origin.described := by
  unfold edgesBetween linksBetween
  rw [List.flatMap_map, List.map_flatMap, List.map_flatMap, List.map_flatMap]
  apply List.flatMap_congr
  intro s hsm
  rw [List.map_map, List.map_map, List.map_map, List.map_map]
  apply List.map_congr_left
  intro t htm
  exact h.described_make hd ps (l := ⟨s, op, t⟩) (hs s hsm) (ht t htm)

theorem Sound.described_apply (h : w.Sound) {before : List Move} (hd : w.HasDefaults before)
    {m : Move} (hm : ∀ n ∈ m.ends, n ∈ w.names) :
    (m.apply w).edges.map (Edge.described (m.apply w).names) =
      w.edges.map (Edge.described w.names) ++ (m.origins before).map Origin.described := by
  obtain ⟨more, hmore⟩ := addAllNew_eq_append m.mentions w.names
  -- nodes are only added, and so the edges made before still lie between the same names
  have hold : w.edges.map (Edge.described (m.apply w).names) =
      w.edges.map (Edge.described w.names) := by
    rw [names_apply h, hmore]
    apply List.map_congr_left
    intro e he
    exact Edge.described_append (h.ends e he).1 (h.ends e he).2 more
  have hnew : (m.edges w).map (Edge.described (m.apply w).names) =
      (m.origins before).map Origin.described := by
    cases m with
    | connect sources op targets ps =>
      exact h.described_connect hd ps op
        (fun n hn => hm n (List.mem_append_left targets hn))
        (fun n hn => hm n (List.mem_append_right sources hn))
    | _ => rfl
  rw [edges_apply, List.map_append, hold, hnew]

/-- The edges after a course: those before it, and those of its origins. -/
theorem Sound.described_run (h : w.Sound) {before ms : List Move} (hd : w.HasDefaults before)
    (hg : Grounded w.names ms) :
    (DotSemantics.run ms w).edges.map (Edge.described (DotSemantics.run ms w).names) =
      w.edges.map (Edge.described w.names) ++
        (courseOrigins before ms).map Origin.described := by
  induction ms generalizing w before with
  | nil => exact (List.append_nil _).symm
  | cons m ms ih =>
    have hnames := names_apply h m
    rw [run_cons, ih (h.apply hg.1) (hd.apply m) (hnames ▸ hg.2),
      h.described_apply hd hg.1, courseOrigins, List.map_append, List.append_assoc]

end Walk

theorem described_edges_of_read {ls : Layouts} {d : Declaration} {g : Graph}
    (h : (readBatch ls [.declaration d]).2 = .ok [g]) :
    g.edges.map (Edge.described g.names) =
      (courseOrigins [] (bodyCourse d.body)).map Origin.described := by
  obtain ⟨-, rfl⟩ := (readBatch_eq_ok_iff _ _ _).1 h
  exact (Walk.sound_start d.kind d.graphName (d.heading 0)).described_run
    (Walk.hasDefaults_start _ _ _) (grounded_body d.body [])

/-! ## Edges stay -/

/-- The state in which a walk ends. -/
def endOf {α : Type} : EStateM.Result UnknownLayout Walk α → Walk
  | .ok _ w => w
  | .error _ w => w

/-- A course, whether or not it comes to its end, adds edges and changes none. -/
theorem edges_prefix_play (ls : Layouts) (ms : List Move) (w : Walk) :
    w.edges <+: (endOf (play ls ms w)).edges := by
  induction ms generalizing w with
  | nil => exact List.prefix_rfl
  | cons m ms ih =>
    unfold play
    rw [WalkM.bind_apply, Move.play_apply]
    cases m.refusal? ls with
    | none =>
      have hm : w.edges <+: (m.apply w).edges := Walk.edges_apply m w ▸ List.prefix_append _ _
      exact hm.trans (ih (m.apply w))
    | some layout => exact List.prefix_rfl

theorem entryAt?_filterMap {f : String → Option String} {k : String} {ks : List String}
    (h : k ∈ ks) : entryAt? k (ks.filterMap fun j => (f j).map fun v => (j, v)) = f k := by
  induction ks with
  | nil => cases h
  | cons j ks ih =>
    rw [List.filterMap_cons]
    by_cases hj : j = k
    · subst hj
      cases hf : f j with
      | some v => exact if_pos rfl
      | none =>
        show entryAt? j (ks.filterMap _) = none
        rw [Table.entryAt?_eq_none_iff]
        intro hmem
        obtain ⟨p, hp, hpj⟩ := List.mem_map.1 hmem
        obtain ⟨i, -, hi⟩ := List.mem_filterMap.1 hp
        cases hfi : f i with
        | none => rw [hfi] at hi; cases hi
        | some v =>
          rw [hfi] at hi
          cases hi
          rw [show i = j from hpj, hf] at hfi
          cases hfi
    · have hk : k ∈ ks := (List.mem_cons.1 h).resolve_left fun e => hj e.symm
      cases f j with
      | none => exact ih hk
      | some v => exact (if_neg hj).trans (ih hk)

theorem Origin.get?_attrs (o : Origin) {k : String} (h : k ∈ edgeKeys) :
    o.attrs.get? k = o.value? k := by
  have hk : ¬ nameKey = k := by
    rintro rfl
    exact nameKey_notMem_edgeKeys _ h (List.mem_singleton_self _)
  exact (if_neg hk).trans (entryAt?_filterMap h)

/-! ## Main theorems -/

/-- A chain in the middle of which a subgraph makes an edge and changes the defaults:

    digraph { edge [style=bold];
      a -> { b; edge [style=dotted]; c -- "b" } -- a [label="x"] } -/
def chainOverSubgraph : Declaration where
  kind := .digraph
  name := none
  body := [
    .attrs .edge [⟨[⟨.text "style", .text "bold"⟩]⟩],
    .edge (.node (.text "a"))
      [.via .directed (.subgraph none [
        .node (.text "b") [],
        .attrs .edge [⟨[⟨.text "style", .text "dotted"⟩]⟩],
        .edge (.node (.text "c")) [.via .undirected (.node (.text "\"b\""))] []]),
       .via .undirected (.node (.text "a"))]
      [⟨[⟨.text "label", .text "\"x\""⟩]⟩]]

theorem readBatch_chainOverSubgraph :
    (readBatch .standard [.declaration chainOverSubgraph]).2 = .ok [chainOverSubgraph.intended] :=
  readBatch_intended (by decide +kernel)

/-- The edges of a graph are the links of its body, each between two nodes that are there. -/
theorem links_of_read (ls : Layouts) (d : Declaration) (g : Graph)
    (h : (readBatch ls [.declaration d]).2 = .ok [g]) :
    g.edges.map (Edge.link? g.names) = (bodyLinks d.body).map some := by
  have hfst := congrArg (List.map Prod.fst) (described_edges_of_read h)
  rw [List.map_map, List.map_map] at hfst
  calc g.edges.map (Edge.link? g.names)
      = (courseOrigins [] (bodyCourse d.body)).map (some ∘ Origin.link) := hfst
    _ = (bodyLinks d.body).map some := by
      rw [← List.map_map, map_link_courseOrigins, links_bodyCourse]

/-- The edge inside the subgraph comes first, then the hops, source by source. -/
theorem links_chainOverSubgraph :
    chainOverSubgraph.intended.edges.map (Edge.link? chainOverSubgraph.intended.names) =
      [some ⟨"c", .undirected, "b"⟩,
       some ⟨"a", .directed, "b"⟩, some ⟨"a", .directed, "c"⟩,
       some ⟨"b", .undirected, "a"⟩, some ⟨"c", .undirected, "a"⟩] :=
  (links_of_read _ _ _ readBatch_chainOverSubgraph).trans (by decide +kernel)

/-- The edges of a graph have the attributes of their origins, attribute by attribute and in their
order; no statement that is visited later changes an edge. -/
theorem edges_of_read (ls : Layouts) (d : Declaration) (g : Graph)
    (h : (readBatch ls [.declaration d]).2 = .ok [g]) :
    g.edges.map (fun e => (e.link? g.names, e.attrs)) =
        (courseOrigins [] (bodyCourse d.body)).map (fun o => (some o.link, o.attrs)) ∧
      (∀ o : Origin, ∀ k ∈ edgeKeys, o.attrs.get? k = o.value? k) ∧
      ∀ (s : Statement) (w : Walk), w.edges <+: (endOf (visit ls s w)).edges := by
  refine ⟨described_edges_of_read h, fun o k hk => o.get?_attrs hk, fun s w => ?_⟩
  rw [visit_eq_play]
  exact edges_prefix_play ls s.course w

/-- The hops have the default that the subgraph gives, since each end is visited before the links
that lead to it, and the label of their own statement. -/
theorem attrs_chainOverSubgraph :
    chainOverSubgraph.intended.edges.map Edge.attrs =
      [⟨[(nameKey, "c--b"), ("style", "dotted")]⟩,
       ⟨[(nameKey, "a->b"), ("label", "x"), ("style", "dotted")]⟩,
       ⟨[(nameKey, "a->c"), ("label", "x"), ("style", "dotted")]⟩,
       ⟨[(nameKey, "b--a"), ("label", "x"), ("style", "dotted")]⟩,
       ⟨[(nameKey, "c--a"), ("label", "x"), ("style", "dotted")]⟩] := by
  have hedges := (edges_of_read _ _ _ readBatch_chainOverSubgraph).1
  have hattrs := congrArg (List.map Prod.snd) hedges
  rw [List.map_map, List.map_map] at hattrs
  exact hattrs.trans (by decide +kernel)

end DotSemantics
