import DotSemantics.Declaration.WellFormed
import DotSemantics.Flat
import DotSemantics.Proofs.Auditing
import DotSemantics.Proofs.LowerCase
import DotSemantics.Proofs.NodeAttributes
import DotSemantics.Proofs.Refusals

/-!
# Flat declarations

Defaults, subgraphs and chains only abbreviate: a graph that is read from any declaration is also
read from its flat declaration (`read_flat`).  The proof has two halves.  A graph that is read is
tidy: its tables hold what their headings say and then what attribute lists can set, in any order
(`tidy_of_read`).  And the flat declaration of a tidy graph puts the graph together again, entry by
entry, node by node and edge by edge (`Walk.Holds`).
-/

namespace DotSemantics

/-! ## Tables in two parts -/

theorem Table.putAll_eq_of_nodup {α : Type} {t : Table α} {l r : List (String × α)}
    (ht : t.Nodup) (h : t.entries = l ++ r) : (⟨l⟩ : Table α).putAll r = t := by
  induction r generalizing l with
  | nil =>
    rw [List.append_nil] at h
    rw [putAll_nil, ← h]
  | cons p r ih =>
    have hnotMem : p.1 ∉ l.map Prod.fst := by
      unfold Nodup keys at ht
      rw [h, List.map_append, List.nodup_append] at ht
      intro hp
      exact ht.2.2 p.1 hp p.1 (by simp) rfl
    rw [putAll_cons]
    unfold put
    rw [putEntry_of_notMem hnotMem]
    exact ih (by rw [h, List.append_assoc]; rfl)

theorem entryAt?_of_mem {α : Type} {l : List (String × α)} (hl : (l.map Prod.fst).Nodup)
    {p : String × α} (h : p ∈ l) : entryAt? p.1 l = some p.2 := by
  induction l with
  | nil => cases h
  | cons q l ih =>
    rw [List.map_cons, List.nodup_cons] at hl
    rw [entryAt?]
    rcases List.mem_cons.1 h with rfl | hp
    · exact if_pos rfl
    · have hne : q.1 ≠ p.1 := fun e => hl.1 (e ▸ List.mem_map_of_mem hp)
      rw [if_neg hne, ih hl.2 hp]

theorem settable_append {l r : List (String × String)} (hl : ∀ p ∈ l, p.1 ∈ metaKeys)
    (hr : ∀ p ∈ r, p.1 ∉ metaKeys) : settable ⟨l ++ r⟩ = r := by
  unfold settable
  rw [List.filter_append, List.filter_eq_nil_iff.2, List.filter_eq_self.2, List.nil_append]
  · intro p hp
    simpa using hr p hp
  · intro p hp
    simpa using hl p hp

theorem notMem_metaKeys_of_mem_settable {t : Table String} {p : String × String}
    (h : p ∈ settable t) : p.1 ∉ metaKeys := by
  simpa using (List.mem_filter.1 h).2

/-! ## Tidy graphs -/

/-- The table of a node holds its name and then what attribute lists can set. -/
structure Node.Tidy (n : Node) : Prop where
  entries : n.attrs.entries = (nameKey, n.name) :: settable n.attrs
  nodup : n.attrs.Nodup
  keys : ∀ p ∈ settable n.attrs, p.1 ∈ nodeKeys

/-- An edge ends in some nodes; its table holds its name and then what attribute lists can set, and
this is what it would get from its own attributes. -/
structure Edge.Tidy (ns : List Node) (e : Edge) : Prop where
  source : e.source < ns.length
  target : e.target < ns.length
  entries : e.attrs.entries =
    (nameKey, edgeName (nameAt ns e.source) e.op (nameAt ns e.target)) :: settable e.attrs
  attrs : edgeTable (Table.ofPairs (settable e.attrs)) Table.empty (nameAt ns e.source) e.op
    (nameAt ns e.target) = e.attrs

/-- The table of a graph holds its heading and then what attribute lists can set, its nodes have
different names, and nodes and edges are tidy. -/
structure Graph.Tidy (g : Graph) (kind : GraphKind) : Prop where
  entries : g.attrs.entries = (Walk.heading kind g.name?).entries ++ settable g.attrs
  nodup : g.attrs.Nodup
  names : g.names.Nodup
  nodes : ∀ n ∈ g.nodes, n.Tidy
  edges : ∀ e ∈ g.edges, e.Tidy g.nodes

/-! ## Graphs that are read are tidy -/

theorem Walk.nodup_heading (kind : GraphKind) (name : Option String) :
    (heading kind name).Nodup := by
  cases name with
  | none => exact List.nodup_singleton _
  | some n => exact (show [nameKey, kindKey].Nodup by decide)

theorem Table.entries_of_head {α : Type} {t : Table α} {k : String} {v : α} {ks : List String}
    (hkeys : t.keys = k :: ks) (hk : t.get? k = some v) :
    ∃ r, t.entries = (k, v) :: r ∧ r.map Prod.fst = ks := by
  obtain ⟨_ | ⟨⟨j, w⟩, r⟩⟩ := t
  · cases hkeys
  · obtain ⟨rfl, hks⟩ := List.cons.inj hkeys
    have hw : w = v := by simpa [get?, entryAt?] using hk
    exact ⟨r, by rw [hw], hks⟩

theorem notMem_metaKeys_of_mem_nodeKeys : ∀ k ∈ nodeKeys, k ∉ metaKeys := by decide

theorem notMem_metaKeys_of_mem_edgeKeys : ∀ k ∈ edgeKeys, k ∉ metaKeys := by decide

theorem NodeRecord.Reflects.tidy {r : NodeRecord} {name : String} {ss : List Stating}
    (h : r.Reflects name ss) : (Node.mk name r.attrs).Tidy := by
  obtain ⟨rest, hentries, hrest⟩ := Table.entries_of_head h.keys h.name
  have hnode : ∀ p ∈ rest, p.1 ∈ nodeKeys := by
    intro p hp
    apply mem_nodeKeys_of_mem_statedKeys
    rw [← hrest]
    exact List.mem_map_of_mem hp
  have hsettable : settable r.attrs = rest := by
    rw [show r.attrs = ⟨[(nameKey, name)] ++ rest⟩ from congrArg Table.mk hentries]
    exact settable_append (by simp [metaKeys])
      fun p hp => notMem_metaKeys_of_mem_nodeKeys p.1 (hnode p hp)
  exact ⟨hsettable.symm ▸ hentries, h.nodup, hsettable.symm ▸ hnode⟩

theorem Origin.settable_attrs (o : Origin) :
    settable o.attrs = edgeKeys.filterMap fun k => (o.value? k).map fun v => (k, v) := by
  apply settable_append (l := [(nameKey, _)]) (by simp [metaKeys])
  intro p hp
  have hmem : p.1 ∈ edgeKeys.filter fun k => (o.value? k).isSome :=
    map_fst_filterMap o.value? edgeKeys ▸ List.mem_map_of_mem hp
  exact notMem_metaKeys_of_mem_edgeKeys p.1 (List.mem_filter.1 hmem).1

/-- An edge is settled again from its own attributes, where no default is in force. -/
theorem Origin.edgeTable_settable (o : Origin) :
    edgeTable (Table.ofPairs (settable o.attrs)) Table.empty o.link.source o.link.op
      o.link.target = o.attrs := by
  have hvalue : ∀ k ∈ edgeKeys, lastValue? k (settable o.attrs) = o.value? k := by
    intro k hk
    rw [o.settable_attrs, lastValue?_of_nodup, entryAt?_filterMap hk]
    rw [map_fst_filterMap]
    exact List.Nodup.filter _ (by decide)
  have hsettled : (edgeKeys.filterMap fun k =>
      (((Table.ofPairs (settable o.attrs)).get? k).or (Table.empty.get? k)).map fun v => (k, v)) =
        edgeKeys.filterMap fun k => (o.value? k).map fun v => (k, v) := by
    apply List.filterMap_congr
    intro k hk
    rw [Table.get?_ofPairs, hvalue k hk, Table.get?_empty, Option.or_none]
  unfold edgeTable
  rw [foldl_settleEdge _ _ (by decide) _ nameKey_notMem_edgeKeys, hsettled]
  rfl

section

variable {ls : Layouts} {d : Declaration} {g : Graph}
  (h : (readBatch ls [.declaration d]).2 = .ok [g])

include h

theorem entries_attrs_of_read :
    g.attrs.entries = (Walk.heading d.kind g.name?).entries ++ settable g.attrs ∧
      g.attrs.Nodup := by
  have hattrs := attrs_of_read h
  rw [← name_of_read h] at hattrs
  have hmeta := Walk.keys_heading_subset d.kind g.name?
  have hnot : ∀ p ∈ bodyEntries d.body, p.1 ∉ metaKeys := by
    intro p hp
    obtain ⟨q, -, hq⟩ := List.mem_filterMap.1 hp
    exact notMem_metaKeys_of_graphEntry? hq
  have hentries : g.attrs.entries =
      (Walk.heading d.kind g.name?).entries ++ (Table.ofPairs (bodyEntries d.body)).entries := by
    have happend := Table.entries_putAll_append
      (fun p hp hk => hnot p hp (hmeta p.1 hk)) []
    rw [List.append_nil] at happend
    rw [hattrs]
    exact happend
  have hsettable : settable g.attrs = (Table.ofPairs (bodyEntries d.body)).entries := by
    rw [show g.attrs = ⟨g.attrs.entries⟩ from rfl, hentries]
    apply settable_append
    · exact fun p hp => hmeta p.1 (List.mem_map_of_mem hp)
    · intro p hp
      have hkey : p.1 ∈ (Table.ofPairs (bodyEntries d.body)).keys := List.mem_map_of_mem hp
      rw [Table.keys_ofPairs, mem_distinct] at hkey
      obtain ⟨q, hq, hqp⟩ := List.mem_map.1 hkey
      exact hqp ▸ hnot q hq
  refine ⟨by rw [hsettable, hentries], ?_⟩
  rw [hattrs]
  exact Table.nodup_putAll (Walk.nodup_heading _ _) _

theorem lower_of_read {l : String} (hl : g.attrs.get? layoutKey = some l) : Text.lower l = l := by
  rw [get?_layoutKey_of_read h] at hl
  obtain ⟨p, -, hp⟩ := List.mem_filterMap.1 (List.mem_of_getLast? hl)
  unfold layoutOf? at hp
  split at hp
  · rw [← Option.some.inj hp, Text.lower_lower]
  · cases hp

theorem tidy_of_read : g.Tidy d.kind := by
  obtain ⟨hentries, hnodup⟩ := entries_attrs_of_read h
  have hnodes : ∀ n ∈ g.nodes, n.Tidy := by
    obtain ⟨-, rfl⟩ := (readBatch_eq_ok_iff _ _ _).1 h
    intro n hn
    obtain ⟨r, hr, hreflects⟩ := Walk.exists_reflects_of_mem (grounded_body d.body []) hn
    have htidy := hreflects.tidy
    rw [hr] at htidy
    exact htidy
  refine ⟨hentries, hnodup, nodup_names_of_read h, hnodes, fun e he => ?_⟩
  obtain ⟨hsource, htarget⟩ := ends_of_read h e he
  obtain ⟨o, hlink, hattrs⟩ := exists_origin_of_read h e he
  have hentries : o.attrs.entries =
      (nameKey, edgeName o.link.source o.link.op o.link.target) :: settable o.attrs := by
    rw [o.settable_attrs]
    rfl
  have hsettle := o.edgeTable_settable
  rw [hlink, hattrs] at hentries hsettle
  exact ⟨hsource, htarget, hentries, hsettle⟩

end

/-! ## The course of a flat declaration -/

/-- What the flat declaration does for a node. -/
def Node.flatCourse (n : Node) : List Move :=
  .node n.name [] :: (settable n.attrs).map fun p => .node n.name [p]

def Edge.flatCourse (ns : List Node) (e : Edge) : List Move :=
  [.mention (nameAt ns e.source), .mention (nameAt ns e.target),
    .connect [nameAt ns e.source] e.op [nameAt ns e.target] (settable e.attrs)]

theorem bodyCourse_flatMap {α : Type} (f : α → List Statement) (l : List α) :
    bodyCourse (l.flatMap f) = l.flatMap fun a => bodyCourse (f a) := by
  induction l with
  | nil => rfl
  | cons a l ih => rw [List.flatMap_cons, bodyCourse_append, List.flatMap_cons, ih]

theorem Node.bodyCourse_flat (n : Node) : bodyCourse n.flat = n.flatCourse := by
  have hstate : ∀ p : String × String,
      (Statement.node (.ofMeant n.name) [⟨[.ofPair p]⟩]).course = [.node n.name [p]] := by
    intro p
    rw [Statement.course, Word.meant_ofMeant]
    exact congrArg (fun ps => [Move.node n.name ps]) (pairsOf_ofPair [p])
  unfold flat flatCourse
  rw [bodyCourse, Statement.course, Word.meant_ofMeant, bodyCourse_map, List.map_eq_flatMap]
  simp only [hstate]
  rfl

theorem Edge.course_flat (ns : List Node) (e : Edge) : (e.flat ns).course = e.flatCourse ns := by
  unfold flat flatCourse
  simp only [Statement.course, hopCourse, Endpoint.course, Endpoint.members, Endpoint.mentions,
    Word.meant_ofMeant, pairsOf_ofPair]
  rfl

theorem Graph.bodyCourse_flat (g : Graph) (kind : GraphKind) :
    bodyCourse (g.flat kind).body = (settable g.attrs).map (fun p => .assign p.1 p.2) ++
      g.nodes.flatMap Node.flatCourse ++ g.edges.flatMap (Edge.flatCourse g.nodes) := by
  have hassign : ∀ p : String × String,
      (Statement.assign (.ofPair p)).course = [.assign p.1 p.2] := by
    intro p
    rw [Statement.course, Attribute.pair_ofPair]
  unfold flat
  rw [bodyCourse_append, bodyCourse_append, bodyCourse_map, bodyCourse_flatMap, bodyCourse_map,
    List.map_eq_flatMap]
  simp only [hassign, Node.bodyCourse_flat, Edge.course_flat]

/-! ## Putting a graph together -/

theorem Graph.nameAt_mem_names (g : Graph) {i : Nat} (hi : i < g.nodes.length) :
    nameAt g.nodes i ∈ g.names := by
  have hn := List.getElem?_eq_getElem hi
  unfold nameAt
  rw [hn]
  exact List.mem_of_getElem? (getElem?_names hn)

def Table.entriesAt (ks : List String) (t : Table String) : List (String × String) :=
  ks.filterMap fun k => (t.get? k).map fun v => (k, v)

/-- What a node statement sets where no default is in force. -/
theorem NodeRecord.settleAll_attrs (given : Table String) (r : NodeRecord) :
    (settleAll given Table.empty r).attrs = r.attrs.putAll (given.entriesAt nodeKeys) := by
  unfold settleAll Table.entriesAt
  induction nodeKeys generalizing r with
  | nil => rfl
  | cons k ks ih =>
    rw [List.foldl_cons, ih, List.filterMap_cons]
    unfold settle
    cases given.get? k <;> rfl

/-- The table of one pair has just that pair at any keys that have its name. -/
theorem Table.entriesAt_ofPairs_single {p : String × String} {ks : List String} (hks : ks.Nodup)
    (hp : p.1 ∈ ks) : (ofPairs [p]).entriesAt ks = [p] := by
  unfold entriesAt
  have hget : ∀ k, (ofPairs [p]).get? k = if k = p.1 then some p.2 else none := by
    intro k
    show (empty.put p.1 p.2).get? k = _
    rw [get?_put, get?_empty]
  simp only [hget]
  induction ks with
  | nil => cases hp
  | cons k ks ih =>
    rw [List.nodup_cons] at hks
    rw [List.filterMap_cons]
    by_cases hk : k = p.1
    · -- the other keys are different, and set nothing
      have hrest : (ks.filterMap fun j =>
          (if j = p.1 then some p.2 else none).map fun v => (j, v)) = [] := by
        rw [List.filterMap_eq_nil_iff]
        intro j hj
        have hne : j ≠ p.1 := fun e => hks.1 (hk.trans e.symm ▸ hj)
        rw [if_neg hne]
        rfl
      rw [if_pos hk, hrest, hk]
      rfl
    · rw [if_neg hk]
      exact ih hks.2 ((List.mem_cons.1 hp).resolve_left fun e => hk e.symm)

namespace Walk

/-- A state has made a graph, and no default is in force in it. -/
structure Holds (w : Walk) (g : Graph) : Prop where
  sound : w.Sound
  graph : w.graph = g
  nodeDefaults : w.nodeDefaults = Table.empty
  edgeDefaults : w.edgeDefaults = Table.empty

theorem holds_start (kind : GraphKind) (name : Option String) (log : List LogEntry) :
    (start kind name log).Holds ⟨heading kind name, [], []⟩ :=
  ⟨sound_start kind name log, rfl, rfl, rfl⟩

namespace Holds

variable {w : Walk} {g : Graph}

theorem names (h : w.Holds g) : w.names = g.names := by
  rw [← h.graph]
  rfl

theorem nodes (h : w.Holds g) : w.nodes = g.nodes := by
  rw [← h.graph]
  rfl

theorem placeOf (h : w.Holds g) {i : Nat} {n : Node} (hi : g.nodes[i]? = some n) :
    w.placeOf n.name = i := by
  have hname := h.names ▸ Graph.getElem?_names hi
  have hlt := h.sound.placeOf_lt (List.mem_of_getElem? hname)
  apply (List.getElem?_inj hlt h.sound.nodup).1
  rw [h.sound.getElem?_placeOf (List.mem_of_getElem? hname), hname]

theorem assign (h : w.Holds g) {p : String × String} (hp : p.1 ∉ metaKeys)
    (hlayout : p.1 = layoutKey → Text.lower p.2 = p.2) :
    ((Move.assign p.1 p.2).apply w).Holds { g with attrs := g.attrs.put p.1 p.2 } := by
  have happly : (Move.assign p.1 p.2).apply w = w.assign p.1 p.2 := by
    show w.setAttr p.1 p.2 = _
    unfold setAttr
    rw [if_neg (by simpa using hp)]
    split
    · next hl => rw [hlayout hl]
    · rfl
  rw [happly]
  exact ⟨h.sound.congr rfl rfl rfl, by rw [← h.graph]; rfl, h.nodeDefaults, h.edgeDefaults⟩

theorem mention (h : w.Holds g) {name : String} (hname : name ∈ g.names) :
    ((Move.mention name).apply w).Holds g := by
  have hplace : w.places.has name = true := by
    rw [Table.has_iff, h.sound.keys_places, h.names]
    exact hname
  refine ⟨h.sound.touch name, ?_, h.nodeDefaults, h.edgeDefaults⟩
  rw [← h.graph]
  show Graph.mk _ (if w.places.has name then w.nodes else _) _ = _
  rw [if_pos hplace]
  rfl

theorem touch (h : w.Holds g) (name : String) :
    (w.touch name).Holds { g with nodes := (w.touch name).nodes } :=
  ⟨h.sound.touch name, by rw [← h.graph]; rfl, h.nodeDefaults, h.edgeDefaults⟩

theorem settle_last (h : w.Holds g) {before : List Node} {n : Node} (hg : g.nodes = before ++ [n])
    (t : Table String) :
    (w.settle (w.placeOf n.name) t).Holds
      { g with nodes := before ++ [{ n with attrs := n.attrs.putAll (t.entriesAt nodeKeys) }] } := by
  have hlast : g.nodes[before.length]? = some n := by
    rw [hg]
    exact List.getElem?_concat_length
  obtain ⟨hnodes, -⟩ := settle_of_getElem? (h.nodes ▸ hlast) t
  rw [h.placeOf hlast]
  have hrest := settle_eq before.length t w
  refine ⟨h.sound.congr (settle_names _ _ _) (settle_places _ _ _) (by rw [hrest]), ?_,
    (by rw [hrest]; exact h.nodeDefaults), (by rw [hrest]; exact h.edgeDefaults)⟩
  have hgraph : (w.settle before.length t).graph =
      { w.graph with nodes := (w.settle before.length t).nodes } := by
    rw [hrest]
    rfl
  rw [hgraph, h.graph, hnodes, h.nodes, hg, h.nodeDefaults, NodeRecord.settleAll_attrs]
  simp

/-- The statement of the node that is the last one once it is touched. -/
theorem state (h : w.Holds g) {before : List Node} {n : Node}
    (hn : (w.touch n.name).nodes = before ++ [n]) (ps : List (String × String)) :
    ((Move.node n.name ps).apply w).Holds { g with nodes := before ++
      [{ n with attrs := n.attrs.putAll ((Table.ofPairs ps).entriesAt nodeKeys) }] } := by
  show ((w.touch n.name).settle (w.placeOf n.name) (Table.ofPairs ps)).Holds _
  rw [← placeOf_touch_self]
  exact (h.touch n.name).settle_last hn _

theorem state_last (h : w.Holds g) {before : List Node} {n : Node} (hg : g.nodes = before ++ [n])
    {p : String × String} (hp : p.1 ∈ nodeKeys) :
    ((Move.node n.name [p]).apply w).Holds
      { g with nodes := before ++ [{ n with attrs := n.attrs.put p.1 p.2 }] } := by
  have hmem : n.name ∈ w.places.keys := by
    rw [h.sound.keys_places, h.names]
    unfold Graph.names
    rw [hg]
    simp
  have htouch : (w.touch n.name).nodes = before ++ [n] := by
    rw [← hg, ← h.nodes]
    exact if_pos ((Table.has_iff _ _).2 hmem)
  have hstate := h.state htouch [p]
  rw [Table.entriesAt_ofPairs_single (by decide) hp] at hstate
  exact hstate

/-- The first statement of a node. -/
theorem state_first (h : w.Holds g) {name : String} (hname : name ∉ g.names) :
    ((Move.node name []).apply w).Holds { g with nodes := g.nodes ++ [.fresh name] } := by
  have htouch := nodes_touch_of_notMem h.sound (h.names ▸ hname)
  rw [h.nodes] at htouch
  exact h.state (show (w.touch (Node.fresh name).name).nodes = _ from htouch) []

theorem placeOf_nameAt (h : w.Holds g) {i : Nat} (hi : i < g.nodes.length) :
    w.placeOf (nameAt g.nodes i) = i := by
  have hn := List.getElem?_eq_getElem hi
  unfold nameAt
  rw [hn]
  exact h.placeOf hn

/-- A hop between two nodes that are there makes just the one edge. -/
theorem connect (h : w.Holds g) {e : Edge} (he : e.Tidy g.nodes) :
    ((Move.connect [nameAt g.nodes e.source] e.op [nameAt g.nodes e.target]
      (settable e.attrs)).apply w).Holds { g with edges := g.edges ++ [e] } := by
  have hedge : edgesBetween w.nodes (Table.ofPairs (settable e.attrs)) w.edgeDefaults
      ([nameAt g.nodes e.source].map w.placeOf) e.op ([nameAt g.nodes e.target].map w.placeOf) =
        [e] := by
    show [Edge.make w.nodes _ _ (w.placeOf _) e.op (w.placeOf _)] = [e]
    rw [h.placeOf_nameAt he.source, h.placeOf_nameAt he.target, h.nodes, h.edgeDefaults]
    unfold Edge.make
    rw [he.attrs]
  refine ⟨h.sound.apply ?_, ?_, h.nodeDefaults, h.edgeDefaults⟩
  · rw [h.names]
    intro n hn
    rcases List.mem_pair.1 hn with rfl | rfl
    · exact g.nameAt_mem_names he.source
    · exact g.nameAt_mem_names he.target
  · show Graph.mk w.attrs w.nodes (w.edges ++ edgesBetween _ _ _ _ _ _) = _
    rw [hedge, ← h.graph]
    rfl

/-! ### The parts of a flat declaration -/

theorem run_assigns (h : w.Holds g) {ps : List (String × String)}
    (hps : ∀ p ∈ ps, p.1 ∉ metaKeys)
    (hlayout : ∀ p ∈ ps, p.1 = layoutKey → Text.lower p.2 = p.2) :
    (run (ps.map fun p => .assign p.1 p.2) w).Holds { g with attrs := g.attrs.putAll ps } := by
  induction ps generalizing w g with
  | nil => exact h
  | cons p ps ih =>
    rw [List.forall_mem_cons] at hps hlayout
    rw [List.map_cons, run_cons]
    exact ih (h.assign hps.1 hlayout.1) hps.2 hlayout.2

theorem run_states (h : w.Holds g) {before : List Node} {n : Node} (hg : g.nodes = before ++ [n])
    {ps : List (String × String)} (hps : ∀ p ∈ ps, p.1 ∈ nodeKeys) :
    (run (ps.map fun p => .node n.name [p]) w).Holds
      { g with nodes := before ++ [{ n with attrs := n.attrs.putAll ps }] } := by
  induction ps generalizing w g n with
  | nil =>
    rw [Table.putAll_nil, ← hg]
    exact h
  | cons p ps ih =>
    rw [List.forall_mem_cons] at hps
    rw [List.map_cons, run_cons]
    exact ih (h.state_last hg hps.1) rfl hps.2

theorem run_node (h : w.Holds g) {n : Node} (hname : n.name ∉ g.names) (hn : n.Tidy) :
    (run n.flatCourse w).Holds { g with nodes := g.nodes ++ [n] } := by
  have hstates := (h.state_first hname).run_states rfl hn.keys
  have hattrs : (Node.fresh n.name).attrs.putAll (settable n.attrs) = n.attrs :=
    Table.putAll_eq_of_nodup hn.nodup hn.entries
  rw [hattrs] at hstates
  exact hstates

theorem run_nodes (h : w.Holds g) {ns : List Node}
    (hnames : (g.names ++ ns.map Node.name).Nodup) (hns : ∀ n ∈ ns, n.Tidy) :
    (run (ns.flatMap Node.flatCourse) w).Holds { g with nodes := g.nodes ++ ns } := by
  induction ns generalizing w g with
  | nil =>
    rw [List.append_nil]
    exact h
  | cons n ns ih =>
    rw [List.forall_mem_cons] at hns
    have hname : n.name ∉ g.names := by
      intro hmem
      exact (List.nodup_append.1 hnames).2.2 n.name hmem n.name (by simp) rfl
    have hrest : ((g.nodes ++ [n]).map Node.name ++ ns.map Node.name).Nodup := by
      rw [List.map_append, List.append_assoc]
      exact hnames
    rw [List.flatMap_cons, run_append, List.append_cons]
    exact ih (h.run_node hname hns.1) hrest hns.2

theorem run_edges (h : w.Holds g) {es : List Edge} (hes : ∀ e ∈ es, e.Tidy g.nodes) :
    (run (es.flatMap (Edge.flatCourse g.nodes)) w).Holds { g with edges := g.edges ++ es } := by
  induction es generalizing w g with
  | nil =>
    rw [List.flatMap_nil, List.append_nil]
    exact h
  | cons e es ih =>
    rw [List.forall_mem_cons] at hes
    have hends := (h.mention (g.nameAt_mem_names hes.1.source)).mention
      (g.nameAt_mem_names hes.1.target)
    rw [List.flatMap_cons, run_append, List.append_cons]
    exact ih (hends.connect hes.1) hes.2

end Holds

/-- The flat declaration of a tidy graph puts the graph together again. -/
theorem holds_flat {g : Graph} {kind : GraphKind} (hg : g.Tidy kind)
    (hlayout : ∀ l, g.attrs.get? layoutKey = some l → Text.lower l = l) (log : List LogEntry) :
    (run (bodyCourse (g.flat kind).body) (start kind g.name? log)).Holds g := by
  have hlower : ∀ p ∈ settable g.attrs, p.1 = layoutKey → Text.lower p.2 = p.2 := by
    intro p hp hk
    apply hlayout
    rw [← hk]
    exact entryAt?_of_mem hg.nodup (List.mem_filter.1 hp).1
  have hassigns := (holds_start kind g.name? log).run_assigns
    (fun p (hp : p ∈ settable g.attrs) => notMem_metaKeys_of_mem_settable hp) hlower
  have hattrs : (heading kind g.name?).putAll (settable g.attrs) = g.attrs :=
    Table.putAll_eq_of_nodup hg.nodup hg.entries
  simp only [hattrs] at hassigns
  have hnodes := hassigns.run_nodes hg.names hg.nodes
  have hedges := hnodes.run_edges hg.edges
  rw [Graph.bodyCourse_flat, run_append, run_append]
  exact hedges

end Walk

/-! ## Reading a flat declaration -/

theorem Graph.wellFormed_flat (g : Graph) (kind : GraphKind) : (g.flat kind).WellFormed := by
  unfold Declaration.WellFormed flat
  rw [bodyWellFormed_iff]
  intro s hs
  rw [List.mem_append, List.mem_append] at hs
  rcases hs with (hassign | hnode) | hedge
  · obtain ⟨p, -, rfl⟩ := List.mem_map.1 hassign
    trivial
  · obtain ⟨n, -, hn⟩ := List.mem_flatMap.1 hnode
    rcases List.mem_cons.1 hn with rfl | hstate
    · trivial
    · obtain ⟨p, -, rfl⟩ := List.mem_map.1 hstate
      trivial
  · obtain ⟨e, -, rfl⟩ := List.mem_map.1 hedge
    exact ⟨List.cons_ne_nil _ _, trivial, trivial, trivial⟩

theorem Graph.graphName_flat (g : Graph) (kind : GraphKind) :
    (g.flat kind).graphName = g.name? := by
  unfold flat Declaration.graphName
  cases g.name? with
  | none => rfl
  | some n => exact congrArg some (Word.meant_ofMeant n)

/-- No move of the flat declaration of a graph is refused if the layout of the graph is allowed. -/
theorem Graph.refusal?_flat {g : Graph} {ls : Layouts} (hnodup : g.attrs.Nodup)
    (hlayout : ∀ l, g.attrs.get? layoutKey = some l → Text.lower l = l ∧ ls.allows l = true)
    (kind : GraphKind) :
    ∀ m ∈ bodyCourse (g.flat kind).body, m.refusal? ls = none := by
  intro m hm
  rw [bodyCourse_flat, List.mem_append, List.mem_append] at hm
  rcases hm with (hassign | hnode) | hedge
  · obtain ⟨p, hp, rfl⟩ := List.mem_map.1 hassign
    rw [Move.refusal?_assign]
    by_cases hk : p.1 = layoutKey
    · have hget : g.attrs.get? layoutKey = some p.2 :=
        hk ▸ entryAt?_of_mem hnodup (List.mem_filter.1 hp).1
      obtain ⟨hlower, hallows⟩ := hlayout p.2 hget
      rw [if_pos hk, hlower, if_pos hallows]
    · exact if_neg hk
  · obtain ⟨n, -, hn⟩ := List.mem_flatMap.1 hnode
    rcases List.mem_cons.1 hn with rfl | hstate
    · rfl
    · obtain ⟨p, -, rfl⟩ := List.mem_map.1 hstate
      rfl
  · obtain ⟨e, -, he⟩ := List.mem_flatMap.1 hedge
    simp only [Edge.flatCourse, List.mem_cons, List.not_mem_nil, or_false] at he
    rcases he with rfl | rfl | rfl <;> rfl

/-- The graph of a declaration is also the graph of its flat declaration, which can be made and
says nothing twice: the tables hold nothing else than what stands there, behind the names and the
kind. -/
theorem read_flat (ls : Layouts) (d : Declaration) (g : Graph)
    (h : (readBatch ls [.declaration d]).2 = .ok [g]) :
    (readBatch ls [.declaration (g.flat d.kind)]).2 = .ok [g] ∧ (g.flat d.kind).WellFormed ∧
      g.attrs.entries = (Walk.heading d.kind g.name?).entries ++ settable g.attrs ∧
      (∀ n ∈ g.nodes, n.attrs.entries = (nameKey, n.name) :: settable n.attrs) ∧
      ∀ e ∈ g.edges, e.attrs.entries =
        (nameKey, edgeName (nameAt g.nodes e.source) e.op (nameAt g.nodes e.target)) ::
          settable e.attrs := by
  have htidy := tidy_of_read h
  have hread : (readBatch ls [.declaration (g.flat d.kind)]).2 = .ok [g] := by
    rw [readBatch_eq_ok_iff]
    refine ⟨g.refusal?_flat htidy.nodup (fun l hl => ⟨lower_of_read h hl, layout_of_read h hl⟩) _,
      ?_⟩
    have hholds := Walk.holds_flat htidy (fun l hl => lower_of_read h hl)
      ((g.flat d.kind).heading 0)
    unfold Declaration.intended Declaration.final
    rw [g.graphName_flat]
    exact hholds.graph.symm
  exact ⟨hread, g.wellFormed_flat _, htidy.entries, fun n hn => (htidy.nodes n hn).entries,
    fun e he => (htidy.edges e he).entries⟩

theorem read_flat_chainOverSubgraph :
    (readBatch .standard [.declaration chainOverSubgraph]).2 = .ok [chainOverSubgraph.intended] ∧
      (readBatch .standard [.declaration (chainOverSubgraph.intended.flat .digraph)]).2 =
        .ok [chainOverSubgraph.intended] ∧
      (chainOverSubgraph.intended.flat .digraph).body.length = 8 ∧
      chainOverSubgraph.intended.edges.map (fun e => settable e.attrs) =
        [[("style", "dotted")],
         [("label", "x"), ("style", "dotted")], [("label", "x"), ("style", "dotted")],
         [("label", "x"), ("style", "dotted")], [("label", "x"), ("style", "dotted")]] :=
  ⟨readBatch_chainOverSubgraph,
    (read_flat .standard chainOverSubgraph _ readBatch_chainOverSubgraph).1,
    by decide +kernel, by decide +kernel⟩

end DotSemantics
