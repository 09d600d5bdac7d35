import DotSemantics.Proofs.Auditing

/-!
# Drafts under edit

Edits lead from the empty draft to drafts that need not be sound: names repeat, ends are no nodes of
the graph, operators do not fit, tables miss their names.  But an edit keeps each place inside its
pool (`Draft.Placed.apply`), and so every node and edge that such a draft lists is there, and so are
the ends of the edges (`Draft.Placed.complete`).
-/

namespace DotSemantics

/-! ## Edits -/

/-- A graph that is loaded is one that was read. -/
def Edit.Genuine : Edit → Prop
  | .load g => ∃ ls d, (readBatch ls [.declaration d]).2 = .ok [g]
  | _ => True

namespace Draft

def applyAll (d : Draft) : List Edit → Option Draft
  | [] => some d
  | e :: rest => do
    let d' ← d.apply e
    d'.applyAll rest

def Reachable (d : Draft) : Prop :=
  ∃ edits : List Edit, (∀ e ∈ edits, e.Genuine) ∧ empty.applyAll edits = some d

/-- The places that a draft lists, and those where its edges end, lead into the pools. -/
structure Placed (d : Draft) : Prop where
  nodes : ∀ i ∈ d.nodes, i < d.nodePool.length
  edges : ∀ i ∈ d.edges, i < d.edgePool.length
  ends : ∀ e ∈ d.edgePool, e.source < d.nodePool.length ∧ e.target < d.nodePool.length

theorem placed_empty : empty.Placed := ⟨by simp [empty], by simp [empty], by simp [empty]⟩

theorem placed_ofGraph {g : Graph}
    (h : ∀ e ∈ g.edges, e.source < g.nodes.length ∧ e.target < g.nodes.length) :
    (ofGraph g).Placed := by
  refine ⟨by simp [ofGraph], by simp [ofGraph], fun e he => ?_⟩
  obtain ⟨e', he', rfl⟩ := List.mem_map.1 he
  simpa [ofGraph] using h e' he'

namespace Placed

variable {d : Draft}

/-- A pool of nodes that is at least as long will do. -/
theorem nodePool (h : d.Placed) {pool : List DraftNode} (hlen : d.nodePool.length ≤ pool.length) :
    { d with nodePool := pool }.Placed := by
  refine ⟨fun i hi => Nat.lt_of_lt_of_le (h.nodes i hi) hlen, h.edges, fun e he => ?_⟩
  have hends := h.ends e he
  show e.source < pool.length ∧ e.target < pool.length
  omega

/-- An edge that ends in the pool of nodes can be put into the pool of edges. -/
theorem edgePool (h : d.Placed) {pool : List DraftEdge} (hlen : d.edgePool.length ≤ pool.length)
    (e : DraftEdge) (hpool : ∀ e' ∈ pool, e' ∈ d.edgePool ∨ e' = e)
    (hs : e.source < d.nodePool.length) (ht : e.target < d.nodePool.length) :
    { d with edgePool := pool }.Placed := by
  refine ⟨h.nodes, fun i hi => Nat.lt_of_lt_of_le (h.edges i hi) hlen, fun e' he' => ?_⟩
  rcases hpool e' he' with hold | rfl
  · exact h.ends e' hold
  · exact ⟨hs, ht⟩

theorem setEdge (h : d.Placed) (i : Nat) {e : DraftEdge} (hs : e.source < d.nodePool.length)
    (ht : e.target < d.nodePool.length) : { d with edgePool := d.edgePool.set i e }.Placed :=
  h.edgePool (by simp) e (fun _ he' => List.mem_or_eq_of_mem_set he') hs ht

theorem mapAttrs (h : d.Placed) {f : Table Cell → Table Cell} {owner : Owner} {d' : Draft}
    (hd : d.mapAttrs f owner = some d') : d'.Placed := by
  cases owner with
  | graph =>
    cases hd
    exact ⟨h.nodes, h.edges, h.ends⟩
  | node i =>
    obtain ⟨n, -, hn⟩ := Option.bind_eq_some_iff.1 hd
    cases hn
    exact h.nodePool (by simp)
  | edge i =>
    obtain ⟨e, he, hn⟩ := Option.bind_eq_some_iff.1 hd
    cases hn
    have hends := h.ends e (List.mem_of_getElem? he)
    exact h.setEdge i hends.1 hends.2

theorem makeEdge (h : d.Placed) {s t : Nat} {op : String} {attrs : List (String × Cell)}
    {d' : Draft} (hd : d.makeEdge s t op attrs = some d') : d'.Placed := by
  obtain ⟨n, hs, hd⟩ := Option.bind_eq_some_iff.1 hd
  obtain ⟨m, ht, hd⟩ := Option.bind_eq_some_iff.1 hd
  cases hd
  refine h.edgePool (by simp) ⟨s, t, op, namedTable attrs (n.name ++ op ++ m.name)⟩
    (fun e he => ?_) (List.getElem?_eq_some_iff.1 hs).1 (List.getElem?_eq_some_iff.1 ht).1
  simpa using List.mem_append.1 he

theorem rewire (h : d.Placed) {i : Nat} {s t : Option Nat} {op : Option String} {d' : Draft}
    (hd : d.apply (.rewire i s t op) = some d') : d'.Placed := by
  obtain ⟨e, he, hd⟩ := Option.bind_eq_some_iff.1 hd
  have hends := h.ends e (List.mem_of_getElem? he)
  have hend : ∀ (o : Option Nat) (j : Nat), d.hasEnd o = true → j < d.nodePool.length →
      o.getD j < d.nodePool.length := by
    intro o j ho hj
    cases o with
    | none => exact hj
    | some k => simpa [hasEnd] using ho
  split at hd
  · next hst =>
    rw [Bool.and_eq_true] at hst
    cases hd
    exact h.setEdge i (hend s _ hst.1 hends.1) (hend t _ hst.2 hends.2)
  · cases hd

/-- An edit keeps every place inside its pool. -/
theorem apply (h : d.Placed) {e : Edit} (he : e.Genuine) {d' : Draft} (hd : d.apply e = some d') :
    d'.Placed := by
  cases e with
  | begin attrs =>
    cases hd
    exact ⟨by simp, by simp, h.ends⟩
  | load g =>
    obtain ⟨ls, decl, hread⟩ := he
    cases hd
    exact placed_ofGraph (ends_of_read hread)
  | makeNode name attrs =>
    cases hd
    exact h.nodePool (by simp)
  | makeEdge s t op attrs => exact h.makeEdge hd
  | addNode i =>
    obtain ⟨hi, hd⟩ := Option.ite_none_right_eq_some.1 hd
    cases hd
    refine ⟨fun j hj => ?_, h.edges, h.ends⟩
    rcases List.mem_append.1 hj with hold | hnew
    · exact h.nodes j hold
    · exact List.mem_singleton.1 hnew ▸ hi
  | addEdge i =>
    obtain ⟨hi, hd⟩ := Option.ite_none_right_eq_some.1 hd
    cases hd
    refine ⟨h.nodes, fun j hj => ?_, h.ends⟩
    rcases List.mem_append.1 hj with hold | hnew
    · exact h.edges j hold
    · exact List.mem_singleton.1 hnew ▸ hi
  | removeNode p =>
    obtain ⟨-, hd⟩ := Option.ite_none_right_eq_some.1 hd
    cases hd
    exact ⟨fun j hj => h.nodes j (List.mem_of_mem_eraseIdx hj), h.edges, h.ends⟩
  | removeEdge p =>
    obtain ⟨-, hd⟩ := Option.ite_none_right_eq_some.1 hd
    cases hd
    exact ⟨h.nodes, fun j hj => h.edges j (List.mem_of_mem_eraseIdx hj), h.ends⟩
  | set owner key value =>
    have hset : d.mapAttrs (fun t => t.put key value) owner = some d' := hd
    exact h.mapAttrs hset
  | unset owner key =>
    have hunset : d.mapAttrs (fun t => t.erase key) owner = some d' := hd
    exact h.mapAttrs hunset
  | rename i name =>
    obtain ⟨n, -, hn⟩ := Option.bind_eq_some_iff.1 hd
    cases hn
    exact h.nodePool (by simp)
  | rewire i s t op => exact h.rewire hd

theorem applyAll (h : d.Placed) {edits : List Edit} (hedits : ∀ e ∈ edits, e.Genuine) {d' : Draft}
    (hd : d.applyAll edits = some d') : d'.Placed := by
  induction edits generalizing d with
  | nil =>
    cases hd
    exact h
  | cons e edits ih =>
    rw [List.forall_mem_cons] at hedits
    obtain ⟨d'', he, hrest⟩ := Option.bind_eq_some_iff.1 hd
    exact ih (h.apply hedits.1 he) hedits.2 hrest

end Placed

theorem Reachable.placed {d : Draft} (h : d.Reachable) : d.Placed := by
  obtain ⟨edits, hedits, hd⟩ := h
  exact placed_empty.applyAll hedits hd

end Draft

/-! ## What a draft lists -/

/-- An edge of a draft with the nodes at its ends. -/
structure Connection where
  edge : DraftEdge
  source : DraftNode
  target : DraftNode

namespace Draft

/-- The nodes of a draft, in the order and as often as it lists them. -/
def listedNodes (d : Draft) : List DraftNode := d.nodes.filterMap fun i => d.nodePool[i]?

/-- The edges of a draft, in the order and as often as it lists them, with their ends. -/
def connections (d : Draft) : List Connection :=
  d.graphEdges.map fun e =>
    ⟨e, (d.nodePool[e.source]?).getD default, (d.nodePool[e.target]?).getD default⟩

/-- All that a draft lists is in its pools: nothing is left out of the nodes and the edges of the
draft, and the ends of the edges are there. -/
structure Complete (d : Draft) : Prop where
  nodes : d.nodes.map (fun i => d.nodePool[i]?) = d.listedNodes.map some
  edges : d.edges.map (fun i => d.edgePool[i]?) = d.connections.map fun c => some c.edge
  ends : ∀ c ∈ d.connections, d.nodePool[c.edge.source]? = some c.source ∧
    d.nodePool[c.edge.target]? = some c.target

theorem graphEdges_eq (d : Draft) : d.graphEdges = d.connections.map Connection.edge := by
  unfold connections
  rw [List.map_map]
  exact (List.map_id d.graphEdges).symm

theorem nodeName_eq {d : Draft} {i : Nat} {n : DraftNode} (h : d.nodePool[i]? = some n) :
    d.nodeName i = n.name := by
  unfold nodeName
  rw [h]
  rfl

theorem Complete.nodeNames_eq {d : Draft} (h : d.Complete) :
    d.nodeNames = d.listedNodes.map DraftNode.name := by
  calc d.nodes.map d.nodeName
      = (d.nodes.map fun i => d.nodePool[i]?).map fun n => (n.map DraftNode.name).getD "" := by
        rw [List.map_map]
        rfl
    _ = d.listedNodes.map DraftNode.name := by
        rw [h.nodes, List.map_map]
        rfl

theorem map_getElem?_of_lt {α : Type} {l : List α} {is : List Nat} (h : ∀ i ∈ is, i < l.length) :
    is.map (fun i => l[i]?) = (is.filterMap fun i => l[i]?).map some := by
  induction is with
  | nil => rfl
  | cons i is ih =>
    rw [List.forall_mem_cons] at h
    rw [List.map_cons, ih h.2, List.filterMap_cons, List.getElem?_eq_getElem h.1]
    rfl

theorem Placed.complete {d : Draft} (h : d.Placed) : d.Complete := by
  have hget : ∀ i, i < d.nodePool.length →
      d.nodePool[i]? = some ((d.nodePool[i]?).getD default) := by
    intro i hi
    rw [List.getElem?_eq_getElem hi]
    rfl
  refine ⟨map_getElem?_of_lt h.nodes, ?_, fun c hc => ?_⟩
  · unfold connections
    rw [List.map_map]
    exact map_getElem?_of_lt h.edges
  · obtain ⟨e, he, rfl⟩ := List.mem_map.1 hc
    obtain ⟨i, -, hi⟩ := List.mem_filterMap.1 he
    have hends := h.ends e (List.mem_of_getElem? hi)
    exact ⟨hget _ hends.1, hget _ hends.2⟩

end Draft

end DotSemantics
