import DotSemantics.Draft
import DotSemantics.Proofs.Edges

/-!
# Drafts of graphs

The draft of a graph has the graph's nodes and edges as its pools and lists all of them, so that
its names, its edges and its kind are those of the graph.
-/

namespace DotSemantics

/-! ## Places of a list -/

theorem map_getElem?_range {α : Type} (l : List α) :
    (List.range l.length).map (fun i => l[i]?) = l.map some := by
  apply List.ext_getElem?
  intro i
  rw [List.getElem?_map, List.getElem?_map]
  by_cases hi : i < l.length
  · rw [List.getElem?_range hi, List.getElem?_eq_getElem hi]
    exact congrArg some (List.getElem?_eq_getElem hi)
  · have hle : l.length ≤ i := Nat.le_of_not_lt hi
    rw [List.getElem?_eq_none hle, List.getElem?_eq_none (by simpa using hle)]
    rfl

theorem filterMap_getElem?_range {α : Type} (l : List α) :
    (List.range l.length).filterMap (fun i => l[i]?) = l := by
  calc (List.range l.length).filterMap (fun i => l[i]?)
      = ((List.range l.length).map (fun i => l[i]?)).filterMap id := by
        rw [List.filterMap_map]
        rfl
    _ = (l.map some).filterMap id := by rw [map_getElem?_range]
    _ = l := by rw [List.filterMap_map]; exact List.filterMap_some

/-! ## Drafts -/

def DraftEdge.ofEdge (e : Edge) : DraftEdge := ⟨e.source, e.target, e.op.text, e.attrs.map .text⟩

namespace Draft

theorem nodeName_ofGraph (g : Graph) (i : Nat) : (ofGraph g).nodeName i = nameAt g.nodes i := by
  unfold nodeName nameAt ofGraph
  rw [List.getElem?_map, Option.map_map]
  rfl

theorem nodeNames_ofGraph (g : Graph) : (ofGraph g).nodeNames = g.names := by
  calc (List.range g.nodes.length).map (ofGraph g).nodeName
      = ((List.range g.nodes.length).map (fun i => g.nodes[i]?)).map
          (fun n => (n.map Node.name).getD "") := by
        rw [funext (nodeName_ofGraph g), List.map_map]
        rfl
    _ = g.names := by
        rw [map_getElem?_range, List.map_map]
        rfl

theorem graphEdges_ofGraph (g : Graph) : (ofGraph g).graphEdges = g.edges.map DraftEdge.ofEdge := by
  unfold graphEdges ofGraph
  show (List.range g.edges.length).filterMap (fun i => (g.edges.map DraftEdge.ofEdge)[i]?) = _
  rw [← List.length_map DraftEdge.ofEdge, filterMap_getElem?_range]

theorem kind_ofGraph {g : Graph} {k : GraphKind} (h : g.attrs.get? kindKey = some k.text) :
    (ofGraph g).kind = .ok k := by
  have hkind : (ofGraph g).attrs.get? kindKey = some (.text k.text) := by
    show (g.attrs.map Cell.text).get? kindKey = _
    rw [Table.get?_map, h]
    rfl
  unfold kind
  rw [hkind]
  simp only [GraphKind.ofText?_text]

end Draft

end DotSemantics
