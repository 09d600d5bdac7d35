import DotSemantics.Proofs.Drafts

/-!
# The nodes of a graph

The nodes of a graph are those that its body mentions, each at its first mention:

    names of the graph of d = distinct (bodyMentions d.body)      (names_of_read)

So no two of them have the same name, and a name leads to its one node or to none
(`nodes_of_read`).
-/

namespace DotSemantics

/-! ## Looking a node up -/

namespace Graph

variable {g : Graph}

theorem exists_node_of_mem_names {name : String} (h : name ∈ g.names) :
    ∃ (i : Nat) (n : Node), g.nodes[i]? = some n ∧ n.name = name := by
  obtain ⟨n, hn, hname⟩ := List.mem_map.1 h
  obtain ⟨i, hi⟩ := List.getElem?_of_mem hn
  exact ⟨i, n, hi, hname⟩

theorem place_unique (hnodup : g.names.Nodup) {i j : Nat} {n m : Node} (hi : g.nodes[i]? = some n)
    (hj : g.nodes[j]? = some m) (hname : m.name = n.name) : j = i := by
  have hlt : j < g.names.length := by
    unfold names
    rw [List.length_map]
    exact (List.getElem?_eq_some_iff.1 hj).1
  apply (List.getElem?_inj hlt hnodup).1
  rw [getElem?_names hj, getElem?_names hi, hname]

/-- Where names are unique, a node is the first one of its name. -/
theorem findIdx?_name (hnodup : g.names.Nodup) {i : Nat} {n : Node} (hi : g.nodes[i]? = some n) :
    g.nodes.findIdx? (fun m => m.name = n.name) = some i := by
  obtain ⟨hlt, hget⟩ := List.getElem?_eq_some_iff.1 hi
  rw [List.findIdx?_eq_some_iff_getElem]
  refine ⟨hlt, by simp [hget], fun j hji hname => ?_⟩
  have hj : g.nodes[j]? = some g.nodes[j] := List.getElem?_eq_getElem (by omega)
  have hplace : j = i := place_unique hnodup hi hj (by simpa using hname)
  omega

theorem findIdx?_name_eq_none {name : String} (h : name ∉ g.names) :
    g.nodes.findIdx? (fun m => m.name = name) = none := by
  rw [List.findIdx?_eq_none_iff]
  intro m hm
  have hne : m.name ≠ name := fun hname => h (hname ▸ List.mem_map_of_mem hm)
  simpa using hne

theorem node?_eq (g : Graph) (name : String) :
    g.node? name = (g.nodes.findIdx? fun m => m.name = name).bind fun i => g.nodes[i]? :=
  List.find?_eq_bind_findIdx?_getElem?

end Graph

theorem Draft.findNode?_ofGraph (g : Graph) (name : String) :
    (ofGraph g).findNode? name = g.nodes.findIdx? fun m => m.name = name := by
  unfold findNode?
  rw [nodeNames_ofGraph, Graph.names, List.findIdx?_map]
  rfl

/-! ## Graphs that are read -/

section

variable {ls : Layouts} {d : Declaration} {g : Graph}
  (h : (readBatch ls [.declaration d]).2 = .ok [g])

include h

theorem names_of_read : g.names = distinct (bodyMentions d.body) := by
  obtain ⟨-, rfl⟩ := (readBatch_eq_ok_iff _ _ _).1 h
  exact (d.sound_final (d.heading 0)).2

theorem nodup_names_of_read : g.names.Nodup := by
  rw [names_of_read h]
  exact nodup_distinct (bodyMentions d.body)

theorem mem_names_of_read (name : String) : name ∈ g.names ↔ name ∈ bodyMentions d.body := by
  rw [names_of_read h, mem_distinct]

end

/-! ## Main theorem -/

/-- Nodes that are mentioned in all kinds of places, and in more than one spelling; the chain has
an empty end and makes no edge:

    graph { a -- {} -- { "b"; subgraph { c -- "a" } } ; b; "d" } -/
def mentionedEverywhere : Declaration where
  kind := .graph
  name := none
  body := [
    .edge (.node (.text "a"))
      [.via .undirected (.subgraph none []),
       .via .undirected (.subgraph none [
        .node (.text "\"b\"") [],
        .subgraph none [
          .edge (.node (.text "c")) [.via .undirected (.node (.text "\"a\""))] []]])] [],
    .node (.text "b") [],
    .node (.text "\"d\"") []]

/-- A graph has the nodes that its body mentions, each once and in the order of the first mentions.
A name that is mentioned leads to the one node of that name, any other to none. -/
theorem nodes_of_read (ls : Layouts) (d : Declaration) (g : Graph)
    (h : (readBatch ls [.declaration d]).2 = .ok [g]) :
    g.names = distinct (bodyMentions d.body) ∧ g.names.Nodup ∧
      ∀ name, (name ∈ bodyMentions d.body → ∃ (i : Nat) (n : Node),
          g.nodes[i]? = some n ∧ n.name = name ∧
          (∀ (j : Nat) (m : Node), g.nodes[j]? = some m → m.name = name → j = i) ∧
          g.node? name = some n ∧ (Draft.ofGraph g).findNode? name = some i) ∧
        (name ∉ bodyMentions d.body →
          g.node? name = none ∧ (Draft.ofGraph g).findNode? name = none) := by
  have hnodup := nodup_names_of_read h
  refine ⟨names_of_read h, hnodup, fun name => ⟨fun hname => ?_, fun hname => ?_⟩⟩
  · rw [← mem_names_of_read h] at hname
    obtain ⟨i, n, hi, rfl⟩ := Graph.exists_node_of_mem_names hname
    have hfind := Graph.findIdx?_name hnodup hi
    refine ⟨i, n, hi, rfl, fun j m hj hm => Graph.place_unique hnodup hi hj hm, ?_, ?_⟩
    · rw [Graph.node?_eq, hfind]
      exact hi
    · rw [Draft.findNode?_ofGraph, hfind]
  · rw [← mem_names_of_read h] at hname
    have hfind := Graph.findIdx?_name_eq_none hname
    constructor
    · rw [Graph.node?_eq, hfind]
      rfl
    · rw [Draft.findNode?_ofGraph, hfind]

/-- The subgraph in the chain is read before the statements behind it, and the spellings of `a` and
`b` make one node each. -/
theorem nodes_mentionedEverywhere :
    mentionedEverywhere.intended.names = ["a", "b", "c", "d"] ∧
      mentionedEverywhere.intended.node? "x" = none := by
  have hread : (readBatch .standard [.declaration mentionedEverywhere]).2 =
      .ok [mentionedEverywhere.intended] := readBatch_intended (by decide +kernel)
  obtain ⟨hnames, -, hfind⟩ := nodes_of_read _ _ _ hread
  exact ⟨hnames.trans (by decide +kernel), ((hfind "x").2 (by decide +kernel)).1⟩

end DotSemantics
