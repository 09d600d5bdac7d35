import DotSemantics.Declaration.Meant
import DotSemantics.Meaning

/-!
# Graphs written out flat

A graph as a declaration without defaults, subgraphs and chains: its attributes, then each node
alone and once more for each of its attributes, then each edge on its own with its attributes.
All texts are quoted.
-/

namespace DotSemantics

/-- The word that means a text. -/
def Word.ofMeant (s : String) : Word := .text (Text.quote s)

def Attribute.ofPair (p : String × String) : Attribute := ⟨.ofMeant p.1, .ofMeant p.2⟩

/-- The entries of a table that an attribute list can set. -/
def settable (t : Table String) : List (String × String) :=
  t.entries.filter fun e => !metaKeys.contains e.1

/-- A node, stated alone and then once for each attribute. -/
def Node.flat (n : Node) : List Statement :=
  .node (.ofMeant n.name) [] ::
    (settable n.attrs).map fun p => .node (.ofMeant n.name) [⟨[.ofPair p]⟩]

/-- An edge between some nodes, stated alone. -/
def Edge.flat (ns : List Node) (e : Edge) : Statement :=
  .edge (.node (.ofMeant (nameAt ns e.source))) [.via e.op (.node (.ofMeant (nameAt ns e.target)))]
    [⟨(settable e.attrs).map Attribute.ofPair⟩]

/-- The flat declaration of a graph of a given kind. -/
def Graph.flat (kind : GraphKind) (g : Graph) : Declaration :=
  { kind
    name := g.name?.map Word.ofMeant
    body := (settable g.attrs).map (fun p => .assign (.ofPair p)) ++
      g.nodes.flatMap Node.flat ++ g.edges.map (Edge.flat g.nodes) }

/-! ## Lemmas -/

@[simp] theorem Word.meant_ofMeant (s : String) : (ofMeant s).meant = s := Text.unquote_quote s

theorem Attribute.pair_ofPair (p : String × String) : (ofPair p).pair = p := by
  simp [pair, ofPair]

/-- The quoted attributes of some pairs mean the pairs. -/
theorem pairsOf_ofPair (ps : List (String × String)) :
    pairsOf [⟨ps.map Attribute.ofPair⟩] = ps := by
  simp [pairsOf, Function.comp_def, Attribute.pair_ofPair]

end DotSemantics
