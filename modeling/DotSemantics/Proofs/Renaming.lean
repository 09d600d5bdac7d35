import DotSemantics.Proofs.Alike
import DotSemantics.Proofs.Depiction
import Mathlib.Data.List.Nodup
import Mathlib.Logic.Equiv.Basic

/-!
# Renaming nodes

Nodes are told apart by what their names mean, and by nothing else.  To put other names for those of
a declaration (`Declaration.rename`) is to rename the nodes of its course, as long as different
names stay different:

    course of d.rename r = course of d, move by move renamed     (bodyCourse_rename)

So the declaration comes to what it came to before, but that the nodes are renamed, and the edges
after them (`Graph.rename`, `read_rename`).
-/

namespace DotSemantics

/-! ## Declarations -/

/-- The quoted form of the name that is put for what a word means. -/
def Word.rename (r : String → String) (w : Word) : Word := .ofMeant (r w.meant)

theorem Word.meant_rename (r : String → String) (w : Word) : (w.rename r).meant = r w.meant :=
  meant_ofMeant _

mutual

/-- A statement with other names for nodes. -/
def Statement.rename (r : String → String) : Statement → Statement
  | .assign a => .assign a
  | .attrs t lists => .attrs t lists
  | .node id lists => .node (id.rename r) lists
  | .edge source hops lists => .edge (source.rename r) (renameHops r hops) lists
  | .subgraph name body => .subgraph name (renameBody r body)

def Endpoint.rename (r : String → String) : Endpoint → Endpoint
  | .node id => .node (id.rename r)
  | .subgraph name body => .subgraph name (renameBody r body)

def renameHops (r : String → String) : List Hop → List Hop
  | [] => []
  | .via op target :: rest => .via op (target.rename r) :: renameHops r rest

def renameBody (r : String → String) : List Statement → List Statement
  | [] => []
  | s :: rest => s.rename r :: renameBody r rest

end

def Declaration.rename (r : String → String) (d : Declaration) : Declaration :=
  ⟨d.kind, d.name, renameBody r d.body⟩

/-! ## Graphs -/

/-- Changes the value at a name, if it is there. -/
def Table.alter {α : Type} (t : Table α) (k : String) (f : α → α) : Table α :=
  ⟨t.entries.map fun e => if e.1 = k then (e.1, f e.2) else e⟩

def Node.rename (r : String → String) (n : Node) : Node := ⟨r n.name, n.attrs.alter nameKey r⟩

/-- An edge that is named after its ends among some nodes. -/
def Edge.named (ns : List Node) (e : Edge) : Edge :=
  { e with attrs := e.attrs.alter nameKey fun _ =>
      edgeName (nameAt ns e.source) e.op (nameAt ns e.target) }

/-- A graph with other names for its nodes, and with its edges named after them. -/
def Graph.rename (r : String → String) (g : Graph) : Graph where
  attrs := g.attrs
  nodes := g.nodes.map (Node.rename r)
  edges := g.edges.map (Edge.named (g.nodes.map (Node.rename r)))

/-! ## Courses -/

def Link.rename (r : String → String) (l : Link) : Link := ⟨r l.source, l.op, r l.target⟩

def Move.rename (r : String → String) : Move → Move
  | assign name value => assign name value
  | nodeDefaults ps => nodeDefaults ps
  | edgeDefaults ps => edgeDefaults ps
  | node name ps => node (r name) ps
  | mention name => mention (r name)
  | connect sources op targets ps => connect (sources.map r) op (targets.map r) ps

theorem flatMap_rename {β : Type} {r : String → String} {f : Move → List β}
    (h : ∀ m, f (m.rename r) = f m) (ms : List Move) :
    (ms.map (Move.rename r)).flatMap f = ms.flatMap f := by
  rw [List.flatMap_map]
  exact List.flatMap_congr fun m _ => h m

theorem courseMentions_rename (r : String → String) (ms : List Move) :
    courseMentions (ms.map (Move.rename r)) = (courseMentions ms).map r := by
  unfold courseMentions
  rw [List.flatMap_map, List.map_flatMap]
  apply List.flatMap_congr
  intro m _
  cases m <;> rfl

section

variable {r : String → String} (hr : Function.Injective r)

include hr

theorem addNew_map (s : String) (l : List String) :
    addNew (r s) (l.map r) = (addNew s l).map r := by
  unfold addNew
  simp only [List.contains_iff_mem, List.mem_map_of_injective hr]
  split
  · rfl
  · rw [List.map_append]
    rfl

theorem addAllNew_map (ss l : List String) :
    addAllNew (ss.map r) (l.map r) = (addAllNew ss l).map r := by
  induction ss generalizing l with
  | nil => rfl
  | cons s ss ih =>
    show addAllNew (ss.map r) (addNew (r s) (l.map r)) = _
    rw [addNew_map hr, ih]
    rfl

/-- Names that stay different have their first occurrences at the same places. -/
theorem distinct_map (ss : List String) : distinct (ss.map r) = (distinct ss).map r :=
  addAllNew_map hr ss []

theorem members_of_course_rename {e f : Endpoint}
    (h : f.course = e.course.map (Move.rename r)) : f.members = e.members.map r := by
  rw [f.members_eq, h, courseMentions_rename, distinct_map hr, ← e.members_eq]

end

mutual

theorem course_rename {r : String → String} (hr : Function.Injective r) :
    ∀ s : Statement, (s.rename r).course = s.course.map (Move.rename r)
  | .assign _ => rfl
  | .attrs .graph lists => by
    rw [Statement.rename, Statement.course, List.map_map]
    rfl
  | .attrs .node _ => rfl
  | .attrs .edge _ => rfl
  | .node id lists => by
    rw [Statement.rename, Statement.course, Word.meant_rename]
    rfl
  | .edge source hops lists => by
    have hsource := endpoint_course_rename hr source
    rw [Statement.rename, Statement.course, Statement.course, List.map_append, hsource,
      members_of_course_rename hr hsource, hopCourse_rename hr _ _ hops]
  | .subgraph _ body => bodyCourse_rename hr body

theorem endpoint_course_rename {r : String → String} (hr : Function.Injective r) :
    ∀ e : Endpoint, (e.rename r).course = e.course.map (Move.rename r)
  | .node id => by
    rw [Endpoint.rename, Endpoint.course, Word.meant_rename]
    rfl
  | .subgraph _ body => bodyCourse_rename hr body

theorem hopCourse_rename {r : String → String} (hr : Function.Injective r)
    (ps : List (String × String)) (sources : List String) :
    ∀ hops : List Hop, hopCourse ps (sources.map r) (renameHops r hops) =
      (hopCourse ps sources hops).map (Move.rename r)
  | [] => rfl
  | .via op target :: rest => by
    have htarget := endpoint_course_rename hr target
    rw [renameHops, hopCourse, hopCourse, List.map_append, List.map_cons, htarget,
      members_of_course_rename hr htarget, hopCourse_rename hr ps _ rest]
    rfl

theorem bodyCourse_rename {r : String → String} (hr : Function.Injective r) :
    ∀ b : List Statement, bodyCourse (renameBody r b) = (bodyCourse b).map (Move.rename r)
  | [] => rfl
  | s :: rest => by
    rw [renameBody, bodyCourse, bodyCourse, List.map_append, course_rename hr s,
      bodyCourse_rename hr rest]

end

/-! ## Statements of nodes and origins of edges -/

def Stating.rename (r : String → String) (s : Stating) : Stating :=
  ⟨s.pairs, s.before.map (Move.rename r)⟩

/-- The origin of an edge, with other names for nodes in it and before it. -/
def Origin.rename (r : String → String) (o : Origin) : Origin :=
  ⟨o.link.rename r, o.pairs, o.before.map (Move.rename r)⟩

theorem alongCourse_rename {β γ : Type} {r : String → String} {g : β → γ}
    {f : List Move → Move → List β} {f' : List Move → Move → List γ}
    (h : ∀ before m, f' (before.map (Move.rename r)) (m.rename r) = (f before m).map g)
    (ms : List Move) :
    alongCourse f' [] (ms.map (Move.rename r)) = (alongCourse f [] ms).map g := by
  rw [List.map_eq_flatMap]
  refine alongCourse_flatMap (fun before m => ?_) [] ms
  rw [alongCourse, alongCourse, List.append_nil, ← List.map_eq_flatMap]
  exact h before m

theorem statingsOf_rename {r : String → String} (hr : Function.Injective r) (name : String)
    (ms : List Move) :
    statingsOf (r name) [] (ms.map (Move.rename r)) =
      (statingsOf name [] ms).map (Stating.rename r) := by
  rw [statingsOf_eq_alongCourse, statingsOf_eq_alongCourse]
  apply alongCourse_rename
  intro before m
  cases m with
  | node n ps =>
    show (if r n = r name then _ else _) = List.map _ (if n = name then _ else _)
    simp only [hr.eq_iff]
    split <;> rfl
  | _ => rfl

theorem linksBetween_map (r : String → String) (sources : List String) (op : EdgeOp)
    (targets : List String) :
    linksBetween (sources.map r) op (targets.map r) =
      (linksBetween sources op targets).map (Link.rename r) := by
  unfold linksBetween
  rw [List.flatMap_map, List.map_flatMap]
  apply List.flatMap_congr
  intro s _
  rw [List.map_map, List.map_map]
  rfl

theorem courseOrigins_rename (r : String → String) (ms : List Move) :
    courseOrigins [] (ms.map (Move.rename r)) = (courseOrigins [] ms).map (Origin.rename r) := by
  rw [courseOrigins_eq_alongCourse, courseOrigins_eq_alongCourse]
  apply alongCourse_rename
  intro before m
  cases m with
  | connect sources op targets ps =>
    show (linksBetween (sources.map r) op (targets.map r)).map _ = List.map _ (List.map _ _)
    rw [linksBetween_map, List.map_map, List.map_map]
    rfl
  | _ => rfl

theorem nodeDefaultsAfter_rename (r : String → String) (ms : List Move) :
    nodeDefaultsAfter (ms.map (Move.rename r)) = nodeDefaultsAfter ms := by
  unfold nodeDefaultsAfter
  rw [flatMap_rename]
  intro m
  cases m <;> rfl

theorem edgeDefaultsAfter_rename (r : String → String) (ms : List Move) :
    edgeDefaultsAfter (ms.map (Move.rename r)) = edgeDefaultsAfter ms := by
  unfold edgeDefaultsAfter
  rw [flatMap_rename]
  intro m
  cases m <;> rfl

theorem pairs_rename (r : String → String) (ms : List Move) :
    (ms.map (Move.rename r)).flatMap Move.pairs = ms.flatMap Move.pairs := by
  apply flatMap_rename
  intro m
  cases m <;> rfl

/-! ## Graphs of courses -/

/-- A name that stands first in a table, and nowhere else, has its value changed there. -/
theorem Table.alter_cons {α : Type} {k : String} {rest : List (String × α)}
    (h : k ∉ rest.map Prod.fst) (v : α) (f : α → α) :
    (⟨(k, v) :: rest⟩ : Table α).alter k f = ⟨(k, f v) :: rest⟩ := by
  have hrest : rest.map (fun e => if e.1 = k then (e.1, f e.2) else e) = rest := by
    conv_rhs => rw [← List.map_id rest]
    apply List.map_congr_left
    intro e he
    apply if_neg
    rintro rfl
    exact h (List.mem_map_of_mem he)
  unfold alter
  rw [List.map_cons, if_pos rfl, hrest]

theorem alter_statedTable (name : String) (ss : List Stating) (r : String → String) :
    (statedTable name ss).alter nameKey r = statedTable (r name) ss :=
  Table.alter_cons (notMem_keys_filterMap (nameKey_notMem_statedKeys ss)) name r

theorem Origin.alter_attrs (o : Origin) (name : String) :
    o.attrs.alter nameKey (fun _ => name) =
      ⟨(nameKey, name) :: edgeKeys.filterMap fun k => (o.value? k).map fun v => (k, v)⟩ :=
  Table.alter_cons (notMem_keys_filterMap (by decide)) _ _

theorem Origin.value?_rename (r : String → String) (o : Origin) (key : String) :
    (o.rename r).value? key = o.value? key := by
  unfold value? Origin.rename
  rw [edgeDefaultsAfter_rename]

/-- The ends of the edges that a grounded course makes are nodes that it mentions. -/
theorem ends_of_mem_courseOrigins {ms : List Move} (hg : Grounded [] ms) {o : Origin}
    (ho : o ∈ courseOrigins [] ms) :
    o.link.source ∈ distinct (courseMentions ms) ∧
      o.link.target ∈ distinct (courseMentions ms) := by
  have hstart := Walk.sound_start .graph none []
  have hdescribed := hstart.described_run (Walk.hasDefaults_start .graph none []) hg
  have hmem : o.described ∈ (run ms (Walk.start .graph none [])).edges.map
      (Edge.described (run ms (Walk.start .graph none [])).names) := by
    rw [hdescribed]
    exact List.mem_map_of_mem ho
  rw [(hstart.run hg).2] at hmem
  obtain ⟨e, -, he⟩ := List.mem_map.1 hmem
  obtain ⟨s, hs, hlink⟩ := Option.bind_eq_some_iff.1 (congrArg Prod.fst he)
  obtain ⟨t, ht, hlink⟩ := Option.bind_eq_some_iff.1 hlink
  rw [← Option.some.inj hlink]
  exact ⟨List.mem_of_getElem? hs, List.mem_of_getElem? ht⟩

namespace Graph

variable {r : String → String} (hr : Function.Injective r) (kind : GraphKind)
  (name : Option String)

include hr

theorem nodes_ofCourse_rename (ms : List Move) :
    (ofCourse kind name (ms.map (Move.rename r))).nodes =
      (ofCourse kind name ms).nodes.map (Node.rename r) := by
  unfold ofCourse
  rw [courseMentions_rename, distinct_map hr, List.map_map, List.map_map]
  apply List.map_congr_left
  intro n _
  have htable : statedTable (r n) (statingsOf (r n) [] (ms.map (Move.rename r))) =
      (statedTable n (statingsOf n [] ms)).alter nameKey r := by
    rw [statingsOf_rename hr, alter_statedTable]
    apply statedTable_map
    · exact fun _ _ => rfl
    · intro s k
      unfold Stating.default? Stating.rename
      rw [nodeDefaultsAfter_rename]
  exact congrArg (Node.mk (r n)) htable

theorem place_ofCourse_rename {ms : List Move} {n : String}
    (hn : n ∈ distinct (courseMentions ms)) :
    ((distinct (courseMentions ms)).map r).idxOf (r n) = (distinct (courseMentions ms)).idxOf n ∧
      nameAt ((ofCourse kind name ms).nodes.map (Node.rename r))
        ((distinct (courseMentions ms)).idxOf n) = r n := by
  have hplace := getElem?_idxOf hn
  constructor
  · apply idxOf_of_getElem?
    · exact List.Nodup.map hr (nodup_distinct _)
    · rw [List.getElem?_map, hplace]
      rfl
  · have hnames : ((ofCourse kind name ms).nodes.map (Node.rename r)).map Node.name =
        (distinct (courseMentions ms)).map r := by
      rw [← names_ofCourse kind name ms, List.map_map, names, List.map_map]
      rfl
    unfold nameAt
    rw [← List.getElem?_map, hnames, List.getElem?_map, hplace]
    rfl

theorem edges_ofCourse_rename {ms : List Move} (hg : Grounded [] ms) :
    (ofCourse kind name (ms.map (Move.rename r))).edges =
      (ofCourse kind name ms).edges.map
        (Edge.named ((ofCourse kind name ms).nodes.map (Node.rename r))) := by
  show (courseOrigins [] (ms.map (Move.rename r))).map _ =
    ((courseOrigins [] ms).map (Origin.edge (distinct (courseMentions ms)))).map _
  rw [courseMentions_rename, distinct_map hr, courseOrigins_rename, List.map_map, List.map_map]
  apply List.map_congr_left
  intro o ho
  obtain ⟨hs, ht⟩ := ends_of_mem_courseOrigins hg ho
  obtain ⟨hsplace, hsname⟩ := place_ofCourse_rename hr kind name hs
  obtain ⟨htplace, htname⟩ := place_ofCourse_rename hr kind name ht
  show (o.rename r).edge _ = (o.edge _).named _
  unfold Origin.edge Edge.named
  dsimp only
  rw [hsname, htname, Origin.alter_attrs]
  unfold Origin.attrs
  simp only [Origin.value?_rename]
  unfold Origin.rename Link.rename
  dsimp only
  rw [hsplace, htplace]

theorem ofCourse_rename {ms : List Move} (hg : Grounded [] ms) :
    ofCourse kind name (ms.map (Move.rename r)) = (ofCourse kind name ms).rename r := by
  have hattrs : (ofCourse kind name (ms.map (Move.rename r))).attrs =
      (ofCourse kind name ms).attrs := by
    unfold ofCourse
    rw [pairs_rename]
  have hnodes := nodes_ofCourse_rename hr kind name ms
  have hedges := edges_ofCourse_rename hr kind name hg
  unfold Graph.rename
  rw [← hedges, ← hnodes, ← hattrs]

end Graph

/-! ## Main theorem -/

/-- The chain of `chainOverSubgraph` with `a` and `b` exchanged, and with other words for the same
texts:

    digraph { edge [style=bold];
      "b" -> { "a"; edge [style=dotted]; "c" -- a } -- b [label=x] } -/
def chainExchanged : Declaration where
  kind := .digraph
  name := none
  body := [
    .attrs .edge [⟨[⟨.text "style", .text "bold"⟩]⟩],
    .edge (.node (.text "\"b\""))
      [.via .directed (.subgraph none [
        .node (.text "\"a\"") [],
        .attrs .edge [⟨[⟨.text "style", .text "dotted"⟩]⟩],
        .edge (.node (.text "\"c\"")) [.via .undirected (.node (.text "a"))] []]),
       .via .undirected (.node (.text "b"))]
      [⟨[⟨.text "label", .text "x"⟩]⟩]]

/-- A declaration in which other names stand for nodes, however they are spelled, comes to the same
graph with its nodes renamed, or to the same failure, if names that differed still differ. -/
theorem read_rename (ls : Layouts) {r : String → String} (hr : Function.Injective r)
    (d e : Declaration) (h : (d.rename r).Alike e) :
    SameOutcome (fun g g' => g' = g.rename r)
      (readBatch ls [.declaration d]).2 (readBatch ls [.declaration e]).2 := by
  have hcourse : bodyCourse e.body = (bodyCourse d.body).map (Move.rename r) :=
    (bodyCourse_eq_of_alike h.body).symm.trans (bodyCourse_rename hr d.body)
  have hkind : e.kind = d.kind := h.kind.symm
  have hname : e.graphName = d.graphName := (Declaration.graphName_eq_of_alike h).symm
  rw [readBatch_eq_courseOutcome, readBatch_eq_courseOutcome, hcourse, hkind, hname]
  exact sameOutcome_of_pairs_eq (pairs_rename r _)
    (Graph.ofCourse_rename hr d.kind d.graphName (grounded_body d.body [])) ls

/-- The edges are between the same places as before, and named after the nodes that are there
now. -/
theorem read_chainExchanged :
    ∃ g, (readBatch .standard [.declaration chainExchanged]).2 = .ok [g] ∧
      g = chainOverSubgraph.intended.rename (Equiv.swap "a" "b") ∧
      g.names = ["b", "a", "c"] ∧
      g.edges.map (fun e => e.attrs.get? nameKey) =
        [some "c--a", some "b->a", some "b->c", some "a--b", some "c--b"] := by
  have halike : (chainOverSubgraph.rename (Equiv.swap "a" "b")).Alike chainExchanged :=
    ⟨rfl, .none,
      .cons (.attrs (.cons (.cons ⟨rfl, rfl⟩ .nil) .nil))
        (.cons (.edge (.node (by decide +kernel))
          (.cons (.subgraph
            (.cons (.node (by decide +kernel) .nil)
              (.cons (.attrs (.cons (.cons ⟨rfl, rfl⟩ .nil) .nil))
                (.cons (.edge (.node (by decide +kernel))
                  (.cons (.node (by decide +kernel)) .nil) .nil) .nil))))
            (.cons (.node (by decide +kernel)) .nil))
          (.cons (.cons ⟨rfl, by decide +kernel⟩ .nil) .nil)) .nil)⟩
  have hsame := read_rename .standard (Equiv.swap "a" "b").injective chainOverSubgraph
    chainExchanged halike
  rw [readBatch_chainOverSubgraph] at hsame
  generalize (readBatch .standard [.declaration chainExchanged]).2 = outcome at hsame ⊢
  cases hsame with
  | read hs =>
    obtain ⟨g, rest, hg, hrest, rfl⟩ := List.forall₂_cons_left_iff.1 hs
    cases hrest
    subst hg
    exact ⟨_, rfl, rfl, by decide +kernel, by decide +kernel⟩

end DotSemantics
