import DotSemantics.Proofs.Depiction

/-!
# Slices of a declaration

The attribute statements of a declaration are about the graph, the nodes or the edges.  To drop
those about one of the three, at every depth, is to drop moves from the course:

    course of d without t = moves of the course of d that are not about t     (bodyCourse_without)

and what is left out is missed only where it was meant (`read_without`): defaults for nodes in the
tables of nodes, defaults for edges in those of edges, attributes of the graph in its own.
-/

namespace DotSemantics

/-! ## Dropping statements -/

/-- Whether a statement does nothing but to set attributes for a target. -/
def Statement.isAbout (t : Target) : Statement → Bool
  | .assign _ => t == .graph
  | .attrs u _ => t == u
  | .node _ _ => false
  | .edge _ _ _ => false
  | .subgraph _ _ => false

mutual

/-- A statement without the statements about a target inside it. -/
def Statement.without (t : Target) : Statement → Statement
  | .assign a => .assign a
  | .attrs u lists => .attrs u lists
  | .node id lists => .node id lists
  | .edge source hops lists => .edge (source.without t) (hopsWithout t hops) lists
  | .subgraph name body => .subgraph name (bodyWithout t body)

def Endpoint.without (t : Target) : Endpoint → Endpoint
  | .node id => .node id
  | .subgraph name body => .subgraph name (bodyWithout t body)

def hopsWithout (t : Target) : List Hop → List Hop
  | [] => []
  | .via op target :: rest => .via op (target.without t) :: hopsWithout t rest

/-- A body without the statements about a target, at any depth. -/
def bodyWithout (t : Target) : List Statement → List Statement
  | [] => []
  | s :: rest => if s.isAbout t then bodyWithout t rest else s.without t :: bodyWithout t rest

end

def Declaration.without (t : Target) (d : Declaration) : Declaration :=
  ⟨d.kind, d.name, bodyWithout t d.body⟩

/-! ## Dropping moves -/

namespace Move

def isAbout (t : Target) : Move → Bool
  | assign _ _ => t == .graph
  | nodeDefaults _ => t == .node
  | edgeDefaults _ => t == .edge
  | _ => false

/-- A move, unless it is about a target. -/
def without (t : Target) (m : Move) : List Move := if m.isAbout t then [] else [m]

/-- A move that is about a target gives attributes or defaults, and neither mentions nodes nor makes
edges. -/
theorem cases_of_isAbout {t : Target} {m : Move} (h : m.isAbout t = true) :
    (∃ name value, m = assign name value) ∨ (∃ ps, m = nodeDefaults ps) ∨
      ∃ ps, m = edgeDefaults ps := by
  cases m with
  | assign name value => exact Or.inl ⟨name, value, rfl⟩
  | nodeDefaults ps => exact Or.inr (Or.inl ⟨ps, rfl⟩)
  | edgeDefaults ps => exact Or.inr (Or.inr ⟨ps, rfl⟩)
  | _ => cases h

end Move

section

variable {t : Target} {ms : List Move}

theorem flatMap_without_of_isAbout (h : ∀ m ∈ ms, m.isAbout t = true) :
    ms.flatMap (Move.without t) = [] := by
  rw [List.flatMap_eq_nil_iff]
  intro m hm
  exact if_pos (h m hm)

theorem flatMap_without_of_not_isAbout (h : ∀ m ∈ ms, m.isAbout t = false) :
    ms.flatMap (Move.without t) = ms := by
  calc ms.flatMap (Move.without t)
      = ms.flatMap fun m => [m] := by
        apply List.flatMap_congr
        intro m hm
        unfold Move.without
        rw [h m hm]
        rfl
    _ = ms := List.flatMap_singleton' ms

variable {β : Type} {f : Move → List β}

/-- What the dropped moves do not have a part in stays. -/
theorem flatMap_flatMap_without (h : ∀ m, m.isAbout t = true → f m = []) (ms : List Move) :
    (ms.flatMap (Move.without t)).flatMap f = ms.flatMap f := by
  rw [List.flatMap_assoc]
  apply List.flatMap_congr
  intro m _
  unfold Move.without
  cases hm : m.isAbout t with
  | true => exact (h m hm).symm
  | false => exact List.flatMap_singleton f m

/-- Nothing stays of what only the dropped moves have a part in. -/
theorem flatMap_flatMap_without_eq_nil (h : ∀ m, m.isAbout t = false → f m = []) (ms : List Move) :
    (ms.flatMap (Move.without t)).flatMap f = [] := by
  rw [List.flatMap_assoc, List.flatMap_eq_nil_iff]
  intro m _
  unfold Move.without
  cases hm : m.isAbout t with
  | true => rfl
  | false => exact (List.flatMap_singleton f m).trans (h m hm)

end

theorem courseMentions_without (t : Target) (ms : List Move) :
    courseMentions (ms.flatMap (Move.without t)) = courseMentions ms := by
  apply flatMap_flatMap_without
  intro m hm
  rcases Move.cases_of_isAbout hm with ⟨name, value, rfl⟩ | ⟨ps, rfl⟩ | ⟨ps, rfl⟩ <;> rfl

/-! ## Courses -/

/-- An attribute statement is about its target, and so are all of its moves. -/
theorem isAbout_of_mem_course {t u : Target} {lists : List AttrList} :
    ∀ m ∈ (Statement.attrs u lists).course, m.isAbout t = (t == u) := by
  intro m hm
  cases u with
  | graph =>
    obtain ⟨p, -, rfl⟩ := List.mem_map.1 hm
    rfl
  | node =>
    rw [List.mem_singleton.1 hm]
    rfl
  | edge =>
    rw [List.mem_singleton.1 hm]
    rfl

/-- A statement that is dropped has nothing in its course but moves that are dropped. -/
theorem course_of_isAbout {t : Target} {s : Statement} (h : s.isAbout t = true) :
    s.course.flatMap (Move.without t) = [] := by
  apply flatMap_without_of_isAbout
  intro m hm
  cases s with
  | assign a =>
    rw [List.mem_singleton.1 hm]
    exact h
  | attrs u lists => exact (isAbout_of_mem_course m hm).trans h
  | _ => cases h

/-- An end of an edge stands for the same nodes without moves that mention none. -/
theorem members_of_course_without {t : Target} {e f : Endpoint}
    (h : f.course = e.course.flatMap (Move.without t)) : f.members = e.members := by
  rw [f.members_eq, h, courseMentions_without, ← e.members_eq]

mutual

theorem course_without (t : Target) : ∀ s : Statement, s.isAbout t = false →
    (s.without t).course = s.course.flatMap (Move.without t)
  | .assign a, h => by
    rw [Statement.without, flatMap_without_of_not_isAbout]
    intro m hm
    rw [List.mem_singleton.1 hm]
    exact h
  | .attrs u lists, h => by
    rw [Statement.without, flatMap_without_of_not_isAbout]
    intro m hm
    exact (isAbout_of_mem_course m hm).trans h
  | .node _ _, _ => rfl
  | .edge source hops lists, _ => by
    have hsource := endpoint_course_without t source
    rw [Statement.without, Statement.course, Statement.course, List.flatMap_append, hsource,
      members_of_course_without hsource, hopCourse_without t _ _ hops]
  | .subgraph _ body, _ => by
    rw [Statement.without, Statement.course, Statement.course, bodyCourse_without t body]

theorem endpoint_course_without (t : Target) : ∀ e : Endpoint,
    (e.without t).course = e.course.flatMap (Move.without t)
  | .node _ => rfl
  | .subgraph _ body => by
    rw [Endpoint.without, Endpoint.course, Endpoint.course, bodyCourse_without t body]

theorem hopCourse_without (t : Target) (ps : List (String × String)) (sources : List String) :
    ∀ hops : List Hop,
      hopCourse ps sources (hopsWithout t hops) = (hopCourse ps sources hops).flatMap (Move.without t)
  | [] => rfl
  | .via op target :: rest => by
    have htarget := endpoint_course_without t target
    rw [hopsWithout, hopCourse, hopCourse, List.flatMap_append, List.flatMap_cons, htarget,
      members_of_course_without htarget, hopCourse_without t ps _ rest]
    rfl

theorem bodyCourse_without (t : Target) : ∀ b : List Statement,
    bodyCourse (bodyWithout t b) = (bodyCourse b).flatMap (Move.without t)
  | [] => rfl
  | s :: rest => by
    rw [bodyWithout, bodyCourse, List.flatMap_append]
    cases h : s.isAbout t with
    | true =>
      rw [if_pos rfl, course_of_isAbout h, bodyCourse_without t rest]
      rfl
    | false =>
      rw [if_neg (by simp), bodyCourse, course_without t s h, bodyCourse_without t rest]

end

/-! ## Statements of nodes and origins of edges -/

def Stating.without (t : Target) (s : Stating) : Stating :=
  ⟨s.pairs, s.before.flatMap (Move.without t)⟩

/-- The origin of an edge, with the moves about a target left out before it. -/
def Origin.without (t : Target) (o : Origin) : Origin :=
  ⟨o.link, o.pairs, o.before.flatMap (Move.without t)⟩

/-- What hangs on the moves of a course stays, but for what is missing before them, if the moves
that are left out have no part in it. -/
theorem alongCourse_without {β : Type} {t : Target} {f : List Move → Move → List β} {g : β → β}
    (hnil : ∀ before m, m.isAbout t = true → f before m = [])
    (hbefore : ∀ before m, f (before.flatMap (Move.without t)) m = (f before m).map g)
    (ms : List Move) :
    alongCourse f [] (ms.flatMap (Move.without t)) = (alongCourse f [] ms).map g := by
  refine alongCourse_flatMap (fun before m => ?_) [] ms
  unfold Move.without
  cases hm : m.isAbout t with
  | true =>
    rw [hnil before m hm]
    rfl
  | false =>
    rw [if_neg (by simp), alongCourse, alongCourse, List.append_nil]
    exact hbefore before m

theorem statingsOf_without (t : Target) (name : String) (ms : List Move) :
    statingsOf name [] (ms.flatMap (Move.without t)) =
      (statingsOf name [] ms).map (Stating.without t) := by
  rw [statingsOf_eq_alongCourse, statingsOf_eq_alongCourse]
  apply alongCourse_without
  · intro before m hm
    rcases Move.cases_of_isAbout hm with ⟨name, value, rfl⟩ | ⟨ps, rfl⟩ | ⟨ps, rfl⟩ <;> rfl
  · intro before m
    cases m with
    | node n ps =>
      show (if n = name then _ else _) = List.map _ (if n = name then _ else _)
      split <;> rfl
    | _ => rfl

theorem courseOrigins_without (t : Target) (ms : List Move) :
    courseOrigins [] (ms.flatMap (Move.without t)) =
      (courseOrigins [] ms).map (Origin.without t) := by
  rw [courseOrigins_eq_alongCourse, courseOrigins_eq_alongCourse]
  apply alongCourse_without
  · intro before m hm
    rcases Move.cases_of_isAbout hm with ⟨name, value, rfl⟩ | ⟨ps, rfl⟩ | ⟨ps, rfl⟩ <;> rfl
  · intro before m
    cases m with
    | connect sources op targets ps =>
      show List.map _ _ = List.map _ (List.map _ _)
      rw [List.map_map]
      rfl
    | _ => rfl

theorem nodeDefaultsAfter_without {t : Target} (ht : t ≠ .node) (ms : List Move) :
    nodeDefaultsAfter (ms.flatMap (Move.without t)) = nodeDefaultsAfter ms := by
  unfold nodeDefaultsAfter
  rw [flatMap_flatMap_without]
  intro m hm
  cases m with
  | nodeDefaults ps => exact absurd (beq_iff_eq.1 hm) ht
  | _ => rfl

theorem edgeDefaultsAfter_without {t : Target} (ht : t ≠ .edge) (ms : List Move) :
    edgeDefaultsAfter (ms.flatMap (Move.without t)) = edgeDefaultsAfter ms := by
  unfold edgeDefaultsAfter
  rw [flatMap_flatMap_without]
  intro m hm
  cases m with
  | edgeDefaults ps => exact absurd (beq_iff_eq.1 hm) ht
  | _ => rfl

theorem edgeDefaultsAfter_without_edge (ms : List Move) :
    edgeDefaultsAfter (ms.flatMap (Move.without .edge)) = Table.empty := by
  unfold edgeDefaultsAfter
  rw [flatMap_flatMap_without_eq_nil]
  · rfl
  · intro m hm
    cases m with
    | edgeDefaults ps => cases hm
    | _ => rfl

/-- Of the pairs that the graph is given none is missing unless those are what is left out. -/
theorem pairs_without {t : Target} (ht : t ≠ .graph) (ms : List Move) :
    (ms.flatMap (Move.without t)).flatMap Move.pairs = ms.flatMap Move.pairs := by
  apply flatMap_flatMap_without
  intro m hm
  cases m with
  | assign name value => exact absurd (beq_iff_eq.1 hm) ht
  | _ => rfl

theorem pairs_without_graph (ms : List Move) :
    (ms.flatMap (Move.without .graph)).flatMap Move.pairs = [] := by
  apply flatMap_flatMap_without_eq_nil
  intro m hm
  cases m with
  | assign name value => cases hm
  | _ => rfl

/-! ## Graphs -/

/-- The attributes of an edge but for the defaults: its name, and those that its statement gives. -/
def Origin.givenAttrs (o : Origin) : Table String :=
  ⟨(nameKey, edgeName o.link.source o.link.op o.link.target) ::
    edgeKeys.filterMap fun k => (lastValue? k o.pairs).map fun v => (k, v)⟩

/-- An edge as its ends, its operator and its name. -/
def Edge.bare (e : Edge) : Nat × Nat × EdgeOp × Option String :=
  (e.source, e.target, e.op, e.attrs.get? nameKey)

theorem Origin.attrs_without {t : Target} (ht : t ≠ .edge) (o : Origin) :
    (o.without t).attrs = o.attrs := by
  unfold Origin.attrs Origin.value? Origin.without
  simp only [edgeDefaultsAfter_without ht]

theorem Origin.attrs_without_edge (o : Origin) : (o.without .edge).attrs = o.givenAttrs := by
  have hvalue : ∀ k, (o.without .edge).value? k = lastValue? k o.pairs := by
    intro k
    unfold Origin.value? Origin.without
    rw [edgeDefaultsAfter_without_edge, Table.get?_empty, Option.or_none]
  unfold Origin.attrs Origin.givenAttrs
  simp only [hvalue]
  rfl

namespace Graph

variable (kind : GraphKind) (name : Option String) (ms : List Move)

theorem nodes_ofCourse_without {t : Target} (ht : t ≠ .node) :
    (ofCourse kind name (ms.flatMap (Move.without t))).nodes = (ofCourse kind name ms).nodes := by
  unfold ofCourse
  rw [courseMentions_without]
  apply List.map_congr_left
  intro n _
  rw [statingsOf_without]
  congr 1
  apply statedTable_map
  · exact fun _ _ => rfl
  · intro s k
    unfold Stating.default? Stating.without
    rw [nodeDefaultsAfter_without ht]

theorem names_ofCourse_without (t : Target) :
    (ofCourse kind name (ms.flatMap (Move.without t))).names = (ofCourse kind name ms).names := by
  rw [names_ofCourse, names_ofCourse, courseMentions_without]

theorem edges_ofCourse_without {t : Target} (ht : t ≠ .edge) :
    (ofCourse kind name (ms.flatMap (Move.without t))).edges = (ofCourse kind name ms).edges := by
  unfold ofCourse
  rw [courseMentions_without, courseOrigins_without, List.map_map]
  apply List.map_congr_left
  intro o _
  show Origin.edge _ (o.without t) = o.edge _
  unfold Origin.edge
  rw [Origin.attrs_without ht]
  rfl

theorem bare_edges_ofCourse_without (t : Target) :
    (ofCourse kind name (ms.flatMap (Move.without t))).edges.map Edge.bare =
      (ofCourse kind name ms).edges.map Edge.bare := by
  unfold ofCourse
  rw [courseMentions_without, courseOrigins_without, List.map_map, List.map_map, List.map_map]
  rfl

theorem attrs_edges_ofCourse_without_edge :
    (ofCourse kind name (ms.flatMap (Move.without .edge))).edges.map Edge.attrs =
      (courseOrigins [] ms).map Origin.givenAttrs := by
  unfold ofCourse
  rw [courseOrigins_without, List.map_map, List.map_map]
  apply List.map_congr_left
  intro o _
  exact o.attrs_without_edge

theorem attrs_ofCourse_without {t : Target} (ht : t ≠ .graph) :
    (ofCourse kind name (ms.flatMap (Move.without t))).attrs = (ofCourse kind name ms).attrs := by
  unfold ofCourse
  rw [pairs_without ht]

end Graph

/-! ## Main theorem -/

/-- What the statements about one target do, they do for that target alone.  Without those about
nodes, a declaration comes to the same but for the tables of the nodes; without those about edges,
to the same but that edges have no more attributes than they are given; and without those about the
graph, it is read in any case, to a graph of its heading with the same nodes and edges. -/
theorem read_without (ls : Layouts) (d : Declaration) :
    SameOutcome (fun g h => h.attrs = g.attrs ∧ h.names = g.names ∧ h.edges = g.edges)
        (readBatch ls [.declaration d]).2 (readBatch ls [.declaration (d.without .node)]).2 ∧
      SameOutcome (fun g h => h.attrs = g.attrs ∧ h.nodes = g.nodes ∧
          h.edges.map Edge.bare = g.edges.map Edge.bare ∧
          h.edges.map Edge.attrs = (courseOrigins [] (bodyCourse d.body)).map Origin.givenAttrs)
        (readBatch ls [.declaration d]).2 (readBatch ls [.declaration (d.without .edge)]).2 ∧
      ∃ h, (readBatch ls [.declaration (d.without .graph)]).2 = .ok [h] ∧
        h.attrs = Walk.heading d.kind d.graphName ∧
        ∀ g, (readBatch ls [.declaration d]).2 = .ok [g] → h.nodes = g.nodes ∧ h.edges = g.edges := by
  have hcourse : ∀ t, (readBatch ls [.declaration (d.without t)]).2 =
      courseOutcome ls d.kind d.graphName ((bodyCourse d.body).flatMap (Move.without t)) := by
    intro t
    rw [readBatch_eq_courseOutcome, ← bodyCourse_without]
    rfl
  rw [hcourse, hcourse, hcourse, readBatch_eq_courseOutcome]
  refine ⟨?_, ?_, ?_⟩
  · exact sameOutcome_of_pairs_eq (pairs_without (by decide) _)
      ⟨Graph.attrs_ofCourse_without _ _ _ (by decide), Graph.names_ofCourse_without _ _ _ _,
        Graph.edges_ofCourse_without _ _ _ (by decide)⟩ ls
  · exact sameOutcome_of_pairs_eq (pairs_without (by decide) _)
      ⟨Graph.attrs_ofCourse_without _ _ _ (by decide),
        Graph.nodes_ofCourse_without _ _ _ (by decide),
        Graph.bare_edges_ofCourse_without _ _ _ _, Graph.attrs_edges_ofCourse_without_edge _ _ _⟩ ls
  · refine ⟨Graph.ofCourse d.kind d.graphName ((bodyCourse d.body).flatMap (Move.without .graph)),
      ?_, ?_, fun g hg => ?_⟩
    · unfold courseOutcome
      rw [pairs_without_graph]
      rfl
    · unfold Graph.ofCourse
      rw [pairs_without_graph]
      rfl
    · rw [eq_ofCourse_of_courseOutcome hg]
      exact ⟨Graph.nodes_ofCourse_without _ _ _ (by decide),
        Graph.edges_ofCourse_without _ _ _ (by decide)⟩

/-- The hops of the chain keep their label, and lose both styles that were in force. -/
example : (chainOverSubgraph.without .edge).intended.edges.map Edge.attrs =
    [⟨[(nameKey, "c--b")]⟩,
     ⟨[(nameKey, "a->b"), ("label", "x")]⟩,
     ⟨[(nameKey, "a->c"), ("label", "x")]⟩,
     ⟨[(nameKey, "b--a"), ("label", "x")]⟩,
     ⟨[(nameKey, "c--a"), ("label", "x")]⟩] := by decide +kernel

end DotSemantics
