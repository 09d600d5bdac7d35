import DotSemantics.Proofs.NodeAttributes
import DotSemantics.Proofs.Refusals

/-!
# The graph of a course

A graph that is read can be told from the course of its declaration alone, without a walk
(`Graph.ofCourse`): its table from the pairs that the course assigns, its nodes from the names that
it mentions and the statements of each, its edges from their origins.

    outcome of reading d = courseOutcome of the course of d          (readBatch_eq_courseOutcome)

So declarations are compared by their courses.  Where a course is translated move by move, what
hangs on the moves before a point is translated with it (`alongCourse_flatMap`).
-/

namespace DotSemantics

/-! ## Tables by their keys -/

/-- Where no name occurs twice, the entries are the names with their values. -/
theorem entries_eq_filterMap {α : Type} {l : List (String × α)} (h : (l.map Prod.fst).Nodup) :
    l = (l.map Prod.fst).filterMap fun k => (entryAt? k l).map fun v => (k, v) := by
  induction l with
  | nil => rfl
  | cons e l ih =>
    rw [List.map_cons, List.nodup_cons] at h
    have hrest : (l.map Prod.fst).filterMap (fun k => (entryAt? k (e :: l)).map fun v => (k, v)) =
        (l.map Prod.fst).filterMap fun k => (entryAt? k l).map fun v => (k, v) := by
      apply List.filterMap_congr
      intro k hk
      have hne : e.1 ≠ k := fun he => h.1 (he ▸ hk)
      rw [entryAt?, if_neg hne]
    rw [List.map_cons, List.filterMap_cons, hrest, ← ih h.2, entryAt?, if_pos rfl]
    rfl

/-- A table is made of its keys and their values. -/
theorem Table.eq_of_nodup {α : Type} {t : Table α} (h : t.Nodup) :
    t = ⟨t.keys.filterMap fun k => (t.get? k).map fun v => (k, v)⟩ :=
  congrArg Table.mk (entries_eq_filterMap h)

/-! ## Nodes -/

/-- The attributes of a node that some statements fix. -/
def statedTable (name : String) (ss : List Stating) : Table String :=
  ⟨(nameKey, name) :: (statedKeys ss).filterMap fun k => (statedValue? ss k).map fun v => (k, v)⟩

/-- Of a statement only the values that it gives and the defaults that it finds count. -/
theorem statedTable_map {τ : Stating → Stating} (hvalue : ∀ s k, (τ s).value? k = s.value? k)
    (hdefault : ∀ s k, (τ s).default? k = s.default? k) (name : String) (ss : List Stating) :
    statedTable name (ss.map τ) = statedTable name ss := by
  have hkeys : statedKeys (ss.map τ) = statedKeys ss := by
    unfold statedKeys Stating.present
    rw [List.flatMap_map]
    simp only [hvalue, hdefault]
  have hstated : ∀ k, statedValue? (ss.map τ) k = statedValue? ss k := by
    intro k
    unfold statedValue? givenValue?
    rw [← List.map_reverse, List.findSome?_map, List.getLast?_map, Option.bind_map]
    simp only [Function.comp_def, hvalue, hdefault]
  unfold statedTable
  rw [hkeys]
  simp only [hstated]

/-- A record that reflects some statements has the attributes that they fix. -/
theorem NodeRecord.Reflects.attrs_eq {r : NodeRecord} {name : String} {ss : List Stating}
    (h : r.Reflects name ss) : r.attrs = statedTable name ss := by
  have hvalues : (statedKeys ss).filterMap (fun k => (r.attrs.get? k).map fun v => (k, v)) =
      (statedKeys ss).filterMap fun k => (statedValue? ss k).map fun v => (k, v) := by
    apply List.filterMap_congr
    intro k hk
    rw [h.value k (mem_nodeKeys_of_mem_statedKeys hk)]
  rw [Table.eq_of_nodup h.nodup, h.keys, List.filterMap_cons, h.name, hvalues]
  rfl

/-! ## Edges -/

/-- The edge of an origin, between nodes in the order of their names. -/
def Origin.edge (names : List String) (o : Origin) : Edge :=
  ⟨names.idxOf o.link.source, names.idxOf o.link.target, o.link.op, o.attrs⟩

theorem idxOf_of_getElem? {l : List String} (h : l.Nodup) {i : Nat} {s : String}
    (hi : l[i]? = some s) : l.idxOf s = i := by
  have hmem : s ∈ l := List.mem_of_getElem? hi
  apply (List.getElem?_inj (List.idxOf_lt_length_iff.2 hmem) h).1
  rw [getElem?_idxOf hmem, hi]

/-- An edge that is described by an origin is the edge of the origin, if names are unique. -/
theorem Origin.edge_of_described {names : List String} (h : names.Nodup) {e : Edge} {o : Origin}
    (he : e.described names = o.described) : e = o.edge names := by
  obtain ⟨source, target, op, attrs⟩ := e
  obtain ⟨hlink, rfl⟩ := Prod.mk.inj he
  obtain ⟨s, hs, hlink⟩ := Option.bind_eq_some_iff.1 hlink
  obtain ⟨t, ht, hlink⟩ := Option.bind_eq_some_iff.1 hlink
  unfold Origin.edge
  rw [← Option.some.inj hlink, idxOf_of_getElem? h hs, idxOf_of_getElem? h ht]

theorem map_edge_of_described {names : List String} (h : names.Nodup) {es : List Edge}
    {os : List Origin} (hes : es.map (Edge.described names) = os.map Origin.described) :
    es = os.map (Origin.edge names) := by
  induction os generalizing es with
  | nil => simpa using hes
  | cons o os ih =>
    cases es with
    | nil => cases hes
    | cons e es =>
      obtain ⟨he, hrest⟩ := List.cons.inj hes
      rw [List.map_cons, Origin.edge_of_described h he, ← ih hrest]

/-! ## Graphs -/

/-- The graph of a course, under a heading. -/
def Graph.ofCourse (kind : GraphKind) (name : Option String) (ms : List Move) : Graph where
  attrs := (Walk.heading kind name).putAll ((ms.flatMap Move.pairs).filterMap graphEntry?)
  nodes := (distinct (courseMentions ms)).map fun n => ⟨n, statedTable n (statingsOf n [] ms)⟩
  edges := (courseOrigins [] ms).map (Origin.edge (distinct (courseMentions ms)))

theorem Graph.names_ofCourse (kind : GraphKind) (name : Option String) (ms : List Move) :
    (ofCourse kind name ms).names = distinct (courseMentions ms) := by
  show ((distinct (courseMentions ms)).map _).map Node.name = _
  rw [List.map_map]
  exact List.map_id _

/-- A grounded course leads to its graph. -/
theorem graph_run_start {ms : List Move} (hg : Grounded [] ms) (kind : GraphKind)
    (name : Option String) (log : List LogEntry) :
    (run ms (Walk.start kind name log)).graph = Graph.ofCourse kind name ms := by
  have hstart := Walk.sound_start kind name log
  have hdefaults := Walk.hasDefaults_start kind name log
  obtain ⟨hsound, hnames⟩ := hstart.run hg
  have hattrs : (run ms (Walk.start kind name log)).attrs =
      (Graph.ofCourse kind name ms).attrs := by
    rw [Walk.attrs_run, assigned_eq_filterMap_pairs]
    rfl
  have hnodes : (run ms (Walk.start kind name log)).nodes =
      (Graph.ofCourse kind name ms).nodes := by
    calc (run ms (Walk.start kind name log)).nodes
        = (run ms (Walk.start kind name log)).nodes.map fun n =>
            ⟨n.name, statedTable n.name (statingsOf n.name [] ms)⟩ := by
          rw [List.map_congr_left fun n hn => ?_, List.map_id]
          obtain ⟨r, hr, hreflects⟩ := Walk.exists_reflects_of_mem hg hn
          rw [← hreflects.attrs_eq, hr]
          rfl
      _ = (run ms (Walk.start kind name log)).names.map fun n =>
            ⟨n, statedTable n (statingsOf n [] ms)⟩ := by
          unfold Walk.names
          rw [List.map_map]
          rfl
      _ = (Graph.ofCourse kind name ms).nodes := by
          rw [hnames]
          rfl
  have hedges : (run ms (Walk.start kind name log)).edges =
      (Graph.ofCourse kind name ms).edges := by
    have hdescribed := hstart.described_run hdefaults hg
    have hnodup := hsound.nodup
    rw [hnames] at hdescribed hnodup
    exact map_edge_of_described hnodup hdescribed
  unfold Walk.graph
  rw [hattrs, hnodes, hedges]

/-! ## Outcomes -/

/-- What reading a single declaration comes to, told from its heading and its course. -/
def courseOutcome (ls : Layouts) (kind : GraphKind) (name : Option String) (ms : List Move) :
    Except BatchFailure (List Graph) :=
  match ((ms.flatMap Move.pairs).filterMap layoutOf?).find? fun l => !ls.allows l with
  | some l => .error (.unknownLayout l ⟨0, name⟩)
  | none => .ok [Graph.ofCourse kind name ms]

theorem readBatch_eq_courseOutcome (ls : Layouts) (d : Declaration) :
    (readBatch ls [.declaration d]).2 = courseOutcome ls d.kind d.graphName (bodyCourse d.body) := by
  have hrefused : d.refused? ls = (((bodyCourse d.body).flatMap Move.pairs).filterMap layoutOf?).find?
      fun l => !ls.allows l := by
    rw [pairs_bodyCourse]
    rfl
  unfold courseOutcome
  rw [← hrefused, ← graph_run_start (grounded_body d.body []) d.kind d.graphName (d.heading 0)]
  have hempty : (readBatch ls []).2 = .ok [] := rfl
  cases hl : d.refused? ls with
  | some l => exact readBatch_of_refused hempty hl []
  | none => exact (readBatch_singleton ls d _).2 (Declaration.read_of_not_refused hl 0)

theorem eq_ofCourse_of_courseOutcome {ls : Layouts} {kind : GraphKind} {name : Option String}
    {ms : List Move} {g : Graph} (h : courseOutcome ls kind name ms = .ok [g]) :
    g = Graph.ofCourse kind name ms := by
  unfold courseOutcome at h
  split at h
  · cases h
  · cases h
    rfl

/-- Two outcomes come to the same: the same failure, or graphs that are related one by one. -/
inductive SameOutcome (R : Graph → Graph → Prop) :
    Except BatchFailure (List Graph) → Except BatchFailure (List Graph) → Prop
  | failed (f : BatchFailure) : SameOutcome R (.error f) (.error f)
  | read {gs hs : List Graph} : List.Forall₂ R gs hs → SameOutcome R (.ok gs) (.ok hs)

/-- Courses that assign the same pairs come to the same, if their graphs are related. -/
theorem sameOutcome_of_pairs_eq {ms ns : List Move} (h : ns.flatMap Move.pairs = ms.flatMap Move.pairs)
    {R : Graph → Graph → Prop} {kind : GraphKind} {name : Option String}
    (hR : R (Graph.ofCourse kind name ms) (Graph.ofCourse kind name ns)) (ls : Layouts) :
    SameOutcome R (courseOutcome ls kind name ms) (courseOutcome ls kind name ns) := by
  unfold courseOutcome
  rw [h]
  cases ((ms.flatMap Move.pairs).filterMap layoutOf?).find? fun l => !ls.allows l with
  | some l => exact .failed _
  | none => exact .read (.cons hR .nil)

/-! ## Courses that are translated -/

/-- What a function of each move and of the course before it gives along a course. -/
def alongCourse {β : Type} (f : List Move → Move → List β) (before : List Move) :
    List Move → List β
  | [] => []
  | m :: rest => f before m ++ alongCourse f (before ++ [m]) rest

theorem courseOrigins_eq_alongCourse (before ms : List Move) :
    courseOrigins before ms = alongCourse Move.origins before ms := by
  induction ms generalizing before with
  | nil => rfl
  | cons m ms ih => rw [courseOrigins, ih, alongCourse]

theorem statingsOf_eq_alongCourse (name : String) (before ms : List Move) :
    statingsOf name before ms = alongCourse (fun b m => m.statings name b) before ms := by
  induction ms generalizing before with
  | nil => rfl
  | cons m ms ih => rw [statingsOf, ih, alongCourse]

theorem alongCourse_append {β : Type} (f : List Move → Move → List β) (before ms ns : List Move) :
    alongCourse f before (ms ++ ns) = alongCourse f before ms ++ alongCourse f (before ++ ms) ns := by
  induction ms generalizing before with
  | nil => rw [List.append_nil]; rfl
  | cons m ms ih =>
    rw [List.cons_append, alongCourse, alongCourse, ih, List.append_assoc, List.append_assoc]
    rfl

/-- What is translated move by move is translated along a course, with the course before each
move. -/
theorem alongCourse_flatMap {β γ : Type} {tr : Move → List Move} {g : β → γ}
    {f : List Move → Move → List β} {f' : List Move → Move → List γ}
    (h : ∀ before m, alongCourse f' (before.flatMap tr) (tr m) = (f before m).map g)
    (before ms : List Move) :
    alongCourse f' (before.flatMap tr) (ms.flatMap tr) = (alongCourse f before ms).map g := by
  induction ms generalizing before with
  | nil => rfl
  | cons m ms ih =>
    have hbefore : before.flatMap tr ++ tr m = (before ++ [m]).flatMap tr := by simp
    rw [List.flatMap_cons, alongCourse_append, h, hbefore, ih, alongCourse, List.map_append]

end DotSemantics
