import DotSemantics.Proofs.Visit
import Mathlib.Data.List.Basic

/-!
# Sound states

A walk keeps its list of nodes and its table of places in step, and its edges end in the list
(`Walk.Sound`).  The names of the nodes are those that were mentioned, each at its first mention
(`Walk.Sound.run`).  A course keeps a state sound if every hop of it connects nodes that were
mentioned before (`Grounded`), as the course of every body does (`grounded_body`).
-/

namespace DotSemantics

/-! ## Lists -/

theorem addAllNew_eq_append (ss l : List String) : ∃ more, addAllNew ss l = l ++ more := by
  induction ss generalizing l with
  | nil => exact ⟨[], (List.append_nil l).symm⟩
  | cons s ss ih =>
    obtain ⟨more, h⟩ := ih (addNew s l)
    show ∃ more, addAllNew ss (addNew s l) = l ++ more
    rw [h]
    unfold addNew
    split
    · exact ⟨more, rfl⟩
    · exact ⟨s :: more, List.append_assoc l [s] more⟩

theorem entryAt?_zipIdx (k : String) (l : List String) (i : Nat) :
    entryAt? k (l.zipIdx i) = if k ∈ l then some (i + l.idxOf k) else none := by
  induction l generalizing i with
  | nil => rfl
  | cons s l ih =>
    rw [List.zipIdx_cons, entryAt?, ih, List.idxOf_cons]
    by_cases h : s = k
    · simp [h]
    · have hk : ¬ k = s := fun e => h e.symm
      have hs : (s == k) = false := by simpa using h
      rw [if_neg h, hs]
      by_cases hl : k ∈ l
      · rw [if_pos hl, if_pos (List.mem_cons_of_mem s hl)]
        show some _ = some _
        congr 1
        simp only [cond_false]
        omega
      · rw [if_neg hl, if_neg (by simp [hk, hl])]

theorem getElem?_idxOf {k : String} {l : List String} (h : k ∈ l) : l[l.idxOf k]? = some k := by
  have hlt : l.idxOf k < l.length := List.idxOf_lt_length_iff.2 h
  rw [List.getElem?_eq_getElem hlt, List.getElem_idxOf hlt]

theorem set_of_getElem? {α : Type} {l : List α} {i : Nat} {a : α} (h : l[i]? = some a) :
    l.set i a = l := by
  obtain ⟨hi, rfl⟩ := List.getElem?_eq_some_iff.1 h
  exact List.set_getElem_self hi

/-! ## Soundness -/

namespace Walk

/-- The names of the nodes, in the order in which they were made. -/
def names (w : Walk) : List String := w.nodes.map Node.name

/-- The table of places leads from each name to the node of that name, no two nodes have the same
name, and edges end in the list of nodes. -/
structure Sound (w : Walk) : Prop where
  places : w.places.entries = w.names.zipIdx
  nodup : w.names.Nodup
  ends : ∀ e ∈ w.edges, e.source < w.names.length ∧ e.target < w.names.length

theorem sound_start (kind : GraphKind) (name : Option String) (log : List LogEntry) :
    (start kind name log).Sound := ⟨rfl, List.nodup_nil, by simp [start]⟩

@[simp] theorem names_length (w : Walk) : w.names.length = w.nodes.length := by
  unfold names
  rw [List.length_map]

namespace Sound

variable {w : Walk}

theorem keys_places (h : w.Sound) : w.places.keys = w.names := by
  unfold Table.keys
  rw [h.places, List.zipIdx_map_fst]

theorem get?_places (h : w.Sound) (name : String) :
    w.places.get? name = if name ∈ w.names then some (w.names.idxOf name) else none := by
  unfold Table.get?
  rw [h.places, entryAt?_zipIdx]
  simp

/-- The place of a name is where it stands among the names, or the end. -/
theorem placeOf_eq (h : w.Sound) (name : String) : w.placeOf name = w.names.idxOf name := by
  unfold placeOf
  rw [h.get?_places]
  by_cases hn : name ∈ w.names
  · rw [if_pos hn]
    rfl
  · rw [if_neg hn, List.idxOf_eq_length hn, names_length]
    rfl

theorem placeOf_lt (h : w.Sound) {name : String} (hn : name ∈ w.names) :
    w.placeOf name < w.names.length := by
  rw [h.placeOf_eq]
  exact List.idxOf_lt_length_iff.2 hn

theorem getElem?_placeOf (h : w.Sound) {name : String} (hn : name ∈ w.names) :
    w.names[w.placeOf name]? = some name := by
  rw [h.placeOf_eq]
  exact getElem?_idxOf hn

theorem exists_node (h : w.Sound) {name : String} (hn : name ∈ w.names) :
    ∃ n, w.nodes[w.placeOf name]? = some n ∧ n.name = name := by
  have hi := h.getElem?_placeOf hn
  unfold names at hi
  rw [List.getElem?_map] at hi
  exact Option.map_eq_some_iff.1 hi

/-- Nodes of different names have different places. -/
theorem placeOf_inj (h : w.Sound) {name other : String} (hn : name ∈ w.names) :
    w.placeOf name = w.placeOf other ↔ name = other := by
  rw [h.placeOf_eq, h.placeOf_eq]
  exact List.idxOf_inj hn

theorem nameAt_placeOf (h : w.Sound) {name : String} (hn : name ∈ w.names) :
    nameAt w.nodes (w.placeOf name) = name := by
  obtain ⟨n, hget, hname⟩ := h.exists_node hn
  unfold nameAt
  rw [hget]
  exact hname

end Sound

/-! ## Steps -/

theorem names_touch {w : Walk} (h : w.Sound) (name : String) :
    (w.touch name).names = addNew name w.names := by
  unfold touch names addNew
  by_cases hn : name ∈ w.names
  · have hhas : w.places.has name = true := (Table.has_iff _ _).2 (h.keys_places ▸ hn)
    have hc : (w.nodes.map Node.name).contains name = true := by simpa [names] using hn
    rw [if_pos hc, if_pos hhas]
  · have hhas : ¬ w.places.has name = true := by
      rw [Table.has_iff, h.keys_places]
      exact hn
    have hc : ¬ (w.nodes.map Node.name).contains name = true := by simpa [names] using hn
    rw [if_neg hc, if_neg hhas, List.map_append]
    rfl

theorem Sound.touch {w : Walk} (h : w.Sound) (name : String) : (w.touch name).Sound := by
  have hnames := names_touch h name
  constructor
  · show (w.places.putNew name (w.placeOf name)).entries = _
    rw [hnames]
    by_cases hn : name ∈ w.names
    · have hk : name ∈ w.places.keys := h.keys_places ▸ hn
      rw [Table.putNew_of_mem hk, h.places]
      unfold addNew
      rw [if_pos (by simpa using hn)]
    · have hk : name ∉ w.places.keys := h.keys_places ▸ hn
      rw [Table.putNew_of_notMem hk, h.places, h.placeOf_eq, List.idxOf_eq_length hn]
      unfold addNew
      rw [if_neg (by simpa using hn), List.zipIdx_append]
      simp
  · rw [hnames]
    exact nodup_addNew h.nodup name
  · intro e he
    obtain ⟨more, hmore⟩ := addAllNew_eq_append [name] w.names
    have hends := h.ends e he
    rw [hnames, show addNew name w.names = w.names ++ more from hmore, List.length_append]
    omega

theorem settle_names (i : Nat) (t : Table String) (w : Walk) :
    (w.settle i t).names = w.names := by
  unfold settle
  split
  · rfl
  · next n hn =>
    unfold names
    rw [List.map_set]
    apply set_of_getElem?
    rw [List.getElem?_map, hn]
    rfl

/-- Soundness hangs on the names, the places and the edges. -/
theorem Sound.congr {v w : Walk} (h : w.Sound) (hn : v.names = w.names)
    (hp : v.places = w.places) (he : v.edges = w.edges) : v.Sound :=
  ⟨by rw [hp, hn, h.places], hn ▸ h.nodup, by rw [he, hn]; exact h.ends⟩

theorem names_apply {w : Walk} (h : w.Sound) (m : Move) :
    (m.apply w).names = addAllNew m.mentions w.names := by
  cases m with
  | assign name value =>
    rw [Move.apply, setAttr_eq]
    rfl
  | node name ps =>
    show ((w.touch name).settle _ _).names = addNew name w.names
    rw [settle_names, names_touch h]
  | mention name => exact names_touch h name
  | _ => rfl

end Walk

/-! ## Grounded courses -/

/-- The nodes that a move connects. -/
def Move.ends : Move → List String
  | connect sources _ targets _ => sources ++ targets
  | _ => []

/-- Every hop of a course connects nodes that are known or mentioned before it. -/
def Grounded (known : List String) : List Move → Prop
  | [] => True
  | m :: rest => (∀ n ∈ m.ends, n ∈ known) ∧ Grounded (addAllNew m.mentions known) rest

theorem grounded_append {known : List String} {ms ns : List Move} (hm : Grounded known ms)
    (hn : Grounded (addAllNew (courseMentions ms) known) ns) : Grounded known (ms ++ ns) := by
  induction ms generalizing known with
  | nil => exact hn
  | cons m ms ih =>
    rw [courseMentions_cons, addAllNew_append] at hn
    exact ⟨hm.1, ih hm.2 hn⟩

theorem grounded_of_ends_eq_nil {ms : List Move} (h : ∀ m ∈ ms, m.ends = [])
    (known : List String) : Grounded known ms := by
  induction ms generalizing known with
  | nil => trivial
  | cons m ms ih =>
    rw [List.forall_mem_cons] at h
    refine ⟨?_, ih h.2 _⟩
    rw [h.1]
    simp

mutual

theorem grounded_statement : ∀ (s : Statement) (known : List String), Grounded known s.course
  | .assign _, known => grounded_of_ends_eq_nil (by simp [Statement.course, Move.ends]) known
  | .attrs .graph lists, known => by
    apply grounded_of_ends_eq_nil
    intro m hm
    obtain ⟨p, -, rfl⟩ := List.mem_map.1 hm
    rfl
  | .attrs .node _, known => grounded_of_ends_eq_nil (by simp [Statement.course, Move.ends]) known
  | .attrs .edge _, known => grounded_of_ends_eq_nil (by simp [Statement.course, Move.ends]) known
  | .node _ _, known => grounded_of_ends_eq_nil (by simp [Statement.course, Move.ends]) known
  | .edge source hops lists, known => by
    rw [Statement.course]
    exact grounded_append (grounded_endpoint source known)
      (grounded_hops _ hops source.members _ fun n hn => mem_known_of_mem_members hn known)
  | .subgraph _ body, known => grounded_body body known

theorem grounded_endpoint : ∀ (e : Endpoint) (known : List String), Grounded known e.course
  | .node _, known => grounded_of_ends_eq_nil (by simp [Endpoint.course, Move.ends]) known
  | .subgraph _ body, known => grounded_body body known

theorem grounded_hops (ps : List (String × String)) :
    ∀ (hops : List Hop) (sources known : List String), (∀ n ∈ sources, n ∈ known) →
      Grounded known (hopCourse ps sources hops)
  | [], _, _, _ => trivial
  | .via op target :: rest, sources, known, h => by
    rw [hopCourse]
    apply grounded_append (grounded_endpoint target known)
    constructor
    · intro n hn
      rcases List.mem_append.1 hn with hs | ht
      · rw [mem_addAllNew]
        exact Or.inr (h n hs)
      · exact mem_known_of_mem_members ht known
    · exact grounded_hops ps rest target.members _ fun n hn => mem_known_of_mem_members hn known

/-- The course of a body is grounded, whatever is known. -/
theorem grounded_body : ∀ (b : List Statement) (known : List String), Grounded known (bodyCourse b)
  | [], _ => trivial
  | s :: rest, known => by
    rw [bodyCourse]
    exact grounded_append (grounded_statement s known) (grounded_body rest _)

end

/-! ## Runs -/

namespace Walk

theorem mem_edgesBetween {ns : List Node} {given defaults : Table String}
    {sources targets : List Nat} {op : EdgeOp} {e : Edge}
    (h : e ∈ edgesBetween ns given defaults sources op targets) :
    e.source ∈ sources ∧ e.target ∈ targets := by
  unfold edgesBetween at h
  obtain ⟨s, hs, he⟩ := List.mem_flatMap.1 h
  obtain ⟨t, ht, rfl⟩ := List.mem_map.1 he
  exact ⟨hs, ht⟩

theorem Sound.connect {w : Walk} (h : w.Sound) {sources targets : List String}
    (hs : ∀ n ∈ sources, n ∈ w.names) (ht : ∀ n ∈ targets, n ∈ w.names) (values : Table String)
    (op : EdgeOp) :
    (w.connect values (sources.map w.placeOf) op (targets.map w.placeOf)).Sound := by
  refine ⟨h.places, h.nodup, fun e he => ?_⟩
  rcases List.mem_append.1 he with hold | hnew
  · exact h.ends e hold
  · obtain ⟨hes, het⟩ := mem_edgesBetween hnew
    obtain ⟨s, hsm, hse⟩ := List.mem_map.1 hes
    obtain ⟨t, htm, hte⟩ := List.mem_map.1 het
    rw [← hse, ← hte]
    exact ⟨h.placeOf_lt (hs s hsm), h.placeOf_lt (ht t htm)⟩

theorem Sound.apply {w : Walk} (h : w.Sound) {m : Move} (hm : ∀ n ∈ m.ends, n ∈ w.names) :
    (m.apply w).Sound := by
  cases m with
  | assign name value =>
    rw [Move.apply, setAttr_eq]
    exact h.congr rfl rfl rfl
  | node name ps =>
    have hedges : ((Move.node name ps).apply w).edges = (w.touch name).edges := by
      rw [Move.apply, settle_eq]
    exact (h.touch name).congr (settle_names _ _ _) (settle_places _ _ _) hedges
  | mention name => exact h.touch name
  | connect sources op targets ps =>
    exact h.connect (fun n hn => hm n (List.mem_append_left targets hn))
      (fun n hn => hm n (List.mem_append_right sources hn)) _ op
  | _ => exact h.congr rfl rfl rfl

/-- A grounded course keeps a state sound, and its nodes are named by what it mentions. -/
theorem Sound.run {w : Walk} (h : w.Sound) {ms : List Move} (hg : Grounded w.names ms) :
    (run ms w).Sound ∧ (run ms w).names = addAllNew (courseMentions ms) w.names := by
  induction ms generalizing w with
  | nil => exact ⟨h, rfl⟩
  | cons m ms ih =>
    have hnames := names_apply h m
    obtain ⟨hsound, hrun⟩ := ih (h.apply hg.1) (hnames ▸ hg.2)
    refine ⟨hsound, ?_⟩
    rw [run_cons, hrun, hnames, courseMentions_cons, addAllNew_append]

end Walk

end DotSemantics
