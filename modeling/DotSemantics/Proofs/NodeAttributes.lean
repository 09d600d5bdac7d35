import DotSemantics.Proofs.Defaults
import DotSemantics.Proofs.Reading

/-!
# The attributes of a node

The node statements of a name (`statingsOf`), each with the defaults in force where it stands,
fix the attributes of the node: the last value that any of them gives outright, else the default
in force at the last of them (`statedValue?`).  The attributes come in the order in which the
statements first touch them (`statedKeys`).

    attributes of the node n of d = those of statingsOf n [] (bodyCourse d.body)
                                                          (node_attributes_of_read)

`NodeRecord.Reflects` is the invariant: what a record holds after some statements.
-/

namespace DotSemantics

/-! ## Node statements -/

/-- A node statement: the pairs that it gives, and the course before it. -/
structure Stating where
  pairs : List (String × String)
  before : List Move

namespace Stating

def value? (s : Stating) (key : String) : Option String := lastValue? key s.pairs

def default? (s : Stating) (key : String) : Option String :=
  (nodeDefaultsAfter s.before).get? key

/-- The attributes for which a statement gives a value or finds a default. -/
def present (s : Stating) : List String :=
  nodeKeys.filter fun k => (s.value? k).isSome || (s.default? k).isSome

end Stating

/-- A move as a statement of a node. -/
def Move.statings (name : String) (before : List Move) : Move → List Stating
  | node n ps => if n = name then [⟨ps, before⟩] else []
  | _ => []

/-- The statements of a node in a course, after the course before it. -/
def statingsOf (name : String) (before : List Move) : List Move → List Stating
  | [] => []
  | m :: rest => m.statings name before ++ statingsOf name (before ++ [m]) rest

/-- The value that the last of some statements that gives one outright gives. -/
def givenValue? (ss : List Stating) (key : String) : Option String :=
  ss.reverse.findSome? fun s => s.value? key

/-- The value of an attribute after some statements: the last one given outright, else the default
in force at the last statement. -/
def statedValue? (ss : List Stating) (key : String) : Option String :=
  (givenValue? ss key).or (ss.getLast?.bind fun s => s.default? key)

/-- The attributes that some statements touch, each where it is touched first. -/
def statedKeys (ss : List Stating) : List String := distinct (ss.flatMap Stating.present)

/-! ## One statement -/

namespace NodeRecord

variable {given defaults : Table String}

theorem get?_settle (r : NodeRecord) (key j : String) :
    (r.settle given defaults key).attrs.get? j =
      if j = key then
        match given.get? key with
        | some v => some v
        | none => if key ∈ r.given then r.attrs.get? key else
            (defaults.get? key).or (r.attrs.get? key)
      else r.attrs.get? j := by
  unfold settle
  cases given.get? key with
  | some v => exact Table.get?_put _ _ _ _
  | none =>
    cases defaults.get? key with
    | none => by_cases hj : j = key <;> simp [hj]
    | some v =>
      by_cases hr : key ∈ r.given <;> by_cases hj : j = key <;> simp [hr, hj, Table.get?_put]

theorem mem_given_settle (r : NodeRecord) (key j : String) :
    j ∈ (r.settle given defaults key).given ↔
      (j = key ∧ (given.get? key).isSome) ∨ j ∈ r.given := by
  unfold settle
  cases given.get? key with
  | some v => simp [mem_addNew]
  | none =>
    cases defaults.get? key with
    | none => simp
    | some v => by_cases hr : key ∈ r.given <;> simp [hr]

theorem keys_settle {r : NodeRecord} (h : ∀ k ∈ r.given, k ∈ r.attrs.keys) (key : String) :
    (r.settle given defaults key).attrs.keys =
      if (given.get? key).isSome || (defaults.get? key).isSome then addNew key r.attrs.keys
      else r.attrs.keys := by
  unfold settle
  cases given.get? key with
  | some v => exact Table.keys_put_eq_addNew _ _ _
  | none =>
    cases defaults.get? key with
    | none => rfl
    | some v =>
      by_cases hr : key ∈ r.given
      · simp [hr, addNew, h key hr]
      · simp [hr, Table.keys_put_eq_addNew]

theorem given_subset_settle {r : NodeRecord} (h : ∀ k ∈ r.given, k ∈ r.attrs.keys) (key : String) :
    ∀ k ∈ (r.settle given defaults key).given, k ∈ (r.settle given defaults key).attrs.keys := by
  intro k hk
  rw [keys_settle h]
  rcases (mem_given_settle r key k).1 hk with ⟨rfl, hs⟩ | hold
  · rw [hs, Bool.true_or, if_pos rfl, mem_addNew]
    exact Or.inl rfl
  · split
    · rw [mem_addNew]
      exact Or.inr (h k hold)
    · exact h k hold

/-! ## All attributes of one statement -/

theorem mem_given_foldl (ks : List String) (r : NodeRecord) (j : String) :
    j ∈ (ks.foldl (settle given defaults) r).given ↔
      (j ∈ ks ∧ (given.get? j).isSome) ∨ j ∈ r.given := by
  induction ks generalizing r with
  | nil => simp
  | cons k ks ih =>
    rw [List.foldl_cons, ih, mem_given_settle, List.mem_cons]
    constructor
    · rintro (⟨hj, hs⟩ | ⟨rfl, hs⟩ | hr)
      · exact Or.inl ⟨Or.inr hj, hs⟩
      · exact Or.inl ⟨Or.inl rfl, hs⟩
      · exact Or.inr hr
    · rintro (⟨rfl | hj, hs⟩ | hr)
      · exact Or.inr (Or.inl ⟨rfl, hs⟩)
      · exact Or.inl ⟨hj, hs⟩
      · exact Or.inr (Or.inr hr)

theorem get?_foldl_of_notMem {ks : List String} (r : NodeRecord) {j : String} (h : j ∉ ks) :
    (ks.foldl (settle given defaults) r).attrs.get? j = r.attrs.get? j := by
  induction ks generalizing r with
  | nil => rfl
  | cons k ks ih =>
    rw [List.mem_cons, not_or] at h
    rw [List.foldl_cons, ih _ h.2, get?_settle, if_neg h.1]

/-- Each attribute is settled once, and the others do not matter for it. -/
theorem get?_foldl {ks : List String} (hks : ks.Nodup) (r : NodeRecord) {j : String} (h : j ∈ ks) :
    (ks.foldl (settle given defaults) r).attrs.get? j =
      match given.get? j with
      | some v => some v
      | none => if j ∈ r.given then r.attrs.get? j else
          (defaults.get? j).or (r.attrs.get? j) := by
  induction ks generalizing r with
  | nil => cases h
  | cons k ks ih =>
    rw [List.nodup_cons] at hks
    rw [List.foldl_cons]
    by_cases hj : j = k
    · subst hj
      rw [get?_foldl_of_notMem _ hks.1, get?_settle, if_pos rfl]
    · rw [ih hks.2 _ ((List.mem_cons.1 h).resolve_left hj), get?_settle, if_neg hj]
      have hg : j ∈ (r.settle given defaults k).given ↔ j ∈ r.given := by
        rw [mem_given_settle]
        simp [hj]
      simp only [hg]

theorem keys_foldl {r : NodeRecord} (h : ∀ k ∈ r.given, k ∈ r.attrs.keys) (ks : List String) :
    (ks.foldl (settle given defaults) r).attrs.keys =
      addAllNew (ks.filter fun k => (given.get? k).isSome || (defaults.get? k).isSome)
        r.attrs.keys := by
  induction ks generalizing r with
  | nil => rfl
  | cons k ks ih =>
    rw [List.foldl_cons, ih (given_subset_settle h k), keys_settle h, List.filter_cons]
    split <;> rfl

end NodeRecord

/-! ## All statements -/

theorem givenValue?_append (ss ts : List Stating) (key : String) :
    givenValue? (ss ++ ts) key = (givenValue? ts key).or (givenValue? ss key) := by
  unfold givenValue?
  rw [List.reverse_append, List.findSome?_append]

theorem givenValue?_concat (ss : List Stating) (s : Stating) (key : String) :
    givenValue? (ss ++ [s]) key = (s.value? key).or (givenValue? ss key) := by
  have hlast : givenValue? [s] key = s.value? key := List.findSome?_singleton
  rw [givenValue?_append, hlast]

theorem statedValue?_concat (ss : List Stating) (s : Stating) (key : String) :
    statedValue? (ss ++ [s]) key =
      ((s.value? key).or (givenValue? ss key)).or (s.default? key) := by
  unfold statedValue?
  rw [givenValue?_concat, List.getLast?_concat]
  rfl

theorem addAllNew_cons {x : String} {ss : List String} (h : x ∉ ss) (l : List String) :
    addAllNew ss (x :: l) = x :: addAllNew ss l := by
  induction ss generalizing l with
  | nil => rfl
  | cons s ss ih =>
    rw [List.mem_cons, not_or] at h
    have hs : addNew s (x :: l) = x :: addNew s l := by
      have hx : ¬ s = x := fun e => h.1 e.symm
      unfold addNew
      by_cases hl : s ∈ l <;> simp [hl, hx]
    show addAllNew ss (addNew s (x :: l)) = x :: addAllNew ss (addNew s l)
    rw [hs, ih h.2]

theorem nameKey_notMem_nodeKeys : nameKey ∉ nodeKeys := by decide

theorem nameKey_notMem_present (s : Stating) : nameKey ∉ s.present := fun h =>
  nameKey_notMem_nodeKeys (List.mem_filter.1 h).1

theorem mem_nodeKeys_of_mem_statedKeys {ss : List Stating} {k : String} (h : k ∈ statedKeys ss) :
    k ∈ nodeKeys := by
  rw [statedKeys, mem_distinct, List.mem_flatMap] at h
  obtain ⟨s, -, hs⟩ := h
  exact (List.mem_filter.1 hs).1

theorem nameKey_notMem_statedKeys (ss : List Stating) : nameKey ∉ statedKeys ss := fun h =>
  nameKey_notMem_nodeKeys (mem_nodeKeys_of_mem_statedKeys h)

/-- What the record of a node holds after some statements of it. -/
structure NodeRecord.Reflects (r : NodeRecord) (name : String) (ss : List Stating) : Prop where
  keys : r.attrs.keys = nameKey :: statedKeys ss
  name : r.attrs.get? nameKey = some name
  value : ∀ k ∈ nodeKeys, r.attrs.get? k = statedValue? ss k
  given : ∀ k, k ∈ r.given ↔ k ∈ nodeKeys ∧ (givenValue? ss k).isSome

namespace NodeRecord.Reflects

variable {r : NodeRecord} {name : String} {ss : List Stating}

theorem nodup (h : r.Reflects name ss) : r.attrs.Nodup := by
  unfold Table.Nodup
  rw [h.keys, List.nodup_cons]
  exact ⟨nameKey_notMem_statedKeys ss, nodup_distinct _⟩

theorem given_subset (h : r.Reflects name ss) : ∀ k ∈ r.given, k ∈ r.attrs.keys := by
  intro k hk
  obtain ⟨hn, hs⟩ := (h.given k).1 hk
  apply Classical.byContradiction
  intro hmem
  have hnone := h.value k hn
  rw [(Table.get?_eq_none_iff _ _).2 hmem] at hnone
  unfold statedValue? at hnone
  rw [eq_comm, Option.or_eq_none_iff] at hnone
  rw [hnone.1] at hs
  cases hs

/-- One more statement.  The defaults of an earlier statement are all in force at a later one, so
that a default that was taken before is not left over. -/
theorem settleAll (h : r.Reflects name ss) {s : Stating} (hlater : ∀ t ∈ ss, t.before <+: s.before)
    {defaults : Table String} (hd : ∀ k, defaults.get? k = s.default? k) :
    (r.settleAll (Table.ofPairs s.pairs) defaults).Reflects name (ss ++ [s]) := by
  have hvalue : ∀ k, (Table.ofPairs s.pairs).get? k = s.value? k := Table.get?_ofPairs s.pairs
  refine ⟨?_, ?_, fun k hk => ?_, fun k => ?_⟩
  · unfold NodeRecord.settleAll
    rw [keys_foldl h.given_subset, h.keys]
    simp only [hvalue, hd]
    rw [show nodeKeys.filter _ = s.present from rfl, addAllNew_cons (nameKey_notMem_present s)]
    unfold statedKeys distinct
    rw [List.flatMap_append, addAllNew_append, List.flatMap_singleton]
  · unfold NodeRecord.settleAll
    rw [get?_foldl_of_notMem _ nameKey_notMem_nodeKeys, h.name]
  · unfold NodeRecord.settleAll
    rw [get?_foldl (by decide) _ hk, hvalue, hd, statedValue?_concat, h.value k hk]
    cases s.value? k with
    | some v => rfl
    | none =>
      have hgiven := h.given k
      unfold statedValue?
      cases hg : givenValue? ss k with
      | some v =>
        rw [hg] at hgiven
        have hmem : k ∈ r.given := hgiven.2 ⟨hk, rfl⟩
        simp [hmem]
      | none =>
        rw [hg] at hgiven
        have hmem : k ∉ r.given := fun hr => by cases (hgiven.1 hr).2
        -- nothing was given outright so far: what the record holds is a default, and there is none
        -- unless one is in force now
        cases hs : s.default? k with
        | some v => simp [hmem]
        | none =>
          have hlast : (ss.getLast?.bind fun t => t.default? k) = none := by
            cases ht : ss.getLast? with
            | none => rfl
            | some t =>
              cases htd : t.default? k with
              | none => exact htd
              | some v =>
                have hsome : (t.default? k).isSome := by rw [htd]; rfl
                have := isSome_nodeDefaultsAfter (hlater t (List.mem_of_getLast? ht)) hsome
                rw [show (nodeDefaultsAfter s.before).get? k = none from hs] at this
                cases this
          simp [hmem, hlast]
  · unfold NodeRecord.settleAll
    rw [mem_given_foldl, hvalue, h.given, givenValue?_concat, Option.isSome_or, Bool.or_eq_true]
    constructor
    · rintro (⟨hk, hs⟩ | ⟨hk, hs⟩)
      · exact ⟨hk, Or.inl hs⟩
      · exact ⟨hk, Or.inr hs⟩
    · rintro ⟨hk, hs | hs⟩
      · exact Or.inl ⟨hk, hs⟩
      · exact Or.inr ⟨hk, hs⟩

end NodeRecord.Reflects

/-! ## Records in a state -/

namespace Walk

/-- The record of the node of a name; that of a node that is not there is fresh. -/
def recordOf (w : Walk) (name : String) : NodeRecord :=
  ⟨((w.nodes[w.placeOf name]?).map Node.attrs).getD (Node.fresh name).attrs,
    (w.given.get? name).getD []⟩

theorem nodes_prefix_touch (w : Walk) (name : String) : w.nodes <+: (w.touch name).nodes := by
  unfold touch
  show w.nodes <+: if w.places.has name then w.nodes else w.nodes ++ [.fresh name]
  split
  · exact List.prefix_rfl
  · exact List.prefix_append _ _

theorem nodes_touch_of_notMem {w : Walk} (h : w.Sound) {name : String} (hn : name ∉ w.names) :
    (w.touch name).nodes = w.nodes ++ [.fresh name] := by
  unfold touch
  apply if_neg
  rw [Table.has_iff, h.keys_places]
  exact hn

theorem recordOf_touch {w : Walk} (h : w.Sound) (other name : String) :
    (w.touch other).recordOf name = w.recordOf name := by
  have hattrs : (((w.touch other).nodes[(w.touch other).placeOf name]?).map Node.attrs).getD
      (Node.fresh name).attrs =
      ((w.nodes[w.placeOf name]?).map Node.attrs).getD (Node.fresh name).attrs := by
    by_cases hn : name ∈ w.names
    · obtain ⟨more, hmore⟩ := nodes_prefix_touch w other
      have hlt := h.placeOf_lt hn
      rw [names_length] at hlt
      rw [placeOf_touch (h.keys_places ▸ hn), ← hmore, List.getElem?_append_left hlt]
    · -- a node that is not there has the fresh record, before and after it is made
      have hold : w.placeOf name = w.nodes.length := by
        rw [h.placeOf_eq, List.idxOf_eq_length hn, names_length]
      rw [hold, List.getElem?_eq_none (Nat.le_refl _)]
      by_cases ho : other = name
      · subst ho
        rw [placeOf_touch_self, hold, nodes_touch_of_notMem h hn,
          List.getElem?_append_right (Nat.le_refl _), Nat.sub_self]
        rfl
      · have hn' : name ∉ (w.touch other).names := by
          rw [names_touch h, mem_addNew]
          rintro (rfl | hm)
          · exact ho rfl
          · exact hn hm
        rw [(h.touch other).placeOf_eq, List.idxOf_eq_length hn', names_length,
          List.getElem?_eq_none (Nat.le_refl _)]
  unfold recordOf
  rw [hattrs]
  rfl

theorem settle_of_getElem? {w : Walk} {i : Nat} {n : Node} (h : w.nodes[i]? = some n)
    (t : Table String) :
    (w.settle i t).nodes = w.nodes.set i { n with
        attrs := (NodeRecord.settleAll t w.nodeDefaults
          ⟨n.attrs, (w.given.get? n.name).getD []⟩).attrs } ∧
      (w.settle i t).given = w.given.put n.name (NodeRecord.settleAll t w.nodeDefaults
        ⟨n.attrs, (w.given.get? n.name).getD []⟩).given := by
  unfold settle
  rw [h]
  exact ⟨rfl, rfl⟩

/-- A node statement settles the record of its node and no other. -/
theorem recordOf_settle {w : Walk} (h : w.Sound) {name : String} (hn : name ∈ w.names)
    (t : Table String) (other : String) :
    (w.settle (w.placeOf name) t).recordOf other =
      if other = name then (w.recordOf name).settleAll t w.nodeDefaults
      else w.recordOf other := by
  obtain ⟨n, hget, rfl⟩ := h.exists_node hn
  have hplace : (w.settle (w.placeOf n.name) t).placeOf other = w.placeOf other := by
    unfold placeOf
    rw [settle_places]
    unfold settle
    split <;> simp
  have hlt : w.placeOf n.name < w.nodes.length := (List.getElem?_eq_some_iff.1 hget).1
  have hrec : w.recordOf n.name = ⟨n.attrs, (w.given.get? n.name).getD []⟩ := by
    unfold recordOf
    rw [hget]
    rfl
  obtain ⟨hnodes, hgiven⟩ := settle_of_getElem? hget t
  rw [← hrec] at hnodes hgiven
  generalize (w.recordOf n.name).settleAll t w.nodeDefaults = r at hnodes hgiven ⊢
  -- different names have different places, so that only the one node is overwritten
  by_cases ho : other = n.name
  · subst ho
    unfold recordOf
    rw [hplace, hnodes, hgiven, Table.get?_put_self, List.getElem?_set, if_pos rfl, if_pos hlt,
      if_pos rfl]
    rfl
  · have hne : ¬ w.placeOf n.name = w.placeOf other := fun he =>
      ho ((h.placeOf_inj hn).1 he).symm
    unfold recordOf
    rw [hplace, hnodes, hgiven, Table.get?_put, List.getElem?_set, if_neg hne, if_neg ho, if_neg ho]

theorem recordOf_congr {v w : Walk} (hn : v.nodes = w.nodes) (hp : v.places = w.places)
    (hg : v.given = w.given) (name : String) : v.recordOf name = w.recordOf name := by
  unfold recordOf placeOf
  rw [hn, hp, hg]

/-- A move settles the record of a node if it is a statement of the node, and else keeps it. -/
theorem recordOf_apply {w : Walk} (h : w.Sound) (m : Move) (name : String) :
    (m.apply w).recordOf name = match m with
      | .node n ps => if name = n then
          (w.recordOf name).settleAll (Table.ofPairs ps) w.nodeDefaults else w.recordOf name
      | _ => w.recordOf name := by
  cases m with
  | assign n v =>
    rw [Move.apply, setAttr_eq]
    exact recordOf_congr rfl rfl rfl name
  | node n ps =>
    have hn : n ∈ (w.touch n).names := by
      rw [names_touch h, mem_addNew]
      exact Or.inl rfl
    have hsettle := recordOf_settle (h.touch n) hn (Table.ofPairs ps) name
    rw [placeOf_touch_self, recordOf_touch h, recordOf_touch h] at hsettle
    show ((w.touch n).settle _ _).recordOf name = if name = n then _ else _
    rw [hsettle]
    by_cases hname : name = n
    · subst hname
      rfl
    · rw [if_neg hname, if_neg hname]
  | mention n => exact recordOf_touch h n name
  | _ => rfl

theorem reflects_apply {w : Walk} (h : w.Sound) {before : List Move} (hd : w.HasDefaults before)
    {name : String} {ss : List Stating} (hss : ∀ s ∈ ss, s.before <+: before)
    (hr : (w.recordOf name).Reflects name ss) (m : Move) :
    ((m.apply w).recordOf name).Reflects name (ss ++ m.statings name before) := by
  rw [recordOf_apply h]
  cases m with
  | node n ps =>
    show NodeRecord.Reflects (if name = n then _ else _) name
      (ss ++ if n = name then [⟨ps, before⟩] else [])
    by_cases hname : name = n
    · rw [if_pos hname, if_pos hname.symm]
      exact hr.settleAll (s := ⟨ps, before⟩) hss hd.node
    · rw [if_neg hname, if_neg fun e => hname e.symm, List.append_nil]
      exact hr
  | _ => exact (List.append_nil ss).symm ▸ hr

theorem before_of_mem_statings {m : Move} {name : String} {before : List Move} {s : Stating}
    (h : s ∈ m.statings name before) : s.before = before := by
  unfold Move.statings at h
  split at h
  · split at h
    · rw [List.mem_singleton.1 h]
    · cases h
  · cases h

/-- The record of a node reflects its statements, over a whole course. -/
theorem reflects_run {w : Walk} (h : w.Sound) {before ms : List Move} (hd : w.HasDefaults before)
    (hg : Grounded w.names ms) {name : String} {ss : List Stating}
    (hss : ∀ s ∈ ss, s.before <+: before) (hr : (w.recordOf name).Reflects name ss) :
    ((run ms w).recordOf name).Reflects name (ss ++ statingsOf name before ms) := by
  induction ms generalizing w before ss with
  | nil => exact (List.append_nil ss).symm ▸ hr
  | cons m ms ih =>
    have hnames := names_apply h m
    have hlater : ∀ s ∈ ss ++ m.statings name before, s.before <+: before ++ [m] := by
      intro s hs
      rcases List.mem_append.1 hs with hold | hnew
      · exact (hss s hold).trans (List.prefix_append _ _)
      · rw [before_of_mem_statings hnew]
        exact List.prefix_append _ _
    have hrun := ih (h.apply hg.1) (hd.apply m) (hnames ▸ hg.2) hlater
      (reflects_apply h hd hss hr m)
    rw [run_cons, statingsOf, ← List.append_assoc]
    exact hrun

theorem reflects_start (kind : GraphKind) (title : Option String) (log : List LogEntry)
    (name : String) : ((start kind title log).recordOf name).Reflects name [] := by
  refine ⟨rfl, rfl, fun k hk => ?_, fun k => ?_⟩
  · have hne : ¬ nameKey = k := by
      rintro rfl
      exact nameKey_notMem_nodeKeys hk
    exact if_neg hne
  · constructor
    · intro h
      cases h
    · rintro ⟨-, h⟩
      cases h

theorem Sound.attrs_recordOf {w : Walk} (h : w.Sound) {n : Node} (hn : n ∈ w.nodes) :
    (w.recordOf n.name).attrs = n.attrs := by
  obtain ⟨i, hi⟩ := List.getElem?_of_mem hn
  have hname : w.names[i]? = some n.name := by
    unfold names
    rw [List.getElem?_map, hi]
    rfl
  have hmem : n.name ∈ w.names := List.mem_of_getElem? hname
  have hplace : w.placeOf n.name = i := by
    have hlt := h.placeOf_lt hmem
    apply (List.getElem?_inj hlt h.nodup).1
    rw [h.getElem?_placeOf hmem, hname]
  unfold recordOf
  rw [hplace, hi]
  rfl

/-- A node that a course leads to holds what its statements in the course fix. -/
theorem exists_reflects_of_mem {ms : List Move} (hg : Grounded [] ms) {kind : GraphKind}
    {title : Option String} {log : List LogEntry} {n : Node}
    (hn : n ∈ (run ms (start kind title log)).nodes) :
    ∃ r : NodeRecord, r.attrs = n.attrs ∧ r.Reflects n.name (statingsOf n.name [] ms) := by
  have hstart := sound_start kind title log
  have hr := reflects_run hstart (hasDefaults_start kind title log) hg (by simp)
    (reflects_start kind title log n.name)
  exact ⟨_, (hstart.run hg).1.attrs_recordOf hn, hr⟩

end Walk

/-! ## Main theorem -/

/-- A node that is stated three times while the defaults change, and mentioned in between:

    graph { node [width=1]; a; node [width=2, label=l]; b -- a; a [label="q"];
      node [label=m]; a [pos=p] } -/
def statedThrice : Declaration where
  kind := .graph
  name := none
  body := [
    .attrs .node [⟨[⟨.text "width", .text "1"⟩]⟩],
    .node (.text "a") [],
    .attrs .node [⟨[⟨.text "width", .text "2"⟩, ⟨.text "label", .text "l"⟩]⟩],
    .edge (.node (.text "b")) [.via .undirected (.node (.text "a"))] [],
    .node (.text "a") [⟨[⟨.text "label", .text "\"q\""⟩]⟩],
    .attrs .node [⟨[⟨.text "label", .text "m"⟩]⟩],
    .node (.text "a") [⟨[⟨.text "pos", .text "p"⟩]⟩]]

/-- The attributes of a node are those that its statements fix: values, keys and their order.  A
mention of a node at an end of an edge leaves all nodes as they are. -/
theorem node_attributes_of_read (ls : Layouts) (d : Declaration) (g : Graph)
    (h : (readBatch ls [.declaration d]).2 = .ok [g]) :
    (∀ n ∈ g.nodes,
      (∀ k ∈ nodeKeys,
        n.attrs.get? k = statedValue? (statingsOf n.name [] (bodyCourse d.body)) k) ∧
      n.attrs.keys = nameKey :: statedKeys (statingsOf n.name [] (bodyCourse d.body)) ∧
      n.attrs.entries.head? = some (nameKey, n.name) ∧
      ∀ k ∈ n.attrs.keys, k = nameKey ∨ k ∈ nodeKeys) ∧
    ∀ (id : Word) (w : Walk), ∃ i w',
      resolve ls (.node id) w = .ok [i] w' ∧ w.nodes <+: w'.nodes := by
  refine ⟨fun n hn => ?_, fun id w => ⟨_, _, rfl, w.nodes_prefix_touch id.meant⟩⟩
  rw [readBatch_singleton, Declaration.read_eq_ok_iff] at h
  obtain ⟨-, rfl⟩ := h
  have hr := Walk.reflects_run (Walk.sound_start d.kind d.graphName (d.heading 0))
    (Walk.hasDefaults_start _ _ _) (grounded_body d.body []) (by simp)
    (Walk.reflects_start d.kind d.graphName (d.heading 0) n.name)
  have hattrs := (d.sound_final (d.heading 0)).1.attrs_recordOf hn
  rw [show run (bodyCourse d.body) _ = d.final (d.heading 0) from rfl, List.nil_append] at hr
  rw [← hattrs]
  refine ⟨hr.value, hr.keys, ?_, fun k hk => ?_⟩
  · have hkeys := hr.keys
    have hname := hr.name
    revert hkeys hname
    rcases ((d.final (d.heading 0)).recordOf n.name).attrs with ⟨_ | ⟨⟨k, v⟩, r⟩⟩
    · intro hkeys
      cases hkeys
    · intro hkeys hname
      obtain ⟨rfl, -⟩ := List.cons.inj hkeys
      have hv : v = n.name := by simpa [Table.get?, entryAt?] using hname
      rw [hv]
      rfl
  · rw [hr.keys, List.mem_cons] at hk
    refine hk.imp_right fun hm => ?_
    rw [show k ∈ statedKeys _ ↔ _ from mem_distinct _ _, List.mem_flatMap] at hm
    obtain ⟨s, -, hs⟩ := hm
    exact (List.mem_filter.1 hs).1

/-- A value that was given outright beats a later default; a default gives way to a later one. -/
theorem node_attributes_statedThrice :
    ∃ n ∈ statedThrice.intended.nodes, n.name = "a" ∧
      n.attrs.get? "width" = some "2" ∧ n.attrs.get? "label" = some "q" ∧
      n.attrs.keys = [nameKey, "width", "label", "pos"] := by
  have hread : (readBatch .standard [.declaration statedThrice]).2 =
      .ok [statedThrice.intended] := readBatch_intended (by decide +kernel)
  obtain ⟨n, hn, hname⟩ : ∃ n ∈ statedThrice.intended.nodes, n.name = "a" := by decide +kernel
  obtain ⟨hvalue, hkeys, -⟩ := (node_attributes_of_read _ _ _ hread).1 n hn
  rw [hname] at hvalue hkeys
  refine ⟨n, hn, hname, ?_, ?_, ?_⟩
  · exact (hvalue "width" (by decide)).trans (by decide +kernel)
  · exact (hvalue "label" (by decide)).trans (by decide +kernel)
  · exact hkeys.trans (by decide +kernel)

end DotSemantics
