import DotSemantics.Proofs.Sites
import Mathlib.Data.List.Forall2

/-!
# Attribute lists in other words

Of the lists of a node, or of defaults for nodes, only the last value of each attribute of a node
counts, and of those of a chain, or of defaults for edges, only the last value of each attribute of
an edge (`SameOn`).  Lists for the graph are different: each of their pairs counts, in its order,
but not how the pairs are put into lists, and so the pairs can as well stand as statements of their
own.  A body in which any number of lists are replaced in this way, at any depth, is restated
(`BodiesRestated`), and cannot be told apart from the body that it was (`interchangeable_restated`).

The walks over the two bodies are not in the same states: their defaults may come in another order
and hold different values under names that no node and no edge has.  States that differ in nothing
else (`Walk.Agrees`) are kept in step by moves that say the same (`Move.Agrees.apply`).
-/

namespace DotSemantics

/-! ## Saying the same -/

/-- Two lists of pairs have the same last values, for some names. -/
def SameOn (keys : List String) (ps qs : List (String × String)) : Prop :=
  ∀ k ∈ keys, lastValue? k ps = lastValue? k qs

instance (keys : List String) (ps qs : List (String × String)) : Decidable (SameOn keys ps qs) :=
  inferInstanceAs (Decidable (∀ k ∈ keys, lastValue? k ps = lastValue? k qs))

/-- The pairs of some lists as attributes of the graph, a statement each. -/
def assignments (lists : List AttrList) : List Statement :=
  (lists.flatMap AttrList.attributes).map .assign

mutual

/-- Two statements are the same but for attribute lists that say the same. -/
inductive Statement.Restated : Statement → Statement → Prop
  | assign (a : Attribute) : Statement.Restated (.assign a) (.assign a)
  /-- lists for the graph, put together in another way -/
  | graph {ls ms : List AttrList} :
      pairsOf ls = pairsOf ms → Statement.Restated (.attrs .graph ls) (.attrs .graph ms)
  | nodeDefaults {ls ms : List AttrList} :
      SameOn nodeKeys (pairsOf ls) (pairsOf ms) →
      Statement.Restated (.attrs .node ls) (.attrs .node ms)
  | edgeDefaults {ls ms : List AttrList} :
      SameOn edgeKeys (pairsOf ls) (pairsOf ms) →
      Statement.Restated (.attrs .edge ls) (.attrs .edge ms)
  | node (id : Word) {ls ms : List AttrList} :
      SameOn nodeKeys (pairsOf ls) (pairsOf ms) → Statement.Restated (.node id ls) (.node id ms)
  | edge {s t : Endpoint} {hs is : List Hop} {ls ms : List AttrList} :
      Endpoint.Restated s t → HopsRestated hs is → SameOn edgeKeys (pairsOf ls) (pairsOf ms) →
      Statement.Restated (.edge s hs ls) (.edge t is ms)
  | subgraph (name : Option Word) {b c : List Statement} :
      BodiesRestated b c → Statement.Restated (.subgraph name b) (.subgraph name c)

inductive Endpoint.Restated : Endpoint → Endpoint → Prop
  | node (id : Word) : Endpoint.Restated (.node id) (.node id)
  | subgraph (name : Option Word) {b c : List Statement} :
      BodiesRestated b c → Endpoint.Restated (.subgraph name b) (.subgraph name c)

/-- Two chains have the same operators and lead to ends that are the same but for attribute lists
that say the same. -/
inductive HopsRestated : List Hop → List Hop → Prop
  | nil : HopsRestated [] []
  | cons (op : EdgeOp) {e f : Endpoint} {hs is : List Hop} :
      Endpoint.Restated e f → HopsRestated hs is → HopsRestated (.via op e :: hs) (.via op f :: is)

/-- Two bodies are the same but for attribute lists that say the same; those for the graph may also
stand as statements of their own. -/
inductive BodiesRestated : List Statement → List Statement → Prop
  | nil : BodiesRestated [] []
  | cons {s t : Statement} {b c : List Statement} :
      Statement.Restated s t → BodiesRestated b c → BodiesRestated (s :: b) (t :: c)
  | spread (lists : List AttrList) {b c : List Statement} :
      BodiesRestated b c → BodiesRestated (.attrs .graph lists :: b) (assignments lists ++ c)

end

/-! ## Ways to say the same -/

/-- How attributes are put into lists does not matter for their pairs. -/
theorem pairsOf_gathered (lists : List AttrList) :
    pairsOf [⟨lists.flatMap AttrList.attributes⟩] = pairsOf lists := by
  unfold pairsOf
  rw [List.flatMap_singleton, List.map_flatMap]

theorem lastValue?_filter (k : String) (ps : List (String × String)) :
    lastValue? k (ps.filter fun p => p.1 = k) = lastValue? k ps := by
  induction ps with
  | nil => rfl
  | cons p ps ih =>
    rw [List.filter_cons, lastValue?]
    by_cases hp : p.1 = k
    · rw [if_pos (by simpa using hp), lastValue?, ih]
    · rw [if_neg (by simpa using hp), ih, if_neg hp, Option.or_none]

/-- The order of pairs with different names does not matter, nor do pairs with other names. -/
theorem sameOn_of_filter_eq {keys : List String} {ps qs : List (String × String)}
    (h : ∀ k ∈ keys, ps.filter (fun p => p.1 = k) = qs.filter fun p => p.1 = k) :
    SameOn keys ps qs := by
  intro k hk
  rw [← lastValue?_filter, h k hk, lastValue?_filter]

/-- A pair does not matter if it has another name. -/
theorem sameOn_of_notMem {keys : List String} (before : List (String × String))
    {p : String × String} (after : List (String × String)) (h : p.1 ∉ keys) :
    SameOn keys (before ++ p :: after) (before ++ after) := by
  apply sameOn_of_filter_eq
  intro k hk
  have hp : ¬ p.1 = k := fun he => h (he ▸ hk)
  rw [List.filter_append, List.filter_append, List.filter_cons, if_neg (by simpa using hp)]

/-- A pair does not matter if a later one has its name. -/
theorem sameOn_of_shadowed (keys : List String) (before : List (String × String))
    {p : String × String} {after : List (String × String)} (h : p.1 ∈ after.map Prod.fst) :
    SameOn keys (before ++ p :: after) (before ++ after) := by
  intro k _
  rw [lastValue?_append, lastValue?_append, lastValue?]
  by_cases hp : p.1 = k
  · obtain ⟨v, hv⟩ := exists_lastValue? (hp ▸ h)
    rw [hv]
    rfl
  · rw [if_neg hp, Option.or_none]

/-! ## Settling -/

/-- Two tables have the same values, for some names. -/
def Table.AgreeOn (keys : List String) (t u : Table String) : Prop :=
  ∀ k ∈ keys, t.get? k = u.get? k

theorem SameOn.ofPairs {keys : List String} {ps qs : List (String × String)}
    (h : SameOn keys ps qs) : (Table.ofPairs ps).AgreeOn keys (Table.ofPairs qs) := by
  intro k hk
  rw [Table.get?_ofPairs, Table.get?_ofPairs, h k hk]

theorem Table.AgreeOn.merge {keys : List String} {t u : Table String} (h : t.AgreeOn keys u)
    {ps qs : List (String × String)} (hs : SameOn keys ps qs) :
    (t.merge (ofPairs ps)).AgreeOn keys (u.merge (ofPairs qs)) := by
  intro k hk
  rw [get?_merge_ofPairs, get?_merge_ofPairs, hs k hk, h k hk]

section

variable {given given' defaults defaults' : Table String}

theorem NodeRecord.settleAll_congr (hgiven : given.AgreeOn nodeKeys given')
    (hdefaults : defaults.AgreeOn nodeKeys defaults') (r : NodeRecord) :
    settleAll given' defaults' r = settleAll given defaults r := by
  apply List.foldl_ext
  intro r k hk
  unfold settle
  rw [hgiven k hk, hdefaults k hk]

theorem edgeTable_congr (hgiven : given.AgreeOn edgeKeys given')
    (hdefaults : defaults.AgreeOn edgeKeys defaults') (source : String) (op : EdgeOp)
    (target : String) :
    edgeTable given' defaults' source op target = edgeTable given defaults source op target := by
  apply List.foldl_ext
  intro t k hk
  unfold settleEdge
  rw [hgiven k hk, hdefaults k hk]

theorem edgesBetween_congr (hgiven : given.AgreeOn edgeKeys given')
    (hdefaults : defaults.AgreeOn edgeKeys defaults') (ns : List Node) (sources : List Nat)
    (op : EdgeOp) (targets : List Nat) :
    edgesBetween ns given' defaults' sources op targets =
      edgesBetween ns given defaults sources op targets := by
  unfold edgesBetween Edge.make
  simp only [edgeTable_congr hgiven hdefaults]

end

/-! ## States in step -/

def Walk.withDefaults (t u : Table String) (w : Walk) : Walk :=
  { w with nodeDefaults := t, edgeDefaults := u }

/-- Two states are the same but for defaults, which have the same values for all that nodes and
edges can have. -/
inductive Walk.Agrees (v : Walk) : Walk → Prop
  | mk {t u : Table String} : v.nodeDefaults.AgreeOn nodeKeys t →
      v.edgeDefaults.AgreeOn edgeKeys u → v.Agrees (v.withDefaults t u)

/-- Two moves are the same but for pairs that say the same. -/
inductive Move.Agrees : Move → Move → Prop
  | assign (name value : String) : Move.Agrees (.assign name value) (.assign name value)
  | nodeDefaults {ps qs : List (String × String)} :
      SameOn nodeKeys ps qs → Move.Agrees (.nodeDefaults ps) (.nodeDefaults qs)
  | edgeDefaults {ps qs : List (String × String)} :
      SameOn edgeKeys ps qs → Move.Agrees (.edgeDefaults ps) (.edgeDefaults qs)
  | node (name : String) {ps qs : List (String × String)} :
      SameOn nodeKeys ps qs → Move.Agrees (.node name ps) (.node name qs)
  | mention (name : String) : Move.Agrees (.mention name) (.mention name)
  | connect (sources : List String) (op : EdgeOp) (targets : List String)
      {ps qs : List (String × String)} :
      SameOn edgeKeys ps qs →
      Move.Agrees (.connect sources op targets ps) (.connect sources op targets qs)

theorem Walk.Agrees.refl (w : Walk) : w.Agrees w := .mk (fun _ _ => rfl) (fun _ _ => rfl)

section

variable {v w : Walk} {t u : Table String}

theorem Walk.setAttr_withDefaults (name value : String) (w : Walk) :
    (w.withDefaults t u).setAttr name value = (w.setAttr name value).withDefaults t u := by
  unfold setAttr
  split <;> rfl

/-- A node is settled in the same way, up to the defaults that are carried along. -/
theorem Walk.settle_withDefaults {given given' : Table String}
    (hgiven : given.AgreeOn nodeKeys given') (hdefaults : w.nodeDefaults.AgreeOn nodeKeys t)
    (i : Nat) :
    (w.withDefaults t u).settle i given' = (w.settle i given).withDefaults t u := by
  have hnodes : (w.withDefaults t u).nodes = w.nodes := rfl
  unfold settle
  rw [hnodes]
  cases w.nodes[i]? with
  | none => rfl
  | some n =>
    have hsettle := NodeRecord.settleAll_congr hgiven hdefaults
      ⟨n.attrs, (w.given.get? n.name).getD []⟩
    dsimp only [withDefaults]
    rw [hsettle]

/-- Moves that say the same keep states in step. -/
theorem Move.Agrees.apply {m n : Move} (hm : m.Agrees n) (hv : v.Agrees w) :
    (m.apply v).Agrees (n.apply w) := by
  obtain ⟨ht, hu⟩ := hv
  rename_i t u
  cases hm with
  | assign name value =>
    show (v.setAttr name value).Agrees ((v.withDefaults t u).setAttr name value)
    rw [Walk.setAttr_withDefaults]
    refine .mk ?_ ?_
    · rw [Walk.setAttr_eq]
      exact ht
    · rw [Walk.setAttr_eq]
      exact hu
  | nodeDefaults hs => exact .mk (ht.merge hs) hu
  | edgeDefaults hs => exact .mk ht (hu.merge hs)
  | node name hs =>
    rename_i ps qs
    have ht : (v.touch name).nodeDefaults.AgreeOn nodeKeys t := ht
    show ((v.touch name).settle _ _).Agrees
      (((v.touch name).withDefaults t u).settle (v.placeOf name) (Table.ofPairs qs))
    rw [Walk.settle_withDefaults hs.ofPairs ht]
    refine .mk ?_ ?_
    · rw [Walk.settle_eq]
      exact ht
    · rw [Walk.settle_eq]
      exact hu
  | mention name => exact .mk ht hu
  | connect sources op targets hs =>
    rename_i ps qs
    have hedges := edgesBetween_congr hs.ofPairs hu v.nodes (sources.map v.placeOf) op
      (targets.map v.placeOf)
    have hconnect : (Move.connect sources op targets qs).apply (v.withDefaults t u) =
        ((Move.connect sources op targets ps).apply v).withDefaults t u :=
      congrArg (fun es => { v.withDefaults t u with edges := v.edges ++ es }) hedges
    rw [hconnect]
    exact .mk ht hu

end

theorem Move.Agrees.refusal?_eq {m n : Move} (h : m.Agrees n) (ls : Layouts) :
    n.refusal? ls = m.refusal? ls := by
  cases h <;> rfl

theorem Move.Agrees.mentions_eq {m n : Move} (h : m.Agrees n) : n.mentions = m.mentions := by
  cases h <;> rfl

/-! ## Runs in step -/

/-- Two walks end in the same way, in states that agree. -/
inductive EndsAgree :
    EStateM.Result UnknownLayout Walk Unit → EStateM.Result UnknownLayout Walk Unit → Prop
  | ok {v w : Walk} : v.Agrees w → EndsAgree (.ok () v) (.ok () w)
  | error (e : UnknownLayout) {v w : Walk} : v.Agrees w → EndsAgree (.error e v) (.error e w)

theorem play_agrees (ls : Layouts) {ms ns : List Move} (h : List.Forall₂ Move.Agrees ms ns)
    {v w : Walk} (hv : v.Agrees w) : EndsAgree (play ls ms v) (play ls ns w) := by
  induction h generalizing v w with
  | nil => exact .ok hv
  | cons hm _ ih =>
    unfold play
    rw [WalkM.bind_apply, WalkM.bind_apply, Move.play_apply, Move.play_apply, hm.refusal?_eq]
    rename_i m n _ _ _
    cases m.refusal? ls with
    | none => exact ih (hm.apply hv)
    | some layout =>
      have hname : w.graph.name? = v.graph.name? := by
        cases hv
        rfl
      rw [hname]
      exact .error _ hv

theorem courseMentions_eq_of_agrees {ms ns : List Move} (h : List.Forall₂ Move.Agrees ms ns) :
    courseMentions ns = courseMentions ms := by
  induction h with
  | nil => rfl
  | cons hm _ ih => rw [courseMentions_cons, courseMentions_cons, hm.mentions_eq, ih]

theorem members_eq_of_agrees {e f : Endpoint} (h : List.Forall₂ Move.Agrees e.course f.course) :
    f.members = e.members := by
  rw [f.members_eq, e.members_eq, courseMentions_eq_of_agrees h]

/-! ## Courses -/

theorem agrees_assigns (ps : List (String × String)) :
    List.Forall₂ Move.Agrees (ps.map fun p => Move.assign p.1 p.2)
      (ps.map fun p => .assign p.1 p.2) := by
  rw [List.forall₂_same]
  intro m hm
  obtain ⟨p, -, rfl⟩ := List.mem_map.1 hm
  exact .assign p.1 p.2

/-- The course of a list of statements that each assign an attribute. -/
theorem bodyCourse_assignments (lists : List AttrList) :
    bodyCourse (assignments lists) = (pairsOf lists).map fun p => .assign p.1 p.2 := by
  unfold assignments
  rw [← pairsOf_gathered, bodyCourse_map]
  unfold pairsOf
  rw [List.flatMap_singleton, List.map_map, List.map_eq_flatMap]
  rfl

mutual

theorem course_agrees : ∀ {s t : Statement}, s.Restated t →
    List.Forall₂ Move.Agrees s.course t.course
  | _, _, .assign a => .cons (.assign _ _) .nil
  | _, _, .graph h => by
    rw [Statement.course, Statement.course, h]
    exact agrees_assigns _
  | _, _, .nodeDefaults h => .cons (.nodeDefaults h) .nil
  | _, _, .edgeDefaults h => .cons (.edgeDefaults h) .nil
  | _, _, .node id h => .cons (.node id.meant h) .nil
  | _, _, .edge hsource hhops h => by
    have hcourse := endpoint_course_agrees hsource
    rw [Statement.course, Statement.course, members_eq_of_agrees hcourse]
    exact List.rel_append hcourse (hopCourse_agrees h _ hhops)
  | _, _, .subgraph _ h => bodyCourse_agrees h

theorem endpoint_course_agrees : ∀ {e f : Endpoint}, e.Restated f →
    List.Forall₂ Move.Agrees e.course f.course
  | _, _, .node id => .cons (.mention id.meant) .nil
  | _, _, .subgraph _ h => bodyCourse_agrees h

theorem hopCourse_agrees {ps qs : List (String × String)} (hs : SameOn edgeKeys ps qs)
    (sources : List String) : ∀ {hops hops' : List Hop}, HopsRestated hops hops' →
      List.Forall₂ Move.Agrees (hopCourse ps sources hops) (hopCourse qs sources hops')
  | _, _, .nil => .nil
  | _, _, .cons op htarget h => by
    have hcourse := endpoint_course_agrees htarget
    rw [hopCourse, hopCourse, members_eq_of_agrees hcourse]
    exact List.rel_append hcourse (.cons (.connect _ op _ hs) (hopCourse_agrees hs _ h))

theorem bodyCourse_agrees : ∀ {b c : List Statement}, BodiesRestated b c →
    List.Forall₂ Move.Agrees (bodyCourse b) (bodyCourse c)
  | _, _, .nil => .nil
  | _, _, .cons hs h => List.rel_append (course_agrees hs) (bodyCourse_agrees h)
  | _, _, .spread lists h => by
    rw [bodyCourse, bodyCourse_append, bodyCourse_assignments]
    exact List.rel_append (agrees_assigns _) (bodyCourse_agrees h)

end

/-! ## Batches -/

theorem Declaration.account_eq_of_restated {b c : List Statement} (h : BodiesRestated b c)
    (ls : Layouts) (kind : GraphKind) (name : Option Word) :
    account ls ⟨kind, name, b⟩ = account ls ⟨kind, name, c⟩ := by
  have hends := play_agrees ls (bodyCourse_agrees h)
    (Walk.Agrees.refl (Walk.start kind (name.map Word.meant) []))
  unfold account
  dsimp only [graphName]
  revert hends
  generalize play ls (bodyCourse b) (Walk.start kind (name.map Word.meant) []) = r
  generalize play ls (bodyCourse c) (Walk.start kind (name.map Word.meant) []) = s
  rintro (hv | ⟨e, hv⟩)
  · cases hv
    rfl
  · cases hv
    rfl

theorem interchangeable_of_bodiesRestated {b c : List Statement} (h : BodiesRestated b c) :
    Interchangeable b c := by
  intro ls kind name before after
  apply readFrom_congr
  intro index
  rw [Declaration.read_eq_account, Declaration.read_eq_account,
    Declaration.account_eq_of_restated h]
  rfl

/-! ## Main theorem -/

/-- Lists that say more than they have to, and a list for the graph:

    digraph { graph [rank=LR] ["_name"=x, rank=TB];
      node [label=l, width=1] [color=red, "label"=m];
      a [pos=p, layout=none, pos=q];
      { edge [style=bold, style=dotted]; a } -> b [_name=e] [label=x, dir=back] } -/
def wordy : Declaration where
  kind := .digraph
  name := none
  body := [
    .attrs .graph [⟨[⟨.text "rank", .text "LR"⟩]⟩,
      ⟨[⟨.text "\"_name\"", .text "x"⟩, ⟨.text "rank", .text "TB"⟩]⟩],
    .attrs .node [⟨[⟨.text "label", .text "l"⟩, ⟨.text "width", .text "1"⟩]⟩,
      ⟨[⟨.text "color", .text "red"⟩, ⟨.text "\"label\"", .text "m"⟩]⟩],
    .node (.text "a") [⟨[⟨.text "pos", .text "p"⟩, ⟨.text "layout", .text "none"⟩,
      ⟨.text "pos", .text "q"⟩]⟩],
    .edge (.subgraph none [
        .attrs .edge [⟨[⟨.text "style", .text "bold"⟩, ⟨.text "style", .text "dotted"⟩]⟩],
        .node (.text "a") []])
      [.via .directed (.node (.text "b"))]
      [⟨[⟨.text "_name", .text "e"⟩]⟩,
        ⟨[⟨.text "label", .text "x"⟩, ⟨.text "dir", .text "back"⟩]⟩]]

/-- The same in as few words as possible:

    digraph { rank=LR; "_name"=x; rank=TB;
      node [width=1, label=m];
      a [pos=q];
      { edge [style=dotted]; a } -> b [dir=back, label=x] } -/
def terse : Declaration where
  kind := .digraph
  name := none
  body := [
    .assign ⟨.text "rank", .text "LR"⟩,
    .assign ⟨.text "\"_name\"", .text "x"⟩,
    .assign ⟨.text "rank", .text "TB"⟩,
    .attrs .node [⟨[⟨.text "width", .text "1"⟩, ⟨.text "label", .text "m"⟩]⟩],
    .node (.text "a") [⟨[⟨.text "pos", .text "q"⟩]⟩],
    .edge (.subgraph none [
        .attrs .edge [⟨[⟨.text "style", .text "dotted"⟩]⟩],
        .node (.text "a") []])
      [.via .directed (.node (.text "b"))]
      [⟨[⟨.text "dir", .text "back"⟩, ⟨.text "label", .text "x"⟩]⟩]]

/-- A body that is restated, in any number of places at once, cannot be told apart by reading.
Pairs can be put into lists in any way.  For nodes and edges their order counts only among pairs of
one name, and neither a pair that a later one overrides counts nor one whose name is not looked
for. -/
theorem interchangeable_restated :
    (∀ b c : List Statement, BodiesRestated b c → Interchangeable b c) ∧
      (∀ lists : List AttrList, pairsOf [⟨lists.flatMap AttrList.attributes⟩] = pairsOf lists) ∧
      ∀ keys : List String,
        (∀ ps qs : List (String × String),
          (∀ k ∈ keys, ps.filter (fun p => p.1 = k) = qs.filter fun p => p.1 = k) →
            SameOn keys ps qs) ∧
        ∀ (before after : List (String × String)) (p : String × String),
          p.1 ∈ after.map Prod.fst ∨ p.1 ∉ keys →
            SameOn keys (before ++ p :: after) (before ++ after) := by
  refine ⟨fun _ _ h => interchangeable_of_bodiesRestated h, pairsOf_gathered, fun keys => ?_⟩
  refine ⟨fun _ _ h => sameOn_of_filter_eq h, ?_⟩
  rintro before after p (hlater | hother)
  · exact sameOn_of_shadowed keys before hlater
  · exact sameOn_of_notMem before after hother

/-- The name that the list for the graph gives is ignored as a statement too, and recorded alike. -/
theorem interchangeable_wordy_terse :
    readBatch .standard [.declaration wordy] = readBatch .standard [.declaration terse] ∧
      (readBatch .standard [.declaration wordy]).2 = .ok [terse.intended] := by
  have hrestated : BodiesRestated wordy.body terse.body :=
    .spread _ (.cons (.nodeDefaults (by decide +kernel)) (.cons (.node _ (by decide +kernel))
      (.cons (.edge
        (.subgraph _ (.cons (.edgeDefaults (by decide +kernel))
          (.cons (.node _ (by decide +kernel)) .nil)))
        (.cons _ (.node _) .nil) (by decide +kernel)) .nil)))
  have hread : readBatch .standard [.declaration wordy] =
      readBatch .standard [.declaration terse] :=
    interchangeable_restated.1 _ _ hrestated .standard .digraph none [] []
  refine ⟨hread, ?_⟩
  rw [hread]
  exact readBatch_intended (by decide +kernel)

end DotSemantics
