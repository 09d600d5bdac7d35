import DotSemantics.Proofs.Run

/-!
# A visit carries out a course

What the walk does with statements, ends of edges and hops, all of them nested in each other, is
to carry out their courses:

    visit ls s = play ls s.course                               (visit_eq_play)
    resolve ls e = play ls e.course, then the places of e.members   (resolve_eq_play)

A frame that is opened for a subgraph changes nothing else (`play_closeFrame`), and collects the
nodes that the subgraph mentions (`Walk.innermost_run_openFrame`).
-/

namespace DotSemantics

/-! ## What frames collect -/

theorem Table.putNew_of_mem {α : Type} {t : Table α} {k : String} (h : k ∈ t.keys) (v : α) :
    t.putNew k v = t := by
  unfold putNew
  rw [if_pos ((has_iff t k).2 h)]

theorem putEntry_of_notMem {α : Type} {k : String} {l : List (String × α)}
    (h : k ∉ l.map Prod.fst) (v : α) : putEntry k v l = l ++ [(k, v)] := by
  have hput := putEntry_append_of_notMem h v []
  rw [List.append_nil] at hput
  exact hput

theorem Table.putNew_of_notMem {α : Type} {t : Table α} {k : String} (h : k ∉ t.keys) (v : α) :
    t.putNew k v = ⟨t.entries ++ [(k, v)]⟩ := by
  unfold putNew put
  rw [if_neg (fun hk => h ((has_iff t k).1 hk)), putEntry_of_notMem h]

namespace Walk

/-- The frame that holds some nodes at their places. -/
def frameOf (w : Walk) (names : List String) : Table Nat :=
  ⟨names.map fun n => (n, w.placeOf n)⟩

@[simp] theorem keys_frameOf (w : Walk) (names : List String) : (w.frameOf names).keys = names := by
  show (names.map fun n => (n, w.placeOf n)).map Prod.fst = names
  rw [List.map_map]
  exact List.map_id names

theorem frameOf_congr {v w : Walk} {names : List String}
    (h : ∀ n ∈ names, v.placeOf n = w.placeOf n) : v.frameOf names = w.frameOf names := by
  unfold frameOf
  congr 1
  apply List.map_congr_left
  intro n hn
  rw [h n hn]

/-- A node that is touched gets into a frame at its place. -/
theorem putNew_frameOf {w : Walk} {names : List String} (h : ∀ n ∈ names, n ∈ w.places.keys)
    (name : String) :
    (w.frameOf names).putNew name (w.placeOf name) = (w.touch name).frameOf (addNew name names) := by
  have hstay : (w.touch name).frameOf names = w.frameOf names :=
    frameOf_congr fun n hn => placeOf_touch (h n hn) name
  by_cases hm : name ∈ names
  · rw [Table.putNew_of_mem (by simpa using hm)]
    unfold addNew
    rw [if_pos (by simpa using hm), hstay]
  · rw [Table.putNew_of_notMem (by simpa using hm)]
    unfold addNew
    rw [if_neg (by simpa using hm), ← hstay, ← placeOf_touch_self w name]
    unfold frameOf
    rw [List.map_append]
    rfl

end Walk

/-- What a move adds to an open frame. -/
def Move.extend (m : Move) (w : Walk) (f : Table Nat) : Table Nat :=
  m.mentions.foldl (fun f n => f.putNew n (w.placeOf n)) f

/-- What a course adds to an open frame. -/
def extendAll : List Move → Walk → Table Nat → Table Nat
  | [], _, f => f
  | m :: rest, w, f => extendAll rest (m.apply w) (m.extend w f)

namespace Walk

theorem frames_apply (m : Move) (w : Walk) : (m.apply w).frames = w.frames.map (m.extend w) := by
  have hid : w.frames.map (fun f => f) = w.frames := List.map_id w.frames
  cases m with
  | assign name value => exact (congrArg frames (setAttr_eq name value w)).trans hid.symm
  | node name ps =>
    show ((w.touch name).settle _ _).frames = _
    rw [settle_eq]
    rfl
  | mention name => rfl
  | _ => exact hid.symm

theorem frames_run (ms : List Move) (w : Walk) :
    (run ms w).frames = w.frames.map (extendAll ms w) := by
  induction ms generalizing w with
  | nil => exact (List.map_id w.frames).symm
  | cons m ms ih =>
    rw [run_cons, ih, frames_apply, List.map_map]
    rfl

theorem extend_frameOf {w : Walk} {names : List String} (h : ∀ n ∈ names, n ∈ w.places.keys)
    (m : Move) :
    m.extend w (w.frameOf names) = (m.apply w).frameOf (addAllNew m.mentions names) := by
  cases m with
  | assign name value =>
    exact (frameOf_congr fun n hn => placeOf_congr (setAttr_places name value w) (h n hn)).symm
  | node name ps =>
    have htouch : ∀ n ∈ addNew name names, n ∈ (w.touch name).places.keys := by
      intro n hn
      rw [mem_addNew] at hn
      rw [keys_places_touch, mem_addNew]
      exact hn.imp_right (h n)
    show (w.frameOf names).putNew name (w.placeOf name) =
      ((w.touch name).settle _ _).frameOf (addNew name names)
    rw [putNew_frameOf h]
    exact (frameOf_congr fun n hn => placeOf_congr (settle_places _ _ _) (htouch n hn)).symm
  | mention name => exact putNew_frameOf h name
  | _ => rfl

/-- A frame of nodes at their places stays one, and gets the nodes that a course mentions. -/
theorem extendAll_frameOf (ms : List Move) (w : Walk) (names : List String)
    (h : ∀ n ∈ names, n ∈ w.places.keys) :
    extendAll ms w (w.frameOf names) = (run ms w).frameOf (addAllNew (courseMentions ms) names) := by
  induction ms generalizing w names with
  | nil => rfl
  | cons m ms ih =>
    have hm : ∀ n ∈ addAllNew m.mentions names, n ∈ (m.apply w).places.keys := by
      intro n hn
      rw [mem_addAllNew] at hn
      rw [keys_places_apply, mem_addAllNew]
      exact hn.imp_right (h n)
    rw [extendAll, extend_frameOf h, ih _ _ hm, run_cons, courseMentions_cons, addAllNew_append]

/-- A frame that is opened before a course holds, after it, the nodes that the course mentions. -/
theorem innermost_run_openFrame (ms : List Move) (w : Walk) :
    (run ms w.openFrame).innermost =
      (distinct (courseMentions ms)).map (run ms w.openFrame).placeOf := by
  have hf : extendAll ms w.openFrame Table.empty =
      (run ms w.openFrame).frameOf (distinct (courseMentions ms)) :=
    extendAll_frameOf ms w.openFrame [] (by simp)
  unfold innermost
  rw [frames_run]
  show (extendAll ms w.openFrame Table.empty).entries.map Prod.snd = _
  rw [hf]
  show ((distinct (courseMentions ms)).map fun n => (n, _)).map Prod.snd = _
  rw [List.map_map]
  rfl

end Walk

/-! ## Frames change nothing else -/

/-- The same end of a walk in another state. -/
def mapEnd {α : Type} (f : Walk → Walk) :
    EStateM.Result UnknownLayout Walk α → EStateM.Result UnknownLayout Walk α
  | .ok a w => .ok a (f w)
  | .error e w => .error e (f w)

theorem Move.apply_closeFrame (m : Move) (w : Walk) :
    m.apply w.closeFrame = (m.apply w).closeFrame := by
  have htouch : ∀ name, w.closeFrame.touch name = (w.touch name).closeFrame := by
    intro name
    unfold Walk.touch Walk.closeFrame
    rw [List.map_tail]
    rfl
  have hsettle : ∀ i t (v : Walk), v.closeFrame.settle i t = (v.settle i t).closeFrame := by
    intro i t v
    have hnodes : v.closeFrame.nodes = v.nodes := rfl
    unfold Walk.settle
    rw [hnodes]
    cases v.nodes[i]? <;> rfl
  cases m with
  | assign name value =>
    show w.closeFrame.setAttr name value = (w.setAttr name value).closeFrame
    unfold Walk.setAttr
    split <;> rfl
  | node name ps =>
    show (w.closeFrame.touch name).settle _ _ = ((w.touch name).settle _ _).closeFrame
    rw [htouch, hsettle]
    rfl
  | mention name => exact htouch name
  | _ => rfl

/-- A change of the state of which no move takes notice is one of which no course does. -/
theorem play_mapEnd {f : Walk → Walk}
    (happly : ∀ (m : Move) (w : Walk), m.apply (f w) = f (m.apply w))
    (hname : ∀ w, (f w).graph.name? = w.graph.name?) (ls : Layouts) (ms : List Move) (w : Walk) :
    play ls ms (f w) = mapEnd f (play ls ms w) := by
  induction ms generalizing w with
  | nil => rfl
  | cons m ms ih =>
    unfold play
    rw [WalkM.bind_apply, WalkM.bind_apply, Move.play_apply, Move.play_apply]
    cases m.refusal? ls with
    | none =>
      show play ls ms (m.apply (f w)) = mapEnd f (play ls ms (m.apply w))
      rw [happly, ih]
    | some layout =>
      show EStateM.Result.error (UnknownLayout.mk layout (f w).graph.name?) (f w) =
        .error (UnknownLayout.mk layout w.graph.name?) (f w)
      rw [hname]

theorem play_closeFrame (ls : Layouts) (ms : List Move) (w : Walk) :
    play ls ms w.closeFrame = mapEnd Walk.closeFrame (play ls ms w) :=
  play_mapEnd Move.apply_closeFrame (fun _ => rfl) ls ms w

def WalkM.placesOf (names : List String) : WalkM (List Nat) := fun w => .ok (names.map w.placeOf) w

/-- A course inside a frame is the course, and gives the nodes that it mentions. -/
theorem inFrame_play (ls : Layouts) (ms : List Move) :
    WalkM.inFrame (play ls ms) =
      (do play ls ms; WalkM.placesOf (distinct (courseMentions ms))) := by
  funext w
  -- the outer state is the one with a frame opened and closed again
  have hclose : play ls ms w = mapEnd Walk.closeFrame (play ls ms w.openFrame) := by
    rw [← play_closeFrame]
    rfl
  rw [WalkM.bind_apply, hclose]
  unfold WalkM.inFrame
  cases hp : play ls ms w.openFrame with
  | ok _ w' =>
    obtain ⟨-, rfl⟩ := (play_eq_ok_iff _ _ _ _).1 hp
    show EStateM.Result.ok (run ms w.openFrame).innermost _ = _
    rw [Walk.innermost_run_openFrame]
    rfl
  | error e w' => rfl

/-! ## Courses and their mentions -/

mutual

theorem courseMentions_statement : ∀ s : Statement, courseMentions s.course = s.mentions
  | .assign a => rfl
  | .attrs .graph lists => by
    unfold Statement.course Statement.mentions courseMentions
    rw [List.flatMap_map]
    exact List.flatMap_eq_nil_iff.2 fun _ _ => rfl
  | .attrs .node _ => rfl
  | .attrs .edge _ => rfl
  | .node _ _ => rfl
  | .edge source hops lists => by
    rw [Statement.course, Statement.mentions, courseMentions_append,
      courseMentions_endpoint source, courseMentions_hops]
  | .subgraph _ body => courseMentions_body body

theorem courseMentions_endpoint : ∀ e : Endpoint, courseMentions e.course = e.mentions
  | .node _ => rfl
  | .subgraph _ body => courseMentions_body body

theorem courseMentions_hops (ps : List (String × String)) :
    ∀ (sources : List String) (hops : List Hop),
      courseMentions (hopCourse ps sources hops) = hopMentions hops
  | _, [] => rfl
  | _, .via _ target :: rest => by
    rw [hopCourse, hopMentions, courseMentions_append, courseMentions_cons,
      courseMentions_endpoint target, courseMentions_hops ps _ rest]
    rfl

theorem courseMentions_body : ∀ b : List Statement, courseMentions (bodyCourse b) = bodyMentions b
  | [] => rfl
  | s :: rest => by
    rw [bodyCourse, bodyMentions, courseMentions_append, courseMentions_statement s,
      courseMentions_body rest]

end

/-- What an end of an edge stands for can be told from its course. -/
theorem Endpoint.members_eq (e : Endpoint) : e.members = distinct (courseMentions e.course) := by
  rw [courseMentions_endpoint]
  rfl

/-! ## Visits -/

theorem setGraphAttr_eq_play (ls : Layouts) (name value : String) :
    setGraphAttr ls name value = (Move.assign name value).play ls := by
  funext w
  have hset : (Move.assign name value).apply w = w.setAttr name value := rfl
  rw [Move.play_apply, Move.refusal?_assign, hset]
  unfold setGraphAttr Walk.setAttr
  by_cases hname : name = layoutKey
  · subst hname
    have hmeta : metaKeys.contains layoutKey = false := by decide
    simp only [hmeta, if_true]
    cases ls.allows (Text.lower value) <;> rfl
  · simp only [hname, if_false]
    cases metaKeys.contains name <;> rfl

theorem play_singleton (ls : Layouts) (m : Move) : play ls [m] = m.play ls := by
  simp [play]

theorem setGraphAttrs_eq_play (ls : Layouts) (ps : List (String × String)) :
    setGraphAttrs ls ps = play ls (ps.map fun p => .assign p.1 p.2) := by
  induction ps with
  | nil => rfl
  | cons p ps ih =>
    rw [setGraphAttrs, setGraphAttr_eq_play, ih]
    rfl

/-- The names of a chain's sources stand for them at any later point. -/
theorem map_placeOf_run {w : Walk} {names : List String} (h : ∀ n ∈ names, n ∈ w.places.keys)
    (ms : List Move) : names.map (run ms w).placeOf = names.map w.placeOf := by
  apply List.map_congr_left
  intro n hn
  exact Walk.placeOf_run (h n hn) ms

/-- What an end of an edge stands for is known after its course, whatever was known before. -/
theorem mem_known_of_mem_members {e : Endpoint} {n : String} (h : n ∈ e.members)
    (known : List String) : n ∈ addAllNew (courseMentions e.course) known := by
  rw [mem_addAllNew, courseMentions_endpoint]
  exact Or.inl ((mem_distinct n _).1 h)

theorem mem_keys_of_mem_members {e : Endpoint} {n : String} (h : n ∈ e.members) (w : Walk) :
    n ∈ (run e.course w).places.keys := by
  rw [Walk.keys_places_run]
  exact mem_known_of_mem_members h w.places.keys

mutual

theorem visit_eq_play (ls : Layouts) : ∀ s : Statement, visit ls s = play ls s.course
  | .assign a => by
    rw [visit, setGraphAttr_eq_play, Statement.course, play_singleton]
  | .attrs .graph lists => setGraphAttrs_eq_play ls (pairsOf lists)
  | .attrs .node lists => by
    rw [visit, Statement.course, play_singleton]
    rfl
  | .attrs .edge lists => by
    rw [visit, Statement.course, play_singleton]
    rfl
  | .node id lists => by
    rw [visit, Statement.course, play_singleton]
    rfl
  | .edge source hops lists => by
    funext w
    rw [visit, Statement.course, play_append, resolve_eq_play ls source, bind_assoc,
      WalkM.bind_apply, WalkM.bind_apply]
    -- a source that fails ends the visit, else the chain starts from the names of its members,
    -- which have places by now
    cases hp : play ls source.course w with
    | error e w' => rfl
    | ok _ w' =>
      obtain ⟨-, rfl⟩ := (play_eq_ok_iff _ _ _ _).1 hp
      exact follow_eq_play ls (pairsOf lists) hops source.members (run source.course w)
        fun n hn => mem_keys_of_mem_members hn w
  | .subgraph _ body => by
    rw [visit, Statement.course, visitAll_eq_play ls body, inFrame_play, bind_assoc]
    funext w
    rw [WalkM.bind_apply]
    cases play ls (bodyCourse body) w <;> rfl

/-- An end of an edge is resolved by carrying out its course, and stands for its members. -/
theorem resolve_eq_play (ls : Layouts) :
    ∀ e : Endpoint, resolve ls e = (do play ls e.course; WalkM.placesOf e.members)
  | .node id => by
    funext w
    rw [resolve, Endpoint.course, play_singleton]
    show EStateM.Result.ok [w.placeOf id.meant] (w.touch id.meant) =
      .ok [(w.touch id.meant).placeOf id.meant] (w.touch id.meant)
    rw [Walk.placeOf_touch_self]
  | .subgraph _ body => by
    rw [resolve, Endpoint.course, visitAll_eq_play ls body, inFrame_play, courseMentions_body]
    rfl

/-- A chain is followed from known sources by carrying out the course of its hops. -/
theorem follow_eq_play (ls : Layouts) (ps : List (String × String)) :
    ∀ (hops : List Hop) (names : List String) (w : Walk), (∀ n ∈ names, n ∈ w.places.keys) →
      follow ls (Table.ofPairs ps) (names.map w.placeOf) hops w =
        play ls (hopCourse ps names hops) w
  | [], _, _, _ => rfl
  | .via op target :: rest, names, w, h => by
    rw [follow, hopCourse, play_append, resolve_eq_play ls target, bind_assoc, WalkM.bind_apply,
      WalkM.bind_apply]
    cases hp : play ls target.course w with
    | error e w' => rfl
    | ok _ w' =>
      obtain ⟨-, rfl⟩ := (play_eq_ok_iff _ _ _ _).1 hp
      -- the places of the sources were found before the target was visited, and still hold
      rw [← map_placeOf_run h target.course]
      exact follow_eq_play ls ps rest target.members
        ((Move.connect names op target.members ps).apply (run target.course w))
        fun n hn => mem_keys_of_mem_members hn w

theorem visitAll_eq_play (ls : Layouts) :
    ∀ b : List Statement, visitAll ls b = play ls (bodyCourse b)
  | [] => rfl
  | s :: rest => by
    rw [visitAll, bodyCourse, play_append, visit_eq_play ls s, visitAll_eq_play ls rest]

end

end DotSemantics
