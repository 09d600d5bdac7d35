import DotSemantics.Proofs.Sites

/-!
# Chains that are cut

A chain can be cut at a node in its middle.  The part behind the cut is a chain of its own that
starts from the node, with the attributes of the whole chain once more:

    a -> b -> c [x=1]    as    a -> b [x=1]; b -> c [x=1]           (interchangeable_cut)

In the course this adds nothing but a second mention of the node, right behind the hop that leads to
it.  By then the node is known, and every open frame has it (`Walk.Knows`), so that to mention it
again does nothing (`Walk.touch_of_knows`).
-/

namespace DotSemantics

/-! ## Nodes that are mentioned again -/

namespace Walk

/-- A name has a place, and stands in every open frame. -/
structure Knows (w : Walk) (name : String) : Prop where
  place : name ∈ w.places.keys
  frames : ∀ f ∈ w.frames, name ∈ f.keys

theorem knows_touch (w : Walk) (name : String) : (w.touch name).Knows name := by
  constructor
  · rw [keys_places_touch, mem_addNew]
    exact Or.inl rfl
  · intro f hf
    obtain ⟨f', -, rfl⟩ := List.mem_map.1 hf
    rw [Table.keys_putNew_eq_addNew, mem_addNew]
    exact Or.inl rfl

/-- The mention of a node that is known everywhere does nothing. -/
theorem touch_of_knows {w : Walk} {name : String} (h : w.Knows name) : w.touch name = w := by
  have hhas : w.places.has name = true := (Table.has_iff _ _).2 h.place
  have hframes : w.frames.map (fun f => f.putNew name (w.placeOf name)) = w.frames := by
    calc w.frames.map (fun f => f.putNew name (w.placeOf name))
        = w.frames.map fun f => f :=
          List.map_congr_left fun f hf => Table.putNew_of_mem (h.frames f hf) _
      _ = w.frames := List.map_id _
  unfold touch
  rw [if_pos hhas, Table.putNew_of_mem h.place, hframes]

/-- A hop leaves all places and all frames as they are. -/
theorem Knows.connect {w : Walk} {name : String} (h : w.Knows name) (values : Table String)
    (sources : List Nat) (op : EdgeOp) (targets : List Nat) :
    (w.connect values sources op targets).Knows name := ⟨h.place, h.frames⟩

end Walk

/-- Right behind the hop that leads to a node, the mention of the node does nothing. -/
theorem play_mention_again (ls : Layouts) (name : String) (sources : List String) (op : EdgeOp)
    (targets : List String) (ps : List (String × String)) (rest : List Move) :
    play ls (.mention name :: .connect sources op targets ps :: .mention name :: rest) =
      play ls (.mention name :: .connect sources op targets ps :: rest) := by
  funext w
  have hknows := (w.knows_touch name).connect (Table.ofPairs ps)
    (sources.map (w.touch name).placeOf) op (targets.map (w.touch name).placeOf)
  exact congrArg (play ls rest) (Walk.touch_of_knows hknows)

/-! ## Courses of chains -/

/-- The course of a chain up to a hop, and behind it.  What stands before the hop does not hang on
what stands behind it, and what stands behind it starts from the end that the hop leads to. -/
theorem exists_hopCourse_split (ps : List (String × String)) (op : EdgeOp) (target : Endpoint)
    (before : List Hop) (sources : List String) :
    ∃ (front : List Move) (last : List String), ∀ after : List Hop,
      hopCourse ps sources (before ++ .via op target :: after) =
        front ++ (target.course ++ .connect last op target.members ps ::
          hopCourse ps target.members after) := by
  induction before generalizing sources with
  | nil => exact ⟨[], sources, fun _ => rfl⟩
  | cons hop before ih =>
    obtain ⟨op', e⟩ := hop
    obtain ⟨front, last, hfront⟩ := ih e.members
    refine ⟨e.course ++ .connect sources op' e.members ps :: front, last, fun after => ?_⟩
    rw [List.cons_append, hopCourse, hfront, List.append_assoc]
    rfl

/-! ## Main theorem -/

/-- A chain that is cut at a node is walked over as the whole chain is. -/
theorem visitAll_cut (ls : Layouts) (source : Endpoint) (before : List Hop) (op : EdgeOp)
    (id : Word) (after : List Hop) (lists : List AttrList) :
    visitAll ls [.edge source (before ++ .via op (.node id) :: after) lists] =
      visitAll ls [.edge source (before ++ [.via op (.node id)]) lists,
        .edge (.node id) after lists] := by
  obtain ⟨front, last, hsplit⟩ := exists_hopCourse_split (pairsOf lists) op (.node id) before
    source.members
  have hwhole : bodyCourse [.edge source (before ++ .via op (.node id) :: after) lists] =
      (source.course ++ front) ++ .mention id.meant ::
        .connect last op [id.meant] (pairsOf lists) ::
          hopCourse (pairsOf lists) [id.meant] after := by
    simp only [bodyCourse, Statement.course, hsplit, List.append_assoc, List.append_nil]
    rfl
  have hcut : bodyCourse [.edge source (before ++ [.via op (.node id)]) lists,
        .edge (.node id) after lists] =
      (source.course ++ front) ++ .mention id.meant ::
        .connect last op [id.meant] (pairsOf lists) :: .mention id.meant ::
          hopCourse (pairsOf lists) [id.meant] after := by
    simp only [bodyCourse, Statement.course, hsplit, List.append_assoc, List.append_nil]
    rfl
  rw [visitAll_eq_play, visitAll_eq_play, hwhole, hcut, play_append ls (source.course ++ front),
    play_append ls (source.course ++ front), play_mention_again]

/-- At every site, a chain can be cut at any node that one of its hops leads to: the two parts, each
with the attributes of the chain, cannot be told apart from the whole by reading. -/
theorem interchangeable_cut (site : Site) (source : Endpoint) (before : List Hop) (op : EdgeOp)
    (id : Word) (after : List Hop) (lists : List AttrList) :
    Interchangeable (site.fill [.edge source (before ++ .via op (.node id) :: after) lists])
      (site.fill [.edge source (before ++ [.via op (.node id)]) lists,
        .edge (.node id) after lists]) := by
  apply interchangeable_of_visitAll_eq
  intro ls
  exact site.visitAll_fill (visitAll_cut ls source before op id after lists)

end DotSemantics
