import DotSemantics.Proofs.Sites

/-!
# Arriving at a site

A walk over a body that is filled at a site comes to the site in a state that does not hang on what
stands there (`Site.reach`).  On the way it opens a frame for each subgraph around the site.  An
early end at the site is one of the whole walk, which closes these frames again:

    visitAll ls b v = .error e v' →
      visitAll ls (site.fill b) w = .error e (v'.closeFrames site.depth)
                                                              (Site.visitAll_fill_of_error)
-/

namespace DotSemantics

/-! ## The way to a site -/

/-- The walk over a statement up to the body that it is around: what stands before the body in a
chain is walked over, and a frame is opened. -/
def Enclosure.enter (ls : Layouts) : Enclosure → WalkM Unit
  | statement _ => WalkM.step Walk.openFrame
  | source _ _ _ => WalkM.step Walk.openFrame
  | target s before _ _ _ lists => do
    let sources ← resolve ls s
    follow ls (valuesOf lists) sources before
    WalkM.step Walk.openFrame

/-- The walk over a body up to a site in it. -/
def Site.reach (ls : Layouts) : Site → WalkM Unit
  | here before _ => visitAll ls before
  | inside before around inner _ => do
    visitAll ls before
    around.enter ls
    inner.reach ls

/-- How many subgraphs are around a site. -/
def Site.depth : Site → Nat
  | here _ _ => 0
  | inside _ _ inner _ => inner.depth + 1

def Walk.closeFrames (count : Nat) (w : Walk) : Walk := { w with frames := w.frames.drop count }

theorem Walk.closeFrame_closeFrames (count : Nat) (w : Walk) :
    (w.closeFrames count).closeFrame = w.closeFrames (count + 1) := by
  unfold closeFrame closeFrames
  simp only [List.tail_drop]

/-! ## Early ends -/

/-- A sequence gives a result just when its first part does, and what follows it does from there. -/
theorem WalkM.bind_eq_ok_iff {α β : Type} (m : WalkM α) (k : α → WalkM β) (w v : Walk) (b : β) :
    (m >>= k) w = .ok b v ↔ ∃ a w', m w = .ok a w' ∧ k a w' = .ok b v := by
  rw [bind_apply]
  cases m w with
  | ok a w' => simp
  | error e w' => simp

theorem WalkM.inFrame_of_error {m : WalkM Unit} {w v : Walk} {e : UnknownLayout}
    (h : m w.openFrame = .error e v) : inFrame m w = .error e v.closeFrame := by
  unfold inFrame
  rw [h]

/-- Behind some hops, a chain goes on from the nodes that they have come to. -/
theorem exists_follow_append (ls : Layouts) (values : Table String) (before : List Hop)
    (sources : List Nat) (w : Walk) {v : Walk} (h : follow ls values sources before w = .ok () v) :
    ∃ reached, ∀ after,
      follow ls values sources (before ++ after) w = follow ls values reached after v := by
  induction before generalizing sources w with
  | nil =>
    cases h
    exact ⟨sources, fun _ => rfl⟩
  | cons hop before ih =>
    obtain ⟨op, target⟩ := hop
    rw [follow, WalkM.bind_eq_ok_iff] at h
    obtain ⟨targets, w', htargets, hrest⟩ := h
    obtain ⟨reached, hreached⟩ := ih targets (w'.connect values sources op targets) hrest
    refine ⟨reached, fun after => ?_⟩
    rw [← hreached after, List.cons_append, follow, WalkM.bind_apply, htargets]
    rfl

/-- An early end in the body of a subgraph is one of the statement around it. -/
theorem Enclosure.visit_close_of_error {ls : Layouts} {around : Enclosure} {w v v' : Walk}
    (hv : around.enter ls w = .ok () v) {b : List Statement} {e : UnknownLayout}
    (hb : visitAll ls b v = .error e v') : visit ls (around.close b) w = .error e v'.closeFrame := by
  cases around with
  | statement name =>
    cases hv
    rw [close, visit, WalkM.bind_apply, WalkM.inFrame_of_error hb]
  | source name hops lists =>
    cases hv
    rw [close, visit, WalkM.bind_apply, resolve, WalkM.inFrame_of_error hb]
  | target s before op name after lists =>
    rw [enter, WalkM.bind_eq_ok_iff] at hv
    obtain ⟨sources, w₁, hsources, hv⟩ := hv
    rw [WalkM.bind_eq_ok_iff] at hv
    obtain ⟨⟨⟩, w₂, hbefore, hv⟩ := hv
    cases hv
    obtain ⟨reached, hreached⟩ := exists_follow_append ls (valuesOf lists) before sources w₁ hbefore
    rw [close, visit, WalkM.bind_apply, hsources]
    show follow ls (valuesOf lists) sources _ w₁ = _
    rw [hreached, follow, WalkM.bind_apply, resolve, WalkM.inFrame_of_error hb]

/-- An early end at a site is one of the walk over the whole body, and closes the frames that were
opened on the way to the site. -/
theorem Site.visitAll_fill_of_error {ls : Layouts} {site : Site} {w v v' : Walk}
    (hv : site.reach ls w = .ok () v) {b : List Statement} {e : UnknownLayout}
    (hb : visitAll ls b v = .error e v') :
    visitAll ls (site.fill b) w = .error e (v'.closeFrames site.depth) := by
  induction site generalizing w with
  | here before after =>
    have hbefore : visitAll ls before w = .ok () v := hv
    have hsite : visitAll ls (before ++ b) w = .error e v' := by
      rw [visitAll_append, WalkM.bind_apply, hbefore]
      exact hb
    rw [fill, visitAll_append, WalkM.bind_apply, hsite]
    rfl
  | inside before around inner after ih =>
    rw [reach, WalkM.bind_eq_ok_iff] at hv
    obtain ⟨⟨⟩, w₁, hbefore, hv⟩ := hv
    rw [WalkM.bind_eq_ok_iff] at hv
    obtain ⟨⟨⟩, w₂, henter, hinner⟩ := hv
    have hvisit := around.visit_close_of_error henter (ih hinner)
    rw [fill, visitAll_append, WalkM.bind_apply, hbefore]
    show visitAll ls (around.close (inner.fill b) :: after) w₁ = _
    rw [visitAll, WalkM.bind_apply, hvisit, depth, Walk.closeFrame_closeFrames]

end DotSemantics
