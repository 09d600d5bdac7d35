import DotSemantics.Proofs.Arrivals
import DotSemantics.Proofs.Edges
import DotSemantics.Proofs.NodeAttributes

/-!
# Coherent states

The state of a walk says many things twice: which nodes there are is told by the list of nodes, by
the table of places, by what was given outright and by the frames.  A state is coherent if these
agree (`Walk.Coherent`).  Each move keeps a state coherent (`Walk.Coherent.apply`), and so do a
course, a part of one that ends at a refused move, and the visit of a statement:

    w.Coherent → (endOf (visit ls s w)).Coherent               (Walk.Coherent.visit)

A course adds to each open frame the nodes that it mentions and the frame does not have, at the end
and in the order of their first mentions (`Walk.Coherent.frames_run`).  So a walk is in a coherent
state wherever it comes to a statement, at any depth (`Site.coherent_reach`), and an early end there
closes the frames that were opened on the way (`Site.visitAll_fill_of_error`).
-/

namespace DotSemantics

/-! ## Lists -/

/-- Texts are added without those that the list has. -/
theorem addAllNew_eq_append_filter (ss l : List String) :
    addAllNew ss l = l ++ (distinct ss).filter fun s => s ∉ l := by
  induction ss generalizing l with
  | nil => simp [addAllNew, distinct]
  | cons s ss ih =>
    have hcons : ∀ l, addAllNew (s :: ss) l = addAllNew ss (addNew s l) := fun _ => rfl
    have hdistinct : distinct (s :: ss) = s :: (distinct ss).filter fun x => x ∉ [s] := by
      show addAllNew ss (addNew s []) = _
      rw [ih]
      rfl
    rw [hcons, ih, hdistinct]
    by_cases hs : s ∈ l
    · have hadd : addNew s l = l := if_pos (List.contains_iff_mem.2 hs)
      rw [hadd, List.filter_cons_of_neg (by simpa using hs), List.filter_filter]
      congr 1
      apply List.filter_congr
      intro x _
      by_cases hx : x = s
      · simp [hx, hs]
      · simp [hx]
    · have hadd : addNew s l = l ++ [s] := if_neg fun h => hs (List.contains_iff_mem.1 h)
      rw [hadd, List.filter_cons_of_pos (by simpa using hs), List.filter_filter, List.append_assoc]
      congr 1
      show s :: _ = s :: _
      congr 1
      apply List.filter_congr
      intro x _
      simp

/-! ## Records -/

namespace NodeRecord

/-- What was given outright is an attribute that a node can have, and that the node has. -/
structure Backed (r : NodeRecord) : Prop where
  admitted : ∀ k ∈ r.given, k ∈ nodeKeys
  present : ∀ k ∈ r.given, k ∈ r.attrs.keys

theorem Backed.settleAll {r : NodeRecord} (h : r.Backed) (given defaults : Table String) :
    (r.settleAll given defaults).Backed := by
  constructor
  · intro k hk
    rcases (mem_given_foldl nodeKeys r k).1 hk with ⟨hkey, -⟩ | hold
    · exact hkey
    · exact h.admitted k hold
  · intro k hk
    show k ∈ (nodeKeys.foldl (settle given defaults) r).attrs.keys
    rw [keys_foldl h.present, mem_addAllNew]
    rcases (mem_given_foldl nodeKeys r k).1 hk with ⟨hkey, hgiven⟩ | hold
    · exact Or.inl (List.mem_filter.2 ⟨hkey, by rw [hgiven, Bool.true_or]⟩)
    · exact Or.inr (h.present k hold)

end NodeRecord

namespace Walk

/-! ## Coherence -/

/-- The table of places is in step with the list of nodes, and edges end in it; what was given
outright is among the attributes of nodes that are there; each frame holds nodes at their places,
and all nodes of the frames inside it. -/
structure Coherent (w : Walk) : Prop extends Sound w where
  known : ∀ name ∈ w.given.keys, name ∈ w.places.keys
  given : ∀ name ks, w.given.get? name = some ks →
    ∀ n ∈ w.nodes, n.name = name → ∀ k ∈ ks, k ∈ nodeKeys ∧ k ∈ n.attrs.keys
  frames : ∀ f ∈ w.frames, f.Nodup ∧ ∀ e ∈ f.entries, w.places.get? e.1 = some e.2
  nested : w.frames.Pairwise fun inner outer => ∀ name ∈ inner.keys, name ∈ outer.keys

theorem coherent_start (kind : GraphKind) (name : Option String) (log : List LogEntry) :
    (start kind name log).Coherent where
  toSound := sound_start kind name log
  known := by simp [start, Table.empty, Table.keys]
  given := by simp [start, Table.empty, Table.get?, entryAt?]
  frames := by simp [start]
  nested := List.Pairwise.nil

/-! ### What was given outright -/

/-- In a sound state, what was given outright is in order if the record of each node is backed. -/
theorem forall_backed_iff {w : Walk} (h : w.Sound) (hknown : ∀ name ∈ w.given.keys, name ∈ w.names) :
    (∀ name, (w.recordOf name).Backed) ↔ ∀ name ks, w.given.get? name = some ks →
      ∀ n ∈ w.nodes, n.name = name → ∀ k ∈ ks, k ∈ nodeKeys ∧ k ∈ n.attrs.keys := by
  constructor
  · rintro hbacked name ks hks n hn rfl k hk
    have hmem : k ∈ (w.recordOf n.name).given := by
      unfold recordOf
      rw [hks]
      exact hk
    refine ⟨(hbacked n.name).admitted k hmem, ?_⟩
    rw [← h.attrs_recordOf hn]
    exact (hbacked n.name).present k hmem
  · intro hgiven name
    cases hks : w.given.get? name with
    | none =>
      have hnil : (w.recordOf name).given = [] := by
        unfold recordOf
        rw [hks]
        rfl
      constructor <;> rw [hnil] <;> simp
    | some ks =>
      have heq : (w.recordOf name).given = ks := by
        unfold recordOf
        rw [hks]
        rfl
      obtain ⟨n, hn, rfl⟩ := List.mem_map.1 (hknown name (Table.mem_keys_of_get? hks))
      constructor
      · rw [heq]
        exact fun k hk => (hgiven _ ks hks n hn rfl k hk).1
      · rw [heq, h.attrs_recordOf hn]
        exact fun k hk => (hgiven _ ks hks n hn rfl k hk).2

theorem backed_apply {w : Walk} (h : w.Sound) (hbacked : ∀ name, (w.recordOf name).Backed)
    (m : Move) (name : String) : ((m.apply w).recordOf name).Backed := by
  rw [recordOf_apply h]
  cases m with
  | node n ps =>
    show NodeRecord.Backed (if name = n then _ else _)
    split
    · exact (hbacked name).settleAll _ _
    · exact hbacked name
  | _ => exact hbacked name

/-- A move gives something outright only to a node that it mentions. -/
theorem keys_given_apply {w : Walk} (h : w.Sound) (m : Move) :
    ∀ name ∈ (m.apply w).given.keys, name ∈ w.given.keys ∨ name ∈ m.mentions := by
  intro name hname
  cases m with
  | assign n v =>
    rw [Move.apply, setAttr_eq] at hname
    exact Or.inl hname
  | node n ps =>
    have hmem : n ∈ (w.touch n).names := by
      rw [names_touch h, mem_addNew]
      exact Or.inl rfl
    obtain ⟨node, hget, rfl⟩ := (h.touch n).exists_node hmem
    rw [placeOf_touch_self] at hget
    rw [Move.apply, (settle_of_getElem? hget _).2, Table.keys_put_eq_addNew, mem_addNew] at hname
    rcases hname with rfl | hold
    · exact Or.inr List.mem_cons_self
    · exact Or.inl hold
  | _ => exact Or.inl hname

/-! ### Frames -/

theorem frameOf_entries {w : Walk} {names : List String} (h : ∀ n ∈ names, n ∈ w.places.keys) :
    ∀ e ∈ (w.frameOf names).entries, w.places.get? e.1 = some e.2 := by
  intro e he
  obtain ⟨n, hn, rfl⟩ := List.mem_map.1 he
  obtain ⟨i, hi⟩ := exists_place (h n hn)
  show w.places.get? n = some (w.placeOf n)
  rw [placeOf_eq_of_get? hi, hi]

namespace Coherent

variable {w : Walk}

theorem keys_frame (h : w.Coherent) {f : Table Nat} (hf : f ∈ w.frames) :
    ∀ n ∈ f.keys, n ∈ w.places.keys := by
  intro n hn
  obtain ⟨e, he, rfl⟩ := List.mem_map.1 hn
  exact Table.mem_keys_of_get? ((h.frames f hf).2 e he)

theorem frame_eq (h : w.Coherent) {f : Table Nat} (hf : f ∈ w.frames) : w.frameOf f.keys = f := by
  have hentries : f.keys.map (fun n => (n, w.placeOf n)) = f.entries := by
    unfold Table.keys
    rw [List.map_map]
    calc f.entries.map ((fun n => (n, w.placeOf n)) ∘ Prod.fst)
        = f.entries.map fun e => e := List.map_congr_left fun e he =>
          Prod.ext rfl (placeOf_eq_of_get? ((h.frames f hf).2 e he))
      _ = f.entries := List.map_id _
  exact congrArg Table.mk hentries

/-- A course adds to each open frame the nodes that it mentions, at their places. -/
theorem frames_run (h : w.Coherent) (ms : List Move) :
    (run ms w).frames =
      w.frames.map fun f => (run ms w).frameOf (addAllNew (courseMentions ms) f.keys) := by
  rw [Walk.frames_run]
  apply List.map_congr_left
  intro f hf
  rw [← extendAll_frameOf ms w f.keys (h.keys_frame hf), h.frame_eq hf]

/-! ### Moves and courses -/

theorem apply (h : w.Coherent) {m : Move} (hm : ∀ n ∈ m.ends, n ∈ w.names) :
    (m.apply w).Coherent := by
  have hsound := h.toSound.apply hm
  have hnames := names_apply h.toSound m
  have hknown : ∀ name ∈ (m.apply w).given.keys, name ∈ (m.apply w).names := by
    intro name hname
    rw [hnames, mem_addAllNew, ← h.keys_places]
    exact (keys_given_apply h.toSound m name hname).symm.imp_right (h.known name)
  have hbacked := (forall_backed_iff h.toSound (h.keys_places ▸ h.known)).2 h.given
  have hframes := h.frames_run [m]
  have hmentions : courseMentions [m] = m.mentions := List.append_nil _
  rw [hmentions] at hframes
  change (m.apply w).frames = w.frames.map fun f => (m.apply w).frameOf _ at hframes
  refine ⟨hsound, hsound.keys_places ▸ hknown,
    (forall_backed_iff hsound hknown).1 (backed_apply h.toSound hbacked m), ?_, ?_⟩
  · rw [hframes, List.forall_mem_map]
    intro f hf
    constructor
    · unfold Table.Nodup
      rw [keys_frameOf]
      exact nodup_addAllNew (h.frames f hf).1 _
    · apply frameOf_entries
      intro n hn
      rw [mem_addAllNew] at hn
      rw [keys_places_apply, mem_addAllNew]
      exact hn.imp_right (h.keys_frame hf n)
  · rw [hframes, List.pairwise_map]
    refine h.nested.imp fun {inner outer} hsub name hname => ?_
    rw [keys_frameOf, mem_addAllNew] at hname ⊢
    exact hname.imp_right (hsub name)

theorem run (h : w.Coherent) {ms : List Move} (hg : Grounded w.names ms) :
    (run ms w).Coherent := by
  induction ms generalizing w with
  | nil => exact h
  | cons m ms ih =>
    exact ih (h.apply hg.1) (names_apply h.toSound m ▸ hg.2)

/-- A new frame is empty, and so inside all others. -/
theorem openFrame (h : w.Coherent) : w.openFrame.Coherent where
  places := h.places
  nodup := h.nodup
  ends := h.ends
  known := h.known
  given := h.given
  frames := List.forall_mem_cons.2 ⟨⟨List.nodup_nil, by simp [Table.empty]⟩, h.frames⟩
  nested := List.pairwise_cons.2 ⟨by simp [Table.empty, Table.keys], h.nested⟩

end Coherent

end Walk

/-! ## Visits -/

theorem grounded_front {known : List String} {ms ns : List Move} (h : Grounded known ns)
    (hfront : ms <+: ns) : Grounded known ms := by
  induction ms generalizing known ns with
  | nil => trivial
  | cons m ms ih =>
    obtain ⟨rest, rfl⟩ := hfront
    exact ⟨h.1, ih h.2 (List.prefix_append ms rest)⟩

/-- A course ends behind some of its moves, even if it ends early. -/
theorem exists_prefix_endOf_play (ls : Layouts) (ms : List Move) (w : Walk) :
    ∃ front, front <+: ms ∧ endOf (play ls ms w) = run front w := by
  induction ms generalizing w with
  | nil => exact ⟨[], List.prefix_rfl, rfl⟩
  | cons m ms ih =>
    unfold play
    rw [WalkM.bind_apply, Move.play_apply]
    cases m.refusal? ls with
    | none =>
      obtain ⟨front, hfront, hend⟩ := ih (m.apply w)
      exact ⟨m :: front, (List.prefix_cons_inj m).2 hfront, hend⟩
    | some layout => exact ⟨[], List.nil_prefix, rfl⟩

namespace Walk

/-- A frame with those of some nodes that it does not have behind its own, each at the place of its
name. -/
def extended (w : Walk) (names : List String) (f : Table Nat) : Table Nat :=
  ⟨f.entries ++ ((distinct names).filter fun n => n ∉ f.keys).map fun n => (n, w.names.idxOf n)⟩

namespace Coherent

variable {w : Walk}

/-- A visit keeps a state coherent, whether or not it ends early. -/
theorem visit (h : w.Coherent) (ls : Layouts) (s : Statement) :
    (endOf (visit ls s w)).Coherent := by
  rw [visit_eq_play]
  obtain ⟨front, hfront, hend⟩ := exists_prefix_endOf_play ls s.course w
  rw [hend]
  exact h.run (grounded_front (grounded_statement s w.names) hfront)

theorem frames_run_extended (h : w.Coherent) {ms : List Move} (hg : Grounded w.names ms) :
    (DotSemantics.run ms w).frames =
      w.frames.map ((DotSemantics.run ms w).extended (courseMentions ms)) := by
  rw [h.frames_run]
  apply List.map_congr_left
  intro f hf
  have hold : f.keys.map (fun n => (n, (DotSemantics.run ms w).placeOf n)) = f.entries := by
    rw [← congrArg Table.entries (h.frame_eq hf)]
    apply List.map_congr_left
    intro n hn
    rw [placeOf_run (h.keys_frame hf n hn)]
  unfold frameOf extended
  rw [addAllNew_eq_append_filter, List.map_append, hold]
  congr 3
  funext n
  rw [(h.run hg).placeOf_eq]

end Coherent

theorem frames_length_run (ms : List Move) (w : Walk) :
    (run ms w).frames.length = w.frames.length := by
  rw [Walk.frames_run, List.length_map]

end Walk

theorem frames_length_visit (ls : Layouts) (s : Statement) (w : Walk) :
    (endOf (visit ls s w)).frames.length = w.frames.length := by
  rw [visit_eq_play]
  obtain ⟨front, -, hend⟩ := exists_prefix_endOf_play ls s.course w
  rw [hend, Walk.frames_length_run]

/-! ## Arrivals -/

variable {ls : Layouts} {w v : Walk}

theorem coherent_of_visitAll (h : w.Coherent) {b : List Statement}
    (hv : visitAll ls b w = .ok () v) :
    v.Coherent ∧ v.frames.length = w.frames.length := by
  rw [visitAll_eq_play] at hv
  obtain ⟨-, rfl⟩ := (play_eq_ok_iff _ _ _ _).1 hv
  exact ⟨h.run (grounded_body b w.names), Walk.frames_length_run _ w⟩

theorem Enclosure.coherent_enter (h : w.Coherent) {around : Enclosure}
    (hv : around.enter ls w = .ok () v) :
    v.Coherent ∧ v.frames.length = w.frames.length + 1 := by
  cases around with
  | statement name =>
    cases hv
    exact ⟨h.openFrame, rfl⟩
  | source name hops lists =>
    cases hv
    exact ⟨h.openFrame, rfl⟩
  | target s before op name after lists =>
    rw [enter, WalkM.bind_eq_ok_iff] at hv
    obtain ⟨sources, w₁, hsources, hv⟩ := hv
    rw [WalkM.bind_eq_ok_iff] at hv
    obtain ⟨⟨⟩, w₂, hbefore, hv⟩ := hv
    cases hv
    -- what stands before the body is itself a chain
    have hchain : visit ls (.edge s before lists) w = .ok () w₂ := by
      rw [visit, WalkM.bind_apply, hsources]
      exact hbefore
    have hcoherent := h.visit ls (.edge s before lists)
    have hlength := frames_length_visit ls (.edge s before lists) w
    rw [hchain] at hcoherent hlength
    exact ⟨hcoherent.openFrame, congrArg (· + 1) hlength⟩

/-- A walk comes to a site in a coherent state, with a new frame for each subgraph around it. -/
theorem Site.coherent_reach (h : w.Coherent) {site : Site} (hv : site.reach ls w = .ok () v) :
    v.Coherent ∧ v.frames.length = w.frames.length + site.depth := by
  induction site generalizing w with
  | here before after => exact coherent_of_visitAll h hv
  | inside before around inner after ih =>
    rw [reach, WalkM.bind_eq_ok_iff] at hv
    obtain ⟨⟨⟩, w₁, hbefore, hv⟩ := hv
    rw [WalkM.bind_eq_ok_iff] at hv
    obtain ⟨⟨⟩, w₂, henter, hinner⟩ := hv
    obtain ⟨hw₁, hlength₁⟩ := coherent_of_visitAll h hbefore
    obtain ⟨hw₂, hlength₂⟩ := Enclosure.coherent_enter hw₁ henter
    obtain ⟨hw, hlength⟩ := ih hw₂ hinner
    refine ⟨hw, ?_⟩
    rw [hlength, hlength₂, hlength₁, depth]
    omega

/-! ## Main theorem -/

/-- A site inside two subgraphs, the one a statement and the other an end of a chain:

    a; subgraph { d; { b; [here] } -- e } -/
def siteInChain : Site :=
  .inside [.node (.text "a") []] (.statement none)
    (.inside [.node (.text "d") []]
      (.source none [.via .undirected (.node (.text "e"))] [])
      (.here [.node (.text "b") []] []) []) []

/-- A chain that mentions a node of the innermost frame, one that is in no frame, and a new one. -/
def chainOverFrames : Statement :=
  .edge (.node (.text "b"))
    [.via .undirected (.subgraph none [.node (.text "a") [], .node (.text "c") []])] []

/-- A subgraph that ends early, with a node mentioned before. -/
def refusedInside : Statement :=
  .subgraph none [.node (.text "c") [], .assign ⟨.text "layout", .text "x"⟩]

/-- The state before a body is coherent.  A visit of a statement, whether or not it ends early,
leaves a coherent state coherent and as many frames open as there were; if it comes to its end, it
has added to each open frame the nodes that the statement mentions and the frame did not have.  At
every site the walk is in a coherent state, with a frame for each subgraph around the site, and an
early end there closes these frames. -/
theorem coherent_of_visit (ls : Layouts) :
    (∀ kind name log, (Walk.start kind name log).Coherent) ∧
    (∀ (s : Statement) (w : Walk), w.Coherent →
      (endOf (visit ls s w)).Coherent ∧
      (endOf (visit ls s w)).frames.length = w.frames.length ∧
      ∀ v, visit ls s w = .ok () v → v.frames = w.frames.map (v.extended s.mentions)) ∧
    ∀ (site : Site) (w v : Walk), w.Coherent → site.reach ls w = .ok () v →
      v.Coherent ∧ v.frames.length = w.frames.length + site.depth ∧
      ∀ s e v', visit ls s v = .error e v' →
        visitAll ls (site.fill [s]) w = .error e (v'.closeFrames site.depth) := by
  refine ⟨Walk.coherent_start, fun s w h => ⟨h.visit ls s, frames_length_visit ls s w, ?_⟩, ?_⟩
  · intro v hv
    rw [visit_eq_play] at hv
    obtain ⟨-, rfl⟩ := (play_eq_ok_iff _ _ _ _).1 hv
    rw [h.frames_run_extended (grounded_statement s w.names), courseMentions_statement]
  · intro site w v h hv
    obtain ⟨hcoherent, hlength⟩ := Site.coherent_reach h hv
    refine ⟨hcoherent, hlength, fun s e v' hs => Site.visitAll_fill_of_error hv ?_⟩
    rw [visitAll, WalkM.bind_apply, hs]

/-- The state in which the site inside the chain is reached, with two frames open. -/
def atSiteInChain : Walk := endOf (siteInChain.reach .standard (Walk.start .graph none []))

/-- The node `a` was there before, but in neither of the frames; what ends early leaves both frames
open inside, and none outside. -/
theorem coherent_visit_siteInChain :
    siteInChain.reach .standard (Walk.start .graph none []) = .ok () atSiteInChain ∧
      atSiteInChain.Coherent ∧
      atSiteInChain.frames = [⟨[("b", 2)]⟩, ⟨[("d", 1), ("b", 2)]⟩] ∧
      (∃ v, visit .standard chainOverFrames atSiteInChain = .ok () v ∧ v.Coherent ∧
        v.frames = [⟨[("b", 2), ("a", 0), ("c", 3)]⟩,
          ⟨[("d", 1), ("b", 2), ("a", 0), ("c", 3)]⟩]) ∧
      (endOf (visit .standard refusedInside atSiteInChain)).Coherent ∧
      (endOf (visit .standard refusedInside atSiteInChain)).frames.length = 2 ∧
      ∃ e v, visitAll .standard (siteInChain.fill [refusedInside]) (Walk.start .graph none []) =
        .error e v ∧ v.frames = [] := by
  obtain ⟨hstart, hvisit, hsite⟩ := coherent_of_visit .standard
  have hreach : siteInChain.reach .standard (Walk.start .graph none []) = .ok () atSiteInChain := rfl
  obtain ⟨hcoherent, hlength, hearly⟩ := hsite _ _ _ (hstart _ _ _) hreach
  obtain ⟨hchain, -, hframes⟩ := hvisit chainOverFrames _ hcoherent
  obtain ⟨hrefused, hopen, -⟩ := hvisit refusedInside _ hcoherent
  refine ⟨hreach, hcoherent, by decide +kernel, ⟨_, rfl, hchain, ?_⟩, hrefused,
    hopen.trans hlength, ⟨_, _, hearly _ _ _ rfl, by decide +kernel⟩⟩
  rw [hframes _ rfl]
  decide +kernel

end DotSemantics
