import DotSemantics.Proofs.Findings
import DotSemantics.Proofs.LowerCase
import DotSemantics.Proofs.Refusals

/-!
# Layouts from the environment

An environment gives a set of layouts unless a piece of its variable is blank.  The set has the
standard layouts and, in lower case, the pieces (`extraPieces`), and nothing else.  No piece is
refused for its letters, since lower case is reached at once (`isLower_normalize`).

    layouts of env = standardLayouts and normalize p for each p in extraPieces env
                                                                      (layouts_of_environment)

A graph may then ask for any of them in any spelling that comes to the same in lower case, and it is
stored, and found sound, in lower case.
-/

namespace DotSemantics

namespace Layouts

/-- What an environment says about further layouts, without the white space around it; nothing if it
does not have the variable. -/
def extraText (env : Table String) : String :=
  Text.strip ((env.get? extraLayoutsVariable).getD "")

/-- The pieces between commas of what an environment says about further layouts, if it says
anything. -/
def extraPieces (env : Table String) : List (List Char) :=
  if extraText env = "" then [] else Text.pieces ',' (extraText env).toList

/-! ## Names in lower case -/

/-- A piece is never refused for its letters. -/
theorem isLower_normalize (p : List Char) : Text.isLower (normalize p) = true :=
  decide_eq_true (Text.lower_lower _)

/-- A piece gives the empty name just when it is blank. -/
theorem normalize_eq_empty_iff (p : List Char) : normalize p = "" ↔ Text.stripChars p = [] := by
  unfold normalize Text.lower
  rw [String.ofList_eq_empty_iff, String.toList_ofList, Text.lowerAfter_eq_nil_iff]

theorem isLower_of_mem_standardLayouts :
    ∀ n ∈ standardLayouts, Text.isLower n = true := by
  decide +kernel

theorem ofNames_of_isLower {ns : List String} (hne : ns ≠ [])
    (h : ∀ n ∈ ns, Text.isLower n = true) : ofNames ns = .ok ⟨Text.sortedSet ns⟩ := by
  unfold ofNames
  rw [if_neg (by simpa using hne), if_pos (List.all_eq_true.2 h)]

theorem isLower_of_mem_map_normalize {ps : List (List Char)} :
    ∀ n ∈ ps.map normalize, Text.isLower n = true := by
  intro n hn
  obtain ⟨p, -, rfl⟩ := List.mem_map.1 hn
  exact isLower_normalize p

/-! ## The set of an environment -/

theorem extraNames_eq (raw : String) :
    extraNames raw =
      if ∃ p ∈ Text.pieces ',' raw.toList, Text.stripChars p = [] then .error (.blankPiece raw)
      else .ok ((Text.pieces ',' raw.toList).map normalize) := by
  have hblank : "" ∈ (Text.pieces ',' raw.toList).map normalize ↔
      ∃ p ∈ Text.pieces ',' raw.toList, Text.stripChars p = [] := by
    simp only [List.mem_map, normalize_eq_empty_iff]
  unfold extraNames
  simp only [List.contains_iff_mem, hblank]

theorem sortedSet_standardLayouts : Text.sortedSet standardLayouts = standardLayouts := by
  decide +kernel

/-- A blank piece is the one thing that is refused. -/
theorem ofEnvironment_eq (env : Table String) :
    ofEnvironment env =
      if ∃ p ∈ extraPieces env, Text.stripChars p = [] then .error (.blankPiece (extraText env))
      else .ok ⟨Text.sortedSet (standardLayouts ++ (extraPieces env).map normalize)⟩ := by
  unfold ofEnvironment extraPieces
  rw [show Text.strip _ = extraText env from rfl]
  by_cases htext : extraText env = ""
  · rw [if_pos htext, if_pos htext, if_neg (by simp), List.map_nil, List.append_nil,
      sortedSet_standardLayouts, standard]
  · rw [if_neg htext, if_neg htext, extraNames_eq]
    split
    · rfl
    · dsimp only [bind, Except.bind]
      apply ofNames_of_isLower (by simp [standardLayouts])
      exact List.forall_mem_append.2 ⟨isLower_of_mem_standardLayouts, isLower_of_mem_map_normalize⟩

theorem mem_names_of_ofEnvironment {env : Table String} {ls : Layouts}
    (h : ofEnvironment env = .ok ls) (n : String) :
    n ∈ ls.names ↔ n ∈ standardLayouts ∨ ∃ p ∈ extraPieces env, n = normalize p := by
  rw [ofEnvironment_eq] at h
  split at h
  · cases h
  · rw [← Except.ok.inj h, Text.mem_sortedSet, List.mem_append, List.mem_map]
    simp only [eq_comm]

end Layouts

/-! ## Layouts of graphs -/

/-- A layout that is allowed is stored in lower case, wherever it stands. -/
theorem setGraphAttr_layoutKey {ls : Layouts} {value : String}
    (h : ls.allows (Text.lower value) = true) (w : Walk) :
    setGraphAttr ls layoutKey value w = .ok () (w.assign layoutKey (Text.lower value)) := by
  unfold setGraphAttr
  rw [if_neg (by decide), if_pos rfl, if_pos h]
  rfl

theorem Edge.op_of_link? {names : List String} {e : Edge} {l : Link} (h : e.link? names = some l) :
    l.op = e.op := by
  unfold link? at h
  simp only [Option.bind_eq_bind, Option.bind_eq_some_iff] at h
  obtain ⟨s, -, t, -, hl⟩ := h
  rw [← Option.some.inj hl]

theorem exists_link_of_read {ls : Layouts} {d : Declaration} {g : Graph}
    (h : (readBatch ls [.declaration d]).2 = .ok [g]) :
    ∀ e ∈ g.edges, ∃ l ∈ bodyLinks d.body, l.op = e.op := by
  intro e he
  have hmem := List.mem_map_of_mem (f := Edge.described g.names) he
  rw [described_edges_of_read h] at hmem
  obtain ⟨o, ho, hdescribed⟩ := List.mem_map.1 hmem
  have hlink : some o.link = e.link? g.names := (Prod.mk.inj hdescribed).1
  have hlinks := List.mem_map_of_mem (f := Origin.link) ho
  rw [map_link_courseOrigins, links_bodyCourse] at hlinks
  exact ⟨o.link, hlinks, Edge.op_of_link? hlink.symm⟩

theorem errors_audit_of_read {ls : Layouts} {d : Declaration} {g : Graph}
    (h : (readBatch ls [.declaration d]).2 = .ok [g]) (ls' : Layouts) :
    ∃ r, (Draft.ofGraph g).audit ls' = .ok r ∧
      r.errors = (g.edges.filter fun e => e.op ≠ d.kind.op).map (Draft.operatorFinding g d.kind) ++
        Draft.layoutFindings g ls' := by
  have haudit := Draft.audit_of_kind (Draft.kind_ofGraph (kind_of_read h)) ls'
  rw [Draft.graphEdges_ofGraph,
    Draft.auditEdges_ofGraph d.kind (ends_of_read h) (edgeName_of_read h)] at haudit
  refine ⟨_, haudit, ?_⟩
  have hnodup : (Draft.ofGraph g).nodeNames.Nodup :=
    (Draft.nodeNames_ofGraph g).symm ▸ nodup_names_of_read h
  show (Draft.ofGraph g).duplicateNames.map _ ++ _ ++ (Draft.ofGraph g).auditLayout ls' = _
  rw [Draft.duplicateNames_of_nodup hnodup, Draft.auditLayout_ofGraph]
  rfl

theorem Draft.layoutFindings_eq_nil {g : Graph} {ls : Layouts}
    (h : ∀ l, g.attrs.get? layoutKey = some l → ls.allows l = true) : layoutFindings g ls = [] := by
  unfold layoutFindings
  split
  · rfl
  · next l hl => exact if_pos (h l hl)

/-- A graph that is read with some layouts is sound for them if its operators fit its kind. -/
theorem audit_of_read_allowed {ls : Layouts} {d : Declaration} {g : Graph}
    (h : (readBatch ls [.declaration d]).2 = .ok [g]) :
    ∃ r, (Draft.ofGraph g).audit ls = .ok r ∧ (∀ c, .unknownLayout c ∉ r.errors) ∧
      ((∀ l ∈ bodyLinks d.body, l.op = d.kind.op) → r.isSound = true) := by
  obtain ⟨r, haudit, herrors⟩ := errors_audit_of_read h ls
  rw [Draft.layoutFindings_eq_nil fun l hl => layout_of_read h hl, List.append_nil] at herrors
  refine ⟨r, haudit, fun c hc => ?_, fun hops => ?_⟩
  · rw [herrors] at hc
    obtain ⟨e, -, he⟩ := List.mem_map.1 hc
    cases he
  · have hfit : (g.edges.filter fun e => e.op ≠ d.kind.op) = [] := by
      rw [List.filter_eq_nil_iff]
      intro e he
      obtain ⟨l, hl, hop⟩ := exists_link_of_read h e he
      simpa using hop.symm.trans (hops l hl)
    unfold Report.isSound
    rw [herrors, hfit]
    rfl

/-! ## Main theorem -/

open Layouts

/-- An environment with two more layouts, among white space of several kinds; the second one ends in
a capital sigma. -/
def greekEnvironment : Table String := ⟨[(extraLayoutsVariable, " ELK ,\u00A0ΟΔΟΣ\u2003")]⟩

/-- A graph that asks for both layouts, in other spellings:

    graph { layout=elk; a -- { "layout"="οδοΣ"; b } } -/
def greekLayouts : Declaration where
  kind := .graph
  name := none
  body := [
    .assign ⟨.text "layout", .text "elk"⟩,
    .edge (.node (.text "a"))
      [.via .undirected (.subgraph none [
        .assign ⟨.text "\"layout\"", .text "\"οδοΣ\""⟩,
        .node (.text "b") []])] []]

/-- An environment that says nothing more gives the standard layouts; else its text is cut at the
commas, and it is refused just when a piece is blank.  What it gives otherwise are the standard
layouts and the pieces in lower case, none of which is refused for its letters.  With them, a layout
whose lower-case form is that of a piece is accepted at any point of a walk, and stored in lower
case.  A declaration that asks for no other layouts is read; its graph has the last layout asked
for, which the audit does not report, and is sound if its operators fit its kind. -/
theorem layouts_of_environment (env : Table String) :
    (extraText env = "" → ofEnvironment env = .ok .standard) ∧
      (extraText env ≠ "" → Text.joinWith ',' (extraPieces env) = (extraText env).toList ∧
        ∀ p ∈ extraPieces env, ',' ∉ p) ∧
      (∀ e, ofEnvironment env = .error e ↔
        (∃ p ∈ extraPieces env, Text.stripChars p = []) ∧ e = .blankPiece (extraText env)) ∧
      (∀ ps, ps ≠ [] → ∃ ls, ofNames (ps.map normalize) = .ok ls) ∧
      ((∀ p ∈ extraPieces env, Text.stripChars p ≠ []) → ∃ ls, ofEnvironment env = .ok ls ∧
        (∀ n, n ∈ ls.names ↔ n ∈ standardLayouts ∨ ∃ p ∈ extraPieces env, n = normalize p) ∧
        (∀ p ∈ extraPieces env, ∀ a : Attribute, a.pair.1 = layoutKey →
          Text.lower a.pair.2 = normalize p → ∀ w,
            visit ls (.assign a) w = .ok () (w.assign layoutKey (normalize p))) ∧
        ∀ d : Declaration, (∀ l ∈ bodyLayouts d.body,
            l ∈ standardLayouts ∨ ∃ p ∈ extraPieces env, l = normalize p) →
          ∃ g r, (readBatch ls [.declaration d]).2 = .ok [g] ∧
            g.attrs.get? layoutKey = (bodyLayouts d.body).getLast? ∧
            (Draft.ofGraph g).audit ls = .ok r ∧ (∀ c, .unknownLayout c ∉ r.errors) ∧
            ((∀ l ∈ bodyLinks d.body, l.op = d.kind.op) → r.isSound = true)) := by
  refine ⟨fun htext => if_pos htext, fun htext => ?_, fun e => ?_, fun ps hps => ?_,
    fun hpieces => ?_⟩
  · unfold extraPieces
    rw [if_neg htext]
    exact ⟨Text.joinWith_pieces _ _, fun p hp => Text.notMem_of_mem_pieces hp⟩
  · rw [ofEnvironment_eq]
    split
    · next hblank =>
      constructor
      · intro h
        exact ⟨hblank, (Except.error.inj h).symm⟩
      · rintro ⟨-, rfl⟩
        rfl
    · next hblank =>
      constructor
      · intro h
        cases h
      · rintro ⟨hblank', -⟩
        exact absurd hblank' hblank
  · exact ⟨_, ofNames_of_isLower (by simpa using hps) isLower_of_mem_map_normalize⟩
  · have henv := ofEnvironment_eq env
    rw [if_neg fun ⟨p, hp, hblank⟩ => hpieces p hp hblank] at henv
    have hnames := mem_names_of_ofEnvironment henv
    have hallows : ∀ n, (n ∈ standardLayouts ∨ ∃ p ∈ extraPieces env, n = normalize p) →
        Layouts.allows _ n = true := fun n hn => List.contains_iff_mem.2 ((hnames n).2 hn)
    refine ⟨_, henv, hnames, fun p hp a hname hvalue w => ?_, fun d hd => ?_⟩
    · have hallow := hallows _ (Or.inr ⟨p, hp, rfl⟩)
      rw [← hvalue] at hallow ⊢
      unfold visit
      rw [hname]
      exact setGraphAttr_layoutKey hallow w
    · have hrefused := (d.refused?_eq_none_iff _).2 fun l hl => hallows l (hd l hl)
      have hempty : ∀ ls, (readBatch ls []).2 = .ok [] := fun _ => rfl
      obtain ⟨g, hread⟩ := readBatch_of_not_refused (hempty _) hrefused
      obtain ⟨r, haudit, hlayout, hsound⟩ := audit_of_read_allowed hread
      exact ⟨g, r, hread, get?_layoutKey_of_read hread, haudit, hlayout, hsound⟩

/-- Both spellings of the second layout end in a final sigma in lower case. -/
theorem layouts_greekEnvironment : ∃ ls g r, ofEnvironment greekEnvironment = .ok ls ∧
    ls.allows "elk" = true ∧ (readBatch ls [.declaration greekLayouts]).2 = .ok [g] ∧
    g.attrs.get? layoutKey = some "οδος" ∧ (Draft.ofGraph g).audit ls = .ok r ∧
    r.isSound = true := by
  obtain ⟨-, -, -, -, hset⟩ := layouts_of_environment greekEnvironment
  obtain ⟨ls, henv, hnames, -, hread⟩ := hset (by decide +kernel)
  obtain ⟨g, r, hg, hlayout, haudit, -, hsound⟩ := hread greekLayouts (by decide +kernel)
  refine ⟨ls, g, r, henv, ?_, hg, hlayout.trans (by decide +kernel), haudit,
    hsound (by decide +kernel)⟩
  exact List.contains_iff_mem.2 ((hnames "elk").2 (Or.inr (by decide +kernel)))

end DotSemantics
