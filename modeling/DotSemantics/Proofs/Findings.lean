import DotSemantics.Proofs.Editing
import Mathlib.Data.List.Induction

/-!
# What the audit finds

The audit of a draft that edits lead to, told by what the draft lists (`Draft.listedNodes`,
`Draft.connections`): it fails if the draft has no kind, or if an edge that has to be reported has
no name, and else it reports names, ends, operators and the layout, in this order, and warns about
nodes that no edge names (`audit_of_reachable`).  A name is reported once, where it stands first
(`repeated`), an edge as often as it is listed.
-/

namespace DotSemantics

/-! ## Names that repeat -/

/-- The items of a list that stand in it again, each at its first place. -/
def repeated (l : List String) : List String :=
  (l.zipIdx.filter fun p => p.1 ∉ l.take p.2 ∧ p.1 ∈ l.drop (p.2 + 1)).map Prod.fst

/-- The first occurrences in a list are the items that do not stand before. -/
theorem distinct_eq_filter_zipIdx (l : List String) :
    distinct l = (l.zipIdx.filter fun p => p.1 ∉ l.take p.2).map Prod.fst := by
  induction l using List.reverseRecOn with
  | nil => rfl
  | append_singleton l s ih =>
    have hl : l.zipIdx.filter (fun p => p.1 ∉ (l ++ [s]).take p.2) =
        l.zipIdx.filter fun p => p.1 ∉ l.take p.2 := by
      apply List.filter_congr
      rintro ⟨t, i⟩ hp
      have hi : i < l.length := by simpa using (List.mem_zipIdx hp).2.1
      rw [List.take_append_of_le_length (Nat.le_of_lt hi)]
    have hdistinct : distinct (l ++ [s]) = addNew s (distinct l) := addAllNew_append l [s] []
    rw [hdistinct, List.zipIdx_append, List.filter_append, List.map_append, hl, ← ih]
    unfold addNew
    by_cases hs : s ∈ l
    · rw [if_pos (by simpa [mem_distinct] using hs)]
      simp [hs]
    · rw [if_neg (by simpa [mem_distinct] using hs)]
      simp [hs]

/-- An item occurs twice just when it stands again behind its first place. -/
theorem one_lt_count_iff {l : List String} {s : String} {i : Nat} (hi : l[i]? = some s)
    (hfirst : s ∉ l.take i) : 1 < l.count s ↔ s ∈ l.drop (i + 1) := by
  obtain ⟨hlt, hget⟩ := List.getElem?_eq_some_iff.1 hi
  have hsplit : l.take i ++ s :: l.drop (i + 1) = l := by
    rw [← hget, List.getElem_cons_drop, List.take_append_drop]
  have hcount : l.count s = (l.drop (i + 1)).count s + 1 := by
    rw [← hsplit, List.count_append, List.count_eq_zero_of_not_mem hfirst, List.count_cons_self]
    simp [hsplit]
  rw [hcount, ← List.count_pos_iff]
  omega

namespace Draft

theorem duplicateNames_eq (d : Draft) : d.duplicateNames = repeated d.nodeNames := by
  unfold duplicateNames repeated
  rw [distinct_eq_filter_zipIdx, List.filter_map, List.filter_filter]
  congr 1
  apply List.filter_congr
  rintro ⟨s, i⟩ hp
  have hi : d.nodeNames[i]? = some s := by simpa using List.mem_zipIdx_iff_getElem?.1 hp
  by_cases hfirst : s ∈ d.nodeNames.take i
  · simp [hfirst]
  · simp [hfirst, one_lt_count_iff hi hfirst]

/-! ## Kinds -/

/-- The kind that a draft has: what it says, or that of an undirected graph if it says nothing. -/
def HasKind (d : Draft) (kind : GraphKind) : Prop :=
  (d.attrs.get? kindKey).getD (.text GraphKind.graph.text) = .text kind.text

instance (d : Draft) (kind : GraphKind) : Decidable (d.HasKind kind) :=
  inferInstanceAs (Decidable (_ = _))

theorem kind_of_hasKind {d : Draft} {kind : GraphKind} (h : d.HasKind kind) : d.kind = .ok kind := by
  unfold HasKind at h
  unfold Draft.kind
  cases hc : d.attrs.get? kindKey with
  | none =>
    rw [hc] at h
    cases kind with
    | graph => rfl
    | digraph => exact absurd h (by decide)
  | some c =>
    rw [hc] at h
    have hc' : c = .text kind.text := h
    rw [hc']
    simp only [GraphKind.ofText?_text]

theorem kind_of_invalid {d : Draft} {c : Cell} (h : d.attrs.get? kindKey = some c)
    (hc : ∀ kind : GraphKind, c ≠ .text kind.text) : d.kind = .error c := by
  unfold Draft.kind
  rw [h]
  cases c with
  | text s =>
    have hs : GraphKind.ofText? s = none := by
      have hgraph : s ≠ "graph" := fun e => hc .graph (congrArg Cell.text e)
      have hdigraph : s ≠ "digraph" := fun e => hc .digraph (congrArg Cell.text e)
      unfold GraphKind.ofText?
      rw [if_neg hgraph, if_neg hdigraph]
    simp only [hs]
  | null => rfl
  | int n => rfl

end Draft

/-! ## Edges -/

namespace Connection

/-- The operator of an edge does not fit a kind of graph. -/
def Misfits (c : Connection) (kind : GraphKind) : Prop := c.edge.op ≠ kind.op.text

instance (c : Connection) (kind : GraphKind) : Decidable (c.Misfits kind) :=
  inferInstanceAs (Decidable (_ ≠ _))

/-- The findings about an edge, which is named by its attributes. -/
def findings (d : Draft) (kind : GraphKind) (c : Connection) : List Finding :=
  (if c.edge.source ∈ d.nodes then [] else [.foreignSource c.source.name]) ++
    (if c.edge.target ∈ d.nodes then [] else [.foreignTarget c.target.name]) ++
    if c.Misfits kind then
      (c.edge.attrs.get? nameKey).toList.map fun n => .wrongOperator c.edge.op kind n
    else []

end Connection

namespace Draft

variable {d : Draft} {cs : List Connection} {kind : GraphKind}

theorem auditEnds_eq {c : Connection} (hs : d.nodePool[c.edge.source]? = some c.source)
    (ht : d.nodePool[c.edge.target]? = some c.target) :
    d.auditEnds c.edge =
      (if c.edge.source ∈ d.nodes then [] else [.foreignSource c.source.name]) ++
        (if c.edge.target ∈ d.nodes then [] else [.foreignTarget c.target.name]) := by
  unfold auditEnds isMember
  rw [nodeName_eq hs, nodeName_eq ht]
  simp only [List.contains_iff_mem]

/-- The audit of the edges goes through if those whose operators do not fit have names. -/
theorem auditEdges_of_named (hends : ∀ c ∈ cs, d.nodePool[c.edge.source]? = some c.source ∧
      d.nodePool[c.edge.target]? = some c.target)
    (hnamed : ∀ c ∈ cs, c.Misfits kind → nameKey ∈ c.edge.attrs.keys) :
    d.auditEdges kind (cs.map Connection.edge) = .ok (cs.flatMap (Connection.findings d kind)) := by
  induction cs with
  | nil => rfl
  | cons c cs ih =>
    rw [List.forall_mem_cons] at hends hnamed
    rw [List.map_cons, auditEdges, ih hends.2 hnamed.2, auditEnds_eq hends.1.1 hends.1.2,
      List.flatMap_cons]
    unfold auditOperator Connection.findings DraftEdge.name?
    by_cases hop : c.edge.op = kind.op.text
    · rw [if_pos hop, if_neg (show ¬ c.Misfits kind from fun h => h hop)]
      rfl
    · have hkey := hnamed.1 hop
      rw [if_neg hop, if_pos (show c.Misfits kind from hop)]
      cases hn : c.edge.attrs.get? nameKey with
      | none => exact absurd hkey ((Table.get?_eq_none_iff _ _).1 hn)
      | some n => rfl

/-- One edge that has to be reported and has no name makes the audit of the edges fail. -/
theorem auditEdges_of_unnamed {c : Connection} (hc : c ∈ cs) (hop : c.Misfits kind)
    (hname : nameKey ∉ c.edge.attrs.keys) :
    d.auditEdges kind (cs.map Connection.edge) = .error .unnamedEdge := by
  induction cs with
  | nil => cases hc
  | cons c' cs ih =>
    rw [List.map_cons, auditEdges]
    have hunnamed : ∀ e : DraftEdge, auditOperator kind e = .error .unnamedEdge ∨
        ∃ fs, auditOperator kind e = .ok fs := by
      intro e
      unfold auditOperator
      split
      · exact Or.inr ⟨_, rfl⟩
      · split
        · exact Or.inl rfl
        · exact Or.inr ⟨_, rfl⟩
    rcases List.mem_cons.1 hc with rfl | hrest
    · have herror : auditOperator kind c.edge = .error .unnamedEdge := by
        unfold auditOperator DraftEdge.name?
        rw [if_neg hop, (Table.get?_eq_none_iff _ _).2 hname]
      rw [herror]
      rfl
    · rw [ih hrest]
      rcases hunnamed c'.edge with h | ⟨fs, h⟩
      · rw [h]
        rfl
      · rw [h]
        rfl

/-! ## Layout and isolated nodes -/

theorem auditLayout_eq (d : Draft) (ls : Layouts) :
    d.auditLayout ls = ((d.attrs.get? layoutKey).toList.filter fun c =>
      c ≠ .null ∧ c ∉ ls.names.map Cell.text).map .unknownLayout := by
  unfold auditLayout Layouts.allows
  cases d.attrs.get? layoutKey with
  | none => rfl
  | some c =>
    cases c with
    | text s =>
      show (if ls.names.contains s then _ else _) = ([Cell.text s].filter _).map _
      by_cases hs : s ∈ ls.names
      · rw [if_pos (List.contains_iff_mem.2 hs), List.filter_cons_of_neg (by simp [hs])]
        rfl
      · rw [if_neg (by simpa using hs), List.filter_cons_of_pos (by simp [hs])]
        rfl
    | null => rfl
    | int n => simp

theorem Complete.isolatedNames_eq (h : d.Complete) :
    d.isolatedNames = (d.listedNodes.filter fun n => ∀ c ∈ d.connections,
      c.source.name ≠ n.name ∧ c.target.name ≠ n.name).map DraftNode.name := by
  have htouched : d.touchedNames =
      d.connections.flatMap fun c => [c.source.name, c.target.name] := by
    unfold touchedNames
    rw [d.graphEdges_eq, List.flatMap_map]
    apply List.flatMap_congr
    intro c hc
    rw [nodeName_eq (h.ends c hc).1, nodeName_eq (h.ends c hc).2]
  unfold isolatedNames
  rw [h.nodeNames_eq, htouched, List.filter_map]
  congr 1
  apply List.filter_congr
  intro n _
  rw [Bool.eq_iff_iff]
  simp only [Function.comp, Bool.not_eq_true', decide_eq_true_eq]
  rw [← Bool.not_eq_true, List.contains_iff_mem, List.mem_flatMap]
  constructor
  · intro hno c hc
    exact ⟨fun hs => hno ⟨c, hc, by simp [hs]⟩, fun ht => hno ⟨c, hc, by simp [ht]⟩⟩
  · rintro hall ⟨c, hc, hn⟩
    rcases List.mem_cons.1 hn with hs | ht
    · exact (hall c hc).1 hs.symm
    · exact (hall c hc).2 (List.mem_singleton.1 ht).symm

/-- The audit of a draft that has a kind is that of its edges, with what is reported in any case. -/
theorem audit_of_kind (h : d.kind = .ok kind) (ls : Layouts) :
    d.audit ls = (d.auditEdges kind d.graphEdges).map fun fs =>
      { errors := d.duplicateNames.map .duplicateNode ++ fs ++ d.auditLayout ls
        warnings := d.isolatedNames.map .isolatedNode } := by
  unfold audit
  rw [h]
  show (d.auditEdges kind d.graphEdges).bind _ = _
  cases d.auditEdges kind d.graphEdges <;> rfl

end Draft

/-! ## Main theorem -/

/-- Edits of the graph of `mixedOperators`: the third node is given the name of the first one, which
is taken out while the second one is put in again; a new node is put in without an edge, and
something that is no text is made the layout.

    a b c, a->b b--a   becomes   b a b d, a->b b--a -/
def tampering : List Edit :=
  [.load mixedOperators.intended, .rename 2 "a", .removeNode 0, .addNode 1,
    .makeNode "d" [], .addNode 3, .set .graph layoutKey (.int 3)]

def Draft.edited (edits : List Edit) : Draft := (Draft.empty.applyAll edits).getD .empty

/-- The audit of a draft that edits lead to, whatever they are.  It fails if the draft says that it
has a kind which is none, and else just if an edge whose operator does not fit the kind has lost its
name.  If it does not fail it reports, in this order, each name that several nodes have, where it
stands first; edge by edge an end that is not listed as a node, by identity, and an operator that
does not fit; and a layout that is not allowed.  It warns about the nodes whose names no end of an
edge has. -/
theorem audit_of_reachable (d : Draft) (h : d.Reachable) (ls : Layouts) :
    d.Complete ∧
      (∀ c, d.attrs.get? kindKey = some c → (∀ kind : GraphKind, c ≠ .text kind.text) →
        d.audit ls = .error (.invalidKind c)) ∧
      ∀ kind, d.HasKind kind →
        (d.audit ls = .error .unnamedEdge ↔
          ∃ c ∈ d.connections, c.Misfits kind ∧ nameKey ∉ c.edge.attrs.keys) ∧
        ((∀ c ∈ d.connections, c.Misfits kind → nameKey ∈ c.edge.attrs.keys) →
          d.audit ls = .ok {
            errors := (repeated (d.listedNodes.map DraftNode.name)).map .duplicateNode ++
              d.connections.flatMap (Connection.findings d kind) ++
              ((d.attrs.get? layoutKey).toList.filter fun c =>
                c ≠ .null ∧ c ∉ ls.names.map Cell.text).map .unknownLayout
            warnings := (d.listedNodes.filter fun n => ∀ c ∈ d.connections,
              c.source.name ≠ n.name ∧ c.target.name ≠ n.name).map fun n =>
                .isolatedNode n.name }) := by
  have hcomplete := h.placed.complete
  refine ⟨hcomplete, fun c hc hno => ?_, fun kind hkind => ?_⟩
  · unfold Draft.audit
    rw [Draft.kind_of_invalid hc hno]
  · have haudit := Draft.audit_of_kind (Draft.kind_of_hasKind hkind) ls
    rw [d.graphEdges_eq] at haudit
    refine ⟨⟨fun herror => ?_, ?_⟩, fun hall => ?_⟩
    · apply Classical.byContradiction
      intro hnone
      have hall : ∀ c ∈ d.connections, c.Misfits kind → nameKey ∈ c.edge.attrs.keys := by
        intro c hc hop
        apply Classical.byContradiction
        intro hkey
        exact hnone ⟨c, hc, hop, hkey⟩
      rw [haudit, Draft.auditEdges_of_named hcomplete.ends hall] at herror
      cases herror
    · rintro ⟨c, hc, hop, hkey⟩
      rw [haudit, Draft.auditEdges_of_unnamed hc hop hkey]
      rfl
    · rw [haudit, Draft.auditEdges_of_named hcomplete.ends hall, d.duplicateNames_eq,
        hcomplete.nodeNames_eq, d.auditLayout_eq, hcomplete.isolatedNames_eq, List.map_map]
      rfl

/-- A name that two nodes have is reported once, and a node that is in the graph under the name of
another one does not stand for it.  Without its name, the edge that has to be reported makes the
audit fail. -/
theorem audit_tampering :
    (Draft.edited tampering).audit .standard =
        .ok ⟨[.duplicateNode "b", .foreignSource "a", .foreignTarget "a",
            .wrongOperator "--" .digraph (.text "b--a"), .unknownLayout (.int 3)],
          [.isolatedNode "d"]⟩ ∧
      (Draft.edited (tampering ++ [.unset (.edge 1) nameKey])).audit .standard =
        .error .unnamedEdge := by
  have hgenuine : ∀ e ∈ tampering ++ [.unset (.edge 1) nameKey], e.Genuine := by
    have hread : (readBatch .standard [.declaration mixedOperators]).2 =
        .ok [mixedOperators.intended] := readBatch_intended (by decide +kernel)
    simp only [tampering, List.cons_append, List.forall_mem_cons]
    exact ⟨⟨_, _, hread⟩, by simp [Edit.Genuine]⟩
  have hreach : (Draft.edited tampering).Reachable :=
    ⟨tampering, fun e he => hgenuine e (List.mem_append_left _ he), by decide +kernel⟩
  have hreach' : (Draft.edited (tampering ++ [.unset (.edge 1) nameKey])).Reachable :=
    ⟨_, hgenuine, by decide +kernel⟩
  obtain ⟨-, -, haudit⟩ := audit_of_reachable _ hreach .standard
  obtain ⟨-, -, haudit'⟩ := audit_of_reachable _ hreach' .standard
  constructor
  · refine ((haudit .digraph (by decide +kernel)).2 (by decide +kernel)).trans ?_
    decide +kernel
  · exact (haudit' .digraph (by decide +kernel)).1.2 (by decide +kernel)

end DotSemantics
