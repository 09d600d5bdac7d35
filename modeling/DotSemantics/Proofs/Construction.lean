import DotSemantics.Proofs.Fields

/-!
# Construction follows the grammar

A nest of constructions can be carried out just when the fields of every construction in it are as
the grammar has them, and then it gives the value that it makes; otherwise the first construction
that is at fault, in the order in which they are carried out, says what the error is
(`build_nest`).  Carrying out a nest is a trial of its parts (`Term.trial_build`), and making one
part from the values of its fields a trial of its checks.
-/

namespace DotSemantics

/-! ## Constructions -/

theorem ok_bind {α β : Type} (a : α) (f : α → Except Defect β) : (Except.ok a >>= f) = f a := rfl

theorem requireText_eq (slot : TextSlot) (v : Value) :
    requireText slot v = require Value.word? (.notText slot) v := by
  unfold requireText require
  cases v.word? <;> rfl

theorem requireEndpoint_eq (v : Value) :
    requireEndpoint v = require Value.endpoint? .notEndpoint v := by
  unfold requireEndpoint require
  cases v.endpoint? <;> rfl

theorem optionalText_eq (slot : TextSlot) (v : Value) :
    optionalText slot v = require Value.optionalWord? (.notText slot) v := by
  cases v <;> rfl

theorem makeAttrs_eq (target lists : Value) :
    Statement.makeAttrs target lists = (do
      let t ← require Value.target? .notTarget target
      (requireLists lists).map (.attrs t)) := by
  cases target with
  | keyword w => cases w <;> rfl
  | _ => rfl

theorem makeNode_eq (id lists : Value) :
    Statement.makeNode id lists = (do
      let n ← require Value.nodeId? .notNodeId id
      (requireLists lists).map (.node n)) := by
  cases id <;> rfl

theorem makeHop_eq (op target : Value) :
    Hop.make op target = (do
      let o ← require Value.edgeOp? .notOperator op
      (requireEndpoint target).map (.via o)) := by
  cases op with
  | keyword w => cases w <;> rfl
  | _ => rfl

theorem makeDeclaration_eq (kind name body : Value) :
    Declaration.make kind name body = (do
      let k ← require Value.graphKind? .notGraphKind kind
      let n ← optionalText .graphName name
      return ⟨k, n, ← requireBody body⟩) := by
  cases kind with
  | keyword w => cases w <;> rfl
  | _ => rfl

/-- The hops of a chain, of which there has to be one. -/
def requireHop (hops : List Hop) : Except Defect Unit :=
  if hops.isEmpty then .error (.malformed .noHop) else .ok ()

theorem requireHop_of_ne_nil {hops : List Hop} (h : hops ≠ []) : requireHop hops = .ok () := by
  unfold requireHop
  rw [if_neg (by simpa using h)]

theorem makeEdge_eq (source hops lists : Value) :
    Statement.makeEdge source hops lists = (do
      let s ← requireEndpoint source
      let hs ← requireItems Value.hop? .hop hops
      requireHop hs
      (requireLists lists).map (.edge s hs)) := by
  unfold Statement.makeEdge requireHop
  congr 1
  funext s
  congr 1
  funext hs
  cases hs.isEmpty <;> rfl

namespace Term

/-- A construction whose checks are gone through is one that fits or offends. -/
theorem trial_of_checks {t : Term} {α : Type} {r : Except Defect α} {f : α → Value}
    (h : Trial Check.Met Check.Refuses (fun a => t.Makes (f a)) t.checks r) :
    Trial Fits Offends t.Makes [t] (r >>= fun a => pure (f a)) := by
  cases h with
  | passed met holds => exact .single met holds
  | refused first => exact .head first.not_all_met first

section

variable {n v as t ls i b o e s hs k : Term} {c c' c'' : Value}

theorem trial_attr (hn : n.Makes c) (hv : v.Makes c') :
    Trial Check.Met Check.Refuses (fun x => (attr n v).Makes (.statement (.assign x)))
      (attr n v).checks (Attribute.make c c') := by
  unfold Attribute.make
  simp only [requireText_eq]
  refine (picks_word.trial (.notText .attributeName) hn).bind (m := [_]) fun a ha => ?_
  rw [ha.word?_eq]
  exact (picks_word.trial (.notText (.attributeValue a)) hv).bind_pure fun b hb => .attr ha hb

theorem trial_attrList (has : as.Makes c) :
    Trial Check.Met Check.Refuses (fun x => (attrList as).Makes (.attrList x))
      (attrList as).checks (AttrList.make c) :=
  (picks_attribute.trial_items has).bind_pure fun _ hitems => .attrList has hitems

theorem trial_attrs (ht : t.Makes c) (hls : ls.Makes c') :
    Trial Check.Met Check.Refuses (fun x => (attrs t ls).Makes (.statement x))
      (attrs t ls).checks (Statement.makeAttrs c c') := by
  rw [makeAttrs_eq]
  refine (picks_target.trial .notTarget ht).bind (m := [_]) fun g hg => ?_
  exact (picks_attrList.trial_items hls).map fun _ hitems => .attrs hg hls hitems

theorem trial_nodeId (hn : n.Makes c) :
    Trial Check.Met Check.Refuses (fun x => (nodeId n).Makes (.nodeId x))
      (nodeId n).checks (makeNodeId c) := by
  unfold makeNodeId
  rw [requireText_eq]
  exact (picks_word.trial (.notText .nodeId) hn).imp fun _ ha => .nodeId ha

theorem trial_node (hi : i.Makes c) (hls : ls.Makes c') :
    Trial Check.Met Check.Refuses (fun x => (node i ls).Makes (.statement x))
      (node i ls).checks (Statement.makeNode c c') := by
  rw [makeNode_eq]
  refine (picks_nodeId.trial .notNodeId hi).bind (m := [_]) fun a ha => ?_
  exact (picks_attrList.trial_items hls).map fun _ hitems => .node ha hls hitems

theorem trial_subgraph (hn : n.Makes c) (hb : b.Makes c') :
    Trial Check.Met Check.Refuses (fun x => (subgraph n b).Makes (.statement x))
      (subgraph n b).checks (Statement.makeSubgraph c c') := by
  unfold Statement.makeSubgraph
  rw [optionalText_eq]
  refine (picks_optionalWord.trial (.notText .subgraphName) hn).bind (m := [_]) fun a ha => ?_
  exact (picks_statement.trial_items hb).bind_pure fun _ hitems => .subgraph ha hb hitems

theorem trial_hop (ho : o.Makes c) (he : e.Makes c') :
    Trial Check.Met Check.Refuses (fun x => (hop o e).Makes (.hop x))
      (hop o e).checks (Hop.make c c') := by
  rw [makeHop_eq, requireEndpoint_eq]
  refine (picks_edgeOp.trial .notOperator ho).bind (m := [_]) fun g hg => ?_
  exact (picks_endpoint.trial .notEndpoint he).map fun _ htarget => .hop hg htarget

/-- The sequence of hops is not empty if there are hops that it yields. -/
theorem trial_someHop (hhs : hs.Makes c) {hops : List Hop} (h : c.items? = some (hops.map .hop)) :
    Trial Check.Met Check.Refuses (fun _ => hops ≠ []) [.someHop hs] (requireHop hops) := by
  have hempty : hs.items? = some [] ↔ hops = [] := by
    rw [hhs.items?_eq_some_nil, h]
    simp
  cases hops with
  | nil =>
    refine .head ?_ .noHop
    intro hmet
    exact hmet (hempty.2 rfl)
  | cons x hops =>
    refine .single ?_ (List.cons_ne_nil x hops)
    intro hnil
    exact List.cons_ne_nil x hops (hempty.1 hnil)

theorem trial_edge (hsource : s.Makes c) (hhs : hs.Makes c') (hls : ls.Makes c'') :
    Trial Check.Met Check.Refuses (fun x => (edge s hs ls).Makes (.statement x))
      (edge s hs ls).checks (Statement.makeEdge c c' c'') := by
  rw [makeEdge_eq, requireEndpoint_eq]
  refine (picks_endpoint.trial .notEndpoint hsource).bind (m := [_, _, _]) fun x hx => ?_
  refine (picks_hop.trial_items hhs).bind (m := [_, _]) fun hops hhops => ?_
  refine (trial_someHop hhs hhops).bind (m := [_]) fun _ hne => ?_
  exact (picks_attrList.trial_items hls).map fun _ hitems => .edge hx hhs hhops hne hls hitems

theorem trial_declaration (hk : k.Makes c) (hn : n.Makes c') (hb : b.Makes c'') :
    Trial Check.Met Check.Refuses (fun x => (declaration k n b).Makes (.declaration x))
      (declaration k n b).checks (Declaration.make c c' c'') := by
  rw [makeDeclaration_eq, optionalText_eq]
  refine (picks_graphKind.trial .notGraphKind hk).bind (m := [_, _]) fun g hg => ?_
  refine (picks_optionalWord.trial (.notText .graphName) hn).bind (m := [_]) fun a ha => ?_
  exact (picks_statement.trial_items hb).bind_pure fun _ hitems =>
    .declaration hg ha hb hitems

end

/-! ## Nests -/

theorem trial_plain {t : Term} {v : Value} (hchecks : t.checks = []) (h : t.Makes v) :
    Trial Fits Offends t.Makes [t] (.ok v) := by
  refine .single ?_ h
  intro c hc
  rw [hchecks] at hc
  cases hc

mutual

/-- Carrying out a nest is a trial of its parts. -/
theorem trial_build : ∀ t : Term, t.IsNest → Trial Fits Offends t.Makes t.parts t.build
  | .null, _ => trial_plain rfl .null
  | .bool _, _ => trial_plain rfl .bool
  | .int _, _ => trial_plain rfl .int
  | .float _, _ => trial_plain rfl .float
  | .text _, _ => trial_plain rfl .text
  | .list ts, h => by
    simp only [IsNest, parts, List.forall_mem_append] at h
    rw [parts, build]
    exact (trial_buildAll ts h.1).bind fun _ hts => trial_plain rfl (.list hts)
  | .object fs, h => by
    simp only [IsNest, parts, List.forall_mem_append] at h
    rw [parts, build]
    exact (trial_buildEntries fs h.1).bind fun _ hfs => trial_plain rfl (.object hfs)
  | .keyword voc v, h => by
    obtain ⟨w, hw⟩ := h (.keyword voc v) (List.mem_singleton_self _)
    rw [build, hw]
    exact trial_plain rfl (.keyword hw)
  | .attr n v, h => by
    simp only [IsNest, parts, List.forall_mem_append] at h
    rw [parts, build]
    exact (trial_build n h.1).bind fun _ hn => (trial_build v h.2.1).bind fun _ hv =>
      trial_of_checks (trial_attr hn hv)
  | .attrList as, h => by
    simp only [IsNest, parts, List.forall_mem_append] at h
    rw [parts, build]
    exact (trial_build as h.1).bind fun _ has => trial_of_checks (trial_attrList has)
  | .attrListOfPairs ps, h => (h (.attrListOfPairs ps) (List.mem_singleton_self _)).elim
  | .attrListOfTable es, h => (h (.attrListOfTable es) (List.mem_singleton_self _)).elim
  | .attrs t ls, h => by
    simp only [IsNest, parts, List.forall_mem_append] at h
    rw [parts, build]
    exact (trial_build t h.1).bind fun _ ht => (trial_build ls h.2.1).bind fun _ hls =>
      trial_of_checks (trial_attrs ht hls)
  | .nodeId n, h => by
    simp only [IsNest, parts, List.forall_mem_append] at h
    rw [parts, build]
    exact (trial_build n h.1).bind fun _ hn => trial_of_checks (trial_nodeId hn)
  | .node i ls, h => by
    simp only [IsNest, parts, List.forall_mem_append] at h
    rw [parts, build]
    exact (trial_build i h.1).bind fun _ hi => (trial_build ls h.2.1).bind fun _ hls =>
      trial_of_checks (trial_node hi hls)
  | .subgraph n b, h => by
    simp only [IsNest, parts, List.forall_mem_append] at h
    rw [parts, build]
    exact (trial_build n h.1).bind fun _ hn => (trial_build b h.2.1).bind fun _ hb =>
      trial_of_checks (trial_subgraph hn hb)
  | .hop o e, h => by
    simp only [IsNest, parts, List.forall_mem_append] at h
    rw [parts, build]
    exact (trial_build o h.1).bind fun _ ho => (trial_build e h.2.1).bind fun _ he =>
      trial_of_checks (trial_hop ho he)
  | .edge s hs ls, h => by
    simp only [IsNest, parts, List.forall_mem_append] at h
    rw [parts, build]
    exact (trial_build s h.1).bind fun _ hsource => (trial_build hs h.2.1).bind fun _ hhops =>
      (trial_build ls h.2.2.1).bind fun _ hls => trial_of_checks (trial_edge hsource hhops hls)
  | .declaration k n b, h => by
    simp only [IsNest, parts, List.forall_mem_append] at h
    rw [parts, build]
    exact (trial_build k h.1).bind fun _ hk => (trial_build n h.2.1).bind fun _ hn =>
      (trial_build b h.2.2.1).bind fun _ hb => trial_of_checks (trial_declaration hk hn hb)

theorem trial_buildAll : ∀ ts : List Term, (∀ p ∈ partsOfAll ts, p.IsPlain) →
    Trial Fits Offends (MakesAll ts) (partsOfAll ts) (buildAll ts)
  | [], _ => .passed (by simp [partsOfAll]) .nil
  | t :: ts, h => by
    simp only [partsOfAll, List.forall_mem_append] at h
    rw [partsOfAll, buildAll]
    exact (trial_build t h.1).bind fun _ ht => (trial_buildAll ts h.2).bind_pure fun _ hts =>
      .cons ht hts

theorem trial_buildEntries : ∀ fs : List (String × Term), (∀ p ∈ partsOfEntries fs, p.IsPlain) →
    Trial Fits Offends (MakesEntries fs) (partsOfEntries fs) (buildEntries fs)
  | [], _ => .passed (by simp [partsOfEntries]) .nil
  | (k, t) :: fs, h => by
    simp only [partsOfEntries, List.forall_mem_append] at h
    rw [partsOfEntries, buildEntries]
    exact (trial_build t h.1).bind fun _ ht => (trial_buildEntries fs h.2).bind_pure fun _ hfs =>
      .cons ht hfs

end

mutual

theorem Makes.build_eq : ∀ {t : Term} {v : Value}, t.Makes v → t.build = .ok v
  | _, _, .null => rfl
  | _, _, .bool => rfl
  | _, _, .int => rfl
  | _, _, .float => rfl
  | _, _, .text => rfl
  | _, _, .list items => by
    rw [build, items.buildAll_eq]
    rfl
  | _, _, .object entries => by
    rw [build, entries.buildEntries_eq]
    rfl
  | _, _, .keyword found => by
    rw [build, found]
    rfl
  | _, _, .attr name value => by
    rw [build, name.build_eq, value.build_eq]
    simp only [ok_bind, Attribute.make, requireText_eq, picks_word.require_make]
    rfl
  | _, _, .attrList sequence items => by
    rw [build, sequence.build_eq]
    simp only [ok_bind, AttrList.make, picks_attribute.requireItems_eq .entry items]
    rfl
  | _, _, .attrs target sequence items => by
    rw [build, target.build_eq, sequence.build_eq]
    simp only [ok_bind, makeAttrs_eq, picks_target.require_make, requireLists,
      picks_attrList.requireItems_eq .attrList items]
    rfl
  | _, _, .nodeId name => by
    rw [build, name.build_eq]
    simp only [ok_bind, makeNodeId, requireText_eq, picks_word.require_make]
    rfl
  | _, _, .node id sequence items => by
    rw [build, id.build_eq, sequence.build_eq]
    simp only [ok_bind, makeNode_eq, picks_nodeId.require_make, requireLists,
      picks_attrList.requireItems_eq .attrList items]
    rfl
  | _, _, .subgraph name sequence items => by
    rw [build, name.build_eq, sequence.build_eq]
    simp only [ok_bind, Statement.makeSubgraph, optionalText_eq, picks_optionalWord.require_make,
      requireBody, picks_statement.requireItems_eq .statement items]
    rfl
  | _, _, .hop op target => by
    rw [build, op.build_eq, target.build_eq]
    simp only [ok_bind, makeHop_eq, requireEndpoint_eq, picks_edgeOp.require_make,
      picks_endpoint.require_make]
    rfl
  | _, _, .edge source sequence items nonempty lists listItems => by
    rw [build, source.build_eq, sequence.build_eq, lists.build_eq]
    simp only [ok_bind, makeEdge_eq, requireEndpoint_eq, picks_endpoint.require_make,
      picks_hop.requireItems_eq .hop items, requireHop_of_ne_nil nonempty, requireLists,
      picks_attrList.requireItems_eq .attrList listItems]
    rfl
  | _, _, .declaration kind name sequence items => by
    rw [build, kind.build_eq, name.build_eq, sequence.build_eq]
    simp only [ok_bind, makeDeclaration_eq, optionalText_eq, picks_graphKind.require_make,
      picks_optionalWord.require_make, requireBody,
      picks_statement.requireItems_eq .statement items]
    rfl

theorem MakesAll.buildAll_eq : ∀ {ts : List Term} {vs : List Value},
    MakesAll ts vs → buildAll ts = .ok vs
  | _, _, .nil => rfl
  | _, _, .cons head tail => by
    rw [buildAll, head.build_eq, tail.buildAll_eq]
    rfl

theorem MakesEntries.buildEntries_eq : ∀ {fs : List (String × Term)}
    {gs : List (String × Value)}, MakesEntries fs gs → buildEntries fs = .ok gs
  | _, _, .nil => rfl
  | _, _, .cons head tail => by
    rw [buildEntries, head.build_eq, tail.buildEntries_eq]
    rfl

end

theorem Makes.unique {t : Term} {v w : Value} (hv : t.Makes v) (hw : t.Makes w) : v = w :=
  Except.ok.inj (hv.build_eq.symm.trans hw.build_eq)

end Term

/-! ## Errors -/

theorem ItemSlot.refuses_unique {slot : ItemSlot} (t : Term) (e f : Defect)
    (he : slot.Refuses t e) (hf : slot.Refuses t f) : e = f := by
  obtain ⟨v, hv, rfl⟩ := he
  obtain ⟨w, hw, rfl⟩ := hf
  rw [hv.unique hw]

theorem Check.refuses_unique (c : Check) (e f : Defect) (he : c.Refuses e) (hf : c.Refuses f) :
    e = f := by
  cases he with
  | isOf made =>
    cases hf with
    | isOf made' => rw [made.unique made']
  | notSequence notItems =>
    cases hf with
    | notSequence => rfl
    | item items first =>
      rw [notItems] at items
      cases items
  | item items first =>
    cases hf with
    | notSequence notItems =>
      rw [notItems] at items
      cases items
    | item items' first' =>
      rw [items] at items'
      cases items'
      exact first.unique ItemSlot.refuses_unique first'
  | noHop =>
    cases hf
    rfl

theorem Term.offends_unique (t : Term) (e f : Defect) (he : t.Offends e) (hf : t.Offends f) :
    e = f := FirstRefused.unique Check.refuses_unique he hf

theorem Check.Refuses.notSequence_or_malformed {c : Check} {e : Defect} (h : c.Refuses e) :
    (e = .notSequence ∧ ∃ slot t, c = .items slot t ∧ t.items? = none) ∨
      ∃ m, e = .malformed m := by
  cases h with
  | isOf => exact Or.inr ⟨_, rfl⟩
  | notSequence notItems => exact Or.inl ⟨rfl, _, _, rfl, notItems⟩
  | item items first =>
    obtain ⟨-, i, -, -, -, -, v, -, rfl⟩ := first
    exact Or.inr ⟨_, rfl⟩
  | noHop => exact Or.inr ⟨_, rfl⟩

/-! ## Well-formed values -/

namespace Value

theorem WellFormed.items {c : Value} (h : c.WellFormed) {vs : List Value}
    (hvs : c.items? = some vs) : ∀ v ∈ vs, v.WellFormed := by
  have htext : ∀ {α : Type} (f : α → String) (l : List α), ∀ v ∈ l.map fun a => text (f a),
      v.WellFormed := by
    intro α f l v hv
    obtain ⟨a, -, rfl⟩ := List.mem_map.1 hv
    trivial
  cases c with
  | list ws =>
    cases hvs
    exact (allWellFormed_iff _).1 h
  | text s =>
    cases hvs
    exact htext _ _
  | keyword w =>
    cases hvs
    exact htext _ _
  | object fs =>
    cases hvs
    exact htext _ _
  | _ => cases hvs

theorem wellFormed_ofEndpoint (x : Endpoint) : (ofEndpoint x).WellFormed ↔ x.WellFormed := by
  cases x <;> exact Iff.rfl

end Value

namespace Term

mutual

theorem Makes.wellFormed : ∀ {t : Term} {v : Value}, t.Makes v → v.WellFormed
  | _, _, .null => trivial
  | _, _, .bool => trivial
  | _, _, .int => trivial
  | _, _, .float => trivial
  | _, _, .text => trivial
  | _, _, .keyword _ => trivial
  | _, _, .list items => items.wellFormed
  | _, _, .object entries => entries.wellFormed
  | _, _, .attr _ _ => trivial
  | _, _, .attrList _ _ => trivial
  | _, _, .attrs _ _ _ => trivial
  | _, _, .nodeId _ => trivial
  | _, _, .node _ _ _ => trivial
  | _, _, .subgraph _ sequence items =>
    (bodyWellFormed_iff _).2 fun _ hs => sequence.wellFormed.items items _ (List.mem_map_of_mem hs)
  | _, _, .hop _ target => (Value.wellFormed_ofEndpoint _).1 target.wellFormed
  | _, _, .edge source sequence items nonempty _ _ =>
    ⟨nonempty, (Value.wellFormed_ofEndpoint _).1 source.wellFormed,
      (hopsWellFormed_iff _).2 fun _ hh =>
        sequence.wellFormed.items items _ (List.mem_map_of_mem hh)⟩
  | _, _, .declaration _ _ sequence items =>
    (bodyWellFormed_iff _).2 fun _ hs => sequence.wellFormed.items items _ (List.mem_map_of_mem hs)

theorem MakesAll.wellFormed : ∀ {ts : List Term} {vs : List Value},
    MakesAll ts vs → Value.AllWellFormed vs
  | _, _, .nil => trivial
  | _, _, .cons head tail => ⟨head.wellFormed, tail.wellFormed⟩

theorem MakesEntries.wellFormed : ∀ {fs : List (String × Term)} {gs : List (String × Value)},
    MakesEntries fs gs → Value.EntriesWellFormed gs
  | _, _, .nil => trivial
  | _, _, .cons head tail => ⟨head.wellFormed, tail.wellFormed⟩

end

end Term

/-! ## Carrying out a nest -/

/-- A chain in a body with an empty subgraph, where a text stands for a sequence and a keyword for
a name. -/
def fittingNest : Term :=
  .declaration (.keyword .graphKind (.text "digraph")) (.keyword .target (.text "node"))
    (.list [
      .subgraph .null (.text ""),
      .edge (.nodeId (.text "a"))
        (.list [.hop (.keyword .edgeOp (.text "->")) (.nodeId (.text "b"))]) (.object [])])

/-- A subgraph with a number as its name; a text in place of a target and a node without a name
are inside. -/
def faultyNest : Term :=
  .subgraph (.int 7) (.list [.attrs (.text "node") (.list []), .nodeId .null])

/-- A nest can be carried out just when every construction in it fits the grammar, and then gives
the value that it makes; this value is well-formed.  Otherwise the first construction that is at
fault says what the error is: that a field is no sequence, or that something is malformed. -/
theorem build_nest (t : Term) (h : t.IsNest) :
    ((∃ v, t.build = .ok v) ↔ ∀ p ∈ t.parts, p.Fits) ∧
      (∀ v, t.build = .ok v ↔ t.Makes v) ∧
      (∀ v, t.build = .ok v → v.WellFormed) ∧
      (∀ e, t.build = .error e ↔ FirstRefused Term.Fits Term.Offends t.parts e) ∧
      ∀ (p : Term) e, p.Offends e →
        (e = .notSequence ∧ ∃ slot s, Check.items slot s ∈ p.checks ∧ s.items? = none) ∨
          ∃ m, e = .malformed m := by
  have htrial := t.trial_build h
  have hmakes : ∀ v, t.build = .ok v → t.Makes v := by
    intro v hv
    rw [hv] at htrial
    cases htrial with
    | passed _ holds => exact holds
  have hfits : ∀ v, t.build = .ok v → ∀ p ∈ t.parts, p.Fits := by
    intro v hv
    rw [hv] at htrial
    cases htrial with
    | passed met _ => exact met
  have hrefused : ∀ e, t.build = .error e → FirstRefused Term.Fits Term.Offends t.parts e := by
    intro e he
    rw [he] at htrial
    cases htrial with
    | refused first => exact first
  refine ⟨⟨fun ⟨v, hv⟩ => hfits v hv, fun hall => ?_⟩, fun v => ⟨hmakes v, fun hv => hv.build_eq⟩,
    fun v hv => (hmakes v hv).wellFormed, fun e => ⟨hrefused e, fun he => ?_⟩, ?_⟩
  · obtain ⟨v, hv, -⟩ := htrial.eq_ok hall
    exact ⟨v, hv⟩
  · obtain ⟨f, hf, hfirst⟩ := htrial.eq_error he.not_all_met
    rw [hf, he.unique Term.offends_unique hfirst]
  · rintro p e ⟨before, c, after, hchecks, -, -, hc⟩
    rcases hc.notSequence_or_malformed with ⟨he, slot, s, rfl, hs⟩ | hm
    · exact Or.inl ⟨he, slot, s, by rw [hchecks]; simp, hs⟩
    · exact Or.inr hm

theorem build_fittingNest_faultyNest :
    fittingNest.build = .ok (.declaration ⟨.digraph, some (.keyword (.target .node)),
        [.subgraph none [], .edge (.node (.text "a")) [.via .directed (.node (.text "b"))] []]⟩) ∧
      (∀ p ∈ fittingNest.parts, p.Fits) ∧
      faultyNest.build = .error (.malformed (.notTarget (.text "node"))) := by
  have hfitting : fittingNest.IsNest := by
    have hkeywords : (∃ w, Vocabulary.graphKind.find (.text "digraph") = .ok w) ∧
        (∃ w, Vocabulary.target.find (.text "node") = .ok w) ∧
        ∃ w, Vocabulary.edgeOp.find (.text "->") = .ok w := ⟨⟨_, rfl⟩, ⟨_, rfl⟩, ⟨_, rfl⟩⟩
    simpa [Term.IsNest, fittingNest, Term.parts, Term.partsOfAll, Term.partsOfEntries,
      Term.IsPlain] using hkeywords
  have hfaulty : faultyNest.IsNest := by
    simp [Term.IsNest, faultyNest, Term.parts, Term.partsOfAll, Term.IsPlain]
  have hsubgraph : Term.Makes (.subgraph .null (.text "")) (.statement (.subgraph none [])) :=
    .subgraph (o := none) .null .text rfl
  have hhop : Term.Makes (.hop (.keyword .edgeOp (.text "->")) (.nodeId (.text "b")))
      (.hop (.via .directed (.node (.text "b")))) :=
    .hop (x := .node (.text "b")) (.keyword rfl) (.nodeId (a := .text "b") .text)
  have hedge : Term.Makes (.edge (.nodeId (.text "a"))
      (.list [.hop (.keyword .edgeOp (.text "->")) (.nodeId (.text "b"))]) (.object []))
      (.statement (.edge (.node (.text "a")) [.via .directed (.node (.text "b"))] [])) :=
    .edge (x := .node (.text "a")) (.nodeId (a := .text "a") .text) (.list (.cons hhop .nil)) rfl
      (List.cons_ne_nil _ _) (.object .nil) rfl
  have hbuild : fittingNest.build = .ok (.declaration ⟨.digraph, some (.keyword (.target .node)),
      [.subgraph none [], .edge (.node (.text "a")) [.via .directed (.node (.text "b"))] []]⟩) :=
    ((build_nest fittingNest hfitting).2.1 _).2
      (.declaration (o := some (.keyword (.target .node))) (.keyword rfl) (.keyword rfl)
        (.list (.cons hsubgraph (.cons hedge .nil))) rfl)
  refine ⟨hbuild, (build_nest fittingNest hfitting).1.1 ⟨_, hbuild⟩,
    ((build_nest faultyNest hfaulty).2.2.2.1 _).2 ?_⟩
  -- the parts before the attribute statement are plain data
  refine ⟨[.int 7, .text "node", .list []], .attrs (.text "node") (.list []), _, rfl, ?_, ?_, ?_⟩
  · simp [Term.Fits, Term.checks]
  · simp [Term.Fits, Term.checks, Check.Met, Term.kind]
  · refine ⟨[], _, _, rfl, by simp, ?_, .isOf .text⟩
    simp [Check.Met, Term.kind]

example : (Term.node (.nodeId (.text "a")) .null).build = .error .notSequence := rfl

end DotSemantics
