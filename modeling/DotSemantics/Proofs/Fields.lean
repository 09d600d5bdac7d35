import DotSemantics.Proofs.Trials

/-!
# Fields

What the terms in the fields of a construction make: a value of the kind that can be read off the
term (`Term.Makes.kind_eq`), with items that its items make (`Term.Makes.exists_items`).  So the
checks that look at values are trials of the checks that look at terms (`Picks.trial`,
`Picks.trial_items`).
-/

namespace DotSemantics

/-! ## Kinds and items of what is made -/

theorem Vocabulary.vocabulary_of_find {voc : Vocabulary} {v : Value} {w : Keyword}
    (h : voc.find v = .ok w) : w.vocabulary = voc := by
  have hwords : ∀ x ∈ voc.words, x.vocabulary = voc := by
    cases voc <;> decide
  have hword : ∀ s, voc.word? s = some w → w.vocabulary = voc := by
    intro s hs
    exact hwords w (List.mem_of_find?_eq_some hs)
  cases v with
  | text s =>
    unfold find at h
    cases hs : voc.word? s with
    | none => simp [hs] at h
    | some x =>
      simp only [hs, Except.ok.injEq] at h
      exact hword s (h ▸ hs)
  | keyword x =>
    unfold find at h
    cases hs : voc.word? x.text with
    | none => simp [hs] at h
    | some y =>
      simp only [hs, Except.ok.injEq] at h
      exact hword x.text (h ▸ hs)
  | _ => cases h

namespace Term

namespace Makes

variable {t : Term} {v : Value}

theorem kind_eq (h : t.Makes v) : t.kind = v.kind := by
  cases h with
  | keyword found => exact congrArg Kind.keyword (Vocabulary.vocabulary_of_find found).symm
  | _ => rfl

theorem word?_eq {w : Word} (h : t.Makes (.ofWord w)) : t.word? = some w := by
  cases w with
  | text s =>
    cases h
    rfl
  | keyword w =>
    cases h with
    | keyword found => exact word?_keyword found

theorem makesAll_characters (s : String) : MakesAll (characters s) (Value.characters s) := by
  unfold characters Value.characters
  induction s.toList with
  | nil => exact .nil
  | cons c cs ih => exact .cons .text ih

theorem makesAll_names : ∀ {fs : List (String × Term)} {gs : List (String × Value)},
    MakesEntries fs gs → MakesAll (fs.map fun f => .text f.1) (gs.map fun g => .text g.1)
  | _, _, .nil => .nil
  | _, _, .cons _ tail => .cons .text (makesAll_names tail)

/-- What a term makes is no sequence if the term is none. -/
theorem items?_eq_none (h : t.Makes v) (ht : t.items? = none) : v.items? = none := by
  cases h with
  | keyword found =>
    rw [items?_keyword found] at ht
    cases ht
  | _ => first | rfl | cases ht

/-- The items of a term make the items of what it makes. -/
theorem exists_items (h : t.Makes v) {ts : List Term} (ht : t.items? = some ts) :
    ∃ vs, v.items? = some vs ∧ MakesAll ts vs := by
  cases h with
  | list items =>
    cases ht
    exact ⟨_, rfl, items⟩
  | text =>
    cases ht
    exact ⟨_, rfl, makesAll_characters _⟩
  | object entries =>
    cases ht
    exact ⟨_, rfl, makesAll_names entries⟩
  | keyword found =>
    rw [items?_keyword found] at ht
    cases ht
    exact ⟨_, rfl, makesAll_characters _⟩
  | _ => cases ht

theorem items?_eq_some_nil (h : t.Makes v) : t.items? = some [] ↔ v.items? = some [] := by
  cases ht : t.items? with
  | none => simp [h.items?_eq_none ht]
  | some ts =>
    obtain ⟨vs, hvs, hall⟩ := h.exists_items ht
    rw [hvs]
    cases hall <;> simp

end Makes

end Term

/-! ## Picking values -/

theorem Value.forall_iff {P : Value → Prop} :
    (∀ v, P v) ↔ (P .null ∧ (∀ b, P (.bool b)) ∧ (∀ n, P (.int n)) ∧ (∀ x, P (.float x)) ∧
        (∀ s, P (.text s)) ∧ (∀ vs, P (.list vs)) ∧ ∀ fs, P (.object fs)) ∧
      ((∀ k, P (.keyword (.graphKind k))) ∧ (∀ t, P (.keyword (.target t))) ∧
        ∀ o, P (.keyword (.edgeOp o))) ∧
      ((∀ a, P (.statement (.assign a))) ∧ (∀ t ls, P (.statement (.attrs t ls))) ∧
        (∀ i ls, P (.statement (.node i ls))) ∧ (∀ s hs ls, P (.statement (.edge s hs ls))) ∧
        ∀ n b, P (.statement (.subgraph n b))) ∧
      (∀ l, P (.attrList l)) ∧ (∀ n, P (.nodeId n)) ∧ (∀ h, P (.hop h)) ∧
        ∀ d, P (.declaration d) := by
  constructor
  · intro h
    simp only [h, implies_true, and_self]
  · rintro ⟨⟨hnull, hbool, hint, hfloat, htext, hlist, hobject⟩, ⟨hgraphKind, htarget, hop⟩,
      ⟨hassign, hattrs, hnode, hedge, hsubgraph⟩, hattrList, hnodeId, hhop, hdeclaration⟩
    rintro (_ | _ | _ | _ | _ | _ | _ | (_ | _ | _) | _ | (_ | _ | _ | _ | _) | _ | _ | _) <;>
      simp only [*]

/-- The values of some kinds are those that are made of something, which can be picked out of
them. -/
structure Picks {α : Type} (kinds : List Kind) (pick : Value → Option α) (make : α → Value) :
    Prop where
  eq_some_iff : ∀ a v, pick v = some a ↔ v = make a
  kind_iff : ∀ v, v.kind ∈ kinds ↔ (pick v).isSome

def Value.optionalWord? : Value → Option (Option Word)
  | .null => some none
  | v => v.word?.map some

def Value.target? : Value → Option Target
  | .keyword (.target t) => some t
  | _ => none

def Value.edgeOp? : Value → Option EdgeOp
  | .keyword (.edgeOp o) => some o
  | _ => none

def Value.graphKind? : Value → Option GraphKind
  | .keyword (.graphKind k) => some k
  | _ => none

def Value.nodeId? : Value → Option Word
  | .nodeId n => some n
  | _ => none

section

attribute [local simp] Value.kind Statement.kind Keyword.vocabulary textKinds endpointKinds
  ItemSlot.kinds Value.word? Value.optionalWord? Value.target? Value.edgeOp? Value.graphKind?
  Value.nodeId? Value.endpoint? Value.attribute? Value.attrList? Value.statement? Value.hop?
  Value.ofWord Value.ofOptionalWord Value.ofEndpoint Value.forall_iff

theorem picks_word : Picks textKinds Value.word? Value.ofWord where
  eq_some_iff := by rintro (_ | _) <;> simp
  kind_iff := by simp

theorem picks_optionalWord :
    Picks (.null :: textKinds) Value.optionalWord? Value.ofOptionalWord where
  eq_some_iff := by rintro (_ | _ | _) <;> simp
  kind_iff := by simp

theorem picks_target : Picks [.keyword .target] Value.target? fun t => .keyword (.target t) where
  eq_some_iff := by simp
  kind_iff := by simp

theorem picks_edgeOp : Picks [.keyword .edgeOp] Value.edgeOp? fun o => .keyword (.edgeOp o) where
  eq_some_iff := by simp
  kind_iff := by simp

theorem picks_graphKind :
    Picks [.keyword .graphKind] Value.graphKind? fun k => .keyword (.graphKind k) where
  eq_some_iff := by simp
  kind_iff := by simp

theorem picks_nodeId : Picks [.nodeId] Value.nodeId? .nodeId where
  eq_some_iff := by simp
  kind_iff := by simp

theorem picks_endpoint : Picks endpointKinds Value.endpoint? Value.ofEndpoint where
  eq_some_iff := by rintro (_ | _) <;> simp
  kind_iff := by simp

theorem picks_attribute :
    Picks (ItemSlot.kinds .entry) Value.attribute? fun a => .statement (.assign a) where
  eq_some_iff := by simp
  kind_iff := by simp

theorem picks_attrList : Picks (ItemSlot.kinds .attrList) Value.attrList? .attrList where
  eq_some_iff := by simp
  kind_iff := by simp

theorem picks_statement : Picks (ItemSlot.kinds .statement) Value.statement? .statement where
  eq_some_iff := by simp
  kind_iff := by simp

theorem picks_hop : Picks (ItemSlot.kinds .hop) Value.hop? .hop where
  eq_some_iff := by simp
  kind_iff := by simp

end

/-! ## Checks of fields -/

/-- What is picked out of a value, else a refusal of the value. -/
def require {α : Type} (pick : Value → Option α) (refusal : Value → Malformation) (v : Value) :
    Except Defect α :=
  match pick v with
  | some a => .ok a
  | none => .error (.malformed (refusal v))

namespace Picks

variable {α : Type} {kinds : List Kind} {pick : Value → Option α} {make : α → Value}
  {t : Term} {v : Value}

theorem eq_none (hp : Picks kinds pick make) (h : pick v = none) : v.kind ∉ kinds := by
  rw [hp.kind_iff, h]
  exact Bool.false_ne_true

theorem eq_make (hp : Picks kinds pick make) {a : α} (h : pick v = some a) :
    v = make a ∧ v.kind ∈ kinds := by
  refine ⟨(hp.eq_some_iff a v).1 h, ?_⟩
  rw [hp.kind_iff, h]
  rfl

theorem require_make (hp : Picks kinds pick make) (refusal : Value → Malformation) (a : α) :
    require pick refusal (make a) = .ok a := by
  unfold require
  rw [(hp.eq_some_iff a _).2 rfl]

theorem pickAll_make (hp : Picks kinds pick make) (slot : ItemSlot) (as : List α) :
    pickAll pick slot (as.map make) = .ok as := by
  induction as with
  | nil => rfl
  | cons a as ih =>
    rw [List.map_cons, pickAll, (hp.eq_some_iff a _).2 rfl, ih]
    rfl

theorem requireItems_eq (hp : Picks kinds pick make) (slot : ItemSlot) {as : List α}
    (h : v.items? = some (as.map make)) : requireItems pick slot v = .ok as := by
  unfold requireItems
  rw [h]
  exact hp.pickAll_make slot as

/-- A field is of one of some kinds, or refused. -/
theorem trial (hp : Picks kinds pick make) (refusal : Value → Malformation) (hv : t.Makes v) :
    Trial Check.Met Check.Refuses (fun a => t.Makes (make a)) [.isOf kinds refusal t]
      (require pick refusal v) := by
  unfold require
  cases h : pick v with
  | some a =>
    obtain ⟨rfl, hkind⟩ := hp.eq_make h
    refine .single ?_ hv
    show t.kind ∈ kinds
    rw [hv.kind_eq]
    exact hkind
  | none =>
    refine .head ?_ (.isOf hv)
    show t.kind ∉ kinds
    rw [hv.kind_eq]
    exact hp.eq_none h

/-- The items of a sequence are all admitted by their slot, or the first that is not is refused. -/
theorem trial_pickAll {slot : ItemSlot} (hp : Picks slot.kinds pick make) {ts : List Term}
    {vs : List Value} (h : Term.MakesAll ts vs) :
    Trial slot.Admits slot.Refuses (fun as => vs = as.map make) ts (pickAll pick slot vs) := by
  induction ts generalizing vs with
  | nil =>
    cases h
    exact .passed (by simp) rfl
  | cons t ts ih =>
    cases h with
    | @cons _ v _ vs head tail =>
      unfold pickAll
      cases hpick : pick v with
      | none =>
        refine .head ?_ ⟨v, head, rfl⟩
        unfold ItemSlot.Admits
        rw [head.kind_eq]
        exact hp.eq_none hpick
      | some a =>
        obtain ⟨rfl, hkind⟩ := hp.eq_make hpick
        have hadmits : slot.Admits t := by
          unfold ItemSlot.Admits
          rw [head.kind_eq]
          exact hkind
        refine ((ih tail).map ?_).cons hadmits
        rintro as rfl
        rfl

/-- A field is a sequence of items that its slot admits, or refused. -/
theorem trial_items {slot : ItemSlot} (hp : Picks slot.kinds pick make) (hv : t.Makes v) :
    Trial Check.Met Check.Refuses (fun as => v.items? = some (as.map make)) [.items slot t]
      (requireItems pick slot v) := by
  unfold requireItems
  cases ht : t.items? with
  | none =>
    rw [hv.items?_eq_none ht]
    refine .head ?_ (.notSequence ht)
    rintro ⟨ts, hts, -⟩
    rw [ht] at hts
    cases hts
  | some ts =>
    obtain ⟨vs, hvs, hall⟩ := hv.exists_items ht
    have hitems := hp.trial_pickAll hall
    rw [hvs]
    show Trial Check.Met Check.Refuses _ _ (pickAll pick slot vs)
    generalize pickAll pick slot vs = r at hitems ⊢
    cases hitems with
    | passed met holds => exact .single ⟨ts, ht, met⟩ (congrArg some holds)
    | refused first =>
      refine .head ?_ (.item ht first)
      rintro ⟨us, hus, hall⟩
      rw [ht] at hus
      cases hus
      exact first.not_all_met hall

end Picks

end DotSemantics
