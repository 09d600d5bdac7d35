import DotSemantics.Proofs.Reading

/-!
# Batches

A batch is read entry by entry, and nothing is carried from one entry to the next: where it stands
in the batch is all that an entry knows of the others (`readFrom_add`).

    graphs of b ++ c  = graphs of b, then graphs of c
    failure of b ++ c = failure of b, else failure of c counted from behind b    (readBatch_append)

So a batch gives the graphs that its declarations give each on its own (`ReadSeparately`), or fails
with the first entry that fails on its own (`batch_read_entrywise`).
-/

namespace DotSemantics

/-! ## Counting from another place -/

/-- The failure of a batch that stands some places further behind. -/
def BatchFailure.later (n : Nat) : BatchFailure → BatchFailure
  | unknownLayout layout place => .unknownLayout layout ⟨place.index + n, place.name⟩
  | notDeclaration index got => .notDeclaration (index + n) got

theorem BatchFailure.later_later (f : BatchFailure) (n k : Nat) :
    (f.later n).later k = f.later (n + k) := by
  cases f with
  | unknownLayout layout place => simp [later, Int.add_assoc]
  | notDeclaration index got => simp [later, Nat.add_assoc]

/-- What a batch gives does not depend on where it stands, apart from the index in a failure. -/
theorem readFrom_add (ls : Layouts) (index n : Nat) (vs : List Value) :
    (readFrom ls (index + n) vs).2 = (readFrom ls index vs).2.mapError (BatchFailure.later n) := by
  induction vs generalizing index with
  | nil => rfl
  | cons v vs ih =>
    have hnext : (readFrom ls (index + n + 1) vs).2 =
        (readFrom ls (index + 1) vs).2.mapError (BatchFailure.later n) := by
      rw [← ih]
      congr 2
      omega
    cases v with
    | null => exact hnext
    | declaration d =>
      rw [readFrom_declaration, readFrom_declaration, hnext, d.read_eq_account, d.read_eq_account]
      cases (d.account ls).2 with
      | error e => rfl
      | ok g => cases (readFrom ls (index + 1) vs).2 <;> rfl
    | _ => rfl

/-- A failure is not mended by the entries behind it. -/
theorem readFrom_append_of_error {ls : Layouts} {index : Nat} {before : List Value}
    {f : BatchFailure} (h : (readFrom ls index before).2 = .error f) (after : List Value) :
    (readFrom ls index (before ++ after)).2 = .error f := by
  induction before generalizing index with
  | nil => cases h
  | cons v before ih =>
    cases v with
    | null => exact ih h
    | declaration d =>
      rw [readFrom_declaration] at h
      rw [List.cons_append, readFrom_declaration]
      cases hd : (d.read ls index).2 with
      | error e =>
        rw [hd] at h
        exact h
      | ok g =>
        rw [hd] at h
        cases hr : (readFrom ls (index + 1) before).2 with
        | error f' =>
          simp only [hr] at h
          cases h
          simp only [ih hr]
          rfl
        | ok gs =>
          simp only [hr] at h
          cases h
    | _ => exact h

theorem readBatch_append (ls : Layouts) (b c : List Value) :
    (readBatch ls (b ++ c)).2 = match (readBatch ls b).2 with
      | .error f => .error f
      | .ok gs => match (readBatch ls c).2 with
        | .error f => .error (f.later b.length)
        | .ok hs => .ok (gs ++ hs) := by
  unfold readBatch
  cases hb : (readFrom ls 0 b).2 with
  | error f => exact readFrom_append_of_error hb c
  | ok gs =>
    rw [readFrom_append hb, readFrom_add]
    cases (readFrom ls 0 c).2 <;> rfl

/-! ## Single entries -/

theorem readBatch_null (ls : Layouts) : (readBatch ls [.null]).2 = .ok [] := rfl

/-- A declaration on its own gives one graph, or fails at its first place. -/
theorem readBatch_declaration (ls : Layouts) (d : Declaration) :
    (readBatch ls [.declaration d]).2 = match (d.account ls).2 with
      | .error e => .error (.unknownLayout e.layout ⟨0, e.graphName⟩)
      | .ok g => .ok [g] := by
  unfold readBatch
  rw [readFrom_declaration, d.read_eq_account]
  cases (d.account ls).2 <;> rfl

/-- An entry that is neither a declaration nor a gap. -/
def Value.isForeign : Value → Bool
  | null => false
  | declaration _ => false
  | _ => true

theorem readBatch_foreign {v : Value} (h : v.isForeign = true) (ls : Layouts) :
    (readBatch ls [v]).2 = .error (.notDeclaration 0 v) := by
  cases v with
  | null => cases h
  | declaration d => cases h
  | _ => rfl

/-! ## Entries on their own -/

/-- The graphs that the declarations among some entries give, each read on its own. -/
inductive ReadSeparately (ls : Layouts) : List Value → List Graph → Prop
  | nil : ReadSeparately ls [] []
  | gap {vs : List Value} {gs : List Graph} :
      ReadSeparately ls vs gs → ReadSeparately ls (.null :: vs) gs
  | declaration {d : Declaration} {g : Graph} {vs : List Value} {gs : List Graph} :
      (readBatch ls [.declaration d]).2 = .ok [g] → ReadSeparately ls vs gs →
      ReadSeparately ls (.declaration d :: vs) (g :: gs)

/-- How an entry fails that stands at an index: a declaration as it does on its own, but for the
index, and anything else that is no gap. -/
inductive FailsAt (ls : Layouts) (index : Nat) : Value → BatchFailure → Prop
  | declaration {d : Declaration} {layout : String} {name : Option String} :
      (readBatch ls [.declaration d]).2 = .error (.unknownLayout layout ⟨0, name⟩) →
      FailsAt ls index (.declaration d) (.unknownLayout layout ⟨index, name⟩)
  | foreign {v : Value} : v.isForeign = true → FailsAt ls index v (.notDeclaration index v)

theorem failsAt_iff (ls : Layouts) (index : Nat) (v : Value) (f : BatchFailure) :
    FailsAt ls index v f ↔ ∃ f₀, (readBatch ls [v]).2 = .error f₀ ∧ f = f₀.later index := by
  constructor
  · rintro (hd | hv)
    · refine ⟨_, hd, ?_⟩
      simp [BatchFailure.later]
    · refine ⟨_, readBatch_foreign hv ls, ?_⟩
      simp [BatchFailure.later]
  · rintro ⟨f₀, hf, rfl⟩
    cases hv : v.isForeign with
    | true =>
      rw [readBatch_foreign hv] at hf
      cases hf
      simpa [BatchFailure.later] using FailsAt.foreign hv
    | false =>
      cases v with
      | null => cases hf
      | declaration d =>
        have hdecl := readBatch_declaration ls d
        cases hd : (d.account ls).2 with
        | error e =>
          rw [hd, hf] at hdecl
          cases hdecl
          simpa [BatchFailure.later] using FailsAt.declaration hf
        | ok g =>
          rw [hd, hf] at hdecl
          cases hdecl
      | _ => cases hv

theorem readBatch_cons_eq_ok_iff (ls : Layouts) (v : Value) (vs : List Value) (gs : List Graph) :
    (readBatch ls (v :: vs)).2 = .ok gs ↔ ∃ first rest, (readBatch ls [v]).2 = .ok first ∧
      (readBatch ls vs).2 = .ok rest ∧ gs = first ++ rest := by
  rw [show v :: vs = [v] ++ vs from rfl, readBatch_append]
  cases (readBatch ls [v]).2 with
  | error f => simp
  | ok first =>
    cases (readBatch ls vs).2 with
    | error f => simp
    | ok rest => simp [eq_comm]

theorem readBatch_cons_eq_error_iff (ls : Layouts) (v : Value) (vs : List Value)
    (f : BatchFailure) :
    (readBatch ls (v :: vs)).2 = .error f ↔ (readBatch ls [v]).2 = .error f ∨
      ∃ first f', (readBatch ls [v]).2 = .ok first ∧ (readBatch ls vs).2 = .error f' ∧
        f = f'.later 1 := by
  rw [show v :: vs = [v] ++ vs from rfl, readBatch_append]
  cases (readBatch ls [v]).2 with
  | error f => simp
  | ok first =>
    cases (readBatch ls vs).2 with
    | error f' => simp [eq_comm]
    | ok rest => simp

/-- An entry that does not fail is a gap without a graph or a declaration with one. -/
theorem readBatch_singleton_eq_ok_iff (ls : Layouts) (v : Value) (gs : List Graph) :
    (readBatch ls [v]).2 = .ok gs ↔ v = .null ∧ gs = [] ∨
      ∃ d g, v = .declaration d ∧ gs = [g] ∧ (readBatch ls [.declaration d]).2 = .ok [g] := by
  cases v with
  | null => simp [readBatch_null, eq_comm]
  | declaration d =>
    rw [readBatch_declaration]
    cases hd : (d.account ls).2 with
    | error e => simp [readBatch_declaration, hd]
    | ok g => simp [readBatch_declaration, hd, eq_comm]
  | _ =>
    rw [readBatch_foreign rfl]
    simp

theorem readBatch_eq_ok_iff_readSeparately (ls : Layouts) (vs : List Value) (gs : List Graph) :
    (readBatch ls vs).2 = .ok gs ↔ ReadSeparately ls vs gs := by
  induction vs generalizing gs with
  | nil =>
    constructor
    · intro h
      cases h
      exact .nil
    · rintro ⟨-⟩
      rfl
  | cons v vs ih =>
    rw [readBatch_cons_eq_ok_iff]
    constructor
    · rintro ⟨first, rest, hv, hvs, rfl⟩
      have hrest := (ih rest).1 hvs
      rcases (readBatch_singleton_eq_ok_iff ls v first).1 hv with ⟨rfl, rfl⟩ | ⟨d, g, rfl, rfl, hd⟩
      · exact .gap hrest
      · exact .declaration hd hrest
    · rintro (- | hrest | ⟨hd, hrest⟩)
      · exact ⟨[], gs, readBatch_null ls, (ih gs).2 hrest, rfl⟩
      · exact ⟨_, _, hd, (ih _).2 hrest, rfl⟩

theorem readBatch_eq_error_iff_failsAt (ls : Layouts) (vs : List Value) (f : BatchFailure) :
    (readBatch ls vs).2 = .error f ↔ ∃ before v after gs, vs = before ++ v :: after ∧
      ReadSeparately ls before gs ∧ FailsAt ls before.length v f := by
  simp only [← readBatch_eq_ok_iff_readSeparately, failsAt_iff]
  constructor
  · intro h
    induction vs generalizing f with
    | nil => cases h
    | cons v vs ih =>
      rcases (readBatch_cons_eq_error_iff ls v vs f).1 h with hv | ⟨first, f', hv, hvs, rfl⟩
      · exact ⟨[], v, vs, [], rfl, rfl, f, hv, by cases f <;> simp [BatchFailure.later]⟩
      · -- the entry in front does not fail, and so it is one of those before the failure
        obtain ⟨before, u, after, gs, rfl, hbefore, f₀, hu, rfl⟩ := ih f' hvs
        refine ⟨v :: before, u, after, first ++ gs, rfl, ?_, f₀, hu, ?_⟩
        · exact (readBatch_cons_eq_ok_iff _ _ _ _).2 ⟨first, gs, hv, hbefore, rfl⟩
        · rw [BatchFailure.later_later, List.length_cons]
  · rintro ⟨before, v, after, gs, rfl, hbefore, f₀, hv, rfl⟩
    have hfront : (readBatch ls (v :: after)).2 = .error f₀ :=
      (readBatch_cons_eq_error_iff _ _ _ _).2 (Or.inl hv)
    rw [readBatch_append, hbefore, hfront]

/-! ## Main theorem -/

/-- A batch gives the graphs of its declarations, each read on its own and in their order, if none
of its entries fails; else it fails as its first entry that fails does, with the index at which that
entry stands.  So what one batch behind the other gives is known from what each of them gives. -/
theorem batch_read_entrywise (ls : Layouts) :
    (∀ vs gs, (readBatch ls vs).2 = .ok gs ↔ ReadSeparately ls vs gs) ∧
      (∀ vs f, (readBatch ls vs).2 = .error f ↔ ∃ before v after gs,
        vs = before ++ v :: after ∧ ReadSeparately ls before gs ∧ FailsAt ls before.length v f) ∧
      (∀ index v, (BatchFailure.notDeclaration index v).fault =
        .malformed ("Expected GraphDecl at index " ++ toString index ++ ", got " ++ v.display)) ∧
      ∀ b c, (readBatch ls (b ++ c)).2 = match (readBatch ls b).2 with
        | .error f => .error f
        | .ok gs => match (readBatch ls c).2 with
          | .error f => .error (f.later b.length)
          | .ok hs => .ok (gs ++ hs) :=
  ⟨readBatch_eq_ok_iff_readSeparately ls, readBatch_eq_error_iff_failsAt ls, fun _ _ => rfl,
    readBatch_append ls⟩

end DotSemantics
