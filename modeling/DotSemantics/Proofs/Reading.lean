import DotSemantics.Batch
import DotSemantics.Proofs.Sound

/-!
# Reading a declaration

A declaration gives a graph just when none of the moves of its body is refused, and then it gives
the graph of the state in which its course ends (`Declaration.read_eq_ok_iff`).  What it gives, and
what it records behind its heading, does not depend on the place at which it stands
(`Declaration.read_eq_account`).
-/

namespace DotSemantics

namespace Declaration

/-- The state in which the course of a declaration ends, if no move of it is refused. -/
def final (d : Declaration) (log : List LogEntry) : Walk :=
  run (bodyCourse d.body) (Walk.start d.kind d.graphName log)

/-- What is recorded before the body of a declaration is read. -/
def heading (d : Declaration) (index : Nat) : List LogEntry :=
  [⟨.debug, .began d.kind d.name index⟩]

theorem walk_eq_play (ls : Layouts) (index : Nat) (d : Declaration) :
    d.walk ls [⟨.debug, .began d.kind d.name index⟩] =
      play ls (bodyCourse d.body) (Walk.start d.kind d.graphName (d.heading index)) := by
  unfold walk
  rw [visitAll_eq_play]
  rfl

theorem read_eq_ok_iff (ls : Layouts) (index : Nat) (d : Declaration) (g : Graph) :
    (d.read ls index).2 = .ok g ↔
      (∀ m ∈ bodyCourse d.body, m.refusal? ls = none) ∧ g = (d.final (d.heading index)).graph := by
  unfold read
  rw [walk_eq_play]
  cases hp : play ls (bodyCourse d.body) (Walk.start d.kind d.graphName (d.heading index)) with
  | error e w =>
    constructor
    · intro h
      cases h
    · rintro ⟨h, -⟩
      rw [(play_eq_ok_iff _ _ _ _).2 ⟨h, rfl⟩] at hp
      cases hp
  | ok _ w =>
    obtain ⟨h, rfl⟩ := (play_eq_ok_iff _ _ _ _).1 hp
    constructor
    · intro hg
      cases hg
      exact ⟨h, rfl⟩
    · rintro ⟨-, rfl⟩
      rfl

/-- The state in which a declaration ends is sound, and its nodes are those that the body
mentions. -/
theorem sound_final (d : Declaration) (log : List LogEntry) :
    (d.final log).Sound ∧ (d.final log).names = distinct (bodyMentions d.body) := by
  have h := (Walk.sound_start d.kind d.graphName log).run (grounded_body d.body [])
  rw [courseMentions_body] at h
  exact h

/-- The graph of a declaration, if no move of it is refused. -/
def intended (d : Declaration) : Graph := (d.final (d.heading 0)).graph

end Declaration

/-! ## Earlier records -/

/-- The state with some records before its own. -/
def Walk.after (records : List LogEntry) (w : Walk) : Walk := { w with log := records ++ w.log }

theorem Move.apply_after (records : List LogEntry) (m : Move) (w : Walk) :
    m.apply (w.after records) = (m.apply w).after records := by
  cases m with
  | assign name value =>
    show (w.after records).setAttr name value = (w.setAttr name value).after records
    unfold Walk.setAttr Walk.after Walk.record
    split
    · simp only [List.append_assoc]
    · rfl
  | node name ps =>
    show ((w.touch name).after records).settle (w.placeOf name) (Table.ofPairs ps) =
      ((w.touch name).settle (w.placeOf name) (Table.ofPairs ps)).after records
    generalize w.touch name = v
    have hnodes : (v.after records).nodes = v.nodes := rfl
    unfold Walk.settle
    rw [hnodes]
    cases v.nodes[w.placeOf name]? <;> rfl
  | _ => rfl

namespace Declaration

/-- What the body of a declaration records, and what the declaration gives. -/
def account (ls : Layouts) (d : Declaration) : List LogEntry × Except UnknownLayout Graph :=
  match play ls (bodyCourse d.body) (Walk.start d.kind d.graphName []) with
  | .error e w => (w.log, .error e)
  | .ok _ w =>
    let g := w.graph
    ((w.record (.finished g.name? g.nodes.length g.edges.length)).log, .ok g)

/-- The place of a declaration is seen in its heading alone. -/
theorem read_eq_account (ls : Layouts) (index : Nat) (d : Declaration) :
    d.read ls index = (d.heading index ++ (d.account ls).1, (d.account ls).2) := by
  have hplay : play ls (bodyCourse d.body) (Walk.start d.kind d.graphName (d.heading index)) =
      mapEnd (Walk.after (d.heading index))
        (play ls (bodyCourse d.body) (Walk.start d.kind d.graphName [])) := by
    rw [← play_mapEnd (Move.apply_after (d.heading index)) (fun _ => rfl)]
    rfl
  unfold read account
  rw [walk_eq_play, hplay]
  cases play ls (bodyCourse d.body) (Walk.start d.kind d.graphName []) with
  | error e w => rfl
  | ok _ w =>
    show (_ ++ w.log ++ _, _) = (_ ++ (w.log ++ _), _)
    rw [List.append_assoc]
    rfl

end Declaration

/-! ## Batches -/

theorem readFrom_declaration (ls : Layouts) (index : Nat) (d : Declaration) (rest : List Value) :
    (readFrom ls index (.declaration d :: rest)).2 =
      match (d.read ls index).2 with
      | .error e => .error (.unknownLayout e.layout ⟨index, e.graphName⟩)
      | .ok g => (readFrom ls (index + 1) rest).2.map (g :: ·) := by
  rw [readFrom]
  rcases d.read ls index with ⟨log, e | g⟩ <;> rfl

/-- A batch goes on behind entries that do not fail. -/
theorem readFrom_append {ls : Layouts} {index : Nat} {before : List Value} {gs : List Graph}
    (h : (readFrom ls index before).2 = .ok gs) (after : List Value) :
    (readFrom ls index (before ++ after)).2 =
      (readFrom ls (index + before.length) after).2.map (gs ++ ·) := by
  induction before generalizing index gs with
  | nil =>
    cases h
    show (readFrom ls index after).2 = (readFrom ls index after).2.map fun hs => hs
    cases (readFrom ls index after).2 <;> rfl
  | cons v before ih =>
    have hindex : index + (v :: before).length = index + 1 + before.length := by
      simp only [List.length_cons]
      omega
    rw [hindex]
    cases v with
    | null => exact ih h
    | declaration d =>
      rw [readFrom_declaration] at h
      rw [List.cons_append, readFrom_declaration]
      cases hd : (d.read ls index).2 with
      | error e =>
        rw [hd] at h
        cases h
      | ok g =>
        rw [hd] at h
        cases hr : (readFrom ls (index + 1) before).2 with
        | error f =>
          simp only [hr] at h
          cases h
        | ok hs =>
          simp only [hr] at h
          cases h
          simp only [ih hr]
          cases (readFrom ls (index + 1 + before.length) after).2 <;> rfl
    | _ => cases h

theorem readBatch_append_declaration {ls : Layouts} {before : List Value} {gs : List Graph}
    (h : (readBatch ls before).2 = .ok gs) (d : Declaration) (after : List Value) :
    (readBatch ls (before ++ .declaration d :: after)).2 =
      match (d.read ls before.length).2 with
      | .error e => .error (.unknownLayout e.layout ⟨before.length, e.graphName⟩)
      | .ok g => (readFrom ls (before.length + 1) after).2.map (gs ++ g :: ·) := by
  unfold readBatch at h ⊢
  rw [readFrom_append h, Nat.zero_add, readFrom_declaration]
  cases (d.read ls before.length).2 with
  | error e => rfl
  | ok g => cases (readFrom ls (before.length + 1) after).2 <;> rfl

theorem readBatch_singleton (ls : Layouts) (d : Declaration) (g : Graph) :
    (readBatch ls [.declaration d]).2 = .ok [g] ↔ (d.read ls 0).2 = .ok g := by
  unfold readBatch readFrom
  rcases d.read ls 0 with ⟨log, e | g'⟩
  · simp
  · simp [readFrom, Except.map]

/-- What a batch of one declaration gives, if it does not fail. -/
theorem readBatch_eq_ok_iff (ls : Layouts) (d : Declaration) (g : Graph) :
    (readBatch ls [.declaration d]).2 = .ok [g] ↔
      (∀ m ∈ bodyCourse d.body, m.refusal? ls = none) ∧ g = d.intended := by
  rw [readBatch_singleton, Declaration.read_eq_ok_iff]
  rfl

theorem readBatch_intended {ls : Layouts} {d : Declaration}
    (h : ∀ m ∈ bodyCourse d.body, m.refusal? ls = none) :
    (readBatch ls [.declaration d]).2 = .ok [d.intended] :=
  (readBatch_eq_ok_iff _ _ _).2 ⟨h, rfl⟩

end DotSemantics
