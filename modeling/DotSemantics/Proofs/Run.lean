import DotSemantics.Declaration.Course
import DotSemantics.Proofs.Tables
import DotSemantics.Walk

/-!
# Carrying out a course

The course of a body is a flat list of moves.  Each move acts on the state of a walk
(`Move.apply`), and a move that asks for a layout that is not allowed is refused
(`Move.refusal?`).  `play` carries a course out until a move is refused; if none is, the end is
that of `run`.  A course speaks of nodes by name; a name that has a place keeps it
(`Walk.placeOf_run`), so that names can stand for nodes.
-/

namespace DotSemantics

/-! ## Moves -/

/-- What setting an attribute of the graph does, if it is not refused. -/
def Walk.setAttr (name value : String) (w : Walk) : Walk :=
  if metaKeys.contains name then w.record (.ignoredMeta name value)
  else w.assign name (if name = layoutKey then Text.lower value else value)

namespace Move

def mentions : Move → List String
  | node name _ => [name]
  | mention name => [name]
  | _ => []

/-- What a move does to the state of a walk, if it is not refused. -/
def apply : Move → Walk → Walk
  | assign name value, w => w.setAttr name value
  | nodeDefaults ps, w => w.addNodeDefaults (Table.ofPairs ps)
  | edgeDefaults ps, w => w.addEdgeDefaults (Table.ofPairs ps)
  | node name ps, w => (w.touch name).settle (w.placeOf name) (Table.ofPairs ps)
  | mention name, w => w.touch name
  | connect sources op targets ps, w =>
    w.connect (Table.ofPairs ps) (sources.map w.placeOf) op (targets.map w.placeOf)

/-- The layout for which a move is refused. -/
def refusal? (ls : Layouts) : Move → Option String
  | assign name value =>
    if name = layoutKey then
      if ls.allows (Text.lower value) then none else some (Text.lower value)
    else none
  | _ => none

/-- Carries out a move, unless it is refused. -/
def play (ls : Layouts) (m : Move) : WalkM Unit :=
  match m.refusal? ls with
  | none => WalkM.step m.apply
  | some layout => WalkM.refuse layout

end Move

/-! ## Courses -/

def courseMentions (ms : List Move) : List String := ms.flatMap Move.mentions

/-- Carries out a course up to the first move that is refused. -/
def play (ls : Layouts) : List Move → WalkM Unit
  | [] => pure ()
  | m :: rest => do
    m.play ls
    play ls rest

/-- The state after a course of which no move is refused. -/
def run (ms : List Move) (w : Walk) : Walk := ms.foldl (fun w m => m.apply w) w

theorem run_cons (m : Move) (ms : List Move) (w : Walk) :
    run (m :: ms) w = run ms (m.apply w) := rfl

theorem run_append (ms ns : List Move) (w : Walk) : run (ms ++ ns) w = run ns (run ms w) :=
  List.foldl_append

theorem play_append (ls : Layouts) (ms ns : List Move) :
    play ls (ms ++ ns) = (do play ls ms; play ls ns) := by
  induction ms with
  | nil => simp [play]
  | cons m ms ih => simp [play, ih]

theorem courseMentions_append (ms ns : List Move) :
    courseMentions (ms ++ ns) = courseMentions ms ++ courseMentions ns := by
  unfold courseMentions
  rw [List.flatMap_append]

theorem courseMentions_cons (m : Move) (ms : List Move) :
    courseMentions (m :: ms) = m.mentions ++ courseMentions ms := rfl

theorem Move.refusal?_assign (ls : Layouts) (name value : String) :
    (assign name value).refusal? ls =
      if name = layoutKey then
        if ls.allows (Text.lower value) then none else some (Text.lower value)
      else none := rfl

theorem Move.play_apply (ls : Layouts) (m : Move) (w : Walk) :
    m.play ls w = match m.refusal? ls with
      | none => .ok () (m.apply w)
      | some layout => .error ⟨layout, w.graph.name?⟩ w := by
  unfold Move.play
  cases m.refusal? ls <;> rfl

/-- A course that is carried out to its end has no refused move and ends as `run` does. -/
theorem play_eq_ok_iff (ls : Layouts) (ms : List Move) (w w' : Walk) :
    play ls ms w = .ok () w' ↔ (∀ m ∈ ms, m.refusal? ls = none) ∧ w' = run ms w := by
  induction ms generalizing w with
  | nil =>
    show EStateM.Result.ok () w = .ok () w' ↔ _
    constructor
    · intro h
      cases h
      exact ⟨by simp, rfl⟩
    · rintro ⟨-, rfl⟩
      rfl
  | cons m ms ih =>
    unfold play
    rw [WalkM.bind_apply, Move.play_apply, List.forall_mem_cons, run_cons]
    cases hm : m.refusal? ls with
    | none =>
      show play ls ms (m.apply w) = .ok () w' ↔ _
      rw [ih]
      simp
    | some layout => simp

/-- A course stops at its first refused move, in the state that the moves before it reach. -/
theorem play_of_refusal {ls : Layouts} {before : List Move} {m : Move} {layout : String}
    (hbefore : ∀ n ∈ before, n.refusal? ls = none) (hm : m.refusal? ls = some layout)
    (after : List Move) (w : Walk) :
    play ls (before ++ m :: after) w =
      .error ⟨layout, (run before w).graph.name?⟩ (run before w) := by
  have hrun : play ls before w = .ok () (run before w) :=
    (play_eq_ok_iff _ _ _ _).2 ⟨hbefore, rfl⟩
  rw [play_append, WalkM.bind_apply, hrun]
  show play ls (m :: after) (run before w) = _
  unfold play
  rw [WalkM.bind_apply, Move.play_apply, hm]

/-! ## Places -/

namespace Walk

/-- Setting an attribute of the graph is seen in its table and in the record alone. -/
theorem setAttr_eq (name value : String) (w : Walk) :
    w.setAttr name value =
      { w with attrs := (w.setAttr name value).attrs, log := (w.setAttr name value).log } := by
  unfold setAttr
  split <;> rfl

/-- Settling a node is seen in the nodes and in what was given outright alone. -/
theorem settle_eq (i : Nat) (t : Table String) (w : Walk) :
    w.settle i t = { w with nodes := (w.settle i t).nodes, given := (w.settle i t).given } := by
  unfold settle
  split <;> rfl

theorem setAttr_places (name value : String) (w : Walk) :
    (w.setAttr name value).places = w.places := by
  rw [setAttr_eq]

theorem settle_places (i : Nat) (t : Table String) (w : Walk) :
    (w.settle i t).places = w.places := by
  rw [settle_eq]

theorem keys_places_touch (name : String) (w : Walk) :
    (w.touch name).places.keys = addNew name w.places.keys :=
  Table.keys_putNew_eq_addNew w.places name (w.placeOf name)

theorem keys_places_apply (m : Move) (w : Walk) :
    (m.apply w).places.keys = addAllNew m.mentions w.places.keys := by
  cases m with
  | assign name value => exact congrArg Table.keys (setAttr_places name value w)
  | node name ps =>
    show ((w.touch name).settle _ _).places.keys = addNew name w.places.keys
    rw [settle_places, keys_places_touch]
  | mention name => exact keys_places_touch name w
  | _ => rfl

theorem keys_places_run (ms : List Move) (w : Walk) :
    (run ms w).places.keys = addAllNew (courseMentions ms) w.places.keys := by
  induction ms generalizing w with
  | nil => rfl
  | cons m ms ih =>
    rw [run_cons, ih, keys_places_apply, courseMentions_cons, addAllNew_append]

theorem placeOf_eq_of_get? {w : Walk} {name : String} {i : Nat}
    (h : w.places.get? name = some i) : w.placeOf name = i := by
  unfold placeOf
  rw [h]
  rfl

theorem exists_place {w : Walk} {name : String} (h : name ∈ w.places.keys) :
    ∃ i, w.places.get? name = some i := by
  cases hi : w.places.get? name with
  | none => exact absurd h ((Table.get?_eq_none_iff _ _).1 hi)
  | some i => exact ⟨i, rfl⟩

theorem placeOf_touch {w : Walk} {name : String} (h : name ∈ w.places.keys) (other : String) :
    (w.touch other).placeOf name = w.placeOf name := by
  obtain ⟨i, hi⟩ := exists_place h
  rw [placeOf_eq_of_get? hi]
  apply placeOf_eq_of_get?
  show (w.places.putNew other _).get? name = _
  rw [Table.get?_putNew, hi, Option.some_or]

/-- The node that is touched has the place that it was to get. -/
theorem placeOf_touch_self (w : Walk) (name : String) :
    (w.touch name).placeOf name = w.placeOf name := by
  apply placeOf_eq_of_get?
  show (w.places.putNew name _).get? name = _
  rw [Table.get?_putNew]
  unfold placeOf
  cases w.places.get? name <;> simp

/-- The places that names have hang on the table of places alone, if they have any. -/
theorem placeOf_congr {v w : Walk} (h : v.places = w.places) {name : String}
    (hn : name ∈ w.places.keys) : v.placeOf name = w.placeOf name := by
  obtain ⟨i, hi⟩ := exists_place hn
  rw [placeOf_eq_of_get? hi, placeOf_eq_of_get? (h ▸ hi)]

theorem placeOf_apply {w : Walk} {name : String} (h : name ∈ w.places.keys) (m : Move) :
    (m.apply w).placeOf name = w.placeOf name := by
  cases m with
  | assign n v => exact placeOf_congr (setAttr_places n v w) h
  | node n ps =>
    have ht : name ∈ (w.touch n).places.keys := by
      rw [keys_places_touch, mem_addNew]
      exact Or.inr h
    show ((w.touch n).settle _ _).placeOf name = _
    rw [placeOf_congr (settle_places _ _ _) ht, placeOf_touch h]
  | mention n => exact placeOf_touch h n
  | _ => rfl

theorem placeOf_run {w : Walk} {name : String} (h : name ∈ w.places.keys) (ms : List Move) :
    (run ms w).placeOf name = w.placeOf name := by
  induction ms generalizing w with
  | nil => rfl
  | cons m ms ih =>
    have hm : name ∈ (m.apply w).places.keys := by
      rw [keys_places_apply, mem_addAllNew]
      exact Or.inr h
    rw [run_cons, ih hm, placeOf_apply h]

end Walk

end DotSemantics
