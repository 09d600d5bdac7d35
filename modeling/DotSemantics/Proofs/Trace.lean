import DotSemantics.Proofs.Batches
import DotSemantics.Proofs.Edges
import DotSemantics.Proofs.Refusals
import Mathlib.Data.List.TakeWhile

/-!
# The records of a batch

What is recorded while a batch is read, up to its end or to its failure, can be told entry by entry
from the texts of the declarations (`Traced`):

    gap                      skipped
    declaration, read        began, the ignored pairs of the body, finished
    declaration, refused     began, the ignored pairs before the one that is refused
    anything else            nothing

and it is this and nothing else (`readBatch_eq_iff_traced`).  Inside a declaration the walk records
the pairs that it ignores as it comes to them, and nothing behind one that is refused (`log_play`).
-/

namespace DotSemantics

/-! ## Pairs -/

/-- Whether a pair asks for no layout that is not allowed. -/
def permits (ls : Layouts) (p : String × String) : Bool := (layoutOf? p).all ls.allows

/-- The events of some pairs: one for each that names what only the grammar decides. -/
def ignoredEvents (ps : List (String × String)) : List Event :=
  (ps.filter fun p => metaKeys.contains p.1).map fun p => .ignoredMeta p.1 p.2

/-- The records of some events, none of which matters much. -/
def recordsOf (es : List Event) : List LogEntry := es.map (LogEntry.mk .debug)

theorem ignoredEvents_append (ps qs : List (String × String)) :
    ignoredEvents (ps ++ qs) = ignoredEvents ps ++ ignoredEvents qs := by
  unfold ignoredEvents
  rw [List.filter_append, List.map_append]

theorem recordsOf_append (es fs : List Event) :
    recordsOf (es ++ fs) = recordsOf es ++ recordsOf fs := List.map_append

/-! ## Courses -/

theorem Move.refusal?_assign_eq (ls : Layouts) (name value : String) :
    (assign name value).refusal? ls =
      if permits ls (name, value) then none else some (Text.lower value) := by
  rw [refusal?_assign]
  unfold permits layoutOf?
  by_cases hname : name = layoutKey <;> simp [hname]

theorem Move.permits_of_refusal?_eq_none {ls : Layouts} {m : Move} (h : m.refusal? ls = none) :
    ∀ p ∈ m.pairs, permits ls p = true := by
  intro p hp
  cases m with
  | assign name value =>
    rw [List.mem_singleton.1 hp]
    rw [refusal?_assign_eq] at h
    split at h
    · assumption
    · cases h
  | _ => cases hp

/-- Nothing is ignored from a move on that is refused. -/
theorem Move.takeWhile_permits_of_refusal? {ls : Layouts} {m : Move} {layout : String}
    (h : m.refusal? ls = some layout) (rest : List (String × String)) :
    (m.pairs ++ rest).takeWhile (permits ls) = [] := by
  cases m with
  | assign name value =>
    rw [refusal?_assign_eq] at h
    split at h
    · cases h
    · next hp => exact List.takeWhile_cons_of_neg hp
  | _ => cases h

/-- A move records its pair if that is ignored. -/
theorem Move.log_apply (m : Move) (w : Walk) :
    (m.apply w).log = w.log ++ recordsOf (ignoredEvents m.pairs) := by
  have hnil : w.log = w.log ++ [] := (List.append_nil w.log).symm
  cases m with
  | assign name value =>
    show (w.setAttr name value).log = w.log ++ recordsOf (ignoredEvents [(name, value)])
    unfold Walk.setAttr ignoredEvents
    rw [List.filter_singleton]
    cases metaKeys.contains name with
    | true => rfl
    | false => exact hnil
  | node name ps =>
    rw [Move.apply, Walk.settle_eq]
    exact hnil
  | _ => exact hnil

/-- A course records the pairs that it ignores, up to the one for which it is refused. -/
theorem log_play (ls : Layouts) (ms : List Move) (w : Walk) :
    (endOf (play ls ms w)).log =
      w.log ++ recordsOf (ignoredEvents ((ms.flatMap Move.pairs).takeWhile (permits ls))) := by
  induction ms generalizing w with
  | nil => exact (List.append_nil w.log).symm
  | cons m ms ih =>
    unfold play
    rw [WalkM.bind_apply, Move.play_apply, List.flatMap_cons]
    cases hm : m.refusal? ls with
    | none =>
      rw [List.takeWhile_append_of_pos (Move.permits_of_refusal?_eq_none hm), ignoredEvents_append,
        recordsOf_append, ← List.append_assoc, ← Move.log_apply]
      exact ih (m.apply w)
    | some layout =>
      rw [Move.takeWhile_permits_of_refusal? hm]
      exact (List.append_nil w.log).symm

/-! ## Declarations -/

namespace Declaration

variable {ls : Layouts} {index : Nat} {d : Declaration}

/-- What the reading of a declaration records, whether or not it is refused. -/
theorem log_read (ls : Layouts) (index : Nat) (d : Declaration) :
    (d.read ls index).1 = d.heading index ++
      recordsOf (ignoredEvents ((bodyGraphPairs d.body).takeWhile (permits ls))) ++
        match (d.read ls index).2 with
        | .ok g => recordsOf [.finished d.graphName g.nodes.length g.edges.length]
        | .error _ => [] := by
  have hlog := log_play ls (bodyCourse d.body) (Walk.start d.kind d.graphName (d.heading index))
  rw [pairs_bodyCourse] at hlog
  unfold read
  rw [walk_eq_play]
  cases hp : play ls (bodyCourse d.body) (Walk.start d.kind d.graphName (d.heading index)) with
  | error e w =>
    rw [hp] at hlog
    exact hlog.trans (List.append_nil _).symm
  | ok _ w =>
    rw [hp] at hlog
    obtain ⟨-, rfl⟩ := (play_eq_ok_iff _ _ _ _).1 hp
    have hname := Walk.name?_run_start (bodyCourse d.body) d.kind d.graphName (d.heading index)
    dsimp only
    rw [hname]
    exact congrArg (· ++ _) hlog

theorem read_of_ok {g : Graph} (h : (d.read ls index).2 = .ok g) :
    d.read ls index = (recordsOf (.began d.kind d.name index ::
      ignoredEvents (bodyGraphPairs d.body) ++
        [.finished d.graphName g.nodes.length g.edges.length]), .ok g) := by
  have hpermits : ∀ p ∈ bodyGraphPairs d.body, permits ls p = true := by
    intro p hp
    rw [← pairs_bodyCourse] at hp
    obtain ⟨m, hm, hpm⟩ := List.mem_flatMap.1 hp
    exact Move.permits_of_refusal?_eq_none (((read_eq_ok_iff _ _ _ _).1 h).1 m hm) p hpm
  have hlog := log_read ls index d
  rw [h, List.takeWhile_eq_self_iff.2 hpermits] at hlog
  refine Prod.ext (hlog.trans ?_) h
  rw [recordsOf_append]
  rfl

/-- A declaration that is refused has those of its ignored pairs recorded that stand before the one
for which it is. -/
theorem read_of_split {before after : List (String × String)} {p : String × String} {l : String}
    (hpairs : bodyGraphPairs d.body = before ++ p :: after)
    (hbefore : ∀ q ∈ before, permits ls q = true) (hp : layoutOf? p = some l)
    (hl : ls.allows l = false) :
    d.read ls index = (recordsOf (.began d.kind d.name index :: ignoredEvents before),
      .error ⟨l, d.graphName⟩) := by
  have hrefused : d.refused? ls = some l := by
    rw [refused?_eq_some_iff]
    refine ⟨before.filterMap layoutOf?, after.filterMap layoutOf?, ?_, fun k hk => ?_, hl⟩
    · unfold bodyLayouts
      rw [hpairs, List.filterMap_append, List.filterMap_cons, hp]
    · obtain ⟨q, hq, hk⟩ := List.mem_filterMap.1 hk
      simpa [permits, hk] using hbefore q hq
  have herror := read_of_refused hrefused index
  have hstop : ¬ permits ls p = true := by simp [permits, hp, hl]
  have hlog := log_read ls index d
  rw [herror, hpairs, List.takeWhile_append_of_pos hbefore, List.takeWhile_cons_of_neg hstop,
    List.append_nil] at hlog
  refine Prod.ext (hlog.trans ?_) herror
  rw [List.append_nil]
  rfl

/-- A declaration that is refused is so for a first pair. -/
theorem exists_split_of_refused {l : String} (h : d.refused? ls = some l) :
    ∃ before p after, bodyGraphPairs d.body = before ++ p :: after ∧
      (∀ q ∈ before, permits ls q = true) ∧ layoutOf? p = some l ∧ ls.allows l = false := by
  have hl : ls.allows l = false := by simpa using List.find?_some h
  unfold refused? bodyLayouts at h
  rw [List.find?_filterMap] at h
  obtain ⟨p, hp, hlayout⟩ := Option.bind_eq_some_iff.1 h
  obtain ⟨-, before, after, hpairs, hbefore⟩ := List.find?_eq_some_iff_append.1 hp
  refine ⟨before, p, after, hpairs, fun q hq => ?_, hlayout, hl⟩
  have hq := hbefore q hq
  unfold permits
  cases hk : layoutOf? q with
  | none => rfl
  | some k => simpa [hk] using hq

end Declaration

/-! ## Batches -/

/-- What happens while the rest of a batch is read, whose first entry stands at an index: the events
and the outcome.  Behind a failure nothing happens. -/
inductive Traced (ls : Layouts) :
    Nat → List Value → List Event → Except BatchFailure (List Graph) → Prop
  | done {i : Nat} : Traced ls i [] [] (.ok [])
  | gap {i : Nat} {vs : List Value} {es : List Event} {r : Except BatchFailure (List Graph)} :
      Traced ls (i + 1) vs es r → Traced ls i (.null :: vs) (.skipped i :: es) r
  /-- a declaration with a graph -/
  | read {i : Nat} {d : Declaration} {g : Graph} {vs : List Value} {es : List Event}
      {r : Except BatchFailure (List Graph)} :
      (d.read ls i).2 = .ok g → Traced ls (i + 1) vs es r →
      Traced ls i (.declaration d :: vs)
        (.began d.kind d.name i :: ignoredEvents (bodyGraphPairs d.body) ++
          .finished d.graphName g.nodes.length g.edges.length :: es)
        (r.map (g :: ·))
  /-- a declaration with a pair that asks for a layout that is not allowed, the first such one -/
  | refused {i : Nat} {d : Declaration} {before after : List (String × String)}
      {p : String × String} {l : String} {vs : List Value} :
      bodyGraphPairs d.body = before ++ p :: after → (∀ q ∈ before, permits ls q = true) →
      layoutOf? p = some l → ls.allows l = false →
      Traced ls i (.declaration d :: vs) (.began d.kind d.name i :: ignoredEvents before)
        (.error (.unknownLayout l ⟨i, d.graphName⟩))
  | foreign {i : Nat} {v : Value} {vs : List Value} :
      v.isForeign = true → Traced ls i (v :: vs) [] (.error (.notDeclaration i v))

/-- What can happen is what does. -/
theorem readFrom_of_traced {ls : Layouts} {i : Nat} {vs : List Value} {es : List Event}
    {r : Except BatchFailure (List Graph)} (h : Traced ls i vs es r) :
    readFrom ls i vs = (recordsOf es, r) := by
  induction h with
  | done => rfl
  | gap _ ih =>
    rw [readFrom, ih]
    rfl
  | read hg _ ih =>
    rw [readFrom, Declaration.read_of_ok hg, ih]
    dsimp only
    rw [← recordsOf_append, List.append_assoc]
    rfl
  | refused hpairs hbefore hp hl =>
    rw [readFrom, Declaration.read_of_split hpairs hbefore hp hl]
  | foreign hv =>
    rename_i v vs
    cases v with
    | null => cases hv
    | declaration d => cases hv
    | _ => rfl

/-- Something happens in any case. -/
theorem exists_traced (ls : Layouts) (i : Nat) (vs : List Value) : ∃ es r, Traced ls i vs es r := by
  induction vs generalizing i with
  | nil => exact ⟨[], _, .done⟩
  | cons v vs ih =>
    obtain ⟨es, r, hrest⟩ := ih (i + 1)
    cases v with
    | null => exact ⟨_, _, .gap hrest⟩
    | declaration d =>
      cases hl : d.refused? ls with
      | some l =>
        obtain ⟨before, p, after, hpairs, hbefore, hp, hno⟩ := Declaration.exists_split_of_refused hl
        exact ⟨_, _, .refused hpairs hbefore hp hno⟩
      | none => exact ⟨_, _, .read (Declaration.read_of_not_refused hl i) hrest⟩
    | _ => exact ⟨_, _, .foreign rfl⟩

/-! ## Main theorem -/

/-- The records of a batch and its outcome are those that the rules give, whatever the batch holds
and whether or not it fails; and so they are worded. -/
theorem readBatch_eq_iff_traced (ls : Layouts) :
    (∀ (vs : List Value) (log : List LogEntry) (r : Except BatchFailure (List Graph)),
        readBatch ls vs = (log, r) ↔ ∃ es, Traced ls 0 vs es r ∧ log = recordsOf es) ∧
      (∀ i, (Event.skipped i).message = "No graph declaration at index " ++ toString i ++
        ", skipping") ∧
      (∀ kind name i, (Event.began kind name i).message = "Interpreting " ++ kind.text ++ " " ++
        displayOption (name.map Word.display) ++ " (index " ++ toString i ++ ")") ∧
      (∀ name value, (Event.ignoredMeta name value).message = "Ignoring meta attribute " ++ name ++
        "=" ++ Text.literal value ++ " in attribute list") ∧
      ∀ name nodes edges, (Event.finished name nodes edges).message = "Interpreted graph " ++
        displayOption (name.map Text.literal) ++ ": " ++ toString nodes ++ " nodes, " ++
          toString edges ++ " edges" := by
  refine ⟨fun vs log r => ⟨fun h => ?_, ?_⟩, fun _ => rfl, fun _ _ _ => rfl, fun _ _ => rfl,
    fun _ _ _ => rfl⟩
  · obtain ⟨es, r', htraced⟩ := exists_traced ls 0 vs
    cases (readFrom_of_traced htraced).symm.trans h
    exact ⟨es, htraced, rfl⟩
  · rintro ⟨es, htraced, rfl⟩
    exact readFrom_of_traced htraced

/-- The name of the first declaration stands in its record as it is written, and once it is read as
it is meant.  The second declaration is refused, so that the gap behind it is not seen. -/
example : (readBatch .standard [.null, .declaration scatteredAttributes,
      .declaration refusedTwice, .null]).1.map (fun r => r.event.message) =
    ["No graph declaration at index 0, skipping",
      "Interpreting digraph '\"g\"' (index 1)",
      "Ignoring meta attribute _name='x' in attribute list",
      "Ignoring meta attribute _type='graph' in attribute list",
      "Interpreted graph 'g': 1 nodes, 0 edges",
      "Interpreting graph 'g' (index 2)"] := by decide +kernel

end DotSemantics
