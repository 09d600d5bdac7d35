import DotSemantics.Proofs.Run

/-!
# Defaults in force

The defaults that a walk carries along are those of the part of the course that it has done
(`Walk.HasDefaults`): of all values that this part gives a key as a default, the last one, at
whatever depth it was given.  A default that is in force stays so, if perhaps with another value.
-/

namespace DotSemantics

/-- The defaults of a state are those after a course. -/
structure Walk.HasDefaults (w : Walk) (before : List Move) : Prop where
  node : ∀ k, w.nodeDefaults.get? k = (nodeDefaultsAfter before).get? k
  edge : ∀ k, w.edgeDefaults.get? k = (edgeDefaultsAfter before).get? k

theorem Walk.hasDefaults_start (kind : GraphKind) (name : Option String) (log : List LogEntry) :
    (start kind name log).HasDefaults [] := ⟨fun _ => rfl, fun _ => rfl⟩

/-- What a list of items says about a key is what its last item says, or else what was said
before. -/
theorem get?_ofPairs_flatMap_append {ι : Type} (f : ι → List (String × String)) (is js : List ι)
    (k : String) :
    (Table.ofPairs ((is ++ js).flatMap f)).get? k =
      (lastValue? k (js.flatMap f)).or ((Table.ofPairs (is.flatMap f)).get? k) := by
  rw [List.flatMap_append, Table.get?_ofPairs, Table.get?_ofPairs, lastValue?_append]

theorem get?_nodeDefaultsAfter_concat (before : List Move) (m : Move) (k : String) :
    (nodeDefaultsAfter (before ++ [m])).get? k =
      (lastValue? k m.nodePairs).or ((nodeDefaultsAfter before).get? k) := by
  unfold nodeDefaultsAfter
  rw [get?_ofPairs_flatMap_append, List.flatMap_singleton]

theorem get?_edgeDefaultsAfter_concat (before : List Move) (m : Move) (k : String) :
    (edgeDefaultsAfter (before ++ [m])).get? k =
      (lastValue? k m.edgePairs).or ((edgeDefaultsAfter before).get? k) := by
  unfold edgeDefaultsAfter
  rw [get?_ofPairs_flatMap_append, List.flatMap_singleton]

/-- A default that is in force stays in force. -/
theorem isSome_nodeDefaultsAfter {before after : List Move} (h : before <+: after) {k : String}
    (hk : ((nodeDefaultsAfter before).get? k).isSome) :
    ((nodeDefaultsAfter after).get? k).isSome := by
  obtain ⟨more, rfl⟩ := h
  unfold nodeDefaultsAfter at hk ⊢
  rw [get?_ofPairs_flatMap_append, Option.isSome_or, hk, Bool.or_true]

namespace Walk

theorem HasDefaults.apply {w : Walk} {before : List Move} (h : w.HasDefaults before) (m : Move) :
    (m.apply w).HasDefaults (before ++ [m]) := by
  refine ⟨fun k => ?_, fun k => ?_⟩
  · rw [get?_nodeDefaultsAfter_concat, ← h.node]
    cases m with
    | assign name value => rw [Move.apply, setAttr_eq]; rfl
    | nodeDefaults ps => exact Table.get?_merge_ofPairs w.nodeDefaults ps k
    | node name ps => rw [Move.apply, settle_eq]; rfl
    | _ => rfl
  · rw [get?_edgeDefaultsAfter_concat, ← h.edge]
    cases m with
    | assign name value => rw [Move.apply, setAttr_eq]; rfl
    | edgeDefaults ps => exact Table.get?_merge_ofPairs w.edgeDefaults ps k
    | node name ps => rw [Move.apply, settle_eq]; rfl
    | _ => rfl

end Walk

end DotSemantics
