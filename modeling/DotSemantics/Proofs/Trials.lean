import DotSemantics.Term.Grammar

/-!
# Trials

Some things are looked at in their order: all are met and there is a result, or the first that is
not met is refused.  Trials go on one behind the other (`Trial.bind`), so that a trial of a whole
is put together from those of its parts.
-/

namespace DotSemantics

/-! ## The first that is refused -/

section

variable {ι : Type} {Met : ι → Prop} {Refuses : ι → Defect → Prop} {i : ι} {l m : List ι}
  {e f : Defect}

theorem not_firstRefused_nil : ¬ FirstRefused Met Refuses [] e := by
  rintro ⟨before, i, after, h, -⟩
  exact List.append_ne_nil_of_right_ne_nil before (List.cons_ne_nil i after) h.symm

theorem firstRefused_cons : FirstRefused Met Refuses (i :: l) e ↔
    (¬ Met i ∧ Refuses i e) ∨ (Met i ∧ FirstRefused Met Refuses l e) := by
  constructor
  · rintro ⟨_ | ⟨j, before⟩, k, after, h, hmet, hk, he⟩
    · cases h
      exact Or.inl ⟨hk, he⟩
    · cases h
      rw [List.forall_mem_cons] at hmet
      exact Or.inr ⟨hmet.1, before, k, after, rfl, hmet.2, hk, he⟩
  · rintro (⟨hi, he⟩ | ⟨hi, before, k, after, rfl, hmet, hk, he⟩)
    · exact ⟨[], i, l, rfl, by simp, hi, he⟩
    · exact ⟨i :: before, k, after, rfl, List.forall_mem_cons.2 ⟨hi, hmet⟩, hk, he⟩

namespace FirstRefused

theorem append_left (h : FirstRefused Met Refuses l e) (m : List ι) :
    FirstRefused Met Refuses (l ++ m) e := by
  obtain ⟨before, i, after, rfl, hmet, hi, he⟩ := h
  exact ⟨before, i, after ++ m, by rw [List.append_assoc, List.cons_append], hmet, hi, he⟩

theorem append_right (hl : ∀ i ∈ l, Met i) (h : FirstRefused Met Refuses m e) :
    FirstRefused Met Refuses (l ++ m) e := by
  obtain ⟨before, i, after, rfl, hmet, hi, he⟩ := h
  exact ⟨l ++ before, i, after, by rw [List.append_assoc], List.forall_mem_append.2 ⟨hl, hmet⟩,
    hi, he⟩

theorem not_all_met (h : FirstRefused Met Refuses l e) : ¬ ∀ i ∈ l, Met i := by
  obtain ⟨before, i, after, rfl, -, hi, -⟩ := h
  intro hall
  exact hi (hall i (by simp))

/-- The first is refused in one way if each thing is. -/
theorem unique (hunique : ∀ i e f, Refuses i e → Refuses i f → e = f)
    (he : FirstRefused Met Refuses l e) (hf : FirstRefused Met Refuses l f) : e = f := by
  induction l with
  | nil => exact absurd he not_firstRefused_nil
  | cons i l ih =>
    rw [firstRefused_cons] at he hf
    rcases he with ⟨hi, he⟩ | ⟨hi, he⟩
    · rcases hf with ⟨-, hf⟩ | ⟨hmet, -⟩
      · exact hunique i e f he hf
      · exact absurd hmet hi
    · rcases hf with ⟨hnot, -⟩ | ⟨-, hf⟩
      · exact absurd hi hnot
      · exact ih he hf

end FirstRefused

end

/-! ## Trials -/

/-- Of some things that are looked at in their order, all are met and there is a result with a
property, or the first that is not met is refused. -/
inductive Trial {ι α : Type} (Met : ι → Prop) (Refuses : ι → Defect → Prop) (P : α → Prop)
    (l : List ι) : Except Defect α → Prop
  | passed {a : α} (met : ∀ i ∈ l, Met i) (holds : P a) : Trial Met Refuses P l (.ok a)
  | refused {e : Defect} (first : FirstRefused Met Refuses l e) : Trial Met Refuses P l (.error e)

namespace Trial

variable {ι α β : Type} {Met : ι → Prop} {Refuses : ι → Defect → Prop} {P : α → Prop}
  {Q : β → Prop} {l m : List ι} {r : Except Defect α}

theorem single {i : ι} {a : α} (hi : Met i) (ha : P a) : Trial Met Refuses P [i] (.ok a) :=
  passed (List.forall_mem_singleton.2 hi) ha

theorem head {i : ι} {e : Defect} (hi : ¬ Met i) (he : Refuses i e) :
    Trial Met Refuses P (i :: l) (.error e) :=
  refused (firstRefused_cons.2 (Or.inl ⟨hi, he⟩))

/-- A trial goes on behind one that is passed. -/
theorem bind {f : α → Except Defect β} (hr : Trial Met Refuses P l r)
    (hf : ∀ a, P a → Trial Met Refuses Q m (f a)) :
    Trial Met Refuses Q (l ++ m) (r >>= f) := by
  cases hr with
  | refused first => exact refused (first.append_left m)
  | @passed a met holds =>
    have hrest := hf a holds
    show Trial Met Refuses Q (l ++ m) (f a)
    generalize f a = s at hrest ⊢
    cases hrest with
    | passed met' holds' => exact passed (List.forall_mem_append.2 ⟨met, met'⟩) holds'
    | refused first => exact refused (first.append_right met)

theorem cons {i : ι} (hr : Trial Met Refuses P l r) (hi : Met i) :
    Trial Met Refuses P (i :: l) r := by
  cases hr with
  | passed met holds => exact passed (List.forall_mem_cons.2 ⟨hi, met⟩) holds
  | refused first => exact refused (firstRefused_cons.2 (Or.inr ⟨hi, first⟩))

theorem imp {P' : α → Prop} (hr : Trial Met Refuses P l r) (himp : ∀ a, P a → P' a) :
    Trial Met Refuses P' l r := by
  cases hr with
  | passed met holds => exact passed met (himp _ holds)
  | refused first => exact refused first

theorem bind_pure {f : α → β} (hr : Trial Met Refuses P l r) (hf : ∀ a, P a → Q (f a)) :
    Trial Met Refuses Q l (r >>= fun a => pure (f a)) := by
  rw [← List.append_nil l]
  exact hr.bind fun a ha => passed (by simp) (hf a ha)

theorem map {f : α → β} (hr : Trial Met Refuses P l r) (hf : ∀ a, P a → Q (f a)) :
    Trial Met Refuses Q l (r.map f) := by
  have hmap : r.map f = r >>= fun a => pure (f a) := by
    cases r <;> rfl
  rw [hmap]
  exact hr.bind_pure hf

theorem eq_ok (hr : Trial Met Refuses P l r) (hl : ∀ i ∈ l, Met i) : ∃ a, r = .ok a ∧ P a := by
  cases hr with
  | passed met holds => exact ⟨_, rfl, holds⟩
  | refused first => exact absurd hl first.not_all_met

theorem eq_error (hr : Trial Met Refuses P l r) (hl : ¬ ∀ i ∈ l, Met i) :
    ∃ e, r = .error e ∧ FirstRefused Met Refuses l e := by
  cases hr with
  | passed met holds => exact absurd met hl
  | refused first => exact ⟨_, rfl, first⟩

theorem exists_ok_iff (hr : Trial Met Refuses P l r) : (∃ a, r = .ok a) ↔ ∀ i ∈ l, Met i := by
  constructor
  · rintro ⟨a, rfl⟩
    cases hr with
    | passed met _ => exact met
  · intro hl
    obtain ⟨a, ha, -⟩ := hr.eq_ok hl
    exact ⟨a, ha⟩

theorem eq_error_iff (hunique : ∀ i e f, Refuses i e → Refuses i f → e = f)
    (hr : Trial Met Refuses P l r) (e : Defect) :
    r = .error e ↔ FirstRefused Met Refuses l e := by
  constructor
  · rintro rfl
    cases hr with
    | refused first => exact first
  · intro h
    obtain ⟨f, hf, hfirst⟩ := hr.eq_error h.not_all_met
    rw [hf, h.unique hunique hfirst]

end Trial

end DotSemantics
