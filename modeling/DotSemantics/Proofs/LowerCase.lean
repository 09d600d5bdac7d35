import DotSemantics.Text.Lower

/-!
# Lower case is reached at once

No character that lower-casing writes has another lower-case form, nor is it a capital sigma, whose
form would depend on what stands around it.  So a text that is in lower case stays as it is
(`lower_lower`).  For the case table this says that no run covers an image of a run
(`not_covers_image`), which has to be checked run by run.
-/

namespace DotSemantics.Text

/-- Whether a character stays as it is, whatever stands around it. -/
def isLowerChar (c : Char) : Bool := c ≠ capitalSigma && lowerChar c == [c]

/-- The runs of all characters that do not stay as they are: those of the table, the dotted capital
I and the capital sigma. -/
def changingRuns : List CaseRun :=
  ⟨0x0130, 0x0130, 1, 0x0069⟩ :: ⟨0x03A3, 0x03A3, 1, 0x03C3⟩ :: lowerRuns

theorem isLowerChar_of_not_covers {c : Char}
    (h : ∀ r ∈ changingRuns, r.covers c.toNat = false) : isLowerChar c = true := by
  unfold changingRuns at h
  rw [List.forall_mem_cons, List.forall_mem_cons] at h
  obtain ⟨hdotted, hsigma, hruns⟩ := h
  have hi : c ≠ 'İ' := by
    rintro rfl
    exact absurd hdotted (by decide +kernel)
  have hs : c ≠ capitalSigma := by
    rintro rfl
    exact absurd hsigma (by decide +kernel)
  have hnone : lowerRuns.find? (fun r => r.covers c.toNat) = none := by
    rw [List.find?_eq_none]
    intro r hr
    simp [hruns r hr]
  simp [isLowerChar, hs, lowerChar, hi, lowerPoint, hnone, Char.ofNat_toNat]

/-! ## The table -/

namespace CaseRun

def points (r : CaseRun) : List Nat :=
  (List.range ((r.last - r.first) / r.stride + 1)).map fun k => r.first + r.stride * k

/-- The runs that reach into the interval of the images of a run. -/
def reached (r : CaseRun) : List CaseRun :=
  changingRuns.filter fun s => s.first.ble (r.image r.last) && r.base.ble s.last

theorem covers_iff (r : CaseRun) (n : Nat) :
    r.covers n = true ↔ (r.first ≤ n ∧ n ≤ r.last) ∧ (n - r.first) % r.stride = 0 := by
  unfold covers
  rw [Bool.and_eq_true, Bool.and_eq_true, decide_eq_true_eq, decide_eq_true_eq, beq_iff_eq]

theorem mem_points_of_covers {r : CaseRun} {n : Nat} (h : r.covers n = true) : n ∈ r.points := by
  obtain ⟨⟨hfirst, hlast⟩, hmod⟩ := (covers_iff r n).1 h
  have hdiv := Nat.div_add_mod (n - r.first) r.stride
  have hle : (n - r.first) / r.stride ≤ (r.last - r.first) / r.stride :=
    Nat.div_le_div_right (by omega)
  exact List.mem_map.2 ⟨(n - r.first) / r.stride, List.mem_range.2 (by omega), by omega⟩

/-- Only near runs are looked at, since the table has too many pairs of runs. -/
theorem not_covers_reached : (lowerRuns.all fun r => r.reached.all fun s =>
    r.points.all fun n => !s.covers (r.image n)) = true := by
  decide +kernel

theorem not_covers_image {r s : CaseRun} (hr : r ∈ lowerRuns) (hs : s ∈ changingRuns) {n : Nat}
    (hn : r.covers n = true) : s.covers (r.image n) = false := by
  by_cases hnear : s ∈ r.reached
  · have hall := List.all_eq_true.1 (List.all_eq_true.1 (List.all_eq_true.1 not_covers_reached r hr)
      s hnear) n (mem_points_of_covers hn)
    simpa using hall
  · rw [Bool.eq_false_iff]
    intro hcovers
    obtain ⟨⟨hfirst, hlast⟩, -⟩ := (covers_iff s _).1 hcovers
    obtain ⟨⟨hfirst', hlast'⟩, -⟩ := (covers_iff r n).1 hn
    refine hnear (List.mem_filter.2 ⟨hs, ?_⟩)
    unfold image at hfirst hlast ⊢
    rw [Bool.and_eq_true, Nat.ble_eq, Nat.ble_eq]
    omega

theorem isValidChar_image_last : ∀ r ∈ lowerRuns,
    r.image r.last < 0xD800 ∨ 0xDFFF < r.base ∧ r.image r.last < 0x110000 := by
  decide +kernel

theorem toNat_ofNat_image {r : CaseRun} (hr : r ∈ lowerRuns) {n : Nat} (hn : r.covers n = true) :
    (Char.ofNat (r.image n)).toNat = r.image n := by
  obtain ⟨⟨hfirst, hlast⟩, -⟩ := (covers_iff r n).1 hn
  have hvalid : (r.image n).isValidChar := by
    have := isValidChar_image_last r hr
    unfold Nat.isValidChar
    unfold image at this ⊢
    omega
  rw [Char.ofNat, dif_pos hvalid]
  rfl

end CaseRun

/-! ## Texts -/

theorem isLowerChar_of_mem_special :
    ∀ x ∈ ['i', '\u0307', 'ς', 'σ'], isLowerChar x = true := by
  have hall : (changingRuns.all fun s =>
      ['i', '\u0307', 'ς', 'σ'].all fun x => !s.covers x.toNat) = true := by
    decide +kernel
  intro x hx
  apply isLowerChar_of_not_covers
  intro s hs
  have hx := List.all_eq_true.1 (List.all_eq_true.1 hall s hs) x hx
  rwa [Bool.not_eq_true'] at hx

theorem isLowerChar_of_mem_lowerChar {c x : Char} (hc : c ≠ capitalSigma) (h : x ∈ lowerChar c) :
    isLowerChar x = true := by
  unfold lowerChar at h
  split at h
  · exact isLowerChar_of_mem_special x (List.mem_append_left ['ς', 'σ'] h)
  · next hdot =>
    rw [List.mem_singleton] at h
    subst h
    unfold lowerPoint
    cases hrun : lowerRuns.find? fun r => r.covers c.toNat with
    | some r =>
      have hr : r ∈ lowerRuns := List.mem_of_find?_eq_some hrun
      have hcovers : r.covers c.toNat = true := by simpa using List.find?_some hrun
      apply isLowerChar_of_not_covers
      intro s hs
      show s.covers (Char.ofNat (r.image c.toNat)).toNat = false
      rw [CaseRun.toNat_ofNat_image hr hcovers]
      exact CaseRun.not_covers_image hr hs hcovers
    | none =>
      simp [isLowerChar, hc, lowerChar, hdot, lowerPoint, hrun, Char.ofNat_toNat]

theorem isLowerChar_lowerSigma (before after : List Char) :
    isLowerChar (lowerSigma before after) = true := by
  unfold lowerSigma
  split
  · exact isLowerChar_of_mem_special 'ς' (by simp)
  · exact isLowerChar_of_mem_special 'σ' (by simp)

theorem isLowerChar_of_mem_lowerAfter (before cs : List Char) :
    ∀ x ∈ lowerAfter before cs, isLowerChar x = true := by
  induction cs generalizing before with
  | nil => simp [lowerAfter]
  | cons c r ih =>
    intro x hx
    rw [lowerAfter, List.mem_append] at hx
    rcases hx with hc | hr
    · split at hc
      · rw [List.mem_singleton] at hc
        exact hc ▸ isLowerChar_lowerSigma before r
      · next hsigma => exact isLowerChar_of_mem_lowerChar hsigma hc
    · exact ih (c :: before) x hr

theorem lowerAfter_of_isLowerChar {cs : List Char} (h : ∀ c ∈ cs, isLowerChar c = true)
    (before : List Char) : lowerAfter before cs = cs := by
  induction cs generalizing before with
  | nil => rfl
  | cons c r ih =>
    rw [List.forall_mem_cons] at h
    obtain ⟨hsigma, hchar⟩ : c ≠ capitalSigma ∧ lowerChar c = [c] := by
      simpa [isLowerChar] using h.1
    rw [lowerAfter, if_neg hsigma, hchar, ih h.2]
    rfl

/-- Every character has a lower-case form. -/
theorem lowerAfter_eq_nil_iff (before cs : List Char) : lowerAfter before cs = [] ↔ cs = [] := by
  cases cs with
  | nil => simp [lowerAfter]
  | cons c r =>
    have hchar : lowerChar c ≠ [] := by
      unfold lowerChar
      split <;> simp
    rw [lowerAfter, List.append_eq_nil_iff]
    constructor
    · rintro ⟨hc, -⟩
      split at hc
      · cases hc
      · exact absurd hc hchar
    · intro h
      cases h

/-- Lower case is reached at once. -/
theorem lower_lower (s : String) : lower (lower s) = lower s := by
  unfold lower
  rw [String.toList_ofList, lowerAfter_of_isLowerChar (isLowerChar_of_mem_lowerAfter [] s.toList)]

end DotSemantics.Text
