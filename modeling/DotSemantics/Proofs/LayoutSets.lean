import DotSemantics.Proofs.Batches
import DotSemantics.Proofs.Environment
import Mathlib.Data.List.Sort

/-!
# Layouts from a value

A plain value gives the set of its items as the allowed layouts, unless it is no sequence, an item
is a list or an object, there is no item, an item is no text, or a text is not in lower case.  Which
of these is reported is a matter of all items together and not of their order (`Layouts.Outcome`).

    ofValue v = r   just when   Outcome v r                                       (layouts_of_value)

However a set of layouts is made, it is not empty, and its names ascend and are in lower case
(`Layouts.Proper`); so is every layout that a graph gets when it is read with the set.
-/

namespace DotSemantics

/-! ## Plain values -/

namespace Value

/-- Plain data, to any depth: neither keywords nor parts of declarations. -/
inductive Plain : Value → Prop
  | null : Plain .null
  | bool (b : Bool) : Plain (.bool b)
  | int (n : Int) : Plain (.int n)
  | float (x : Float) : Plain (.float x)
  | text (s : String) : Plain (.text s)
  | list {vs : List Value} (items : ∀ v ∈ vs, Plain v) : Plain (.list vs)
  | object {fs : List (String × Value)} (fields : ∀ f ∈ fs, Plain f.2) : Plain (.object fs)

/-- A plain value that can be run through. -/
inductive IsSequence : Value → Prop
  | list (vs : List Value) : IsSequence (.list vs)
  | text (s : String) : IsSequence (.text s)
  | object (fs : List (String × Value)) : IsSequence (.object fs)

/-- The items of a plain value: those of a list, the characters of a text, the keys of an object. -/
inductive Has : Value → Value → Prop
  | item {vs : List Value} {v : Value} (h : v ∈ vs) : Has (.list vs) v
  | character {s : String} {c : Char} (h : c ∈ s.toList) : Has (.text s) (.text (.singleton c))
  | key {fs : List (String × Value)} {f : String × Value} (h : f ∈ fs) :
    Has (.object fs) (.text f.1)

variable {v : Value}

theorem Has.isSequence {i : Value} (h : v.Has i) : v.IsSequence := by
  cases h with
  | item => exact .list _
  | character => exact .text _
  | key => exact .object _

theorem Plain.items?_eq_none (hv : v.Plain) (h : ¬ v.IsSequence) : v.items? = none := by
  cases hv with
  | list => exact absurd (.list _) h
  | text s => exact absurd (.text s) h
  | object => exact absurd (.object _) h
  | _ => rfl

theorem IsSequence.exists_items (h : v.IsSequence) :
    ∃ vs, v.items? = some vs ∧ ∀ i, v.Has i ↔ i ∈ vs := by
  cases h with
  | list vs =>
    refine ⟨vs, rfl, fun i => ⟨fun hi => ?_, .item⟩⟩
    cases hi with
    | item h => exact h
  | text s =>
    refine ⟨characters s, rfl, fun i => ⟨fun hi => ?_, fun hi => ?_⟩⟩
    · cases hi with
      | character h => exact List.mem_map_of_mem h
    · obtain ⟨c, hc, rfl⟩ := List.mem_map.1 hi
      exact .character hc
  | object fs =>
    refine ⟨fs.map fun f => .text f.1, rfl, fun i => ⟨fun hi => ?_, fun hi => ?_⟩⟩
    · cases hi with
      | key h => exact List.mem_map_of_mem h
    · obtain ⟨f, hf, rfl⟩ := List.mem_map.1 hi
      exact .key hf

theorem Plain.of_has (hv : v.Plain) {i : Value} (hi : v.Has i) : i.Plain := by
  cases hi with
  | item h =>
    cases hv with
    | list items => exact items i h
  | character => exact .text _
  | key => exact .text _

/-- A plain value that is no text does not stand for one. -/
theorem Plain.word?_eq_none (hv : v.Plain) (h : ∀ n, v ≠ .text n) : v.word? = none := by
  cases hv with
  | text s => exact absurd rfl (h s)
  | _ => rfl

end Value

namespace Layouts

/-! ## Outcomes -/

/-- Some names are the items of a value, ascending and each once. -/
structure Enumerates (ns : List String) (v : Value) : Prop where
  ascending : ns.Pairwise (· < ·)
  mem_iff : ∀ n, n ∈ ns ↔ v.Has (.text n)

/-- What a plain value gives as a set of layouts.  The cases are listed by precedence, and each of
them takes all items into account. -/
inductive Outcome (v : Value) : Except LayoutsDefect Layouts → Prop
  | notSequence (h : ¬ v.IsSequence) : Outcome v (.error .notSequence)
  | nested {i : Value} (item : v.Has i) (nested : i.isNested = true) : Outcome v (.error .nested)
  | noLayout (h : v.IsSequence) (empty : ∀ i, ¬ v.Has i) : Outcome v (.error .noLayout)
  | notTexts (flat : ∀ i, v.Has i → i.isNested = false) {i : Value} (item : v.Has i)
      (noText : ∀ n, i ≠ .text n) : Outcome v (.error .notTexts)
  | notLower (texts : ∀ i, v.Has i → ∃ n, i = .text n) {n : String} (item : v.Has (.text n))
      (upper : Text.lower n ≠ n) {ns : List String} (names : Enumerates ns v) :
    Outcome v (.error (.notLower ns))
  | set (texts : ∀ i, v.Has i → ∃ n, i = .text n ∧ Text.lower n = n) {i : Value} (item : v.Has i)
      {ls : Layouts} (names : Enumerates ls.names v) : Outcome v (.ok ls)

theorem Enumerates.unique {v : Value} {ms ns : List String} (hms : Enumerates ms v)
    (hns : Enumerates ns v) : ms = ns :=
  hms.ascending.eq_of_mem_iff hns.ascending fun n => (hms.mem_iff n).trans (hns.mem_iff n).symm

theorem enumerates_sortedSet {v : Value} {ns : List String} (h : ∀ n, n ∈ ns ↔ v.Has (.text n)) :
    Enumerates (Text.sortedSet ns) v :=
  ⟨Text.pairwise_sortedSet ns, fun n => (Text.mem_sortedSet n ns).trans (h n)⟩

/-! ## Texts among values -/

theorem texts?_map_text (ns : List String) : texts? (ns.map .text) = some ns := by
  induction ns with
  | nil => rfl
  | cons n ns ih =>
    rw [List.map_cons, texts?, ih]
    rfl

theorem texts?_eq_none {vs : List Value} {i : Value} (hi : i ∈ vs) (h : i.word? = none) :
    texts? vs = none := by
  induction vs with
  | nil => cases hi
  | cons v vs ih =>
    rw [texts?]
    rcases List.mem_cons.1 hi with rfl | hi
    · rw [h]
      rfl
    · rw [ih hi]
      cases v.word? <;> rfl

theorem exists_map_text {vs : List Value} (h : ∀ i ∈ vs, ∃ n, i = .text n) :
    ∃ ns : List String, vs = ns.map .text := by
  induction vs with
  | nil => exact ⟨[], rfl⟩
  | cons v vs ih =>
    rw [List.forall_mem_cons] at h
    obtain ⟨⟨n, rfl⟩, hvs⟩ := h
    obtain ⟨ns, rfl⟩ := ih hvs
    exact ⟨n :: ns, rfl⟩

/-! ## The set of a value -/

variable {v : Value}

theorem ofValue_of_items {vs : List Value} (h : v.items? = some vs) :
    ofValue v =
      if vs.any Value.isNested then .error .nested
      else if vs.isEmpty then .error .noLayout
      else match texts? vs with
        | none => .error .notTexts
        | some ns => ofNames ns := by
  unfold ofValue
  split
  · next hnone =>
    rw [h] at hnone
    cases hnone
  · next ws hws =>
    rw [h] at hws
    cases hws
    rfl

/-- Some texts give what the names that they are give. -/
theorem ofValue_of_texts (htexts : ∀ i, v.Has i → ∃ n, i = .text n) {i : Value} (hi : v.Has i) :
    ∃ ns, ns ≠ [] ∧ ofValue v = ofNames ns ∧ ∀ n, n ∈ ns ↔ v.Has (.text n) := by
  obtain ⟨vs, hvs, hhas⟩ := hi.isSequence.exists_items
  obtain ⟨ns, rfl⟩ := exists_map_text fun j hj => htexts j ((hhas j).2 hj)
  have hne : ns ≠ [] := by
    rintro rfl
    cases (hhas i).1 hi
  have hflat : (ns.map Value.text).any Value.isNested = false := by
    rw [List.any_map, List.any_eq_false]
    exact fun _ _ => Bool.false_ne_true
  refine ⟨ns, hne, ?_, fun n => ?_⟩
  · rw [ofValue_of_items hvs, hflat, texts?_map_text, if_neg Bool.false_ne_true,
      if_neg (by simpa using hne)]
  · rw [hhas, List.mem_map]
    constructor
    · intro hn
      exact ⟨n, hn, rfl⟩
    · rintro ⟨m, hm, hmn⟩
      exact Value.text.inj hmn ▸ hm

theorem ofNames_of_upper {ns : List String} {n : String} (hn : n ∈ ns) (h : Text.lower n ≠ n) :
    ofNames ns = .error (.notLower (Text.sortedSet ns)) := by
  unfold ofNames
  rw [if_neg (by simpa using List.ne_nil_of_mem hn), if_neg]
  intro hall
  exact h (of_decide_eq_true (List.all_eq_true.1 hall n hn))

theorem Outcome.ofValue_eq (hv : v.Plain) {r : Except LayoutsDefect Layouts} (h : Outcome v r) :
    ofValue v = r := by
  cases h with
  | notSequence h =>
    unfold ofValue
    rw [hv.items?_eq_none h]
  | nested item nested =>
    obtain ⟨vs, hvs, hhas⟩ := item.isSequence.exists_items
    rw [ofValue_of_items hvs, if_pos (List.any_eq_true.2 ⟨_, (hhas _).1 item, nested⟩)]
  | noLayout h empty =>
    obtain ⟨vs, hvs, hhas⟩ := h.exists_items
    have hnil : vs = [] := List.eq_nil_iff_forall_not_mem.2 fun i hi => empty i ((hhas i).2 hi)
    rw [ofValue_of_items hvs, hnil]
    rfl
  | notTexts flat item noText =>
    obtain ⟨vs, hvs, hhas⟩ := item.isSequence.exists_items
    have hflat : vs.any Value.isNested = false := by
      rw [List.any_eq_false]
      intro i hi
      rw [flat i ((hhas i).2 hi)]
      exact Bool.false_ne_true
    have hmem := (hhas _).1 item
    rw [ofValue_of_items hvs, hflat, if_neg Bool.false_ne_true,
      if_neg (by simpa using List.ne_nil_of_mem hmem),
      texts?_eq_none hmem ((hv.of_has item).word?_eq_none noText)]
  | notLower texts item upper names =>
    obtain ⟨ns, -, hns, hmem⟩ := ofValue_of_texts texts item
    rw [hns, ofNames_of_upper ((hmem _).2 item) upper, names.unique (enumerates_sortedSet hmem)]
  | @set texts i item ls names =>
    obtain ⟨ns, hne, hns, hmem⟩ := ofValue_of_texts (fun j hj => (texts j hj).imp fun _ => And.left)
      item
    have hlower : ∀ n ∈ ns, Text.isLower n = true := by
      intro n hn
      obtain ⟨m, hm, hlow⟩ := texts _ ((hmem n).1 hn)
      cases hm
      exact decide_eq_true hlow
    rw [hns, ofNames_of_isLower hne hlower, ← names.unique (enumerates_sortedSet hmem)]

/-- The outcomes leave no case out. -/
theorem exists_outcome (v : Value) : ∃ r, Outcome v r := by
  by_cases hseq : v.IsSequence
  case neg => exact ⟨_, .notSequence hseq⟩
  by_cases hnested : ∃ i, v.Has i ∧ i.isNested = true
  · obtain ⟨i, hi, hi'⟩ := hnested
    exact ⟨_, .nested hi hi'⟩
  have hflat : ∀ i, v.Has i → i.isNested = false :=
    fun i hi => Bool.eq_false_iff.2 fun hi' => hnested ⟨i, hi, hi'⟩
  by_cases hempty : ∀ i, ¬ v.Has i
  · exact ⟨_, .noLayout hseq hempty⟩
  obtain ⟨i, hi⟩ := not_forall_not.1 hempty
  by_cases htexts : ∀ j, v.Has j → ∃ n, j = .text n
  case neg =>
    simp only [not_forall, not_exists] at htexts
    obtain ⟨j, hj, hno⟩ := htexts
    exact ⟨_, .notTexts hflat hj hno⟩
  obtain ⟨ns, -, -, hmem⟩ := ofValue_of_texts htexts hi
  have hnames := enumerates_sortedSet hmem
  by_cases hlower : ∀ n, v.Has (.text n) → Text.lower n = n
  · refine ⟨.ok ⟨Text.sortedSet ns⟩, .set (fun j hj => ?_) hi hnames⟩
    obtain ⟨n, rfl⟩ := htexts j hj
    exact ⟨n, rfl, hlower n hj⟩
  · simp only [not_forall] at hlower
    obtain ⟨n, hn, hupper⟩ := hlower
    exact ⟨_, .notLower htexts hn hupper hnames⟩

theorem ofValue_eq_iff (hv : v.Plain) (r : Except LayoutsDefect Layouts) :
    ofValue v = r ↔ Outcome v r := by
  constructor
  · rintro rfl
    obtain ⟨r, hr⟩ := exists_outcome v
    rwa [hr.ofValue_eq hv]
  · exact Outcome.ofValue_eq hv

/-- A sequence without lists and objects among its items can be made a set. -/
theorem not_refusedBare (hseq : v.IsSequence) (hflat : ∀ i, v.Has i → i.isNested = false) :
    ¬ (¬ v.IsSequence ∨ ∃ i, v.Has i ∧ i.isNested = true) := by
  rintro (hno | ⟨i, hi, hnested⟩)
  · exact hno hseq
  · rw [hflat i hi] at hnested
    cases hnested

/-- What is refused without words is no sequence, or has an item that cannot be in a set. -/
theorem Outcome.message?_eq_none_iff {e : LayoutsDefect} (h : Outcome v (.error e)) :
    e.message? = none ↔ ¬ v.IsSequence ∨ ∃ i, v.Has i ∧ i.isNested = true := by
  cases h with
  | notSequence h => exact ⟨fun _ => Or.inl h, fun _ => rfl⟩
  | nested item nested => exact ⟨fun _ => Or.inr ⟨_, item, nested⟩, fun _ => rfl⟩
  | noLayout h empty =>
    exact iff_of_false nofun (not_refusedBare h fun i hi => absurd hi (empty i))
  | notTexts flat item => exact iff_of_false nofun (not_refusedBare item.isSequence flat)
  | notLower texts item =>
    refine iff_of_false nofun (not_refusedBare item.isSequence fun i hi => ?_)
    obtain ⟨n, rfl⟩ := texts i hi
    rfl

/-- The set that a plain value gives has the items of the value. -/
theorem has_iff_of_ofValue (hv : v.Plain) {ls : Layouts} (h : ofValue v = .ok ls) (i : Value) :
    v.Has i ↔ ∃ n ∈ ls.names, i = .text n := by
  cases (ofValue_eq_iff hv _).1 h with
  | set texts _ names =>
    constructor
    · intro hi
      obtain ⟨n, rfl, -⟩ := texts i hi
      exact ⟨n, (names.mem_iff n).2 hi, rfl⟩
    · rintro ⟨n, hn, rfl⟩
      exact (names.mem_iff n).1 hn

/-! ## Sets of layouts -/

/-- What every set of layouts has in common. -/
structure Proper (ls : Layouts) : Prop where
  nonempty : ls.names ≠ []
  ascending : ls.names.Pairwise (· < ·)
  lower : ∀ n ∈ ls.names, Text.lower n = n

/-- A set of layouts that is standard, or given by a value or by an environment. -/
inductive Constructed : Layouts → Prop
  | standard : Constructed standard
  | value {v : Value} {ls : Layouts} (h : ofValue v = .ok ls) : Constructed ls
  | environment {env : Table String} {ls : Layouts} (h : ofEnvironment env = .ok ls) :
    Constructed ls

theorem proper_of_ofNames {ns : List String} {ls : Layouts} (h : ofNames ns = .ok ls) :
    ls.Proper := by
  unfold ofNames at h
  split at h
  · cases h
  · next hne =>
    split at h
    · next hlower =>
      cases h
      rw [List.isEmpty_iff] at hne
      refine ⟨fun hnil => ?_, Text.pairwise_sortedSet ns, fun n hn => ?_⟩
      · obtain ⟨n, hn⟩ := List.exists_mem_of_ne_nil ns hne
        have hmem : n ∈ Text.sortedSet ns := (Text.mem_sortedSet n ns).2 hn
        rw [show Text.sortedSet ns = [] from hnil] at hmem
        cases hmem
      · rw [Text.mem_sortedSet] at hn
        exact of_decide_eq_true (List.all_eq_true.1 hlower n hn)
    · cases h

/-- Whatever constructs a set of layouts ends in giving it by names. -/
theorem Constructed.exists_names {ls : Layouts} (h : Constructed ls) :
    ∃ ns, ofNames ns = .ok ls := by
  have hstandard : ofNames standardLayouts = .ok Layouts.standard := by
    rw [ofNames_of_isLower (by decide) isLower_of_mem_standardLayouts, sortedSet_standardLayouts,
      Layouts.standard]
  cases h with
  | standard => exact ⟨_, hstandard⟩
  | value h =>
    unfold ofValue at h
    split at h
    · cases h
    · split at h
      · cases h
      · split at h
        · cases h
        · split at h
          · cases h
          · exact ⟨_, h⟩
  | @environment env _ h =>
    unfold ofEnvironment at h
    dsimp only at h
    split at h
    · cases h
      exact ⟨_, hstandard⟩
    · cases hextra : extraNames (Text.strip ((env.get? extraLayoutsVariable).getD "")) with
      | error e =>
        rw [hextra] at h
        cases h
      | ok extra =>
        rw [hextra] at h
        exact ⟨standardLayouts ++ extra, h⟩

theorem Constructed.proper {ls : Layouts} (h : Constructed ls) : ls.Proper := by
  obtain ⟨ns, hns⟩ := h.exists_names
  exact proper_of_ofNames hns

/-- Sets of layouts with the same members are equal. -/
theorem Proper.eq_iff {ls ls' : Layouts} (h : ls.Proper) (h' : ls'.Proper) :
    ls = ls' ↔ ∀ n, n ∈ ls.names ↔ n ∈ ls'.names := by
  constructor
  · rintro rfl n
    rfl
  · intro hmem
    exact congrArg Layouts.mk (h.ascending.eq_of_mem_iff h'.ascending hmem)

end Layouts

/-! ## Layouts of graphs -/

theorem ReadSeparately.exists_declaration {ls : Layouts} {vs : List Value} {gs : List Graph}
    (h : ReadSeparately ls vs gs) :
    ∀ g ∈ gs, ∃ d, (readBatch ls [.declaration d]).2 = .ok [g] := by
  induction h with
  | nil => simp
  | gap _ ih => exact ih
  | declaration hd _ ih =>
    rw [List.forall_mem_cons]
    exact ⟨⟨_, hd⟩, ih⟩

theorem Layouts.Proper.lower_layout {ls : Layouts} (h : ls.Proper) {vs : List Value}
    {gs : List Graph} (hread : (readBatch ls vs).2 = .ok gs) :
    ∀ g ∈ gs, ∀ l, g.attrs.get? layoutKey = some l → l ∈ ls.names ∧ Text.lower l = l := by
  intro g hg l hl
  obtain ⟨d, hd⟩ :=
    ((readBatch_eq_ok_iff_readSeparately ls vs gs).1 hread).exists_declaration g hg
  have hmem : l ∈ ls.names := List.contains_iff_mem.1 (layout_of_read hd hl)
  exact ⟨hmem, h.lower l hmem⟩

/-! ## Main theorem -/

open Layouts

/-- Layouts as the items of a list, with one of them stated twice. -/
def greekList : Value := .list [.text "οδος", .text "elk", .text "οδος"]

/-- The same layouts as the keys of an object. -/
def greekObject : Value := .object [("elk", .list [.null]), ("οδος", .int 3)]

/-- Items of several kinds that cannot be layouts, the first for its capital letters alone. -/
def mixedList : Value := .list [.text "DOT", .int 3, .list []]

/-- A plain value gives the set of its items, or is refused in the way that its outcome says;
without words just when it is no sequence or an item is a list or an object.  Two values give the
same set just when they have the same items.  Every set of layouts, whatever it is given by, has a
name, and its names are in lower case, and so are the layouts of graphs that are read with it. -/
theorem layouts_of_value (v : Value) (hv : v.Plain) :
    (∀ r, ofValue v = r ↔ Outcome v r) ∧
      (∀ e, ofValue v = .error e →
        (e.message? = none ↔ ¬ v.IsSequence ∨ ∃ i, v.Has i ∧ i.isNested = true)) ∧
      (∀ w ls ls', w.Plain → ofValue v = .ok ls → ofValue w = .ok ls' →
        (ls = ls' ↔ ∀ i, v.Has i ↔ w.Has i)) ∧
      ∀ ls, Constructed ls → ls.Proper ∧ ∀ vs gs, (readBatch ls vs).2 = .ok gs →
        ∀ g ∈ gs, ∀ l, g.attrs.get? layoutKey = some l → l ∈ ls.names ∧ Text.lower l = l := by
  refine ⟨ofValue_eq_iff hv, fun e he => ?_, fun w ls ls' hw hls hls' => ?_, fun ls hls =>
    ⟨hls.proper, fun vs gs hread => hls.proper.lower_layout hread⟩⟩
  · exact ((ofValue_eq_iff hv _).1 he).message?_eq_none_iff
  · rw [(Constructed.value hls).proper.eq_iff (Constructed.value hls').proper]
    constructor
    · intro hnames i
      rw [has_iff_of_ofValue hv hls, has_iff_of_ofValue hw hls']
      simp only [hnames]
    · intro hitems n
      have hn := hitems (.text n)
      rw [has_iff_of_ofValue hv hls, has_iff_of_ofValue hw hls'] at hn
      simpa using hn

/-- The order of the items does not matter, nor how often they are stated; and of several faults it
is not the first item's that is reported. -/
theorem layouts_greekList :
    ofValue greekList = .ok ⟨["elk", "οδος"]⟩ ∧ ofValue greekObject = .ok ⟨["elk", "οδος"]⟩ ∧
      (∀ i, greekList.Has i ↔ greekObject.Has i) ∧
      ofValue mixedList = .error .nested ∧
      ∃ g l, (readBatch ⟨["elk", "οδος"]⟩ [.declaration greekLayouts]).2 = .ok [g] ∧
        g.attrs.get? layoutKey = some l ∧ Text.lower l = l := by
  have hlist : greekList.Plain := .list (by simp [Value.Plain.text])
  have hobject : greekObject.Plain := by
    refine .object ?_
    simp only [List.forall_mem_cons]
    exact ⟨.list (by simp [Value.Plain.null]), .int 3, by simp⟩
  have hmixed : mixedList.Plain := by
    refine .list ?_
    simp only [List.forall_mem_cons]
    exact ⟨.text _, .int 3, .list (by simp), by simp⟩
  have hls : ofValue greekList = .ok ⟨["elk", "οδος"]⟩ := by decide +kernel
  have hls' : ofValue greekObject = .ok ⟨["elk", "οδος"]⟩ := by decide +kernel
  obtain ⟨-, -, hequal, hproper⟩ := layouts_of_value greekList hlist
  obtain ⟨houtcome, -⟩ := layouts_of_value mixedList hmixed
  have hread : (readBatch ⟨["elk", "οδος"]⟩ [.declaration greekLayouts]).2 =
      .ok [greekLayouts.intended] := readBatch_intended (by decide +kernel)
  have hlayout : greekLayouts.intended.attrs.get? layoutKey = some "οδος" := by decide +kernel
  have hnested : mixedList.Has (.list []) := .item (by simp)
  have hlower := (hproper _ (.value hls)).2 _ _ hread _ List.mem_cons_self _ hlayout
  exact ⟨hls, hls', (hequal _ _ _ hobject hls hls').1 rfl, (houtcome _).2 (.nested hnested rfl),
    greekLayouts.intended, "οδος", hread, hlayout, hlower.2⟩

end DotSemantics
