import DotSemantics.Flat
import DotSemantics.Proofs.Reading
import DotSemantics.Value
import Mathlib.Data.List.Forall2

/-!
# Declarations that mean the same

Two declarations are alike if they have the same shape and the same keywords, and if their words
mean the same texts, place by place; how subgraphs are named does not count (`Declaration.Alike`).
Every word is unquoted once, so that alike declarations have the same course

    s.Alike t → s.course = t.course                              (course_eq_of_alike)

and are read in the same way, up to the spelling of a name in the record of a beginning
(`reading_of_alike`).  Two ways to get an alike declaration: to write each word anew, as the quoted
form of what it means (`Declaration.alike_requote`), and to put words for words that stand for the
same text (`Declaration.alike_of_same`).
-/

namespace DotSemantics

/-! ## Being alike -/

/-- Two words mean the same text. -/
def Word.Alike (a b : Word) : Prop := a.meant = b.meant

instance (a b : Word) : Decidable (a.Alike b) := inferInstanceAs (Decidable (a.meant = b.meant))

def Attribute.Alike (a b : Attribute) : Prop := a.name.Alike b.name ∧ a.value.Alike b.value

def AttrList.Alike (l m : AttrList) : Prop :=
  List.Forall₂ Attribute.Alike l.attributes m.attributes

mutual

/-- Two statements are of one form, and their parts are alike. -/
inductive Statement.Alike : Statement → Statement → Prop
  | assign {a b : Attribute} : a.Alike b → Statement.Alike (.assign a) (.assign b)
  | attrs {t : Target} {ls ms : List AttrList} :
      List.Forall₂ AttrList.Alike ls ms → Statement.Alike (.attrs t ls) (.attrs t ms)
  | node {i j : Word} {ls ms : List AttrList} :
      i.Alike j → List.Forall₂ AttrList.Alike ls ms → Statement.Alike (.node i ls) (.node j ms)
  | edge {s t : Endpoint} {hs is : List Hop} {ls ms : List AttrList} :
      Endpoint.Alike s t → HopsAlike hs is → List.Forall₂ AttrList.Alike ls ms →
      Statement.Alike (.edge s hs ls) (.edge t is ms)
  | subgraph {n m : Option Word} {b c : List Statement} :
      BodiesAlike b c → Statement.Alike (.subgraph n b) (.subgraph m c)

inductive Endpoint.Alike : Endpoint → Endpoint → Prop
  | node {i j : Word} : i.Alike j → Endpoint.Alike (.node i) (.node j)
  | subgraph {n m : Option Word} {b c : List Statement} :
      BodiesAlike b c → Endpoint.Alike (.subgraph n b) (.subgraph m c)

/-- Two chains have the same operators and lead to ends that are alike. -/
inductive HopsAlike : List Hop → List Hop → Prop
  | nil : HopsAlike [] []
  | cons {op : EdgeOp} {e f : Endpoint} {hs is : List Hop} :
      Endpoint.Alike e f → HopsAlike hs is → HopsAlike (.via op e :: hs) (.via op f :: is)

inductive BodiesAlike : List Statement → List Statement → Prop
  | nil : BodiesAlike [] []
  | cons {s t : Statement} {b c : List Statement} :
      Statement.Alike s t → BodiesAlike b c → BodiesAlike (s :: b) (t :: c)

end

/-- Two declarations are of one kind, both have a name or none, and their parts are alike. -/
structure Declaration.Alike (d e : Declaration) : Prop where
  kind : d.kind = e.kind
  name : Option.Rel Word.Alike d.name e.name
  body : BodiesAlike d.body e.body

/-! ## Alike bodies have the same course -/

theorem map_eq_of_forall₂ {α β γ : Type} {R : α → β → Prop} {f : α → γ} {g : β → γ}
    (hR : ∀ a b, R a b → f a = g b) {l : List α} {m : List β} (h : List.Forall₂ R l m) :
    l.map f = m.map g := by
  induction h with
  | nil => rfl
  | cons hab _ ih => rw [List.map_cons, List.map_cons, hR _ _ hab, ih]

theorem Word.Alike.meant_eq {a b : Word} (h : a.Alike b) : a.meant = b.meant := h

theorem Attribute.pair_eq_of_alike {a b : Attribute} (h : a.Alike b) : a.pair = b.pair := by
  unfold pair
  rw [h.1.meant_eq, h.2.meant_eq]

theorem pairsOf_eq_of_alike {ls ms : List AttrList} (h : List.Forall₂ AttrList.Alike ls ms) :
    pairsOf ls = pairsOf ms := by
  have hlist : ∀ l m : AttrList, l.Alike m →
      l.attributes.map Attribute.pair = m.attributes.map Attribute.pair :=
    fun l m hlm => map_eq_of_forall₂ (fun a b hab => Attribute.pair_eq_of_alike hab) hlm
  unfold pairsOf
  rw [List.flatMap_def, List.flatMap_def, map_eq_of_forall₂ hlist h]

theorem members_eq_of_course_eq {e f : Endpoint} (h : e.course = f.course) :
    e.members = f.members := by
  rw [e.members_eq, h, ← f.members_eq]

mutual

theorem course_eq_of_alike : ∀ {s t : Statement}, s.Alike t → s.course = t.course
  | _, _, .assign h => by
    rw [Statement.course, Statement.course, Attribute.pair_eq_of_alike h]
  | .attrs t _, _, .attrs h => by
    have hpairs := pairsOf_eq_of_alike h
    cases t <;> rw [Statement.course, Statement.course, hpairs]
  | _, _, .node hid h => by
    rw [Statement.course, Statement.course, pairsOf_eq_of_alike h, hid.meant_eq]
  | _, _, .edge hsource hhops h => by
    have hcourse := endpoint_course_eq_of_alike hsource
    rw [Statement.course, Statement.course, hcourse, pairsOf_eq_of_alike h,
      members_eq_of_course_eq hcourse, hopCourse_eq_of_alike _ _ hhops]
  | _, _, .subgraph h => bodyCourse_eq_of_alike h

theorem endpoint_course_eq_of_alike : ∀ {e f : Endpoint}, e.Alike f → e.course = f.course
  | _, _, .node h => by
    rw [Endpoint.course, Endpoint.course, h.meant_eq]
  | _, _, .subgraph h => bodyCourse_eq_of_alike h

theorem hopCourse_eq_of_alike (ps : List (String × String)) (sources : List String) :
    ∀ {hs is : List Hop}, HopsAlike hs is → hopCourse ps sources hs = hopCourse ps sources is
  | _, _, .nil => rfl
  | _, _, .cons htarget h => by
    have hcourse := endpoint_course_eq_of_alike htarget
    rw [hopCourse, hopCourse, hcourse, members_eq_of_course_eq hcourse,
      hopCourse_eq_of_alike ps _ h]

theorem bodyCourse_eq_of_alike :
    ∀ {b c : List Statement}, BodiesAlike b c → bodyCourse b = bodyCourse c
  | _, _, .nil => rfl
  | _, _, .cons hs h => by
    rw [bodyCourse, bodyCourse, course_eq_of_alike hs, bodyCourse_eq_of_alike h]

end

theorem Declaration.graphName_eq_of_alike {d e : Declaration} (h : d.Alike e) :
    d.graphName = e.graphName := by
  have hname := h.name
  unfold graphName
  revert hname
  generalize d.name = n, e.name = m
  rintro (hname | -)
  · exact congrArg some hname
  · rfl

theorem Declaration.account_eq_of_alike {d e : Declaration} (h : d.Alike e) (ls : Layouts) :
    d.account ls = e.account ls := by
  unfold account
  rw [bodyCourse_eq_of_alike h.body, h.kind, graphName_eq_of_alike h]

/-! ## Words written anew -/

/-- The quoted form of what a word means. -/
def Word.requote (w : Word) : Word := .ofMeant w.meant

def Attribute.requote (a : Attribute) : Attribute := ⟨a.name.requote, a.value.requote⟩

def AttrList.requote (l : AttrList) : AttrList := ⟨l.attributes.map Attribute.requote⟩

mutual

/-- A statement with all words written anew. -/
def Statement.requote : Statement → Statement
  | .assign a => .assign a.requote
  | .attrs t ls => .attrs t (ls.map AttrList.requote)
  | .node i ls => .node i.requote (ls.map AttrList.requote)
  | .edge s hs ls => .edge s.requote (requoteHops hs) (ls.map AttrList.requote)
  | .subgraph n b => .subgraph (n.map Word.requote) (requoteBody b)

def Endpoint.requote : Endpoint → Endpoint
  | .node i => .node i.requote
  | .subgraph n b => .subgraph (n.map Word.requote) (requoteBody b)

def requoteHops : List Hop → List Hop
  | [] => []
  | .via op e :: rest => .via op e.requote :: requoteHops rest

def requoteBody : List Statement → List Statement
  | [] => []
  | s :: rest => s.requote :: requoteBody rest

end

def Declaration.requote (d : Declaration) : Declaration :=
  ⟨d.kind, d.name.map Word.requote, requoteBody d.body⟩

theorem Word.alike_requote (w : Word) : w.Alike w.requote := (meant_ofMeant w.meant).symm

theorem lists_alike_requote (ls : List AttrList) :
    List.Forall₂ AttrList.Alike ls (ls.map AttrList.requote) := by
  rw [List.forall₂_map_right_iff, List.forall₂_same]
  intro l _
  unfold AttrList.Alike AttrList.requote
  rw [List.forall₂_map_right_iff, List.forall₂_same]
  exact fun a _ => ⟨a.name.alike_requote, a.value.alike_requote⟩

mutual

theorem Statement.alike_requote : ∀ s : Statement, s.Alike s.requote
  | .assign a => .assign ⟨a.name.alike_requote, a.value.alike_requote⟩
  | .attrs _ ls => .attrs (lists_alike_requote ls)
  | .node i ls => .node i.alike_requote (lists_alike_requote ls)
  | .edge s hs ls => .edge s.alike_requote (hops_alike_requote hs) (lists_alike_requote ls)
  | .subgraph _ b => .subgraph (body_alike_requote b)

theorem Endpoint.alike_requote : ∀ e : Endpoint, e.Alike e.requote
  | .node i => .node i.alike_requote
  | .subgraph _ b => .subgraph (body_alike_requote b)

theorem hops_alike_requote : ∀ hs : List Hop, HopsAlike hs (requoteHops hs)
  | [] => .nil
  | .via _ e :: rest => .cons e.alike_requote (hops_alike_requote rest)

theorem body_alike_requote : ∀ b : List Statement, BodiesAlike b (requoteBody b)
  | [] => .nil
  | s :: rest => .cons s.alike_requote (body_alike_requote rest)

end

theorem Declaration.alike_requote (d : Declaration) : d.Alike d.requote := by
  refine ⟨rfl, ?_, body_alike_requote d.body⟩
  show Option.Rel Word.Alike d.name (d.name.map Word.requote)
  cases d.name with
  | none => exact .none
  | some n => exact .some n.alike_requote

/-! ## Words that stand for the same text -/

theorem Word.alike_of_same {a b : Word} (h : a.same b = true) : a.Alike b := by
  have htext : a.toText = b.toText := by simpa [same] using h
  unfold Alike meant
  rw [htext]

theorem forall₂_of_allSame {α : Type} {same : α → α → Bool} {R : α → α → Prop}
    (hR : ∀ a b, same a b = true → R a b) :
    ∀ {l m : List α}, allSame same l m = true → List.Forall₂ R l m
  | [], [], _ => .nil
  | a :: l, b :: m, h => by
    rw [allSame, Bool.and_eq_true] at h
    exact .cons (hR a b h.1) (forall₂_of_allSame hR h.2)
  | [], _ :: _, h => by cases h
  | _ :: _, [], h => by cases h

theorem Attribute.alike_of_same {a b : Attribute} (h : a.same b = true) : a.Alike b := by
  rw [same, Bool.and_eq_true] at h
  exact ⟨Word.alike_of_same h.1, Word.alike_of_same h.2⟩

theorem lists_alike_of_same {ls ms : List AttrList} (h : allSame AttrList.same ls ms = true) :
    List.Forall₂ AttrList.Alike ls ms :=
  forall₂_of_allSame (fun _ _ hlm => forall₂_of_allSame (fun _ _ => Attribute.alike_of_same) hlm) h

mutual

theorem Statement.alike_of_same : ∀ (s t : Statement), s.same t = true → s.Alike t
  | .assign a, t, h => by
    cases t with
    | assign b =>
      rw [Statement.same] at h
      exact .assign (Attribute.alike_of_same h)
    | _ => simp [Statement.same] at h
  | .attrs u ls, t, h => by
    cases t with
    | attrs v ms =>
      rw [Statement.same, Bool.and_eq_true, beq_iff_eq] at h
      obtain ⟨rfl, hlists⟩ := h
      exact .attrs (lists_alike_of_same hlists)
    | _ => simp [Statement.same] at h
  | .node i ls, t, h => by
    cases t with
    | node j ms =>
      rw [Statement.same, Bool.and_eq_true] at h
      exact .node (Word.alike_of_same h.1) (lists_alike_of_same h.2)
    | _ => simp [Statement.same] at h
  | .edge s hs ls, t, h => by
    cases t with
    | edge u is ms =>
      rw [Statement.same, Bool.and_eq_true, Bool.and_eq_true] at h
      exact .edge (Endpoint.alike_of_same s u h.1.1) (hops_alike_of_same hs is h.1.2)
        (lists_alike_of_same h.2)
    | _ => simp [Statement.same] at h
  | .subgraph n b, t, h => by
    cases t with
    | subgraph m c =>
      rw [Statement.same, Bool.and_eq_true] at h
      exact .subgraph (body_alike_of_same b c h.2)
    | _ => simp [Statement.same] at h

theorem Endpoint.alike_of_same : ∀ (e f : Endpoint), e.same f = true → e.Alike f
  | .node i, f, h => by
    cases f with
    | node j =>
      rw [Endpoint.same] at h
      exact .node (Word.alike_of_same h)
    | subgraph _ _ => simp [Endpoint.same] at h
  | .subgraph n b, f, h => by
    cases f with
    | subgraph m c =>
      rw [Endpoint.same, Bool.and_eq_true] at h
      exact .subgraph (body_alike_of_same b c h.2)
    | node _ => simp [Endpoint.same] at h

theorem hops_alike_of_same : ∀ (hs is : List Hop), sameHops hs is = true → HopsAlike hs is
  | [], is, h => by
    cases is with
    | nil => exact .nil
    | cons _ _ => simp [sameHops] at h
  | .via o e :: hs, is, h => by
    cases is with
    | nil => simp [sameHops] at h
    | cons hop is =>
      obtain ⟨p, f⟩ := hop
      rw [sameHops, Hop.same, Bool.and_eq_true, Bool.and_eq_true, beq_iff_eq] at h
      obtain ⟨⟨rfl, hend⟩, hrest⟩ := h
      exact .cons (Endpoint.alike_of_same e f hend) (hops_alike_of_same hs is hrest)

theorem body_alike_of_same : ∀ (b c : List Statement), sameBody b c = true → BodiesAlike b c
  | [], c, h => by
    cases c with
    | nil => exact .nil
    | cons _ _ => simp [sameBody] at h
  | s :: b, c, h => by
    cases c with
    | nil => simp [sameBody] at h
    | cons t c =>
      rw [sameBody, Bool.and_eq_true] at h
      exact .cons (Statement.alike_of_same s t h.1) (body_alike_of_same b c h.2)

end

theorem Declaration.alike_of_same {d e : Declaration} (h : d.same e = true) : d.Alike e := by
  rw [same, Bool.and_eq_true, Bool.and_eq_true, beq_iff_eq] at h
  refine ⟨h.1.1, ?_, body_alike_of_same _ _ h.2⟩
  have hname := h.1.2
  revert hname
  cases d.name <;> cases e.name <;> intro hname
  · exact .none
  · cases hname
  · cases hname
  · exact .some (Word.alike_of_same hname)

/-! ## Batches -/

/-- The value of an entry that is a declaration or a gap. -/
def Value.ofEntry : Option Declaration → Value
  | none => .null
  | some d => .declaration d

/-- An event with the name of a declaration written anew. -/
def Event.requote : Event → Event
  | began kind name index => began kind (name.map Word.requote) index
  | e => e

def LogEntry.requote (l : LogEntry) : LogEntry := ⟨l.level, l.event.requote⟩

/-- The same graphs or the same failure, and the same records up to the spelling of the names of
declarations. -/
def SameReading (r s : List LogEntry × Except BatchFailure (List Graph)) : Prop :=
  r.2 = s.2 ∧ r.1.map LogEntry.requote = s.1.map LogEntry.requote

theorem Declaration.requote_heading {d e : Declaration} (h : d.Alike e) (index : Nat) :
    (d.heading index).map LogEntry.requote = (e.heading index).map LogEntry.requote := by
  have hrequote : ∀ c : Declaration, (c.heading index).map LogEntry.requote =
      [⟨.debug, .began c.kind (c.graphName.map Word.ofMeant) index⟩] := by
    intro c
    unfold graphName
    rw [Option.map_map]
    rfl
  rw [hrequote, hrequote, h.kind, graphName_eq_of_alike h]

/-- Entries that are alike are read alike, wherever they stand. -/
theorem readFrom_of_alike {b c : List (Option Declaration)}
    (h : List.Forall₂ (Option.Rel Declaration.Alike) b c) (ls : Layouts) (index : Nat) :
    SameReading (readFrom ls index (b.map .ofEntry)) (readFrom ls index (c.map .ofEntry)) := by
  induction h generalizing index with
  | nil => exact ⟨rfl, rfl⟩
  | cons hentry _ ih =>
    obtain ⟨hgraphs, hlog⟩ := ih (index + 1)
    cases hentry with
    | none => exact ⟨hgraphs, congrArg (_ :: ·) hlog⟩
    | some hde =>
      rename_i d e
      have hheading := Declaration.requote_heading hde index
      unfold SameReading
      simp only [List.map_cons, Value.ofEntry, readFrom, Declaration.read_eq_account,
        Declaration.account_eq_of_alike hde]
      -- a failure ends the records here, a graph lets them go on with those of the other entries
      cases (e.account ls).2 with
      | error f => exact ⟨rfl, by simp only [List.map_append, hheading]⟩
      | ok g => exact ⟨by rw [hgraphs], by simp only [List.map_append, hheading, hlog]⟩

/-- Batches that are the same, as lists of values, are alike. -/
theorem alike_of_sameItems : ∀ {b c : List (Option Declaration)},
    Value.sameItems (b.map .ofEntry) (c.map .ofEntry) = true →
      List.Forall₂ (Option.Rel Declaration.Alike) b c
  | [], [], _ => .nil
  | v :: b, w :: c, h => by
    rw [List.map_cons, List.map_cons, Value.sameItems, Bool.and_eq_true] at h
    refine .cons ?_ (alike_of_sameItems h.2)
    have hentry := h.1
    cases v with
    | none =>
      cases w with
      | none => exact .none
      | some e => cases hentry
    | some d =>
      cases w with
      | none => cases hentry
      | some e =>
        -- neither is a number, and so it is not as such that they agree inside a list
        have hde : d.same e = true := by
          simpa [Value.ofEntry, Value.same, Value.bothNotANumber] using hentry
        exact .some (Declaration.alike_of_same hde)
  | [], _ :: _, h => by cases h
  | _ :: _, [], h => by cases h

theorem alike_requote_entries (b : List (Option Declaration)) :
    List.Forall₂ (Option.Rel Declaration.Alike) b (b.map (Option.map Declaration.requote)) := by
  rw [List.forall₂_map_right_iff, List.forall₂_same]
  intro entry _
  cases entry with
  | none => exact .none
  | some d => exact .some d.alike_requote

/-! ## Main theorem -/

/-- Texts in quotes that hold quotes themselves, with a source that is spelled in one way or
another:

    digraph "\"g\"" { "layout"=DOT; source -> subgraph s { "\"a\"" } [label="x"] } -/
def quotedTwice (source : Word) : Declaration where
  kind := .digraph
  name := some (.text "\"\\\"g\\\"\"")
  body := [
    .assign ⟨.text "\"layout\"", .text "DOT"⟩,
    .edge (.node source)
      [.via .directed (.subgraph (some (.text "s")) [.node (.text "\"\\\"a\\\"\"") []])]
      [⟨[⟨.text "label", .text "\"x\""⟩]⟩]]

/-- The outer quotes stand where there were none, and the other way round:

    digraph \"g\" { layout="DOT"; "graph" -> { \"a\" } ["label"=x] } -/
def quotedOtherwise : Declaration where
  kind := .digraph
  name := some (.text "\\\"g\\\"")
  body := [
    .assign ⟨.text "layout", .text "\"DOT\""⟩,
    .edge (.node (.text "\"graph\""))
      [.via .directed (.subgraph none [.node (.text "\\\"a\\\"") []])]
      [⟨[⟨.text "\"label\"", .text "x"⟩]⟩]]

/-- Batches of declarations and gaps that are alike are read in the same way.  So a batch can have
all its words written anew, and batches that are the same are read in the same way. -/
theorem reading_of_alike (ls : Layouts) (b c : List (Option Declaration)) :
    (List.Forall₂ (Option.Rel Declaration.Alike) b c →
        SameReading (readBatch ls (b.map .ofEntry)) (readBatch ls (c.map .ofEntry))) ∧
      SameReading (readBatch ls (b.map .ofEntry))
        (readBatch ls ((b.map (Option.map Declaration.requote)).map .ofEntry)) ∧
      (Value.sameItems (b.map .ofEntry) (c.map .ofEntry) = true →
        SameReading (readBatch ls (b.map .ofEntry)) (readBatch ls (c.map .ofEntry))) :=
  ⟨fun h => readFrom_of_alike h ls 0, readFrom_of_alike (alike_requote_entries b) ls 0,
    fun h => readFrom_of_alike (alike_of_sameItems h) ls 0⟩

/-- The node inside the quotes keeps the quotes that belong to its name, and a keyword can stand for
the source. -/
theorem reading_quotedTwice :
    (readBatch .standard [.declaration quotedOtherwise, .null]).2 =
        .ok [(quotedTwice (.text "graph")).intended] ∧
      (readBatch .standard [.declaration (quotedTwice (.keyword (.target .graph))), .null]).2 =
        .ok [(quotedTwice (.text "graph")).intended] ∧
      (quotedTwice (.text "graph")).intended.nodes.map Node.name = ["graph", "\"a\""] := by
  have hread : (readBatch .standard [.declaration (quotedTwice (.text "graph")), .null]).2 =
      .ok [(quotedTwice (.text "graph")).intended] :=
    readFrom_append (readBatch_intended (by decide +kernel)) [.null]
  have halike : Declaration.Alike (quotedTwice (.text "graph")) quotedOtherwise :=
    ⟨rfl, .some (by decide +kernel),
      .cons (.assign ⟨by decide +kernel, by decide +kernel⟩)
        (.cons (.edge (.node (by decide +kernel))
          (.cons (.subgraph (.cons (.node (by decide +kernel) .nil) .nil)) .nil)
          (.cons (.cons ⟨by decide +kernel, by decide +kernel⟩ .nil) .nil)) .nil)⟩
  have hsame : Value.sameItems
      ([some (quotedTwice (.text "graph")), none].map .ofEntry)
      ([some (quotedTwice (.keyword (.target .graph))), none].map .ofEntry) = true := by
    decide +kernel
  obtain ⟨hotherwise, -, -⟩ := reading_of_alike .standard
    [some (quotedTwice (.text "graph")), none] [some quotedOtherwise, none]
  obtain ⟨-, -, hkeyword⟩ := reading_of_alike .standard
    [some (quotedTwice (.text "graph")), none]
    [some (quotedTwice (.keyword (.target .graph))), none]
  refine ⟨?_, ?_, by decide +kernel⟩
  · exact (hotherwise (.cons (.some halike) (.cons .none .nil))).1.symm.trans hread
  · exact (hkeyword hsame).1.symm.trans hread

end DotSemantics
