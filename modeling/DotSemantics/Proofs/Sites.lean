import DotSemantics.Proofs.Reading

/-!
# Sites in a body

A site is a place in one of the lists of statements of a body, at any depth: in the body itself, or
in that of a subgraph which stands as a statement, as the source of a chain or as the target of a
hop (`Enclosure`).  Of what stands at a site, only the walk over it matters:

    visitAll ls b = visitAll ls c → visitAll ls (site.fill b) = visitAll ls (site.fill c)
                                                                  (Site.visitAll_fill)

and bodies that are walked over in the same way cannot be told apart by reading
(`interchangeable_of_visitAll_eq`).  So a subgraph that groups statements can be replaced by them at
any site, and named at will (`interchangeable_subgraph`).
-/

namespace DotSemantics

/-! ## Sites -/

/-- A statement around the body of a subgraph, which is left open. -/
inductive Enclosure where
  /-- the subgraph is the statement -/
  | statement (name : Option Word)
  /-- the subgraph is the source of a chain -/
  | source (name : Option Word) (hops : List Hop) (lists : List AttrList)
  /-- the subgraph is the target of a hop, between the other hops of a chain -/
  | target (source : Endpoint) (before : List Hop) (op : EdgeOp) (name : Option Word)
      (after : List Hop) (lists : List AttrList)

def Enclosure.close : Enclosure → List Statement → Statement
  | statement name, body => .subgraph name body
  | source name hops lists, body => .edge (.subgraph name body) hops lists
  | target s before op name after lists, body =>
    .edge s (before ++ .via op (.subgraph name body) :: after) lists

def Enclosure.rename (name : Option Word) : Enclosure → Enclosure
  | statement _ => statement name
  | source _ hops lists => source name hops lists
  | target s before op _ after lists => target s before op name after lists

/-- A place for statements in a body. -/
inductive Site where
  /-- between some statements -/
  | here (before after : List Statement)
  /-- inside a subgraph that stands between some statements -/
  | inside (before : List Statement) (around : Enclosure) (inner : Site) (after : List Statement)

/-- The body with some statements at a site. -/
def Site.fill : Site → List Statement → List Statement
  | here before after, b => before ++ b ++ after
  | inside before around inner after, b => before ++ around.close (inner.fill b) :: after

/-! ## Walks -/

/-- The hops of a chain are followed in the same way if one of them leads to an end that is resolved
in the same way. -/
theorem follow_congr {ls : Layouts} {e f : Endpoint} (h : resolve ls e = resolve ls f)
    (values : Table String) (op : EdgeOp) (after before : List Hop) (sources : List Nat) :
    follow ls values sources (before ++ .via op e :: after) =
      follow ls values sources (before ++ .via op f :: after) := by
  induction before generalizing sources with
  | nil => simp only [List.nil_append, follow, h]
  | cons hop before ih =>
    obtain ⟨op', target⟩ := hop
    simp only [List.cons_append, follow, ih]

theorem Enclosure.visit_close {ls : Layouts} {b c : List Statement}
    (h : visitAll ls b = visitAll ls c) (around : Enclosure) :
    visit ls (around.close b) = visit ls (around.close c) := by
  have hresolve : ∀ name, resolve ls (.subgraph name b) = resolve ls (.subgraph name c) := by
    intro name
    rw [resolve, resolve, h]
  cases around with
  | statement name => simp only [close, visit, h]
  | source name hops lists => simp only [close, visit, hresolve]
  | target s before op name after lists => simp only [close, visit, follow_congr (hresolve name)]

theorem Enclosure.visit_rename (ls : Layouts) (name : Option Word) (around : Enclosure)
    (b : List Statement) : visit ls ((around.rename name).close b) = visit ls (around.close b) := by
  have hresolve : ∀ other, resolve ls (.subgraph name b) = resolve ls (.subgraph other b) := by
    intro other
    rw [resolve, resolve]
  cases around with
  | statement other => simp only [rename, close, visit]
  | source other hops lists => simp only [rename, close, visit, hresolve other]
  | target s before op other after lists =>
    simp only [rename, close, visit, follow_congr (hresolve other)]

theorem Site.visitAll_fill {ls : Layouts} {b c : List Statement}
    (h : visitAll ls b = visitAll ls c) (site : Site) :
    visitAll ls (site.fill b) = visitAll ls (site.fill c) := by
  induction site with
  | here before after => simp only [fill, visitAll_append, h]
  | inside before around inner after ih =>
    simp only [fill, visitAll_append, visitAll, around.visit_close ih]

/-! ## Batches -/

/-- Two bodies are interchangeable if a batch in which a declaration has the one gives the same
records, and the same graphs or the same failure, as the batch in which it has the other. -/
def Interchangeable (b c : List Statement) : Prop :=
  ∀ (ls : Layouts) (kind : GraphKind) (name : Option Word) (before after : List Value),
    readBatch ls (before ++ .declaration ⟨kind, name, b⟩ :: after) =
      readBatch ls (before ++ .declaration ⟨kind, name, c⟩ :: after)

theorem readFrom_congr {ls : Layouts} {d e : Declaration}
    (h : ∀ index, d.read ls index = e.read ls index) (before after : List Value) (index : Nat) :
    readFrom ls index (before ++ .declaration d :: after) =
      readFrom ls index (before ++ .declaration e :: after) := by
  induction before generalizing index with
  | nil => simp only [List.nil_append, readFrom, h]
  | cons v before ih =>
    cases v with
    | null => simp only [List.cons_append, readFrom, ih]
    | declaration d' => simp only [List.cons_append, readFrom, ih]
    | _ => rfl

theorem interchangeable_of_visitAll_eq {b c : List Statement}
    (h : ∀ ls, visitAll ls b = visitAll ls c) : Interchangeable b c := by
  intro ls kind name before after
  apply readFrom_congr
  intro index
  unfold Declaration.read Declaration.walk
  simp only [h]
  rfl

/-! ## Main theorem -/

/-- A subgraph that stands as a statement has the course of its body.  The frame that is opened for
it is closed again, and nodes go into all other open frames as they would without it. -/
theorem visitAll_subgraph (ls : Layouts) (name : Option Word) (body : List Statement) :
    visitAll ls [.subgraph name body] = visitAll ls body := by
  have hcourse : bodyCourse [.subgraph name body] = bodyCourse body := by
    show bodyCourse body ++ [] = bodyCourse body
    rw [List.append_nil]
  rw [visitAll_eq_play, visitAll_eq_play, hcourse]

/-- At every site, a subgraph that stands as a statement can be replaced by the statements of its
body, and a subgraph of any kind can get another name. -/
theorem interchangeable_subgraph (site : Site) (name : Option Word) (body : List Statement) :
    Interchangeable (site.fill [.subgraph name body]) (site.fill body) ∧
      ∀ (around : Enclosure) (other : Option Word),
        Interchangeable (site.fill [around.close body])
          (site.fill [(around.rename other).close body]) := by
  constructor
  · apply interchangeable_of_visitAll_eq
    intro ls
    exact site.visitAll_fill (visitAll_subgraph ls name body)
  · intro around other
    apply interchangeable_of_visitAll_eq
    intro ls
    apply site.visitAll_fill
    simp only [visitAll, around.visit_rename]

end DotSemantics
